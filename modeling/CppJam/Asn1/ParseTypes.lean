import CppJam.Asn1.CTypes
import CppJam.Asn1.Schema

/-!
# From schemas to declarations

`parse_types` of `asn1.py`: a C++ type for every member, a declaration for every type, in an order
of the dependencies that a library computes.
-/

namespace CppJam.Asn1

open Checks

namespace Module

/-- A key of `types` in `parse_types`: a name of the module or of its imports. -/
def knows (m : Module) (name : String) : Bool := m.names.contains name || m.imports.contains name

end Module

section Members

variable (m : Module)

/-- `asn_sequence_of`, by the type of the elements and the size. -/
def asnSequenceOf (element : Option String) (size : Option Size) : Except GenError CType :=
  match element with
  | none => .error .assertion
  | some name =>
    if !m.knows name then .error .assertion
    else if name = "U8" then
      match size with
      | some (.exactly (.number n)) => .ok (.byteArr n)
      | some (.exactly (.constant field)) => .ok (.configBytes (cDash field))
      | some (.between _ _) | none => .ok .byteVec
    else
      match size with
      | some (.exactly (.constant field)) => .ok (.configVec name (cDash field))
      | some (.exactly (.number n)) => .ok (.array name n)
      | some (.between _ _) | none => .ok (.vector name)

/-- The text after `struct` in a tag. -/
def Tag.text : Tag → String
  | number n => "_" ++ toString n
  | str name => cDash name

/-- The end of `asn_member`: an optional member loses its tag. -/
def asnMark (optional : Bool) (tag : Option Tag) (r : CType) : CType :=
  if optional then .optional r
  else
    match tag with
    | some tag => .tagged r tag.text
    | none => r

/-- `asn_member`. An octet string is replaced by a dictionary without the mark and the tag, and
numbers and booleans return before them. -/
def asnMember (t : Descriptor) : Except GenError CType :=
  match t.shape with
  | .integer none => .error .keyError
  | .integer (some (minValue, maxValue)) =>
    match cFittestIntType minValue maxValue with
    | some int => .ok (.int int)
    | none => .error .typeError
  | .boolean => .ok .bool
  | .octetString size => asnSequenceOf m (some "U8") size
  | .null => .ok (asnMark t.optional t.tag .empty)
  | .sequenceOf element size => do
    let r ← asnSequenceOf m element.shape.typeName size
    return asnMark t.optional t.tag r
  | .named name =>
    if m.knows name then .ok (asnMark t.optional t.tag (.named name)) else .error .typeError
  | .choice _ | .enumerated _ | .sequence _ => .error .typeError

/-- The members of a choice that is written as `std::optional`. The numbers of the tags are read
only when the names fit. -/
def isOptionalChoice (members : List Descriptor) : Except GenError Bool :=
  if members.map Descriptor.name = ["none", "some"] then do
    let numbers ← members.mapM fun x =>
      match x.tag with
      | some (.number n) => Except.ok n
      | some (.str _) | none => Except.error GenError.keyError
    return numbers = [0, 1]
  else .ok false

/-- The body of the loop in `parse_types`: how a type is declared. -/
def declare (t : Descriptor) : Except GenError Body :=
  match t.shape with
  | .choice members => do
    if ← isOptionalChoice members then
      match members with
      | [_, x] => return .typedef (.optional (← asnMember m x))
      | _ => throw .keyError
    else
      return .variant (← members.mapM fun x => (·, cDash x.name) <$> asnMember m x)
  | .enumerated values =>
    let numbers := values.map Prod.snd
    match cFittestIntType (numbers.min?.getD 0) (numbers.max?.getD 0) with
    | some base => .ok (.enum base values)
    | none => .error .typeError
  | .sequence members => do
    return .struct (← members.mapM fun x => (cDash x.name, ·) <$> asnMember m x)
  | .null => .ok (.typedef .empty)
  | .integer _ | .boolean | .octetString _ | .sequenceOf _ _ | .named _ => do
    return .typedef (← asnMember m t)

end Members

/-- `ty.diff`: the function that prints the differences of two values. -/
def diffLines (cppNamespace name : String) (t : Descriptor) (body : Body) : List String :=
  let head := "DIFF_F(" ++ cppNamespace ++ "::" ++ name ++ ") \x7b"
  match t.shape, body with
  | .choice members, .variant _ =>
    [head, "  static constexpr std::string_view tags[] = \x7b"] ++
      Body.listed (fun x => "    \"" ++ x.name ++ "\",") (fun x => "    \"" ++ x.name ++ "\"")
        members ++
      ["  \x7d;", "  diff_v(indent, v1, v2, std::span(tags));", "\x7d"]
  | _, .enum base values =>
    [head, "  static const std::unordered_map<" ++ base.cName ++
      ", std::string_view> names = \x7b"] ++
      Body.listed (fun x => "    \x7b" ++ toString x.2 ++ ", \"" ++ x.1 ++ "\"\x7d,")
        (fun x => "    \x7b" ++ toString x.2 ++ ", \"" ++ x.1 ++ "\"\x7d") values ++
      ["  \x7d;", "  diff_e(indent, v1, v2, names);", "\x7d"]
  | _, .struct members =>
    [head] ++ indent (members.map fun x => "DIFF_M(" ++ x.1 ++ ");") ++ ["\x7d"]
  | _, _ => []

/-- The declaration of a type. -/
def declareType (m : Module) (cppNamespace : String) (k : String × Descriptor) :
    Except GenError CDecl := do
  let body ← declare m k.2
  return ⟨k.1, body, body.decl k.1, diffLines cppNamespace k.1 k.2 body⟩

/-- `types[k]`. -/
def findType (decls : List CDecl) (k : String) : Except GenError CDecl :=
  match decls.find? fun d => d.name = k with
  | some d => .ok d
  | none => .error .keyError

/-- `parse_types`. `topological_sort` is a function of a library. -/
def parseTypes (topologicalSort : List (String × List String) → List String)
    (cppNamespace : String) (m : Module) (limit : ℕ) : Except GenError (List CDecl) := do
  let deps ← m.asnDeps limit
  let decls ← m.types.mapM (declareType m cppNamespace)
  (topologicalSort deps).mapM (findType decls)

end CppJam.Asn1

import CppJam.Asn1.IntegerTypes

/-!
# Generated declarations

The C++ types and declarations that `asn1.py` writes, as syntax trees and as the lines of text
that it puts into the headers.
-/

namespace CppJam.Asn1

/-- `c_dash`. -/
def cDash (s : String) : String :=
  String.ofList (s.toList.map fun ch => if ch = '-' then '_' else ch)

/-- `indent`. -/
def indent (lines : List String) : List String := lines.map fun x => "  " ++ x

/-- The name of an integer type. -/
def IntType.cName : IntType → String
  | uint8 => "uint8_t"
  | uint16 => "uint16_t"
  | uint32 => "uint32_t"
  | uint64 => "uint64_t"
  | int8 => "int8_t"
  | int16 => "int16_t"
  | int32 => "int32_t"
  | int64 => "int64_t"

/-- The types that `asn_member` and `asn_sequence_of` write. -/
inductive CType where
  | int (t : IntType)
  | bool
  /-- `qtils::Empty`. -/
  | empty
  /-- `qtils::ByteArr`. -/
  | byteArr (n : ℕ)
  /-- `qtils::ByteVec`. -/
  | byteVec
  /-- `::jam::ConfigVec` of bytes. -/
  | configBytes (field : String)
  /-- `::jam::ConfigVec`. -/
  | configVec (element field : String)
  /-- `std::array`. -/
  | array (element : String) (n : ℕ)
  /-- `std::vector`. -/
  | vector (element : String)
  | named (name : String)
  /-- `std::optional`. -/
  | optional (t : CType)
  /-- `qtils::Tagged`. -/
  | tagged (t : CType) (tag : String)
  deriving DecidableEq

namespace CType

/-- The text of a type. -/
def text : CType → String
  | int t => t.cName
  | bool => "bool"
  | empty => "qtils::Empty"
  | byteArr n => "qtils::ByteArr<" ++ toString n ++ ">"
  | byteVec => "qtils::ByteVec"
  | configBytes field => "::jam::ConfigVec<uint8_t, Config::Field::" ++ field ++ ">"
  | configVec element field =>
    "::jam::ConfigVec<" ++ element ++ ", Config::Field::" ++ field ++ ">"
  | array element n => "std::array<" ++ element ++ ", " ++ toString n ++ ">"
  | vector element => "std::vector<" ++ element ++ ">"
  | named name => name
  | optional t => "std::optional<" ++ t.text ++ ">"
  | tagged t tag => "qtils::Tagged<" ++ t.text ++ ", struct " ++ tag ++ ">"

/-- The names of schema types in a type. -/
def uses : CType → List String
  | int _ | bool | empty | byteArr _ | byteVec | configBytes _ => []
  | configVec element _ => [element]
  | array element _ => [element]
  | vector element => [element]
  | named name => [name]
  | optional t => t.uses
  | tagged t _ => t.uses

end CType

/-- What a type is declared as. -/
inductive Body where
  /-- `using`. -/
  | typedef (t : CType)
  /-- `using` of a tagged `std::variant`, with the names of its members. -/
  | variant (members : List (CType × String))
  /-- `enum class`. -/
  | enum (base : IntType) (values : List (String × ℤ))
  /-- `struct`. -/
  | struct (members : List (String × CType))
  deriving DecidableEq

namespace Body

/-- The lines before the last end in another way than the last. -/
def listed {α : Type} (line last : α → String) (l : List α) : List String :=
  l.dropLast.map line ++ (l.drop (l.length - 1)).map last

/-- `ty.decl`, the lines of a declaration: `c_using`, `c_struct` and the others. -/
def decl (name : String) : Body → List String
  | typedef t => ["using " ++ name ++ " = " ++ t.text ++ ";"]
  | variant members =>
    ["using " ++ name ++ " = qtils::Tagged<std::variant<"] ++
      listed (fun x => "  " ++ x.1.text ++ ", // " ++ x.2)
        (fun x => "  " ++ x.1.text ++ " // " ++ x.2) members ++
      [">, struct " ++ name ++ "_Tag>;"]
  | enum base values =>
    ["enum class " ++ name ++ " : " ++ base.cName ++ " \x7b"] ++
      listed (fun x => "  " ++ cDash x.1 ++ " = " ++ toString x.2 ++ ",")
        (fun x => "  " ++ cDash x.1 ++ " = " ++ toString x.2) values ++ ["\x7d;"]
  | struct members =>
    ["struct " ++ name ++ " \x7b"] ++
      members.map (fun x => "  " ++ x.2.text ++ " " ++ x.1 ++ ";") ++
      ["  bool operator==(const " ++ name ++ " &) const = default;", "\x7d;"]

/-- The names of schema types in a declaration. -/
def uses : Body → List String
  | typedef t => t.uses
  | variant members => members.flatMap fun x => x.1.uses
  | enum _ _ => []
  | struct members => members.flatMap fun x => x.2.uses

end Body

/-- `Type`, with the lines that declare it and those of the function that prints differences. -/
structure CDecl where
  /-- `name`. -/
  name : String
  /-- What `decl` declares. -/
  body : Body
  /-- `decl`. -/
  decl : List String
  /-- `diff`. -/
  diff : List String
  deriving DecidableEq

end CppJam.Asn1

import CppJam.Asn1.DeclarationOrder

/-!
# Values of schemas and of generated types

What the types of a schema and the generated C++ types are for is to hold values. Both are given
a meaning over the same values: an optional member is absent or present, as a choice between two,
and bytes are small numbers.
-/

namespace CppJam.Asn1

open Checks

/-- A value. -/
inductive Value where
  | int (z : ℤ)
  | bool (b : Bool)
  | null
  | list (vs : List Value)
  | choice (index : ℕ) (v : Value)
  | enum (z : ℤ)
  | record (vs : List Value)

/-- A byte. -/
def Value.IsByte (v : Value) : Prop := ∃ z, v = .int z ∧ 0 ≤ z ∧ z ≤ 255

/-- A list of a length, with elements of a kind. -/
def Value.IsList (length : ℕ → Prop) (P : Value → Prop) (v : Value) : Prop :=
  ∃ vs, v = .list vs ∧ length vs.length ∧ ∀ w ∈ vs, P w

/-- No value. -/
def Value.absent : Value := .choice 0 .null

/-- Absent, or present with a value. -/
def Value.Maybe (P : Value → Prop) (v : Value) : Prop :=
  v = .absent ∨ ∃ w, v = .choice 1 w ∧ P w

/-! ## The meaning of schemas -/

/-- A bound, with the values of the constants. -/
def Bound.value (constants : String → ℕ) : Bound → ℕ
  | number n => n
  | constant name => constants name

/-- The number of elements is allowed. -/
def Admits (constants : String → ℕ) (size : Option Size) (n : ℕ) : Prop :=
  match size with
  | none => True
  | some (.exactly bound) => n = bound.value constants
  | some (.between least greatest) => least.value constants ≤ n ∧ n ≤ greatest.value constants

/-- The value of a member, from the values of its type. -/
def Descriptor.Has (values : Shape → Value → Prop) (x : Descriptor) (v : Value) : Prop :=
  if x.optional then v.Maybe (values x.shape) else values x.shape v

/-- The values of a type, from those of its parts and of named types. -/
def Shape.Has (constants : String → ℕ) (values : Shape → Value → Prop)
    (named : String → Value → Prop) : Shape → Value → Prop
  | .integer none, v => ∃ z, v = .int z
  | .integer (some range), v => ∃ z, v = .int z ∧ range.1 ≤ z ∧ z ≤ range.2
  | .boolean, v => ∃ b, v = .bool b
  | .octetString size, v => v.IsList (Admits constants size) Value.IsByte
  | .null, v => v = .null
  | .sequenceOf element size, v => v.IsList (Admits constants size) (values element.shape)
  | .choice members, v => ∃ i x w, v = .choice i w ∧ members[i]? = some x ∧ x.Has values w
  | .enumerated numbers, v => ∃ z, v = .enum z ∧ z ∈ numbers.map Prod.snd
  | .sequence members, v => ∃ vs, v = .record vs ∧ List.Forall₂ (Descriptor.Has values) members vs
  | .named name, v => named name v

/-- The values of a name: it is defined, or imported. -/
def Module.NameHas (m : Module) (outer : String → Value → Prop) (values : Shape → Value → Prop)
    (name : String) : Value → Prop :=
  match m.types.lookup name with
  | some t => values t.shape
  | none => outer name

/-- The value is one of the type. The depth bounds the nesting of values and names. -/
def Conforms (m : Module) (constants : String → ℕ) (outer : String → Value → Prop) :
    ℕ → Shape → Value → Prop
  | 0 => fun _ _ => False
  | depth + 1 =>
    let values := Conforms m constants outer depth
    Shape.Has constants values (m.NameHas outer values)

/-! ## The meaning of declarations -/

/-- The values of a C++ type, from those of the named types. A `ConfigVec` has the length that
the configuration gives. -/
def CType.Holds (fields : String → ℕ) (named : String → Value → Prop) : CType → Value → Prop
  | .int t, v => ∃ z, v = .int z ∧ t.Represents z
  | .bool, v => ∃ b, v = .bool b
  | .empty, v => v = .null
  | .byteArr n, v => v.IsList (· = n) Value.IsByte
  | .byteVec, v => v.IsList (fun _ => True) Value.IsByte
  | .configBytes field, v => v.IsList (· = fields field) Value.IsByte
  | .configVec element field, v => v.IsList (· = fields field) (named element)
  | .array element n, v => v.IsList (· = n) (named element)
  | .vector element, v => v.IsList (fun _ => True) (named element)
  | .named name, v => named name v
  | .optional t, v => v.Maybe (t.Holds fields named)
  | .tagged t _, v => t.Holds fields named v

/-- The values of a declared type. -/
def Body.Holds (fields : String → ℕ) (named : String → Value → Prop) : Body → Value → Prop
  | .typedef t, v => t.Holds fields named v
  | .variant members, v =>
    ∃ i x w, v = .choice i w ∧ members[i]? = some x ∧ x.1.Holds fields named w
  | .enum base numbers, v => ∃ z, v = .enum z ∧ z ∈ numbers.map Prod.snd ∧ base.Represents z
  | .struct members, v =>
    ∃ vs, v = .record vs ∧ List.Forall₂ (fun x w => x.2.Holds fields named w) members vs

/-- The values of a name, from those of the names in its declaration: it is declared, or
imported. -/
def NameHolds (decls : List CDecl) (fields : String → ℕ) (outer named : String → Value → Prop)
    (name : String) : Value → Prop :=
  match decls.find? fun d => d.name = name with
  | some d => d.body.Holds fields named
  | none => outer name

/-- The value is one of the name. The depth bounds the nesting of names. -/
def HoldsName (decls : List CDecl) (fields : String → ℕ) (outer : String → Value → Prop) :
    ℕ → String → Value → Prop
  | 0 => fun _ _ => False
  | depth + 1 => NameHolds decls fields outer (HoldsName decls fields outer depth)

/-! ## More values of the names, more values of the types -/

variable {fields : String → ℕ} {P Q : String → Value → Prop}

/-- Lists of a weaker length and with weaker elements. -/
theorem Value.IsList.imp {length length' : ℕ → Prop} {P Q : Value → Prop} {v : Value}
    (h : v.IsList length P) (hlength : ∀ n, length n → length' n) (hPQ : ∀ w, P w → Q w) :
    v.IsList length' Q := by
  obtain ⟨vs, rfl, hn, hall⟩ := h
  exact ⟨vs, rfl, hlength _ hn, fun w hw => hPQ w (hall w hw)⟩

/-- An optional value whose content satisfies something weaker. -/
theorem Value.Maybe.imp {P Q : Value → Prop} {v : Value} (h : v.Maybe P) (hPQ : ∀ w, P w → Q w) :
    v.Maybe Q :=
  h.imp_right fun ⟨w, hv, hw⟩ => ⟨w, hv, hPQ w hw⟩

/-- A type holds a value when its names hold more. -/
theorem CType.Holds.imp (hPQ : ∀ name v, P name v → Q name v) {t : CType} {v : Value}
    (h : t.Holds fields P v) : t.Holds fields Q v := by
  induction t generalizing v with
  | int | bool | empty | byteArr | byteVec | configBytes => exact h
  | configVec element _ | array element _ | vector element =>
    exact Value.IsList.imp h (fun _ hn => hn) (hPQ element)
  | named name => exact hPQ name v h
  | optional t ih => exact Value.Maybe.imp h fun w => ih
  | tagged t _ ih => exact ih h

/-- A declaration holds a value when its names hold more. -/
theorem Body.Holds.imp (hPQ : ∀ name v, P name v → Q name v) {body : Body} {v : Value}
    (h : body.Holds fields P v) : body.Holds fields Q v := by
  cases body with
  | typedef t => exact CType.Holds.imp hPQ h
  | variant members =>
    obtain ⟨i, x, w, hv, hx, hw⟩ := h
    exact ⟨i, x, w, hv, hx, hw.imp hPQ⟩
  | enum => exact h
  | struct members =>
    obtain ⟨vs, hv, hvs⟩ := h
    exact ⟨vs, hv, hvs.imp fun x w hw => hw.imp hPQ⟩

/-- What a name holds at some depth it holds at a greater one. -/
theorem HoldsName.mono {decls : List CDecl} {outer : String → Value → Prop} {depth depth' : ℕ}
    (hle : depth ≤ depth') {name : String} {v : Value}
    (h : HoldsName decls fields outer depth name v) :
    HoldsName decls fields outer depth' name v := by
  induction depth generalizing depth' name v with
  | zero => exact h.elim
  | succ depth ih =>
    obtain ⟨depth', rfl⟩ : ∃ k, depth' = k + 1 := ⟨depth' - 1, by omega⟩
    rw [HoldsName, NameHolds] at h ⊢
    cases hfind : decls.find? fun d => decide (d.name = name) with
    | none =>
      rw [hfind] at h
      exact h
    | some d =>
      rw [hfind] at h
      exact Body.Holds.imp (fun name v => ih (by omega)) h

end CppJam.Asn1

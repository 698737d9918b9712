import Mathlib.Algebra.Group.Int.Defs
import Mathlib.Data.Int.Order.Basic
import Mathlib.Tactic.SplitIfs

/-!
# Integer types of the generated records

`asn1.py` turns a restricted `INTEGER` of a schema into the narrowest C++ integer type for
its range. The bound for `uint16_t` is written as 65536, one more than the type can hold. A
range of unsigned values is given a type that holds it unless 65536 is its greatest value.
-/

namespace CppJam.Asn1

/-- The C++ integer types that the generator chooses from. -/
inductive IntType where
  | uint8
  | uint16
  | uint32
  | uint64
  | int8
  | int16
  | int32
  | int64
  deriving DecidableEq

namespace IntType

/-- The type has negative values. -/
def isSigned : IntType → Bool
  | uint8 | uint16 | uint32 | uint64 => false
  | int8 | int16 | int32 | int64 => true

/-- The number of bits of the type. -/
def width : IntType → ℕ
  | uint8 | int8 => 8
  | uint16 | int16 => 16
  | uint32 | int32 => 32
  | uint64 | int64 => 64

/-- The least value of the type. -/
def least (t : IntType) : ℤ := if t.isSigned then -2 ^ (t.width - 1) else 0

/-- The greatest value of the type. -/
def greatest (t : IntType) : ℤ := if t.isSigned then 2 ^ (t.width - 1) - 1 else 2 ^ t.width - 1

/-- The value is representable in the type. -/
def Represents (t : IntType) (z : ℤ) : Prop := t.least ≤ z ∧ z ≤ t.greatest

end IntType

/-- `c_fittest_int_type`. -/
def cFittestIntType (minValue maxValue : ℤ) : Option IntType :=
  if minValue ≤ maxValue then
    if minValue ≥ 0 then
      if maxValue ≤ 255 then some .uint8
      else if maxValue ≤ 65536 then some .uint16
      else if maxValue ≤ 4294967295 then some .uint32
      else if maxValue ≤ 18446744073709551615 then some .uint64
      else none
    else
      if minValue ≥ -128 ∧ maxValue ≤ 127 then some .int8
      else if minValue ≥ -32768 ∧ maxValue ≤ 32767 then some .int16
      else if minValue ≥ -2147483648 ∧ maxValue ≤ 2147483647 then some .int32
      else if minValue ≥ -9223372036854775808 ∧ maxValue ≤ 9223372036854775807 then some .int64
      else none
  else none

/-- Both ends of the range are representable in the type. -/
def IntType.Spans (t : IntType) (minValue maxValue : ℤ) : Prop :=
  t.Represents minValue ∧ t.Represents maxValue

/-- What the chosen type should be: it represents every value of the range, and no narrower type
of the same signedness represents both ends. -/
structure Fittest (minValue maxValue : ℤ) (t : IntType) : Prop where
  /-- Every value of the range is representable. -/
  represents : ∀ z, minValue ≤ z → z ≤ maxValue → t.Represents z
  /-- No narrower type would do. -/
  narrowest : ∀ t' : IntType, t'.isSigned = t.isSigned → t'.width < t.width →
    ¬t'.Spans minValue maxValue

/-- A type that is chosen is the fittest one, and none is chosen only when the widest type of the
signedness of the range does not span it. -/
structure SelectionLaw (minValue maxValue : ℤ) : Prop where
  /-- A chosen type is the fittest one. -/
  fittest : ∀ t, cFittestIntType minValue maxValue = some t → Fittest minValue maxValue t
  /-- None is chosen when the widest types do not do. -/
  none_iff : cFittestIntType minValue maxValue = none ↔
    ¬((minValue ≥ 0 ∧ IntType.uint64.Spans minValue maxValue) ∨
      (minValue < 0 ∧ IntType.int64.Spans minValue maxValue))

namespace IntType

/-- The values of each type. -/
theorem represents_iff {t : IntType} {z : ℤ} : t.Represents z ↔
    match t with
    | uint8 => 0 ≤ z ∧ z ≤ 255
    | uint16 => 0 ≤ z ∧ z ≤ 65535
    | uint32 => 0 ≤ z ∧ z ≤ 4294967295
    | uint64 => 0 ≤ z ∧ z ≤ 18446744073709551615
    | int8 => -128 ≤ z ∧ z ≤ 127
    | int16 => -32768 ≤ z ∧ z ≤ 32767
    | int32 => -2147483648 ≤ z ∧ z ≤ 2147483647
    | int64 => -9223372036854775808 ≤ z ∧ z ≤ 9223372036854775807 := by
  cases t <;> exact Iff.rfl

/-- A type that represents both ends of a range represents the values between them. -/
theorem Spans.represents {t : IntType} {minValue maxValue z : ℤ} (ht : t.Spans minValue maxValue)
    (hmin : minValue ≤ z) (hmax : z ≤ maxValue) : t.Represents z :=
  ⟨le_trans ht.1.1 hmin, le_trans hmax ht.2.2⟩

end IntType

section Choice

variable {minValue maxValue : ℤ} {t : IntType}

/-- A chosen type spans the range, but for the ranges up to 65536. -/
theorem spans_of_chosen (ht : cFittestIntType minValue maxValue = some t)
    (hbound : ¬(0 ≤ minValue ∧ maxValue = 65536)) : t.Spans minValue maxValue := by
  unfold cFittestIntType at ht
  split_ifs at ht <;> cases ht <;> simp only [IntType.Spans, IntType.represents_iff] <;> omega

/-- No narrower type spans the range. -/
theorem not_spans_of_narrower (ht : cFittestIntType minValue maxValue = some t) {t' : IntType}
    (hsigned : t'.isSigned = t.isSigned) (hwidth : t'.width < t.width) :
    ¬t'.Spans minValue maxValue := by
  intro hspans
  unfold cFittestIntType at ht
  split_ifs at ht <;> cases ht <;> cases t' <;>
    simp only [IntType.isSigned, IntType.width, reduceCtorEq, IntType.Spans,
      IntType.represents_iff] at hsigned hwidth hspans <;> omega

/-- No type is chosen when the widest one does not span the range. -/
theorem cFittestIntType_eq_none_iff (hrange : minValue ≤ maxValue) :
    cFittestIntType minValue maxValue = none ↔
      ¬((minValue ≥ 0 ∧ IntType.uint64.Spans minValue maxValue) ∨
        (minValue < 0 ∧ IntType.int64.Spans minValue maxValue)) := by
  simp only [IntType.Spans, IntType.represents_iff]
  unfold cFittestIntType
  split_ifs <;> simp only [false_iff, true_iff] <;> omega

/-- For the ranges up to 65536 a type is chosen that does not represent 65536. -/
theorem cFittestIntType_of_bound (hmin : 0 ≤ minValue) (hrange : minValue ≤ 65536) :
    cFittestIntType minValue 65536 = some .uint16 := by
  simp [cFittestIntType, hmin, hrange]

/-- **Selection of integer types.** The generator chooses the fittest type for a range, and none
only when no type would do, exactly when the range is not one of unsigned values up to 65536. -/
theorem selectionLaw_iff (hrange : minValue ≤ maxValue) :
    SelectionLaw minValue maxValue ↔ ¬(0 ≤ minValue ∧ maxValue = 65536) := by
  constructor
  · rintro hlaw ⟨hmin, rfl⟩
    have hfittest := hlaw.fittest .uint16 (cFittestIntType_of_bound hmin hrange)
    have hrepresents := hfittest.represents 65536 hrange le_rfl
    rw [IntType.represents_iff] at hrepresents
    omega
  · intro hbound
    refine ⟨?_, cFittestIntType_eq_none_iff hrange⟩
    intro t ht
    exact ⟨fun z => (spans_of_chosen ht hbound).represents,
      fun t' => not_spans_of_narrower ht⟩

end Choice

/-- The range of one octet gets `uint8_t`. -/
theorem selectionLaw_iff_octet :
    cFittestIntType 0 255 = some .uint8 ∧ SelectionLaw 0 255 :=
  ⟨rfl, (selectionLaw_iff (by decide)).mpr (by decide)⟩

/-- The range from 0 to 65536 gets `uint16_t`, which does not represent 65536. -/
theorem not_selectionLaw_bound :
    cFittestIntType 0 65536 = some .uint16 ∧ ¬IntType.uint16.Represents 65536 ∧
      ¬SelectionLaw 0 65536 := by
  have hnot : ¬IntType.uint16.Represents 65536 := by
    rw [IntType.represents_iff]
    omega
  refine ⟨rfl, hnot, ?_⟩
  intro hlaw
  exact hnot ((hlaw.fittest .uint16 rfl).represents 65536 (by decide) le_rfl)

end CppJam.Asn1

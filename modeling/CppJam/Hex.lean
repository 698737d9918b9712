import Mathlib.Data.List.Basic

/-!
# Hexadecimal strings

A byte string is written with two lower-case digits for each octet, high half
first. Reading back what was written gives the octets, so different byte strings
have different hexadecimal strings. The digits are ordered as their values, and the
strings as the byte strings they are written for.
-/

namespace Hex

/-- The two digits of an octet. -/
def digits (b : UInt8) : List Char := [Nat.digitChar (b.toNat / 16), Nat.digitChar (b.toNat % 16)]

/-- The hexadecimal string of a byte string. -/
def encode (bytes : List UInt8) : List Char := bytes.flatMap digits

/-- The value of a lower-case digit. -/
def digitValue (c : Char) : Option ℕ := (List.range 16).find? (fun d => Nat.digitChar d = c)

/-- The byte string of a hexadecimal string: an even number of digits and nothing else. -/
def decode : List Char → Option (List UInt8)
  | [] => some []
  | [_] => none
  | high :: low :: rest => do
      let h ← digitValue high
      let l ← digitValue low
      let bytes ← decode rest
      return UInt8.ofNat (16 * h + l) :: bytes

/-- A digit has the value it was written for. -/
theorem digitValue_digitChar {d : ℕ} (hd : d < 16) : digitValue (Nat.digitChar d) = some d := by
  have hall : ∀ i : Fin 16, digitValue (Nat.digitChar i) = some i.val := by decide
  exact hall ⟨d, hd⟩

/-- What was written is read back. -/
@[simp] theorem decode_encode (bytes : List UInt8) : decode (encode bytes) = some bytes := by
  induction bytes with
  | nil => rfl
  | cons b bytes ih =>
    have hb : b.toNat < 256 := b.toNat_lt
    have hhigh := digitValue_digitChar (show b.toNat / 16 < 16 by omega)
    have hlow := digitValue_digitChar (show b.toNat % 16 < 16 by omega)
    have hvalue : UInt8.ofNat (16 * (b.toNat / 16) + b.toNat % 16) = b := by
      rw [Nat.div_add_mod, UInt8.ofNat_toNat]
    change decode (_ :: _ :: encode bytes) = _
    simp only [decode, hhigh, hlow, ih, hvalue, Option.bind_eq_bind, Option.bind_some,
      Option.pure_def]

/-- Different byte strings have different hexadecimal strings. -/
theorem encode_injective : Function.Injective encode := by
  intro a b hab
  have hread := decode_encode a
  rw [hab, decode_encode] at hread
  exact (Option.some.inj hread).symm

/-- Digits are ordered as their values. -/
theorem compare_digitChar {d e : ℕ} (hd : d < 16) (he : e < 16) :
    compare (Nat.digitChar d) (Nat.digitChar e) = compare d e := by
  have hall : ∀ i j : Fin 16,
      compare (Nat.digitChar i) (Nat.digitChar j) = compare i.val j.val := by decide
  exact hall ⟨d, hd⟩ ⟨e, he⟩

/-- Octets are ordered as the pairs of their halves. -/
theorem compare_halves (b c : UInt8) :
    (compare (b.toNat / 16) (c.toNat / 16)).then (compare (b.toNat % 16) (c.toNat % 16)) =
      compare b c := by
  have hcompare : compare b c = compare b.toNat c.toNat := by
    simp [compare, compareOfLessAndEq, UInt8.lt_iff_toNat_lt, UInt8.toNat_inj]
  rw [hcompare]
  rcases Nat.lt_trichotomy (b.toNat / 16) (c.toNat / 16) with hhigh | hhigh | hhigh
  · have hlt : b.toNat < c.toNat := by omega
    rw [Nat.compare_eq_lt.mpr hhigh, Nat.compare_eq_lt.mpr hlt]
    rfl
  · rw [Nat.compare_eq_eq.mpr hhigh, Ordering.then]
    rcases Nat.lt_trichotomy (b.toNat % 16) (c.toNat % 16) with hlow | hlow | hlow
    · rw [Nat.compare_eq_lt.mpr hlow, Nat.compare_eq_lt.mpr (by omega)]
    · rw [Nat.compare_eq_eq.mpr hlow, Nat.compare_eq_eq.mpr (by omega)]
    · rw [Nat.compare_eq_gt.mpr hlow, Nat.compare_eq_gt.mpr (by omega)]
  · have hgt : c.toNat < b.toNat := by omega
    rw [Nat.compare_eq_gt.mpr hhigh, Nat.compare_eq_gt.mpr hgt]
    rfl

/-- Hexadecimal strings are ordered as the byte strings, octet by octet and prefixes
first. -/
theorem compare_encode (a b : List UInt8) : compare (encode a) (encode b) = compare a b := by
  simp only [List.compare_eq_compareLex]
  induction a generalizing b with
  | nil => cases b <;> rfl
  | cons x a ih =>
    cases b with
    | nil => rfl
    | cons y b =>
      have hx := x.toNat_lt
      have hy := y.toNat_lt
      change List.compareLex compare (_ :: _ :: encode a) (_ :: _ :: encode b) = _
      rw [List.compareLex_cons_cons, List.compareLex_cons_cons, List.compareLex_cons_cons, ih,
        compare_digitChar (by omega) (by omega), compare_digitChar (by omega) (by omega),
        ← compare_halves, Ordering.then_assoc]

end Hex

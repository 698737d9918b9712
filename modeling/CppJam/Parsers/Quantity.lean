import CppJam.Checks
import CppJam.Scanning
import CppJam.Types
import Mathlib.Algebra.Group.Nat.Defs
import Mathlib.Tactic.SplitIfs

/-!
# Parsers of quantities

`parseByteQuantity` and `parseTimeDuration` read a decimal number and a unit. They differ
in their table of units only. The text is trimmed, its digits and the spaces behind them
are skipped, and what is left is the suffix.

The loop over the table binds a `suffix` of its own, which hides the suffix of the text:
it compares the suffix of an entry with itself.
-/

namespace CppJam.Parsers

open Bytes Checks Scanning

/-- The octets of an ASCII text. -/
def text (chars : List Char) : List Byte := chars.map (fun c => UInt8.ofNat c.toNat)

/-- The characters `" \t\n\r"` that are trimmed. -/
def isBlank (c : Byte) : Bool := [32, 9, 10, 13].contains c.toNat

/-- `std::isspace` in the "C" locale. -/
def isspace (c : Byte) : Bool := c.toNat == 32 || (9 ≤ c.toNat && c.toNat ≤ 13)

/-- `std::isdigit`. -/
def isdigit (c : Byte) : Bool := 48 ≤ c.toNat && c.toNat ≤ 57

/-- `std::tolower` in the "C" locale. -/
def tolower (c : Byte) : Byte := if 65 ≤ c.toNat ∧ c.toNat ≤ 90 then c + 32 else c

/-- `iequals`: the same size, and the same characters up to case. -/
def iequals (lhs rhs : List Byte) : Bool :=
  if lhs.length ≠ rhs.length then false
  else (lhs.zip rhs).all (fun pair => tolower pair.1 == tolower pair.2)

/-- A `char` is passed to `std::isdigit` as it is. Where `char` is signed, the octets from
128 on are negative and, but for the last one, which is `EOF`, not in its domain. -/
def OutOfDomain (signedChar : Bool) (c : Byte) : Prop := signedChar ∧ 128 ≤ c.toNat ∧ c.toNat < 255

instance (signedChar : Bool) (c : Byte) : Decidable (OutOfDomain signedChar c) :=
  inferInstanceAs (Decidable (_ ∧ _ ∧ _))

/-- The loop that skips the digits of the number: how many there are. -/
def scanDigits (signedChar : Bool) : List Byte → Except Abort ℕ
  | [] => .ok 0
  | c :: rest =>
      if OutOfDomain signedChar c then .error .undefinedBehaviour
      else if isdigit c then (scanDigits signedChar rest).map (· + 1)
      else .ok 0

/-- The number and the suffix of a text, unless it is blank or has no digits. -/
def splitInput (signedChar : Bool) (input : List Byte) :
    Except Abort (Option (List Byte × List Byte)) :=
  match trimmed isBlank input with
  | none => .ok none
  | some input => do
      let i ← scanDigits signedChar input
      if i = 0 then return none
      return some (input.take i, (input.drop i).dropWhile isspace)

/-- The value of a decimal number. -/
def decimal (digits : List Byte) : ℕ := digits.foldl (fun n c => 10 * n + (c.toNat - 48)) 0

/-- `std::from_chars` on a text of digits: their value if it is in range. -/
def fromChars (digits : List Byte) : Option UInt64 :=
  if decimal digits < 2 ^ 64 then some (UInt64.ofNat (decimal digits)) else none

/-- An entry of a table of units. -/
structure Entry where
  /-- The name of the unit. -/
  suffix : List Byte
  /-- What the unit stands for. -/
  multiplier : UInt64
  deriving DecidableEq

/-- `UINT64_MAX`. -/
def uint64Max : UInt64 := 18446744073709551615

/-- The product of the number and the unit unless it overflows. -/
def scale (number multiplier : UInt64) : Option UInt64 :=
  if number > uint64Max / multiplier then none else some (number * multiplier)

/-- The loop over the table, with both arguments of `iequals` from the entry. -/
def applyUnit (number : UInt64) : List Entry → Option UInt64
  | [] => none
  | ⟨suffix, multiplier⟩ :: entries =>
      if iequals suffix suffix then scale number multiplier else applyUnit number entries

/-- The common body of the parsers. -/
def parseQuantity (signedChar : Bool) (table : List Entry) (input : List Byte) :
    Except Abort (Option UInt64) := do
  match ← splitInput signedChar input with
  | none => return none
  | some (numberPart, suffix) =>
      match fromChars numberPart with
      | none => return none
      | some number => return if suffix.isEmpty then some number else applyUnit number table

/-- The suffixes of byte quantities, to base 1024 and to base 1000. -/
def byteUnits : List Entry :=
  [⟨text ['b'], 1⟩,
   ⟨text ['k'], (1 : UInt64) <<< 10⟩,
   ⟨text ['k', 'i', 'b'], (1 : UInt64) <<< 10⟩,
   ⟨text ['k', 'b'], 1000⟩,
   ⟨text ['m'], (1 : UInt64) <<< 20⟩,
   ⟨text ['m', 'i', 'b'], (1 : UInt64) <<< 20⟩,
   ⟨text ['m', 'b'], 1000 * 1000⟩,
   ⟨text ['g'], (1 : UInt64) <<< 30⟩,
   ⟨text ['g', 'i', 'b'], (1 : UInt64) <<< 30⟩,
   ⟨text ['g', 'b'], 1000 * 1000 * 1000⟩,
   ⟨text ['t'], (1 : UInt64) <<< 40⟩,
   ⟨text ['t', 'i', 'b'], (1 : UInt64) <<< 40⟩,
   ⟨text ['t', 'b'], 1000 * 1000 * 1000 * 1000⟩]

/-- The suffixes of durations, in seconds. -/
def timeUnits : List Entry :=
  [⟨text ['s'], 1⟩, ⟨text ['s', 'e', 'c'], 1⟩, ⟨text ['s', 'e', 'c', 's'], 1⟩,
   ⟨text ['s', 'e', 'c', 'o', 'n', 'd'], 1⟩, ⟨text ['s', 'e', 'c', 'o', 'n', 'd', 's'], 1⟩,
   ⟨text ['m'], 60⟩, ⟨text ['m', 'i', 'n'], 60⟩, ⟨text ['m', 'i', 'n', 's'], 60⟩,
   ⟨text ['m', 'i', 'n', 'u', 't', 'e'], 60⟩, ⟨text ['m', 'i', 'n', 'u', 't', 'e', 's'], 60⟩,
   ⟨text ['h'], 3600⟩, ⟨text ['h', 'r'], 3600⟩, ⟨text ['h', 'r', 's'], 3600⟩,
   ⟨text ['h', 'o', 'u', 'r'], 3600⟩, ⟨text ['h', 'o', 'u', 'r', 's'], 3600⟩,
   ⟨text ['d'], 86400⟩, ⟨text ['d', 'a', 'y'], 86400⟩, ⟨text ['d', 'a', 'y', 's'], 86400⟩,
   ⟨text ['w'], 604800⟩, ⟨text ['w', 'e', 'e', 'k'], 604800⟩,
   ⟨text ['w', 'e', 'e', 'k', 's'], 604800⟩]

/-- `parseByteQuantity`. -/
def parseByteQuantity (signedChar : Bool) : List Byte → Except Abort (Option UInt64) :=
  parseQuantity signedChar byteUnits

/-- `parseTimeDuration`. -/
def parseTimeDuration (signedChar : Bool) : List Byte → Except Abort (Option UInt64) :=
  parseQuantity signedChar timeUnits

example : parseByteQuantity true (text [' ', '1', '2', ' ', 'b', '\n']) = .ok (some 12) := by
  decide

/-! ## Characters -/

/-- A blank is a space. -/
theorem isspace_of_isBlank {c : Byte} (hc : isBlank c) : isspace c := by
  simp only [isBlank, List.contains_eq_mem, List.mem_cons, List.not_mem_nil, or_false,
    decide_eq_true_eq] at hc
  simp only [isspace, Bool.or_eq_true, Bool.and_eq_true, beq_iff_eq, decide_eq_true_eq]
  omega

/-- A space is no digit. -/
theorem not_isdigit_of_isspace {c : Byte} (hc : isspace c) : ¬isdigit c := by
  simp only [isspace, Bool.or_eq_true, Bool.and_eq_true, beq_iff_eq, decide_eq_true_eq] at hc
  simp only [isdigit, Bool.and_eq_true, decide_eq_true_eq]
  omega

/-- A digit is not blank. -/
theorem not_isBlank_of_isdigit {c : Byte} (hc : isdigit c) : ¬isBlank c :=
  fun hblank => not_isdigit_of_isspace (isspace_of_isBlank hblank) hc

/-- `std::isdigit` is defined on digits. -/
theorem OutOfDomain.not_isdigit {signedChar : Bool} {c : Byte} (hc : OutOfDomain signedChar c) :
    ¬isdigit c := by
  obtain ⟨_, hlow, _⟩ := hc
  simp only [isdigit, Bool.and_eq_true, decide_eq_true_eq]
  omega

/-- `std::isdigit` is defined on blanks. -/
theorem OutOfDomain.not_isBlank {signedChar : Bool} {c : Byte} (hc : OutOfDomain signedChar c) :
    ¬isBlank c := by
  obtain ⟨_, hlow, _⟩ := hc
  simp only [isBlank, List.contains_eq_mem, List.mem_cons, List.not_mem_nil, or_false,
    decide_eq_true_eq]
  omega

/-- Texts are equal up to case when they are equal in lower case. -/
theorem iequals_iff {lhs rhs : List Byte} :
    iequals lhs rhs ↔ lhs.map tolower = rhs.map tolower := by
  induction lhs generalizing rhs with
  | nil => cases rhs <;> simp [iequals]
  | cons a lhs ih =>
    cases rhs with
    | nil => simp [iequals]
    | cons b rhs =>
      rw [List.map_cons, List.map_cons, List.cons.injEq, ← ih]
      simp only [iequals, List.length_cons, List.zip_cons_cons, List.all_cons]
      by_cases hlength : lhs.length = rhs.length <;> simp [hlength]

/-- A number is returned exactly when it fits. -/
theorem fromChars_eq_some_iff {digits : List Byte} {r : UInt64} :
    fromChars digits = some r ↔ decimal digits < 2 ^ 64 ∧ r.toNat = decimal digits := by
  unfold fromChars
  split_ifs with hfits
  · rw [Option.some.injEq, ← UInt64.toNat_inj, UInt64.toNat_ofNat_of_lt' hfits, eq_comm]
    exact ⟨fun heq => ⟨hfits, heq⟩, fun h => h.2⟩
  · exact ⟨nofun, fun h => absurd h.1 hfits⟩

/-- The product is returned exactly when it fits. -/
theorem scale_eq_some_iff {number multiplier r : UInt64} (hpos : 0 < multiplier.toNat) :
    scale number multiplier = some r ↔
      number.toNat * multiplier.toNat < 2 ^ 64 ∧ r.toNat = number.toNat * multiplier.toNat := by
  have hguard : number > uint64Max / multiplier ↔
      ¬number.toNat * multiplier.toNat < 2 ^ 64 := by
    have hmax : uint64Max.toNat = 2 ^ 64 - 1 := rfl
    rw [gt_iff_lt, UInt64.lt_iff_toNat_lt, UInt64.toNat_div, hmax, Nat.div_lt_iff_lt_mul hpos]
    omega
  unfold scale
  split_ifs with hover
  · exact ⟨nofun, fun hfits => absurd hfits.1 (hguard.mp hover)⟩
  · have hfits : number.toNat * multiplier.toNat < 2 ^ 64 := not_not.mp (mt hguard.mpr hover)
    have hproduct : (number * multiplier).toNat = number.toNat * multiplier.toNat := by
      rw [UInt64.toNat_mul, Nat.mod_eq_of_lt hfits]
    rw [Option.some.injEq, ← UInt64.toNat_inj, hproduct, eq_comm]
    exact ⟨fun heq => ⟨hfits, heq⟩, fun h => h.2⟩

end CppJam.Parsers

import CppJam.Parsers.Reading

/-!
# Law of quantities

A quantity denotes the product of its number and its unit, provided both fit in 64 bits,
and a text that is no quantity denotes nothing. The parsers return the number whatever the
suffix is, since the first entry of their tables stands for one: they follow the law on
the texts without a suffix and on those whose unit does not change the number.
-/

namespace CppJam.Parsers

open Bytes Checks Scanning

variable {signedChar : Bool} {input digits suffix : List Byte}

/-- A table of units: its suffixes are words of small letters, no two of them with
different meanings, and it starts with the unit one. -/
structure UnitTable where
  /-- The entries, in the order of the loop. -/
  entries : List Entry
  /-- A suffix is a word. -/
  suffix_ne_nil : ∀ entry ∈ entries, entry.suffix ≠ []
  /-- A suffix has small letters only. -/
  lowercase : ∀ entry ∈ entries, entry.suffix.all (fun c => 97 ≤ c.toNat)
  /-- A suffix has one meaning. -/
  unambiguous : ∀ entry ∈ entries, ∀ entry' ∈ entries, iequals entry.suffix entry'.suffix →
    entry.multiplier = entry'.multiplier
  /-- The first unit is one. -/
  first : entries.head?.map Entry.multiplier = some 1

/-- The table of byte quantities. -/
def byteTable : UnitTable where
  entries := byteUnits
  suffix_ne_nil := by decide
  lowercase := by decide
  unambiguous := by decide
  first := rfl

/-- The table of durations. -/
def timeTable : UnitTable where
  entries := timeUnits
  suffix_ne_nil := by decide
  lowercase := by decide
  unambiguous := by decide
  first := rfl

/-- The multiplier of a suffix: one if it is absent, else that of an entry that it equals up
to case. -/
def HasMultiplier (table : List Entry) (suffix : List Byte) (multiplier : ℕ) : Prop :=
  suffix = [] ∧ multiplier = 1 ∨
    ∃ entry ∈ table, iequals suffix entry.suffix ∧ entry.multiplier.toNat = multiplier

/-- A text denotes a value: it has the form of a quantity, its number fits in 64 bits, and
so does the product with its multiplier, which is the value. -/
def Denotes (table : List Entry) (input : List Byte) (r : UInt64) : Prop :=
  ∃ digits suffix multiplier, Form input digits suffix ∧ HasMultiplier table suffix multiplier ∧
    decimal digits < 2 ^ 64 ∧ decimal digits * multiplier < 2 ^ 64 ∧
    r.toNat = decimal digits * multiplier

/-- A parser follows the law on a text: it returns what the text denotes. -/
def Lawful (parse : List Byte → Except Abort (Option UInt64)) (table : List Entry)
    (input : List Byte) : Prop :=
  ∃ answer, parse input = .ok answer ∧ ∀ r, answer = some r ↔ Denotes table input r

/-- The scan of a text is defined, and its suffix, if it has one behind a number of 64 bits,
names a unit that does not change the number. -/
structure Harmless (signedChar : Bool) (table : List Entry) (input : List Byte) : Prop where
  /-- The scan is defined. -/
  defined : ¬Undefined signedChar input
  /-- The unit does not matter. -/
  unit : ∀ digits suffix, Reading input digits suffix → suffix ≠ [] → decimal digits < 2 ^ 64 →
    ∃ entry ∈ table, iequals suffix entry.suffix ∧
      (entry.multiplier = 1 ∨ decimal digits = 0)

/-- A character that is a small letter up to case is no digit, space or blank. -/
theorem not_isdigit_of_letter {c : Byte} (hc : 97 ≤ (tolower c).toNat) :
    ¬isdigit c ∧ ¬isspace c := by
  have hlow : 65 ≤ c.toNat := by
    by_contra hlow
    rw [tolower, if_neg (by omega)] at hc
    omega
  simp only [isdigit, isspace, Bool.or_eq_true, Bool.and_eq_true, beq_iff_eq, decide_eq_true_eq]
  omega

/-- A small letter is its own lower case. -/
theorem tolower_eq_self {c : Byte} (hc : 97 ≤ c.toNat) : tolower c = c := by
  rw [tolower, if_neg (by omega)]

/-- A text whose suffix has a multiplier is read greedily. -/
theorem Form.reading {table : UnitTable} {multiplier : ℕ} (hform : Form input digits suffix)
    (hmultiplier : HasMultiplier table.entries suffix multiplier) :
    Reading input digits suffix := by
  have hletters : ∀ c ∈ suffix, ¬isdigit c ∧ ¬isspace c := by
    rcases hmultiplier with ⟨rfl, _⟩ | ⟨entry, hentry, hequals, _⟩
    · exact fun c hc => nomatch hc
    · intro c hc
      have hmem : tolower c ∈ entry.suffix.map tolower :=
        iequals_iff.mp hequals ▸ List.mem_map_of_mem hc
      obtain ⟨letter, hletter, hlower⟩ := List.mem_map.mp hmem
      have hsmall : 97 ≤ letter.toNat :=
        of_decide_eq_true (List.all_eq_true.mp (table.lowercase entry hentry) letter hletter)
      refine not_isdigit_of_letter ?_
      rwa [← hlower, tolower_eq_self hsmall]
  obtain ⟨leading, spaces, trailing, hparts⟩ := hform
  refine ⟨leading, spaces, trailing, hparts, ?_, ?_, ?_⟩
  · intro c hc
    rcases List.mem_append.mp (List.mem_of_head? hc) with hspace | hsuffix
    · exact not_isdigit_of_isspace (hparts.spaces c hspace)
    · exact (hletters c hsuffix).1
  · exact fun c hc => (hletters c (List.mem_of_head? hc)).2
  · exact fun c hc hblank => (hletters c (List.mem_of_getLast? hc)).2 (isspace_of_isBlank hblank)

/-- What a text with a given reading denotes. -/
theorem Reading.denotes_iff {table : UnitTable} {r : UInt64}
    (hreading : Reading input digits suffix) :
    Denotes table.entries input r ↔ decimal digits < 2 ^ 64 ∧
      ∃ multiplier, HasMultiplier table.entries suffix multiplier ∧
        decimal digits * multiplier < 2 ^ 64 ∧ r.toNat = decimal digits * multiplier := by
  constructor
  · rintro ⟨digits', suffix', multiplier, hform, hmultiplier, hnumber, hfits, hr⟩
    obtain ⟨rfl, rfl⟩ := hreading.unique (hform.reading hmultiplier)
    exact ⟨hnumber, multiplier, hmultiplier, hfits, hr⟩
  · rintro ⟨hnumber, multiplier, hmultiplier, hfits, hr⟩
    obtain ⟨leading, spaces, trailing, hparts, _⟩ := hreading
    exact ⟨digits, suffix, multiplier, ⟨leading, spaces, trailing, hparts⟩, hmultiplier, hnumber,
      hfits, hr⟩

/-- The loop over a table leaves every number as it is. -/
theorem applyUnit_eq (table : UnitTable) (number : UInt64) :
    applyUnit number table.entries = some number := by
  have hfirst := table.first
  cases hentries : table.entries with
  | nil => simp [hentries] at hfirst
  | cons entry entries =>
    have hone : entry.multiplier = 1 := by simpa [hentries] using hfirst
    have hscale : scale number 1 = some number := by
      refine (scale_eq_some_iff (by decide)).mpr ⟨?_, ?_⟩
      · simpa using number.toNat_lt
      · simp
    rw [applyUnit, if_pos (iequals_iff.mpr rfl), hone, hscale]

/-- A parser returns the number of a text whatever its suffix is. -/
theorem Reading.parseQuantity_eq (hreading : Reading input digits suffix) (table : UnitTable)
    (hdefined : ¬Undefined signedChar input) :
    parseQuantity signedChar table.entries input = .ok (fromChars digits) := by
  have hsplit := hreading.splitInput_eq hdefined
  simp only [parseQuantity, hsplit, bind_eq_ok]
  refine ⟨_, rfl, ?_⟩
  cases hnumber : fromChars digits with
  | none =>
    simp only [hnumber]
    rfl
  | some number =>
    simp only [hnumber, applyUnit_eq table number, ite_self]
    rfl

/-- The units of a suffix that names a harmless one are all harmless. -/
theorem UnitTable.harmless_multiplier (table : UnitTable) {number : ℕ}
    (hunit : suffix ≠ [] → ∃ entry ∈ table.entries, iequals suffix entry.suffix ∧
      (entry.multiplier = 1 ∨ number = 0)) :
    (∃ multiplier, HasMultiplier table.entries suffix multiplier) ∧
      ∀ multiplier, HasMultiplier table.entries suffix multiplier →
        number * multiplier = number := by
  by_cases hne : suffix = []
  · refine ⟨⟨1, Or.inl ⟨hne, rfl⟩⟩, ?_⟩
    rintro multiplier (⟨_, rfl⟩ | ⟨entry, hentry, hequals, _⟩)
    · exact Nat.mul_one number
    · have hempty : [] = entry.suffix.map tolower := by
        rw [← iequals_iff.mp hequals, hne, List.map_nil]
      exact absurd (List.map_eq_nil_iff.mp hempty.symm) (table.suffix_ne_nil entry hentry)
  · obtain ⟨entry, hentry, hequals, hharmless⟩ := hunit hne
    refine ⟨⟨_, Or.inr ⟨entry, hentry, hequals, rfl⟩⟩, ?_⟩
    rintro multiplier (⟨hnil, _⟩ | ⟨entry', hentry', hequals', rfl⟩)
    · exact absurd hnil hne
    · have hsame : iequals entry.suffix entry'.suffix :=
        iequals_iff.mpr ((iequals_iff.mp hequals).symm.trans (iequals_iff.mp hequals'))
      rw [← table.unambiguous entry hentry entry' hentry' hsame]
      rcases hharmless with hone | hzero
      · rw [hone]
        exact Nat.mul_one number
      · rw [hzero, Nat.zero_mul]

/-- The number of a text is what it denotes exactly when its unit is harmless. -/
theorem Reading.number_denotes_iff (hreading : Reading input digits suffix) (table : UnitTable) :
    (∀ r, fromChars digits = some r ↔ Denotes table.entries input r) ↔
      (suffix ≠ [] → decimal digits < 2 ^ 64 → ∃ entry ∈ table.entries,
        iequals suffix entry.suffix ∧ (entry.multiplier = 1 ∨ decimal digits = 0)) := by
  constructor
  · intro hlaw hne hnumber
    have hvalue : (UInt64.ofNat (decimal digits)).toNat = decimal digits :=
      UInt64.toNat_ofNat_of_lt' hnumber
    have hdenotes := (hlaw _).mp (fromChars_eq_some_iff.mpr ⟨hnumber, hvalue⟩)
    obtain ⟨_, multiplier, hmultiplier, _, hproduct⟩ := hreading.denotes_iff.mp hdenotes
    rw [hvalue] at hproduct
    rcases hmultiplier with ⟨hnil, _⟩ | ⟨entry, hentry, hequals, rfl⟩
    · exact absurd hnil hne
    · refine ⟨entry, hentry, hequals, ?_⟩
      rcases Nat.eq_zero_or_pos (decimal digits) with hzero | hpos
      · exact Or.inr hzero
      · refine Or.inl (UInt64.toNat_inj.mp (Nat.eq_of_mul_eq_mul_left hpos ?_))
        rw [← hproduct]
        exact (Nat.mul_one _).symm
  · intro hunit r
    rw [fromChars_eq_some_iff, hreading.denotes_iff]
    refine and_congr_right fun hnumber => ?_
    obtain ⟨⟨multiplier, hmultiplier⟩, hall⟩ :=
      table.harmless_multiplier (fun hne => hunit hne hnumber)
    constructor
    · intro hr
      refine ⟨multiplier, hmultiplier, ?_, ?_⟩
      · rwa [hall multiplier hmultiplier]
      · rw [hr, hall multiplier hmultiplier]
    · rintro ⟨multiplier', hmultiplier', _, hr⟩
      rw [hr, hall multiplier' hmultiplier']

/-- A parser returns what a text denotes exactly when its unit does not matter. -/
theorem parseQuantity_lawful_iff (table : UnitTable) :
    Lawful (parseQuantity signedChar table.entries) table.entries input ↔
      Harmless signedChar table.entries input := by
  by_cases hundefined : Undefined signedChar input
  · constructor
    · rintro ⟨answer, hanswer, _⟩
      rw [parseQuantity, hundefined.splitInput_eq] at hanswer
      cases hanswer
    · exact fun hharmless => absurd hundefined hharmless.defined
  · rcases splitInput_cases hundefined with hnone | ⟨digits, suffix, _, hreading⟩
    · have hno : ∀ digits suffix, ¬Reading input digits suffix := by
        intro digits suffix hreading
        rw [hreading.splitInput_eq hundefined] at hnone
        cases hnone
      constructor
      · exact fun _ => ⟨hundefined, fun digits suffix hreading => absurd hreading (hno _ _)⟩
      · refine fun _ => ⟨none, ?_, fun r => ⟨nofun, ?_⟩⟩
        · rw [parseQuantity, hnone]
          rfl
        · rintro ⟨digits, suffix, multiplier, hform, hmultiplier, _⟩
          exact absurd (hform.reading hmultiplier) (hno _ _)
    · have hparse := hreading.parseQuantity_eq table hundefined
      constructor
      · rintro ⟨answer, hanswer, hlaw⟩
        obtain rfl := Except.ok.inj (hparse.symm.trans hanswer)
        refine ⟨hundefined, fun digits' suffix' hother => ?_⟩
        obtain ⟨rfl, rfl⟩ := hreading.unique hother
        exact (hreading.number_denotes_iff table).mp hlaw
      · rintro ⟨_, hunit⟩
        exact ⟨_, hparse, (hreading.number_denotes_iff table).mpr (hunit digits suffix hreading)⟩

/-- A parser does not follow the law on a text whose unit would change the number, or that
names no unit. -/
theorem Reading.not_lawful (hreading : Reading input digits suffix) (table : UnitTable)
    (hne : suffix ≠ []) (hnumber : decimal digits < 2 ^ 64) (hpos : decimal digits ≠ 0)
    (hunit : ∀ entry ∈ table.entries, iequals suffix entry.suffix → entry.multiplier ≠ 1) :
    ¬Lawful (parseQuantity signedChar table.entries) table.entries input := by
  rw [parseQuantity_lawful_iff table]
  intro hharmless
  obtain ⟨entry, hentry, hequals, hone | hzero⟩ := hharmless.unit _ _ hreading hne hnumber
  · exact hunit entry hentry hequals hone
  · exact hpos hzero

/-- **Law of quantities.** For byte quantities and for durations: a parser returns what a
text denotes, and nothing for a text that denotes nothing, exactly when the scan of the text
is defined and its unit does not matter. -/
theorem quantities_lawful_iff (signedChar : Bool) (input : List Byte) :
    (Lawful (parseByteQuantity signedChar) byteUnits input ↔
        Harmless signedChar byteUnits input) ∧
      (Lawful (parseTimeDuration signedChar) timeUnits input ↔
        Harmless signedChar timeUnits input) :=
  ⟨parseQuantity_lawful_iff byteTable, parseQuantity_lawful_iff timeTable⟩

/-- Four bytes and four seconds are read as they should be. -/
theorem quantities_lawful_unit_one :
    Lawful (parseByteQuantity true) byteUnits (text ['4', ' ', 'B', '\n']) ∧
      Lawful (parseTimeDuration true) timeUnits (text ['4', ' ', 'S', 'e', 'c', 's']) := by
  have hbytes : Reading (text ['4', ' ', 'B', '\n']) (text ['4']) (text ['B']) :=
    reading_of_splitInput (show splitInput true _ = .ok (some _) from rfl)
  have hseconds : Reading (text ['4', ' ', 'S', 'e', 'c', 's']) (text ['4'])
      (text ['S', 'e', 'c', 's']) :=
    reading_of_splitInput (show splitInput true _ = .ok (some _) from rfl)
  constructor
  · refine (quantities_lawful_iff true _).1.mpr ⟨fun hundefined => ?_, fun _ _ hreading _ _ => ?_⟩
    · cases hundefined.splitInput_eq
    · obtain ⟨rfl, rfl⟩ := hbytes.unique hreading
      decide
  · refine (quantities_lawful_iff true _).2.mpr ⟨fun hundefined => ?_, fun _ _ hreading _ _ => ?_⟩
    · cases hundefined.splitInput_eq
    · obtain ⟨rfl, rfl⟩ := hseconds.unique hreading
      decide

/-- A kilobyte is read as one byte, a minute as one second, and a word that names no unit
passes for one. Where `char` is signed, a number in front of a micro sign has no defined
reading. -/
theorem quantities_not_lawful :
    ¬Lawful (parseByteQuantity true) byteUnits (text ['1', 'k', 'b']) ∧
      ¬Lawful (parseTimeDuration true) timeUnits (text ['1', 'm', 'i', 'n']) ∧
      ¬Lawful (parseByteQuantity true) byteUnits (text ['1', 'x', 'y', 'z']) ∧
      ¬Lawful (parseTimeDuration true) timeUnits [49, 0xC2, 0xB5, 115] := by
  have hkilobyte : Reading (text ['1', 'k', 'b']) (text ['1']) (text ['k', 'b']) :=
    reading_of_splitInput (show splitInput true _ = .ok (some _) from rfl)
  have hminute : Reading (text ['1', 'm', 'i', 'n']) (text ['1']) (text ['m', 'i', 'n']) :=
    reading_of_splitInput (show splitInput true _ = .ok (some _) from rfl)
  have hword : Reading (text ['1', 'x', 'y', 'z']) (text ['1']) (text ['x', 'y', 'z']) :=
    reading_of_splitInput (show splitInput true _ = .ok (some _) from rfl)
  refine ⟨?_, ?_, ?_, ?_⟩
  · exact hkilobyte.not_lawful byteTable (by decide) (by decide) (by decide) (by decide)
  · exact hminute.not_lawful timeTable (by decide) (by decide) (by decide) (by decide)
  · exact hword.not_lawful byteTable (by decide) (by decide) (by decide) (by decide)
  · rintro ⟨answer, hanswer, _⟩
    cases hanswer

end CppJam.Parsers

import CppJam.Parsers.Quantity

/-!
# Readings of a text

A quantity is written as blanks, digits, spaces, a suffix and blanks. The parsers read a
text greedily: no further digit, space or blank could be taken from the suffix. Each text
has at most one such reading, and it is the one the parsers find.
-/

namespace CppJam.Parsers

open Bytes Checks Scanning

variable {signedChar : Bool} {input mid digits suffix leading spaces trailing : List Byte}

/-- The parts of a text around its suffix. -/
structure Parts (input leading digits spaces suffix trailing : List Byte) : Prop where
  /-- The parts make up the text. -/
  input_eq : input = leading ++ (digits ++ (spaces ++ suffix)) ++ trailing
  /-- The text starts with blanks. -/
  leading : ∀ c ∈ leading, isBlank c
  /-- There is a number. -/
  digits_ne_nil : digits ≠ []
  /-- The number is decimal. -/
  digits : ∀ c ∈ digits, isdigit c
  /-- Spaces may follow it. -/
  spaces : ∀ c ∈ spaces, isspace c
  /-- The text ends in blanks. -/
  trailing : ∀ c ∈ trailing, isBlank c

/-- A text with the given number and suffix. -/
def Form (input digits suffix : List Byte) : Prop :=
  ∃ leading spaces trailing, Parts input leading digits spaces suffix trailing

/-- The suffix takes no digit, space or blank from the parts around it. -/
structure Greedy (spaces suffix : List Byte) : Prop where
  /-- The number does not go on. -/
  digits_end : ∀ c ∈ (spaces ++ suffix).head?, ¬isdigit c
  /-- The spaces do not go on. -/
  spaces_end : ∀ c ∈ suffix.head?, ¬isspace c
  /-- The blanks do not start earlier. -/
  suffix_end : ∀ c ∈ suffix.getLast?, ¬isBlank c

/-- The greedy reading of a text. -/
def Reading (input digits suffix : List Byte) : Prop :=
  ∃ leading spaces trailing,
    Parts input leading digits spaces suffix trailing ∧ Greedy spaces suffix

/-- The scan for digits meets a character that `std::isdigit` is not defined on. -/
def Undefined (signedChar : Bool) (input : List Byte) : Prop :=
  ∃ leading digits c rest, input = leading ++ (digits ++ c :: rest) ∧
    (∀ c ∈ leading, isBlank c) ∧ (∀ c ∈ digits, isdigit c) ∧ OutOfDomain signedChar c

/-- Where `char` is unsigned every scan is defined. -/
theorem not_undefined_unsigned : ¬Undefined false input := by
  rintro ⟨_, _, c, _, _, _, _, hc⟩
  exact absurd hc.1 Bool.false_ne_true

/-! ## The scan for digits -/

/-- The scan counts digits and goes on behind them. -/
theorem scanDigits_append {rest : List Byte} (hdigits : ∀ c ∈ digits, isdigit c) :
    scanDigits signedChar (digits ++ rest) =
      (scanDigits signedChar rest).map (· + digits.length) := by
  induction digits with
  | nil => cases hrest : scanDigits signedChar rest <;> simp [hrest, Except.map]
  | cons c digits ih =>
    obtain ⟨hc, hdigits⟩ := List.forall_mem_cons.mp hdigits
    have hdomain : ¬OutOfDomain signedChar c := fun hout => hout.not_isdigit hc
    rw [List.cons_append, scanDigits, if_neg hdomain, if_pos hc, ih hdigits]
    cases scanDigits signedChar rest <;> simp [Except.map, Nat.add_assoc]

/-- A scan ends before a character that is no digit. -/
theorem scanDigits_stop {rest : List Byte} (hdigit : ∀ c ∈ rest.head?, ¬isdigit c)
    (hdomain : ∀ c ∈ rest.head?, ¬OutOfDomain signedChar c) :
    scanDigits signedChar rest = .ok 0 := by
  cases rest with
  | nil => rfl
  | cons c rest => rw [scanDigits, if_neg (hdomain c rfl), if_neg (hdigit c rfl)]

/-- The number and the suffix of a text whose digits end in the domain of `std::isdigit`. -/
theorem splitInput_eq_ok {rest : List Byte}
    (htrimmed : trimmed isBlank input = some (digits ++ rest))
    (hdigits : ∀ c ∈ digits, isdigit c) (hdigit : ∀ c ∈ rest.head?, ¬isdigit c)
    (hdomain : ∀ c ∈ rest.head?, ¬OutOfDomain signedChar c) :
    splitInput signedChar input =
      .ok (if digits = [] then none else some (digits, rest.dropWhile isspace)) := by
  have hscan : scanDigits signedChar (digits ++ rest) = .ok digits.length := by
    rw [scanDigits_append hdigits, scanDigits_stop hdigit hdomain]
    simp [Except.map]
  unfold splitInput
  simp only [htrimmed, hscan]
  change (if digits.length = 0 then _ else _) = _
  simp only [List.length_eq_zero_iff]
  split_ifs with hnil
  · rfl
  · rw [List.take_left, List.drop_left]
    rfl

/-- Digits and what follows them are solid when no end of them is blank. -/
theorem solid_append {rest : List Byte} (hdigits : ∀ c ∈ digits, isdigit c)
    (hhead : digits = [] → ∀ c ∈ rest.head?, ¬isBlank c)
    (hlast : ∀ c ∈ rest.getLast?, ¬isBlank c) : Solid isBlank (digits ++ rest) := by
  constructor
  · cases digits with
    | nil => exact hhead rfl
    | cons d digits =>
      rintro c ⟨⟩
      exact not_isBlank_of_isdigit (hdigits d List.mem_cons_self)
  · intro c hc
    rw [List.getLast?_append] at hc
    rcases Option.or_eq_some_iff.mp hc with hrest | ⟨_, hdigit⟩
    · exact hlast c hrest
    · exact not_isBlank_of_isdigit (hdigits c (List.mem_of_getLast? hdigit))

/-- The scan of a text that meets a character outside of the domain is undefined. -/
theorem Undefined.splitInput_eq (hundefined : Undefined signedChar input) :
    splitInput signedChar input = .error .undefinedBehaviour := by
  obtain ⟨leading, digits, c, rest, rfl, hleading, hdigits, hc⟩ := hundefined
  obtain ⟨inner, trailing, hrest, htrailing, hinner⟩ := exists_trimmed_end isBlank (c :: rest)
  -- the character is not blank, so the trimmed text still has it
  cases inner with
  | nil =>
    have hmem : c ∈ trailing := by
      rw [← List.nil_append trailing, ← hrest]
      exact List.mem_cons_self
    exact absurd (htrailing c hmem) hc.not_isBlank
  | cons d inner =>
    obtain ⟨rfl, -⟩ := List.cons.inj hrest
    have hsolid : Solid isBlank (digits ++ c :: inner) := by
      refine solid_append hdigits (fun _ => ?_) hinner
      rintro d ⟨⟩
      exact hc.not_isBlank
    have htrimmed : trimmed isBlank (leading ++ (digits ++ c :: rest)) =
        some (digits ++ c :: inner) := by
      refine trimmed_eq_some_iff.mpr ⟨by simp, hsolid, leading, trailing, ?_, hleading, htrailing⟩
      rw [hrest, List.append_assoc, List.append_assoc]
    have hscan : scanDigits signedChar (digits ++ c :: inner) = .error .undefinedBehaviour := by
      rw [scanDigits_append hdigits, scanDigits, if_pos hc]
      rfl
    unfold splitInput
    simp only [htrimmed, hscan]
    rfl

/-- A reading whose spaces leave the blanks at the end to the end. -/
theorem Reading.exists_solid (hreading : Reading input digits suffix) :
    ∃ leading spaces trailing, Parts input leading digits spaces suffix trailing ∧
      Greedy spaces suffix ∧ ∀ c ∈ (spaces ++ suffix).getLast?, ¬isBlank c := by
  obtain ⟨leading, spaces, trailing, hparts, hgreedy⟩ := hreading
  cases suffix with
  | nil =>
    obtain ⟨inner, back, hspaces, hback, hinner⟩ := exists_trimmed_end isBlank spaces
    have hinput := hparts.input_eq
    have hspace : ∀ c ∈ inner, isspace c := by
      intro c hc
      exact hparts.spaces c (hspaces ▸ List.mem_append_left back hc)
    refine ⟨leading, inner, back ++ trailing, ?_, ?_, ?_⟩
    · refine { hparts with input_eq := ?_, spaces := hspace, trailing := ?_ }
      · simpa [hspaces] using hinput
      · exact List.forall_mem_append.mpr ⟨hback, hparts.trailing⟩
    · refine { hgreedy with digits_end := ?_ }
      intro c hc
      rw [List.append_nil] at hc
      exact not_isdigit_of_isspace (hspace c (List.mem_of_head? hc))
    · rwa [List.append_nil]
  | cons c suffix =>
    refine ⟨leading, spaces, trailing, hparts, hgreedy, ?_⟩
    rw [List.getLast?_append_of_ne_nil _ (List.cons_ne_nil c suffix)]
    exact hgreedy.suffix_end

/-- The greedy reading of a text is the one the parsers find. -/
theorem Reading.splitInput_eq (hreading : Reading input digits suffix)
    (hdefined : ¬Undefined signedChar input) :
    splitInput signedChar input = .ok (some (digits, suffix)) := by
  obtain ⟨leading, spaces, trailing, hparts, hgreedy, hlast⟩ := hreading.exists_solid
  have hsolid : Solid isBlank (digits ++ (spaces ++ suffix)) :=
    solid_append hparts.digits (fun hnil => absurd hnil hparts.digits_ne_nil) hlast
  have htrimmed : trimmed isBlank input = some (digits ++ (spaces ++ suffix)) := by
    refine trimmed_eq_some_iff.mpr ⟨by simp [hparts.digits_ne_nil], hsolid, ?_⟩
    exact ⟨leading, trailing, hparts.input_eq, hparts.leading, hparts.trailing⟩
  have hdomain : ∀ c ∈ (spaces ++ suffix).head?, ¬OutOfDomain signedChar c := by
    intro c hc hout
    obtain ⟨rest, hrest⟩ := List.head?_eq_some_iff.mp hc
    refine hdefined ⟨leading, digits, c, rest ++ trailing, ?_, hparts.leading, hparts.digits, hout⟩
    rw [hparts.input_eq, hrest]
    simp
  rw [splitInput_eq_ok htrimmed hparts.digits hgreedy.digits_end hdomain,
    if_neg hparts.digits_ne_nil, dropWhile_append_stop hparts.spaces hgreedy.spaces_end]

/-- A text has at most one greedy reading. -/
theorem Reading.unique {digits' suffix' : List Byte} (hreading : Reading input digits suffix)
    (hother : Reading input digits' suffix') : digits = digits' ∧ suffix = suffix' := by
  have hsame := hreading.splitInput_eq not_undefined_unsigned
  rw [hother.splitInput_eq not_undefined_unsigned] at hsame
  obtain ⟨hdigits, hsuffix⟩ := Prod.mk.inj (Option.some.inj (Except.ok.inj hsame))
  exact ⟨hdigits.symm, hsuffix.symm⟩

/-- Where the scan is defined the parsers find no number or a greedy reading. -/
theorem splitInput_cases (hdefined : ¬Undefined signedChar input) :
    splitInput signedChar input = .ok none ∨
      ∃ digits suffix, splitInput signedChar input = .ok (some (digits, suffix)) ∧
        Reading input digits suffix := by
  cases htrimmed : trimmed isBlank input with
  | none =>
    refine Or.inl ?_
    simp only [splitInput, htrimmed]
  | some mid =>
    obtain ⟨_, hsolid, leading, trailing, hinput, hleading, htrailing⟩ :=
      trimmed_eq_some_iff.mp htrimmed
    obtain ⟨digits, rest, rfl, hdigits, hstop⟩ := exists_scan isdigit mid
    have hdomain : ∀ c ∈ rest.head?, ¬OutOfDomain signedChar c := by
      intro c hc hout
      obtain ⟨rest, rfl⟩ := List.head?_eq_some_iff.mp hc
      refine hdefined ⟨leading, digits, c, rest ++ trailing, ?_, hleading, hdigits, hout⟩
      simp [hinput]
    rw [splitInput_eq_ok htrimmed hdigits hstop hdomain]
    obtain ⟨spaces, suffix, rfl, hspaces, hsuffix⟩ := exists_scan isspace rest
    rw [dropWhile_append_stop hspaces hsuffix]
    split_ifs with hnil
    · exact Or.inl rfl
    · have hlast : ∀ c ∈ suffix.getLast?, ¬isBlank c := by
        intro c hc
        refine hsolid.last c ?_
        rw [List.getLast?_append, List.getLast?_append, Option.mem_def.mp hc]
        rfl
      exact Or.inr ⟨digits, suffix, rfl, leading, spaces, trailing,
        ⟨hinput, hleading, hnil, hdigits, hspaces, htrailing⟩, ⟨hstop, hsuffix, hlast⟩⟩

/-- What the parsers find is a greedy reading. -/
theorem reading_of_splitInput
    (hsplit : splitInput signedChar input = .ok (some (digits, suffix))) :
    Reading input digits suffix := by
  by_cases hundefined : Undefined signedChar input
  · rw [hundefined.splitInput_eq] at hsplit
    cases hsplit
  · rcases splitInput_cases hundefined with hnone | ⟨digits', suffix', hsome, hreading⟩
    · rw [hnone] at hsplit
      cases hsplit
    · rw [hsome] at hsplit
      cases hsplit
      exact hreading

end CppJam.Parsers

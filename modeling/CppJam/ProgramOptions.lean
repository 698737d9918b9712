import CppJam.Checks
import Mathlib.Data.List.Induction
import Mathlib.Logic.Function.Basic

/-!
# Options of a command line

A command line is a sequence of occurrences of options, each with or without an argument. The
options are described by their names, by how an occurrence is read, and by a value that they
have when they do not occur. A library stores a command line, unless it refuses it, and a value
is then looked up by the name of its option. What is known of the library are two laws: an option
that can be given once only keeps the value of its occurrence, and a name that is not described
has no value. Storing the occurrences in order, each by the description of its name, keeps them.
-/

namespace ProgramOptions

variable {τ ν : Type}

/-- The description of an option: arguments are texts in `τ`, and values are in `ν`. -/
structure Description (τ ν : Type) where
  /-- The name under which values are stored. -/
  name : String
  /-- The value after an occurrence, from the value before it and its argument, unless it is
  refused. -/
  read : Option ν → Option τ → Option ν
  /-- The value of an option that does not occur. -/
  default : Option ν

/-- An occurrence of an option, by its full name. -/
structure Occurrence (τ : Type) where
  /-- The name of the option. -/
  name : String
  /-- Its argument. -/
  argument : Option τ

/-- A stored value. -/
structure Variable (ν : Type) where
  /-- The value. -/
  value : ν
  /-- The option did not occur. -/
  defaulted : Bool

/-- The stored values by name. -/
abbrev VariablesMap (ν : Type) := String → Option (Variable ν)

/-- An option that can be given once. -/
def once (parse : Option τ → Option ν) (previous : Option ν) (argument : Option τ) : Option ν :=
  if previous.isSome then none else parse argument

/-- The description of a name. -/
def describe (options : List (Description τ ν)) (name : String) : Option (Description τ ν) :=
  options.find? fun d => d.name = name

/-- The argument of the first occurrence of a name. -/
def given (occurrences : List (Occurrence τ)) (name : String) : Option (Option τ) :=
  (occurrences.find? fun o => o.name = name).map Occurrence.argument

/-- What is known of a library that stores command lines. -/
structure Laws (store : List (Description τ ν) → List (Occurrence τ) → Option (VariablesMap ν)) :
    Prop where
  /-- The variable of an option that can be given once: the value of its argument if it is given,
  which is then accepted, and its default otherwise. -/
  once : ∀ {options occurrences vm name d parse}, store options occurrences = some vm →
    describe options name = some d → d.read = once parse →
    (∀ argument, given occurrences name = some argument →
      ∃ value, parse argument = some value ∧ vm name = some ⟨value, false⟩) ∧
    (given occurrences name = none → vm name = d.default.map (⟨·, true⟩))
  /-- A name that is not described has no variable, whatever was given. -/
  undescribed : ∀ {options occurrences vm name}, store options occurrences = some vm →
    describe options name = none → vm name = none

/-! ## Storing in order -/

/-- Store one occurrence. -/
def storeOne (options : List (Description τ ν)) (values : String → Option ν) (o : Occurrence τ) :
    Option (String → Option ν) := do
  let d ← describe options o.name
  let value ← d.read (values o.name) o.argument
  return Function.update values o.name (some value)

/-- The variable of a name, from the value of its occurrences. -/
def variableOf (options : List (Description τ ν)) (values : String → Option ν) (name : String) :
    Option (Variable ν) :=
  match values name with
  | some value => some ⟨value, false⟩
  | none => ((describe options name).bind Description.default).map (⟨·, true⟩)

/-- Store a command line in order, unless it is refused. -/
def storeInOrder (options : List (Description τ ν)) (occurrences : List (Occurrence τ)) :
    Option (VariablesMap ν) := do
  let values ← occurrences.foldlM (storeOne options) fun _ => none
  return variableOf options values

variable {options : List (Description τ ν)} {occurrences : List (Occurrence τ)} {name : String}
  {values : String → Option ν} {vm : VariablesMap ν}

/-- What is given with one more occurrence. -/
theorem given_append_singleton (o : Occurrence τ) :
    given (occurrences ++ [o]) name =
      (given occurrences name).or (if o.name = name then some o.argument else none) := by
  rw [given, List.find?_append, given]
  cases occurrences.find? fun o => o.name = name with
  | some o' => rfl
  | none => by_cases hname : o.name = name <;> simp [hname]

/-- What storing one occurrence does. -/
theorem storeOne_eq_some {o : Occurrence τ} {values' : String → Option ν}
    (hstore : storeOne options values o = some values') :
    ∃ d value, describe options o.name = some d ∧
      d.read (values o.name) o.argument = some value ∧
      values' = Function.update values o.name (some value) := by
  simp only [storeOne, Option.bind_eq_bind, Option.bind_eq_some_iff, Option.pure_def,
    Option.some.injEq] at hstore
  obtain ⟨d, hd, value, hvalue, rfl⟩ := hstore
  exact ⟨d, value, hd, hvalue, rfl⟩

/-- A name that is not described gets no value. -/
theorem foldlM_undescribed (hname : describe options name = none)
    (hstore : occurrences.foldlM (storeOne options) (fun _ => none) = some values) :
    values name = none := by
  induction occurrences using List.reverseRecOn generalizing values with
  | nil =>
    cases hstore
    rfl
  | append_singleton occurrences o ih =>
    simp only [List.foldlM_append, List.foldlM_cons, List.foldlM_nil, Option.bind_eq_bind,
      Option.bind_eq_some_iff, Option.pure_def, Option.some.injEq, exists_eq_right] at hstore
    obtain ⟨before, hfront, hlast⟩ := hstore
    obtain ⟨d, value, hd, _, rfl⟩ := storeOne_eq_some hlast
    have hne : name ≠ o.name := by
      rintro rfl
      exact absurd (hname.symm.trans hd) nofun
    rw [Function.update_of_ne hne, ih hfront]

/-- An option that can be given once has the value of its occurrence. -/
theorem foldlM_once {d : Description τ ν} {parse : Option τ → Option ν}
    (hd : describe options name = some d) (hread : d.read = once parse)
    (hstore : occurrences.foldlM (storeOne options) (fun _ => none) = some values) :
    values name = (given occurrences name).bind parse ∧
      (values name = none → given occurrences name = none) := by
  induction occurrences using List.reverseRecOn generalizing values with
  | nil =>
    cases hstore
    exact ⟨rfl, fun _ => rfl⟩
  | append_singleton occurrences o ih =>
    simp only [List.foldlM_append, List.foldlM_cons, List.foldlM_nil, Option.bind_eq_bind,
      Option.bind_eq_some_iff, Option.pure_def, Option.some.injEq, exists_eq_right] at hstore
    obtain ⟨before, hfront, hlast⟩ := hstore
    obtain ⟨hbefore, hnone⟩ := ih hfront
    obtain ⟨d', value, hd', hvalue, rfl⟩ := storeOne_eq_some hlast
    rw [given_append_singleton]
    by_cases hname : o.name = name
    · subst hname
      obtain rfl : d = d' := Option.some.inj (hd.symm.trans hd')
      rw [hread] at hvalue
      cases hprevious : before o.name with
      | some previous => simp [once, hprevious] at hvalue
      | none =>
        have hparse : parse o.argument = some value := by simpa [once, hprevious] using hvalue
        simp [hnone hprevious, hparse]
    · rw [Function.update_of_ne (Ne.symm hname), if_neg hname, Option.or_none]
      exact ⟨hbefore, hnone⟩

/-- A stored command line comes from the values of its occurrences. -/
theorem storeInOrder_eq_some (hstore : storeInOrder options occurrences = some vm) :
    ∃ values, occurrences.foldlM (storeOne options) (fun _ => none) = some values ∧
      vm = variableOf options values := by
  simp only [storeInOrder, Option.bind_eq_bind, Option.bind_eq_some_iff, Option.pure_def,
    Option.some.injEq] at hstore
  obtain ⟨values, hvalues, rfl⟩ := hstore
  exact ⟨values, hvalues, rfl⟩

/-- Storing in order keeps the laws. -/
theorem laws_storeInOrder :
    Laws (storeInOrder : List (Description τ ν) → List (Occurrence τ) → _) where
  once {options occurrences vm name d parse} hstore hd hread := by
    obtain ⟨values, hvalues, rfl⟩ := storeInOrder_eq_some hstore
    obtain ⟨hvalue, hnone⟩ := foldlM_once hd hread hvalues
    constructor
    · intro argument hgiven
      cases hstored : values name with
      | none => exact absurd (hgiven.symm.trans (hnone hstored)) nofun
      | some value =>
        refine ⟨value, ?_, by rw [variableOf, hstored]⟩
        rwa [hstored, hgiven, Option.bind_some, eq_comm] at hvalue
    · intro hgiven
      have hstored : values name = none := by rw [hvalue, hgiven, Option.bind_none]
      rw [variableOf, hstored, hd]
      rfl
  undescribed {options occurrences vm name} hstore hname := by
    obtain ⟨values, hvalues, rfl⟩ := storeInOrder_eq_some hstore
    rw [variableOf, foldlM_undescribed hname hvalues, hname]
    rfl

end ProgramOptions

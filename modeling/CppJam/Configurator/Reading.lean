import CppJam.Configurator.Sections

/-!
# What reading the configuration file does

Reading a section throws when an entry does, and otherwise sets the flag when the section is
not a map or an entry asks for it, and changes the configuration entry by entry. The texts of
the entries then say what the configuration is.
-/

namespace CppJam.Configurator

open Bytes Checks Parsers Yaml

variable {A N : Type} [Nodes N Str] {configFile : Option N} {name : Str} {notMap : String}
  {entries : List (FileEntry A)} {node : N} {c : Members A} {config : Configuration A}
  {platform : Platform A}

/-- The node of a section, if it is defined. -/
def sectionOf (configFile : Option N) (name : Str) : Option N :=
  configFile.bind (Nodes.find · name)

/-- The text of an entry of the file, if it is defined and a scalar. -/
def textOf (configFile : Option N) (name key : Str) : Option Str :=
  (sectionOf configFile name).bind (Nodes.textAt · key)

/-- The file is a scalar as a whole, which has no sections. -/
def ScalarRoot (configFile : Option N) : Prop :=
  ∃ file, configFile = some file ∧ (Nodes.scalar file).isSome = true

/-- Reading the entries of a section throws. -/
def SectionThrows (configFile : Option N) (name : Str) (entries : List (FileEntry A)) :
    Prop :=
  ∃ e ∈ entries, ∃ text, textOf configFile name e.key = some text ∧ (e.judge text).throws ≠ none

/-- Reading a section sets the flag. -/
def sectionFlags (configFile : Option N) (name : Str) (entries : List (FileEntry A)) :
    Bool :=
  match sectionOf configFile name with
  | none => false
  | some node => !Nodes.isMap node || entries.any fun e => (e.verdictAt node).flags

/-- The configuration after an entry with a text, if it has one. -/
def FileEntry.change (e : FileEntry A) : Option Str → Configuration A → Configuration A
  | none, config => config
  | some text, config => (e.judge text).update config

/-- The configuration after a section. -/
def sectionConfig (configFile : Option N) (name : Str) (entries : List (FileEntry A))
    (config : Configuration A) : Configuration A :=
  entries.foldl (fun config e => e.change (textOf configFile name e.key) config) config

/-! ## Entries -/

/-- An entry without a text changes nothing. -/
@[simp] theorem change_none (e : FileEntry A) (config : Configuration A) :
    e.change none config = config := rfl

/-- An entry is not defined, or it has a text that is judged, or it is not a scalar. -/
theorem verdictAt_cases (e : FileEntry A) (node : N) :
    (Nodes.find node e.key = none ∧ Nodes.textAt node e.key = none ∧
        e.verdictAt node = .accept id) ∨
      (∃ entry value, Nodes.find node e.key = some entry ∧ Nodes.scalar entry = some value ∧
        Nodes.textAt node e.key = some value ∧ e.verdictAt node = e.judge value) ∨
      ∃ entry, Nodes.find node e.key = some entry ∧ Nodes.scalar entry = none ∧
        Nodes.textAt node e.key = none ∧ e.verdictAt node = .note e.notScalar true := by
  unfold FileEntry.verdictAt Nodes.textAt
  cases Nodes.find node e.key with
  | none => exact .inl ⟨rfl, rfl, rfl⟩
  | some entry =>
    cases hscalar : Nodes.scalar entry with
    | some value => exact .inr (.inl ⟨entry, value, rfl, hscalar, hscalar, by simp [hscalar]⟩)
    | none => exact .inr (.inr ⟨entry, rfl, hscalar, hscalar, by simp [hscalar]⟩)

/-- The configuration changes by the verdict on the text of an entry. -/
theorem update_verdictAt (e : FileEntry A) (node : N) (config : Configuration A) :
    (e.verdictAt node).update config = e.change (Nodes.textAt node e.key) config := by
  obtain ⟨_, htext, hverdict⟩ | ⟨_, value, _, _, htext, hverdict⟩ | ⟨_, _, _, htext, hverdict⟩ :=
    verdictAt_cases e node
  all_goals
    rw [htext, hverdict]
    rfl

/-- An exception is thrown by the verdict on the text of an entry. -/
theorem throws_verdictAt (e : FileEntry A) (node : N) :
    (e.verdictAt node).throws =
      (Nodes.textAt node e.key).bind fun text => (e.judge text).throws := by
  obtain ⟨_, htext, hverdict⟩ | ⟨_, value, _, _, htext, hverdict⟩ | ⟨_, _, _, htext, hverdict⟩ :=
    verdictAt_cases e node
  all_goals
    rw [htext, hverdict]
    rfl

/-- Entries that do not throw are read one after the other. -/
theorem foldlM_apply (hthrows : ∀ e ∈ entries, (e.verdictAt node).throws = none)
    (c : Members A) :
    ∃ lines, entries.foldlM (fun c e => (e.verdictAt node).apply c) c =
      .ok ⟨entries.foldl (fun config e => (e.verdictAt node).update config) c.config, lines,
        c.fileHasError || entries.any fun e => (e.verdictAt node).flags⟩ := by
  induction entries generalizing c with
  | nil => exact ⟨c.fileErrors, by simp [Pure.pure, Except.pure]⟩
  | cons e entries ih =>
    obtain ⟨hfirst, hrest⟩ := List.forall_mem_cons.mp hthrows
    have happly : (e.verdictAt node).apply c = .ok ⟨(e.verdictAt node).update c.config,
        c.fileErrors ++ (e.verdictAt node).lines,
        c.fileHasError || (e.verdictAt node).flags⟩ := by
      rw [Verdict.apply, hfirst]
    obtain ⟨lines, hlines⟩ := ih hrest ⟨(e.verdictAt node).update c.config,
      c.fileErrors ++ (e.verdictAt node).lines, c.fileHasError || (e.verdictAt node).flags⟩
    refine ⟨lines, ?_⟩
    rw [List.foldlM_cons, happly, List.foldl_cons, List.any_cons, ← Bool.or_assoc]
    exact hlines

/-- Entries of which one throws are not read to the end. -/
theorem foldlM_apply_throws (hthrows : ∃ e ∈ entries, (e.verdictAt node).throws ≠ none)
    (c : Members A) :
    ∃ exception, entries.foldlM (fun c e => (e.verdictAt node).apply c) c =
      .error (.thrown exception) := by
  induction entries generalizing c with
  | nil =>
    obtain ⟨e, he, _⟩ := hthrows
    exact absurd he List.not_mem_nil
  | cons e entries ih =>
    rw [List.foldlM_cons]
    cases hfirst : (e.verdictAt node).throws with
    | some exception => exact ⟨exception, by rw [Verdict.apply, hfirst]; rfl⟩
    | none =>
      obtain ⟨e', he', hthrow⟩ := hthrows
      rcases List.mem_cons.mp he' with rfl | he'
      · exact absurd hfirst hthrow
      · rw [Verdict.apply, hfirst]
        exact ih ⟨e', he', hthrow⟩ _

/-! ## Sections -/

/-- A node with a text is a map. -/
theorem isMap_of_textAt {key text : Str} (htext : Nodes.textAt node key = some text) :
    Nodes.isMap node = true := by
  obtain ⟨_, hentry, _⟩ := Option.bind_eq_some_iff.mp htext
  exact Nodes.isMap_of_find hentry

/-- A file with a section can be asked for it. -/
theorem readSection_of_sectionOf (hnode : sectionOf configFile name = some node) (c : Members A) :
    readSection configFile name notMap entries c =
      if Nodes.isMap node then entries.foldlM (fun c e => (e.verdictAt node).apply c) c
      else (Verdict.note notMap true).apply c := by
  obtain ⟨file, rfl, hfind⟩ := Option.bind_eq_some_iff.mp hnode
  simp only [readSection, Nodes.subscript_of_find hfind]

/-- Reading a section throws when an entry does. -/
theorem readSection_throws (hthrows : SectionThrows configFile name entries) (c : Members A) :
    ∃ exception, readSection configFile name notMap entries c = .error (.thrown exception) := by
  obtain ⟨e, he, text, htext, hthrow⟩ := hthrows
  obtain ⟨node, hnode, htext⟩ := Option.bind_eq_some_iff.mp htext
  rw [readSection_of_sectionOf hnode, if_pos (isMap_of_textAt htext)]
  refine foldlM_apply_throws ⟨e, he, ?_⟩ c
  rwa [throws_verdictAt, htext]

/-- Reading a section of a file that is a scalar throws. -/
theorem readSection_scalarRoot (hroot : ScalarRoot configFile) (c : Members A) :
    readSection configFile name notMap entries c = .error (.thrown .badSubscript) := by
  obtain ⟨file, rfl, hscalar⟩ := hroot
  have hthrows := (Nodes.subscript_eq_none file name).mpr hscalar
  simp only [readSection, hthrows]

/-- A section that is not defined is passed over. -/
theorem readSection_none (hroot : ¬ScalarRoot configFile)
    (hnode : sectionOf configFile name = none) (c : Members A) :
    readSection configFile name notMap entries c = .ok c := by
  cases configFile with
  | none => rfl
  | some file =>
    cases hsubscript : Nodes.subscript file name with
    | none => exact absurd ⟨file, rfl, (Nodes.subscript_eq_none file name).mp hsubscript⟩ hroot
    | some found =>
      obtain rfl : found = none := by
        simpa [sectionOf, Nodes.find, hsubscript] using hnode
      simp only [readSection, hsubscript]

/-- What reading a section does when no entry throws. -/
theorem readSection_eq (hroot : ¬ScalarRoot configFile)
    (hthrows : ¬SectionThrows configFile name entries) (c : Members A) :
    ∃ lines, readSection configFile name notMap entries c =
      .ok ⟨sectionConfig configFile name entries c.config, lines,
        c.fileHasError || sectionFlags configFile name entries⟩ := by
  cases hnode : sectionOf configFile name with
  | none =>
    have htext : ∀ key, textOf configFile name key = none := fun key => by rw [textOf, hnode]; rfl
    refine ⟨c.fileErrors, ?_⟩
    rw [readSection_none hroot hnode]
    simp [sectionConfig, htext, sectionFlags, hnode]
  | some node =>
    have htext : ∀ key, textOf configFile name key = Nodes.textAt node key :=
      fun key => by rw [textOf, hnode]; rfl
    have hconfig : sectionConfig configFile name entries c.config =
        entries.foldl (fun config e => (e.verdictAt node).update config) c.config := by
      simp only [sectionConfig, htext, update_verdictAt]
    rw [readSection_of_sectionOf hnode]
    by_cases hmap : Nodes.isMap node = true
    · have hquiet : ∀ e ∈ entries, (e.verdictAt node).throws = none := by
        intro e he
        rw [throws_verdictAt]
        cases hkey : Nodes.textAt node e.key with
        | none => rfl
        | some text =>
          by_contra hthrow
          exact hthrows ⟨e, he, text, (htext e.key).trans hkey, hthrow⟩
      obtain ⟨lines, hlines⟩ := foldlM_apply hquiet c
      refine ⟨lines, ?_⟩
      rw [if_pos hmap, hlines, hconfig]
      simp [sectionFlags, hnode, hmap]
    · have hnone : ∀ key, Nodes.textAt node key = none := by
        intro key
        cases hkey : Nodes.textAt node key with
        | none => rfl
        | some text => exact absurd (isMap_of_textAt hkey) hmap
      refine ⟨c.fileErrors ++ [notMap], ?_⟩
      rw [if_neg hmap]
      simp [Verdict.apply, Verdict.throws, Verdict.update, Verdict.lines, Verdict.flags,
        sectionConfig, htext, hnone, sectionFlags, hnode, hmap]

end CppJam.Configurator

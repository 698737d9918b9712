import CppJam.Configurator.Stages

/-!
# Validation of the configuration file

A configuration file is invalid when one of its sections is not a map, or an entry is not a
scalar or has a value that is not allowed. Errors of a section are told by a line and a flag.
Only the flag has effects, and only after the sections `general` and `database`: the
calculation returns an error for exactly the files and command lines that are named here.
-/

namespace CppJam.Configurator

open Bytes Checks Parsers ProgramOptions Yaml

variable {A N : Type} [Nodes N Str] {platform : Platform A} {fs : FileSystem}
  {configFile : Option N} {args : List (Occurrence Str)} {vm : VariablesMap Value} {name : Str}

/-- The keys of a section with the texts that they allow. -/
abbrev Schema := List (Str × (Str → Bool))

/-- The section is not a map, or one of its entries is not a text that the schema allows. -/
def SectionInvalid (configFile : Option N) (name : Str) (schema : Schema) : Prop :=
  ∃ node, sectionOf configFile name = some node ∧
    (Nodes.isMap node = false ∨ ∃ field ∈ schema, ∃ entry,
      Nodes.find node field.1 = some entry ∧
        ∀ value, Nodes.scalar entry = some value → field.2 value = false)

/-- Entries that can have any text. -/
def anyText (keys : List String) : Schema := keys.map fun key => (str key, fun _ => true)

/-- The section `general`. -/
def generalSchema : Schema := anyText ["name", "base_path", "spec_file", "modules_dir"]

/-- The section `database`. -/
def databaseSchema (platform : Platform A) : Schema :=
  [(str "path", fun _ => true),
    (str "cache_size", fun value =>
      match parseByteQuantity platform.signedChar value with
      | .ok none => false
      | _ => true)]

/-- The section `metrics`. -/
def metricsSchema (platform : Platform A) : Schema :=
  [(str "enabled", fun value => value = str "true" ∨ value = str "false"),
    (str "host", fun value => (platform.addressFromString value).isSome),
    (str "port", fun value =>
      (platform.asSsize value).any fun port => 1 ≤ port ∧ port ≤ 65535)]

/-- Some entry of the file has the wrong kind or an invalid value. -/
def FileInvalid (platform : Platform A) (configFile : Option N) : Prop :=
  SectionInvalid configFile (str "general") generalSchema ∨
    SectionInvalid configFile (str "database") (databaseSchema platform) ∨
    SectionInvalid configFile (str "metrics") (metricsSchema platform)

/-- The computation returns an error. -/
def Returns {α : Type} (x : Except Stop α) : Prop := ∃ error, x = .error (.returned error)

/-- An invalid file makes the calculation return an error. -/
def ValidationLaw (platform : Platform A) (fs : FileSystem) (configFile : Option N)
    (vm : VariablesMap Value) : Prop :=
  FileInvalid platform configFile → Returns (calculateConfig platform fs configFile vm)

/-! ## When an error is returned -/

/-- The base path is absolute, leads to a directory and can be made the working directory. -/
structure BaseAccepted (fs : FileSystem) (basePath : Str) : Prop where
  absolute : isAbsolute basePath = true
  isDirectory : fs.isDirectory fs.workingDirectory basePath = some true
  entered : fs.changeDirectory basePath = some ()

/-- From the base path, the path of the modules leads to a directory. -/
def ModulesAccepted (fs : FileSystem) (basePath modulesDir : Str) : Prop :=
  ∃ path, fs.weaklyCanonical basePath modulesDir = some path ∧
    fs.isDirectory basePath path = some true

/-- From the base path, the path of the spec leads to a regular file. -/
def SpecAccepted (fs : FileSystem) (basePath specFile : Str) : Prop :=
  ∃ path, fs.weaklyCanonical basePath specFile = some path ∧
    fs.isRegularFile basePath path = some true

/-- The file system says of the first path that is not accepted that it is not what it should
be. -/
def PathsRefused (fs : FileSystem) (basePath modulesDir specFile : Str) : Prop :=
  isAbsolute basePath = false ∨
    (isAbsolute basePath = true ∧ fs.isDirectory fs.workingDirectory basePath = some false) ∨
    (BaseAccepted fs basePath ∧ ∃ path, fs.weaklyCanonical basePath modulesDir = some path ∧
      fs.isDirectory basePath path = some false) ∨
    (BaseAccepted fs basePath ∧ ModulesAccepted fs basePath modulesDir ∧
      ∃ path, fs.weaklyCanonical basePath specFile = some path ∧
        fs.isRegularFile basePath path = some false)

/-- The size of the cache in the file has a character for which its reading is undefined. -/
def CacheSizeAborts (platform : Platform A) (configFile : Option N) : Prop :=
  ∃ value cause, textOf configFile (str "database") (str "cache_size") = some value ∧
    parseByteQuantity platform.signedChar value = .error cause

/-- The port in the file is not a number. -/
def PortThrows (platform : Platform A) (configFile : Option N) : Prop :=
  ∃ value, textOf configFile (str "metrics") (str "port") = some value ∧
    platform.asSsize value = none

/-- The file and the command line for which an error is returned. -/
def Refused (platform : Platform A) (fs : FileSystem) (configFile : Option N)
    (args : List (Occurrence Str)) : Prop :=
  let basePath := generalText configFile args "base_path" []
  let modulesDir := generalText configFile args "modules_dir" []
  let specFile := generalText configFile args "spec_file" []
  let directory := pick (argumentOf args "db_path")
    (textOf configFile (str "database") (str "path")) defaultDirectory
  SectionInvalid configFile (str "general") generalSchema ∨
    PathsRefused fs basePath modulesDir specFile ∨
    (BaseAccepted fs basePath ∧ ModulesAccepted fs basePath modulesDir ∧
      SpecAccepted fs basePath specFile ∧ ¬CacheSizeAborts platform configFile ∧
      (SectionInvalid configFile (str "database") (anyText ["path", "cache_size"]) ∨
        (fs.weaklyCanonical basePath directory ≠ none ∧ ¬PortThrows platform configFile ∧
          ArgumentRefused platform args)))

/-- An entry sets the flag when it is not a scalar, or its text is judged so. -/
theorem flags_verdictAt (e : FileEntry A) (node : N) :
    (e.verdictAt node).flags = true ↔ ∃ entry, Nodes.find node e.key = some entry ∧
      ∀ value, Nodes.scalar entry = some value → (!(e.judge value).flags) = false := by
  obtain ⟨hfind, _, hverdict⟩ | ⟨entry, value, hfind, hscalar, _, hverdict⟩ |
    ⟨entry, hfind, hscalar, _, hverdict⟩ := verdictAt_cases e node
  · simp [hfind, hverdict, Verdict.flags]
  · simp [hfind, hverdict, hscalar]
  · simp [hfind, hverdict, hscalar, Verdict.flags]

/-- The flag is set for sections that are invalid in what their entries set it for. -/
theorem sectionFlags_iff (entries : List (FileEntry A)) :
    sectionFlags configFile name entries = true ↔ SectionInvalid configFile name
      (entries.map fun e => (e.key, fun value => !(e.judge value).flags)) := by
  unfold sectionFlags SectionInvalid
  cases sectionOf configFile name with
  | none => simp
  | some node => simp [flags_verdictAt]

/-- The section `general` sets the flag when it is invalid. -/
theorem sectionFlags_general :
    sectionFlags configFile (str "general") (generalEntries : List (FileEntry A)) = true ↔
      SectionInvalid configFile (str "general") generalSchema :=
  sectionFlags_iff generalEntries

/-- The section `database` sets the flag when an entry is not a scalar. -/
theorem sectionFlags_database (platform : Platform A) :
    sectionFlags configFile (str "database") (databaseEntries platform) = true ↔
      SectionInvalid configFile (str "database") (anyText ["path", "cache_size"]) := by
  have hjudge : (fun value => !((cacheSizeEntry platform).judge value).flags) = fun _ => true := by
    funext value
    simp only [cacheSizeEntry]
    cases parseByteQuantity platform.signedChar value with
    | ok size => cases size <;> rfl
    | error cause => rfl
  rw [sectionFlags_iff, databaseEntries, List.map_cons, List.map_cons, List.map_nil, hjudge]
  rfl

/-- Reading the section `database` throws for a size of the cache whose reading is undefined. -/
theorem sectionThrows_database :
    SectionThrows configFile (str "database") (databaseEntries platform) ↔
      CacheSizeAborts platform configFile := by
  constructor
  · rintro ⟨e, he, value, hvalue, hthrow⟩
    simp only [databaseEntries, List.mem_cons, List.not_mem_nil, or_false] at he
    obtain rfl | rfl := he
    · exact absurd rfl hthrow
    · simp only [cacheSizeEntry] at hvalue hthrow
      cases hparse : parseByteQuantity platform.signedChar value with
      | error cause => exact ⟨value, cause, hvalue, hparse⟩
      | ok size =>
        rw [hparse] at hthrow
        cases size <;> exact absurd rfl hthrow
  · rintro ⟨value, cause, hvalue, hparse⟩
    refine ⟨cacheSizeEntry platform, by simp [databaseEntries], value, hvalue, ?_⟩
    simp [cacheSizeEntry, hparse, Verdict.throws]

/-- Reading the section `metrics` throws for a port that is not a number. -/
theorem sectionThrows_metrics :
    SectionThrows configFile (str "metrics") (metricsEntries platform) ↔
      PortThrows platform configFile := by
  constructor
  · rintro ⟨e, he, value, hvalue, hthrow⟩
    simp only [metricsEntries, List.mem_cons, List.not_mem_nil, or_false] at he
    obtain rfl | rfl | rfl := he
    · simp only [enabledEntry] at hthrow
      split_ifs at hthrow <;> exact absurd rfl hthrow
    · simp only [hostEntry] at hthrow
      cases haddress : platform.addressFromString value <;> rw [haddress] at hthrow <;>
        exact absurd rfl hthrow
    · simp only [portEntry] at hvalue hthrow
      cases hport : platform.asSsize value with
      | none => exact ⟨value, hvalue, hport⟩
      | some port =>
        simp only [hport] at hthrow
        split_ifs at hthrow <;> exact absurd rfl hthrow
  · rintro ⟨value, hvalue, hport⟩
    refine ⟨portEntry platform, by simp [metricsEntries], value, hvalue, ?_⟩
    simp [portEntry, hport, Verdict.throws]

/-- A sequence of two computations returns an error when the first does, or the second after the
first. -/
theorem returns_bind {α β : Type} {x : Except Stop α} {f : α → Except Stop β} :
    Returns (x >>= f) ↔ Returns x ∨ ∃ a, x = .ok a ∧ Returns (f a) := by
  cases x with
  | error stop => simp [Returns, error_bind]
  | ok a => simp [Returns, ok_bind]

/-- What is done with the result of the first does not matter. -/
theorem returns_map_bind {α β γ : Type} {x : Except Stop α} {f : α → β} {g : β → Except Stop γ} :
    Returns ((f <$> x) >>= g) ↔ Returns x ∨ ∃ a, x = .ok a ∧ Returns (g (f a)) := by
  rw [bind_map_left, returns_bind]

/-- What is made of a result does not matter. -/
theorem returns_map {α β : Type} {x : Except Stop α} {f : α → β} :
    Returns (f <$> x) ↔ Returns x := by
  simp only [Returns, map_eq_error]

/-- A query of the file system does not return an error. -/
theorem not_returns_resolveDirectory (config : Configuration A) :
    ¬Returns (resolveDirectory fs configFile args config) := by
  rintro ⟨error, herror⟩
  unfold resolveDirectory makeAbsolute query at herror
  split at herror <;> cases herror

/-- A query of the file system ends with its answer. -/
theorem query_eq_ok {α : Type} {answer : Option α} {a : α} :
    query answer = .ok a ↔ answer = some a := by
  cases answer <;> simp [query]

/-- After a query, an error is returned by what follows on its answer. -/
theorem returns_query_bind {α β : Type} {answer : Option α} {f : α → Except Stop β} :
    Returns (query answer >>= f) ↔ ∃ a, answer = some a ∧ Returns (f a) := by
  cases answer <;> simp [Returns, query, ok_bind, error_bind]

/-- A test returns its error when its condition holds, or what follows returns one. -/
theorem returns_failIf_bind {α : Type} {p : Prop} [Decidable p] {error : Error}
    {f : Unit → Except Stop α} :
    Returns (failIf p (.returned error) >>= f) ↔ p ∨ ¬p ∧ Returns (f ()) := by
  by_cases hp : p
  · rw [failIf_bind_of hp]
    exact iff_of_true ⟨error, rfl⟩ (.inl hp)
  · rw [failIf_bind_of_not hp, or_iff_right hp, and_iff_right hp]

/-- From an absolute base path, a path is resolved by the file system. -/
theorem makeAbsolute_eq {basePath : Str} (hbase : isAbsolute basePath = true) (path : Str) :
    makeAbsolute fs basePath path = query (fs.weaklyCanonical basePath path) := by
  rw [makeAbsolute, if_pos hbase]

/-- The paths pass the check when all of them are accepted. -/
theorem exists_checkPaths_iff {basePath modulesDir specFile : Str} :
    (∃ paths, checkPaths fs basePath modulesDir specFile = .ok paths) ↔
      BaseAccepted fs basePath ∧ ModulesAccepted fs basePath modulesDir ∧
        SpecAccepted fs basePath specFile := by
  simp only [checkPaths, bind_eq_ok, failIf_eq_ok, query_eq_ok, pure_eq_ok, Bool.not_eq_false]
  constructor
  · rintro ⟨_, _, habsolute, _, hbase, _, rfl, _, hentered, modules, hmodules, _, hdirectory, _,
      rfl, spec, hspec, _, hregular, _, rfl, _⟩
    rw [makeAbsolute_eq habsolute, query_eq_ok] at hmodules hspec
    exact ⟨⟨habsolute, hbase, hentered⟩, ⟨modules, hmodules, hdirectory⟩, ⟨spec, hspec, hregular⟩⟩
  · rintro ⟨⟨habsolute, hbase, hentered⟩, ⟨modules, hmodules, hdirectory⟩, ⟨spec, hspec, hregular⟩⟩
    rw [← query_eq_ok, ← makeAbsolute_eq habsolute] at hmodules hspec
    exact ⟨_, (), habsolute, _, hbase, (), rfl, (), hentered, modules, hmodules, _, hdirectory, (),
      rfl, spec, hspec, _, hregular, (), rfl, rfl⟩

/-- The check of the paths returns an error when one is refused. -/
theorem returns_checkPaths {basePath modulesDir specFile : Str} :
    Returns (checkPaths fs basePath modulesDir specFile) ↔
      PathsRefused fs basePath modulesDir specFile := by
  cases habsolute : isAbsolute basePath with
  | false =>
    refine iff_of_true ⟨.invalidValue, ?_⟩ (.inl habsolute)
    rw [checkPaths, failIf_bind_of habsolute]
  | true =>
    have hend : ∀ paths : Str × Str, ¬Returns (pure paths) := by
      rintro paths ⟨error, herror⟩
      exact pure_ne_error herror
    rw [checkPaths, failIf_bind_of_not (by simp [habsolute])]
    simp only [makeAbsolute_eq habsolute, returns_query_bind, returns_failIf_bind, Bool.exists_bool,
      hend, Bool.true_eq_false, true_or, and_true, false_or, not_false_eq_true, true_and, or_false,
      and_false]
    constructor
    · rintro (hbase | ⟨hbase, _, hentered, modules, hmodules, hdirectory | ⟨hdirectory, hspec⟩⟩)
      · exact .inr (.inl ⟨habsolute, hbase⟩)
      · exact .inr (.inr (.inl ⟨⟨habsolute, hbase, hentered⟩, modules, hmodules, hdirectory⟩))
      · exact .inr (.inr (.inr ⟨⟨habsolute, hbase, hentered⟩, ⟨modules, hmodules, hdirectory⟩,
          hspec⟩))
    · rintro (hrelative | ⟨_, hbase⟩ | ⟨hbase, modules, hmodules, hdirectory⟩ |
        ⟨hbase, ⟨modules, hmodules, hdirectory⟩, hspec⟩)
      · rw [habsolute] at hrelative
        cases hrelative
      · exact .inl hbase
      · exact .inr ⟨hbase.isDirectory, (), hbase.entered, modules, hmodules, .inl hdirectory⟩
      · exact .inr ⟨hbase.isDirectory, (), hbase.entered, modules, hmodules,
          .inr ⟨hdirectory, hspec⟩⟩

/-- The directory of the database is resolved when the file system can resolve it. -/
theorem exists_resolveDirectory_iff (platform : Platform A) (paths : Str × Str)
    (hbase : isAbsolute (generalText configFile args "base_path" []) = true) :
    (∃ directory, resolveDirectory fs configFile args
        (generalResult platform configFile args paths) = .ok directory) ↔
      fs.weaklyCanonical (generalText configFile args "base_path" [])
        (pick (argumentOf args "db_path") (textOf configFile (str "database") (str "path"))
          defaultDirectory) ≠ none := by
  have hresolve : resolveDirectory fs configFile args
      (generalResult platform configFile args paths) =
        query (fs.weaklyCanonical (generalText configFile args "base_path" [])
          (pick (argumentOf args "db_path") (textOf configFile (str "database") (str "path"))
            defaultDirectory)) := makeAbsolute_eq hbase _
  simp only [hresolve, query_eq_ok, Option.ne_none_iff_exists']

/-! ## The parts -/

section Parts

variable (hstep2 : step2 platform args = .ok vm) (hroot : ¬ScalarRoot configFile)
include hstep2 hroot

/-- The third part returns an error for the command line only. -/
theorem returns_metrics (c : Members A) :
    Returns (initOpenMetricsConfig platform configFile vm c) ↔
      ¬PortThrows platform configFile ∧ ArgumentRefused platform args := by
  rw [← sectionThrows_metrics]
  by_cases hthrows : SectionThrows configFile (str "metrics") (metricsEntries platform)
  · obtain ⟨exception, hinit⟩ := initOpenMetricsConfig_of_throws vm hthrows c
    simp [Returns, hinit, hthrows]
  by_cases hrefused : ArgumentRefused platform args
  · have hinit := initOpenMetricsConfig_of_refused hstep2 hroot hthrows hrefused c
    exact iff_of_true ⟨_, hinit⟩ ⟨hthrows, hrefused⟩
  · obtain ⟨lines, flag, hinit⟩ :=
      initOpenMetricsConfig_of_not_refused hstep2 hroot hthrows hrefused c
    simp [Returns, hinit, hrefused]

/-- The second part returns an error for entries that are not scalars. -/
theorem returns_fromDatabase {c : Members A} (hc : c.fileHasError = false) :
    Returns (do
        let c ← initDatabaseConfig platform fs configFile vm c
        let c ← initOpenMetricsConfig platform configFile vm c
        return c.config) ↔
      ¬CacheSizeAborts platform configFile ∧
        (SectionInvalid configFile (str "database") (anyText ["path", "cache_size"]) ∨
          ((∃ directory, resolveDirectory fs configFile args c.config = .ok directory) ∧
            ¬PortThrows platform configFile ∧ ArgumentRefused platform args)) := by
  rw [← sectionThrows_database, ← sectionFlags_database platform]
  by_cases hthrows : SectionThrows configFile (str "database") (databaseEntries platform)
  · obtain ⟨exception, hinit⟩ := initDatabaseConfig_of_throws fs vm hthrows c
    simp [Returns, hinit, hthrows, error_bind]
  by_cases hflags : sectionFlags configFile (str "database") (databaseEntries platform)
  · have hinit := initDatabaseConfig_of_flags fs vm hroot hthrows hflags c
    simp [Returns, hinit, hthrows, hflags, error_bind]
  · obtain ⟨lines, hinit⟩ := initDatabaseConfig_of_not_flags fs hstep2 hroot hthrows hflags hc
    rw [hinit, returns_map_bind, or_iff_right (not_returns_resolveDirectory c.config)]
    simp [returns_map, returns_metrics hstep2 hroot, hthrows, hflags]

/-- The calculation returns an error for the files and command lines that are refused. -/
theorem returns_calculateConfig :
    Returns (calculateConfig platform fs configFile vm) ↔
      Refused platform fs configFile args := by
  unfold Refused
  rw [← sectionFlags_general (A := A)]
  by_cases hflags : sectionFlags configFile (str "general") (generalEntries : List (FileEntry A))
  · have hinit := initGeneralConfig_of_flags platform fs vm hroot hflags
    simp [Returns, calculateConfig, hinit, hflags, error_bind]
  · obtain ⟨lines, hinit⟩ := initGeneralConfig_of_not_flags fs hstep2 hroot hflags
    rw [or_iff_right hflags, calculateConfig, hinit, returns_map_bind, checkSources,
      returns_checkPaths]
    refine or_congr_right ?_
    constructor
    · rintro ⟨paths, hpaths, hrest⟩
      obtain ⟨hbase, hmodules, hspec⟩ := exists_checkPaths_iff.mp ⟨paths, hpaths⟩
      rw [returns_fromDatabase hstep2 hroot rfl,
        exists_resolveDirectory_iff platform paths hbase.absolute] at hrest
      exact ⟨hbase, hmodules, hspec, hrest⟩
    · rintro ⟨hbase, hmodules, hspec, hrest⟩
      obtain ⟨paths, hpaths⟩ := exists_checkPaths_iff.mpr ⟨hbase, hmodules, hspec⟩
      rw [← exists_resolveDirectory_iff platform paths hbase.absolute] at hrest
      exact ⟨paths, hpaths, (returns_fromDatabase hstep2 hroot rfl).mpr hrest⟩

end Parts

/-! ## Samples -/

/-- Libraries that know one address and one number. -/
def samplePlatform : Platform ℕ where
  signedChar := true
  anyAddress := 0
  addressFromString value := if value = str "127.0.0.1" then some 2130706433 else none
  asSsize value := if value = str "9100" then some 9100 else none
  asUint32 value := if value = str "9100" then some 9100 else none
  asUint16 value := if value = str "9100" then some 9100 else none
  store := storeInOrder
  store_laws := laws_storeInOrder

/-- A file system with two directories and a file. -/
def sampleFileSystem : FileSystem where
  workingDirectory := str "/"
  isDirectory _ path := some (path = str "/base" ∨ path = str "/base/modules")
  isRegularFile _ path := some (path = str "/base/spec.json")
  changeDirectory _ := some ()
  weaklyCanonical workingDirectory path := some (slash workingDirectory path)

/-- A command line with the paths. -/
def sampleArguments : List (Occurrence Str) :=
  [⟨"base_path", some (str "/base")⟩, ⟨"modules_dir", some (str "modules")⟩,
    ⟨"spec_file", some (str "spec.json")⟩]

/-- Its stored values. -/
def sampleVariables : VariablesMap Value :=
  (samplePlatform.store (cliOptions samplePlatform) sampleArguments).getD fun _ => none

/-- A file with one section. -/
def sectionFile (name : String) (node : Node Str) : Option (Node Str) :=
  some (.map [(.scalar (str name), node)])

/-- A section with one entry. -/
def entryNode (key value : String) : Node Str := .map [(.scalar (str key), .scalar (str value))]

/-! ## The law -/

/-- A file with an invalid section is not a scalar as a whole. -/
theorem SectionInvalid.not_scalarRoot {schema : Schema}
    (hinvalid : SectionInvalid configFile name schema) : ¬ScalarRoot configFile := by
  rintro ⟨file, rfl, hscalar⟩
  obtain ⟨node, hnode, _⟩ := hinvalid
  have hthrows := (Nodes.subscript_eq_none file name).mpr hscalar
  rw [Nodes.subscript_of_find hnode] at hthrows
  cases hthrows

/-- An invalid file is not a scalar as a whole. -/
theorem FileInvalid.not_scalarRoot (hinvalid : FileInvalid platform configFile) :
    ¬ScalarRoot configFile := by
  obtain hgeneral | hdatabase | hmetrics := hinvalid
  · exact hgeneral.not_scalarRoot
  · exact hdatabase.not_scalarRoot
  · exact hmetrics.not_scalarRoot

/-- For a command line that `step2` accepts, invalid files lead to an error exactly when the file
and the command line are refused. -/
theorem validationLaw_iff (hstep2 : step2 platform args = .ok vm) :
    ValidationLaw platform fs configFile vm ↔
      (FileInvalid platform configFile → Refused platform fs configFile args) := by
  refine forall_congr' fun hinvalid => ?_
  exact returns_calculateConfig hstep2 hinvalid.not_scalarRoot

/-- The section `general` must be a map. -/
theorem validationLaw_iff_general :
    FileInvalid samplePlatform (sectionFile "general" .null) ∧
      ValidationLaw samplePlatform sampleFileSystem (sectionFile "general" .null)
        sampleVariables := by
  have hgeneral : SectionInvalid (sectionFile "general" .null) (str "general") generalSchema :=
    ⟨.null, rfl, .inl rfl⟩
  have hstep2 : step2 samplePlatform sampleArguments = .ok sampleVariables := rfl
  exact ⟨.inl hgeneral, (validationLaw_iff hstep2).mpr fun _ => .inl hgeneral⟩

/-- The value `maybe` of `metrics.enabled` is passed over. -/
theorem not_validationLaw_enabled :
    step2 samplePlatform sampleArguments = .ok sampleVariables ∧
      (∃ config, calculateConfig samplePlatform sampleFileSystem
        (sectionFile "metrics" (entryNode "enabled" "maybe")) sampleVariables = .ok config) ∧
      ¬ValidationLaw samplePlatform sampleFileSystem
        (sectionFile "metrics" (entryNode "enabled" "maybe")) sampleVariables := by
  refine ⟨rfl, ⟨_, rfl⟩, fun hlaw => ?_⟩
  have hinvalid : FileInvalid samplePlatform
      (sectionFile "metrics" (entryNode "enabled" "maybe")) := by
    refine .inr (.inr ⟨entryNode "enabled" "maybe", rfl, .inr ?_⟩)
    refine ⟨_, List.mem_cons_self, .scalar (str "maybe"), rfl, ?_⟩
    rintro value ⟨⟩
    rfl
  obtain ⟨error, herror⟩ := hlaw hinvalid
  cases herror

end CppJam.Configurator

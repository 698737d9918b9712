import CppJam.Configurator.Validation

/-!
# Precedence of the sources of the configuration

A value of the configuration comes from the command line if it is given there, else from the
file if it is given there, else it is the default. The metrics are enabled by the file, or by
any address or port when the file does not say; the option that disables them is registered
under another name than the one that is looked up, and has no effect.
-/

namespace CppJam.Configurator

open Bytes Checks Parsers ProgramOptions Yaml

variable {A N : Type} [Nodes N Str] {platform : Platform A} {fs : FileSystem}
  {configFile : Option N} {args : List (Occurrence Str)} {vm : VariablesMap Value}
  {config : Configuration A}

/-- A value has the first of the sources that is given: an argument, an entry of the file, or the
default. -/
def ComesFrom (argument entry : Option Str) (fromArgument fromEntry : Str → Prop)
    (fromDefault : Prop) : Prop :=
  match argument, entry with
  | some text, _ => fromArgument text
  | none, some text => fromEntry text
  | none, none => fromDefault

/-- The metrics are enabled by the file, or it does not say and an address or a port is given. -/
def metricsWanted (configFile : Option N) (args : List (Occurrence Str)) : Bool :=
  match textOf configFile (str "metrics") (str "enabled") with
  | some value => value = str "true"
  | none =>
      (textOf configFile (str "metrics") (str "host")).isSome ||
        (textOf configFile (str "metrics") (str "port")).isSome ||
        (argumentOf args "prometheus_host").isSome || (argumentOf args "prometheus_port").isSome

/-- The metrics are disabled on the command line. -/
def metricsDisabled (args : List (Occurrence Str)) : Bool :=
  (given args "prometheus_disable").isSome

/-- Every value of the configuration has the first of its sources. -/
structure PrecedenceLaw (platform : Platform A) (fs : FileSystem) (configFile : Option N)
    (args : List (Occurrence Str)) (config : Configuration A) : Prop where
  /-- The name. -/
  name : ComesFrom (argumentOf args "name") (textOf configFile (str "general") (str "name"))
    (config.name = ·) (config.name = ·) (config.name = defaultName)
  /-- The base path. -/
  basePath : ComesFrom (argumentOf args "base_path")
    (textOf configFile (str "general") (str "base_path"))
    (config.basePath = ·) (config.basePath = ·) (config.basePath = [])
  /-- The modules directory, resolved. -/
  modulesDir : ComesFrom (argumentOf args "modules_dir")
    (textOf configFile (str "general") (str "modules_dir"))
    (makeAbsolute fs config.basePath · = .ok config.modulesDir)
    (makeAbsolute fs config.basePath · = .ok config.modulesDir)
    (makeAbsolute fs config.basePath [] = .ok config.modulesDir)
  /-- The spec file, resolved. -/
  specFile : ComesFrom (argumentOf args "spec_file")
    (textOf configFile (str "general") (str "spec_file"))
    (makeAbsolute fs config.basePath · = .ok config.specFile)
    (makeAbsolute fs config.basePath · = .ok config.specFile)
    (makeAbsolute fs config.basePath [] = .ok config.specFile)
  /-- The directory of the database, resolved. -/
  directory : ComesFrom (argumentOf args "db_path")
    (textOf configFile (str "database") (str "path"))
    (makeAbsolute fs config.basePath · = .ok config.database.directory)
    (makeAbsolute fs config.basePath · = .ok config.database.directory)
    (makeAbsolute fs config.basePath defaultDirectory = .ok config.database.directory)
  /-- The size of the cache of the database. -/
  cacheSize : ComesFrom (argumentOf args "db_cache_size")
    (textOf configFile (str "database") (str "cache_size"))
    (fun text => (platform.asUint32 text).map UInt32.toUInt64 = some config.database.cacheSize)
    (fun text => parseByteQuantity platform.signedChar text =
      .ok (some config.database.cacheSize))
    (config.database.cacheSize = defaultCacheSize)
  /-- The address of the metrics. -/
  address : ComesFrom (argumentOf args "prometheus_host")
    (textOf configFile (str "metrics") (str "host"))
    (fun text => platform.addressFromString text = some config.metrics.endpoint.address)
    (fun text => platform.addressFromString text = some config.metrics.endpoint.address)
    (config.metrics.endpoint.address = platform.anyAddress)
  /-- The port of the metrics. -/
  port : ComesFrom (argumentOf args "prometheus_port")
    (textOf configFile (str "metrics") (str "port"))
    (fun text => platform.asUint16 text = some config.metrics.endpoint.port)
    (fun text => platform.asSsize text = some (config.metrics.endpoint.port.toNat : ℤ))
    (config.metrics.endpoint.port = defaultPort)
  /-- The metrics. -/
  enabled : config.metrics.enabled =
    some (!metricsDisabled args && metricsWanted configFile args)

/-! ## Picked values -/

/-- A text that is picked has the first of its sources. -/
theorem comesFrom_of_pick {argument entry : Option Str} {default : Str} {P : Str → Prop}
    (hpick : P (pick argument entry default)) :
    ComesFrom argument entry P P (P default) := by
  cases argument with
  | some text => exact hpick
  | none => cases entry <;> exact hpick

/-- So has a value that is picked among converted texts, when they can be converted. -/
theorem comesFrom_convert {α : Type} {argument entry : Option Str} {default : α}
    {fromArgument fromEntry : Str → Option α}
    (hargument : ∀ text, argument = some text → fromArgument text ≠ none)
    (hentry : ∀ text, entry = some text → fromEntry text ≠ none) :
    ComesFrom argument entry
      (fun text => fromArgument text =
        some (pick (argument.bind fromArgument) (entry.bind fromEntry) default))
      (fun text => fromEntry text =
        some (pick (argument.bind fromArgument) (entry.bind fromEntry) default))
      (pick (argument.bind fromArgument) (entry.bind fromEntry) default = default) := by
  cases argument with
  | some text =>
    obtain ⟨value, hvalue⟩ := Option.ne_none_iff_exists'.mp (hargument text rfl)
    simp [ComesFrom, pick, hvalue]
  | none =>
    cases entry with
    | some text =>
      obtain ⟨value, hvalue⟩ := Option.ne_none_iff_exists'.mp (hentry text rfl)
      simp [ComesFrom, pick, hvalue]
    | none => rfl

/-- The entry can be described in another way. -/
theorem ComesFrom.imp_entry {argument entry : Option Str} {fromArgument P Q : Str → Prop}
    {fromDefault : Prop} (hfrom : ComesFrom argument entry fromArgument P fromDefault)
    (himp : ∀ text, P text → Q text) : ComesFrom argument entry fromArgument Q fromDefault := by
  match argument, entry with
  | some text, _ => exact hfrom
  | none, some text => exact himp text hfrom
  | none, none => exact hfrom

/-- A text that can be converted gives a value. -/
theorem isSome_bind {α : Type} {text : Option Str} {convert : Str → Option α}
    (hconvert : ∀ value, text = some value → convert value ≠ none) :
    (text.bind convert).isSome = text.isSome := by
  cases text with
  | none => rfl
  | some value =>
    obtain ⟨result, hresult⟩ := Option.ne_none_iff_exists'.mp (hconvert value rfl)
    simp [hresult]

/-! ## What the calculation ends with -/

/-- Paths that pass the check are resolved. -/
theorem makeAbsolute_of_checkPaths {basePath modulesDir specFile : Str} {paths : Str × Str}
    (hpaths : checkPaths fs basePath modulesDir specFile = .ok paths) :
    makeAbsolute fs basePath modulesDir = .ok paths.1 ∧
      makeAbsolute fs basePath specFile = .ok paths.2 := by
  simp only [checkPaths, bind_eq_ok, pure_eq_ok] at hpaths
  obtain ⟨_, _, _, _, _, _, _, _, dir, hdir, _, _, _, _, file, hfile, _, _, _, _, rfl⟩ := hpaths
  exact ⟨hdir, hfile⟩

/-- The configuration that is returned, and what is known of its sources. -/
theorem calculateConfig_eq_ok (hstep2 : step2 platform args = .ok vm)
    (hconfig : calculateConfig platform fs configFile vm = .ok config) :
    ∃ paths directory, checkSources fs configFile args = .ok paths ∧
      resolveDirectory fs configFile args (generalResult platform configFile args paths) =
        .ok directory ∧
      ¬CacheSizeAborts platform configFile ∧ ¬ArgumentRefused platform args ∧
      config = metricsResult platform configFile args (databaseResult platform configFile args
        (generalResult platform configFile args paths) directory) := by
  have hroot : ¬ScalarRoot configFile := by
    intro hroot
    simp [calculateConfig, initGeneralConfig, readGeneral, readSection_scalarRoot hroot] at hconfig
  simp only [calculateConfig, bind_eq_ok, pure_eq_ok] at hconfig
  obtain ⟨c₁, hgeneral, c₂, hdatabase, c₃, hmetrics, rfl⟩ := hconfig
  have hgeneralFlags : ¬sectionFlags configFile (str "general") (generalEntries (A := A)) :=
    fun hflags => not_error_of_ok hgeneral _
      (initGeneralConfig_of_flags platform fs vm hroot hflags)
  obtain ⟨lines, hinit⟩ := initGeneralConfig_of_not_flags fs hstep2 hroot hgeneralFlags
  obtain ⟨paths, hpaths, rfl⟩ := map_eq_ok.mp (hinit.symm.trans hgeneral)
  have haborts : ¬SectionThrows configFile (str "database") (databaseEntries platform) := by
    intro hthrows
    obtain ⟨_, hinit⟩ := initDatabaseConfig_of_throws fs vm hthrows _
    exact not_error_of_ok hdatabase _ hinit
  have hdatabaseFlags : ¬sectionFlags configFile (str "database") (databaseEntries platform) :=
    fun hflags => not_error_of_ok hdatabase _
      (initDatabaseConfig_of_flags fs vm hroot haborts hflags _)
  obtain ⟨_, hinit⟩ := initDatabaseConfig_of_not_flags fs hstep2 hroot haborts hdatabaseFlags
    (c := ⟨generalResult platform configFile args paths, lines, false⟩) rfl
  obtain ⟨directory, hdirectory, rfl⟩ := map_eq_ok.mp (hinit.symm.trans hdatabase)
  have hport : ¬SectionThrows configFile (str "metrics") (metricsEntries platform) := by
    intro hthrows
    obtain ⟨_, hinit⟩ := initOpenMetricsConfig_of_throws vm hthrows _
    exact not_error_of_ok hmetrics _ hinit
  have hrefused : ¬ArgumentRefused platform args := fun hrefused => not_error_of_ok hmetrics _
    (initOpenMetricsConfig_of_refused hstep2 hroot hport hrefused _)
  obtain ⟨_, _, hinit⟩ := initOpenMetricsConfig_of_not_refused hstep2 hroot hport hrefused _
  cases hinit.symm.trans hmetrics
  exact ⟨paths, directory, hpaths, hdirectory, fun h => haborts (sectionThrows_database.mpr h),
    hrefused, rfl⟩

/-- The entries of a valid section have texts that are allowed. -/
theorem allowed_of_textOf {name key text : Str} {schema : Schema} {allowed : Str → Bool}
    (hvalid : ¬SectionInvalid configFile name schema) (hfield : (key, allowed) ∈ schema)
    (htext : textOf configFile name key = some text) : allowed text = true := by
  obtain ⟨node, hnode, htext⟩ := Option.bind_eq_some_iff.mp htext
  by_contra hallowed
  obtain ⟨entry, hentry, hscalar⟩ := Option.bind_eq_some_iff.mp htext
  refine hvalid ⟨node, hnode, .inr ⟨_, hfield, entry, hentry, fun value hvalue => ?_⟩⟩
  obtain rfl : text = value := Option.some.inj (hscalar.symm.trans hvalue)
  exact Bool.eq_false_of_not_eq_true hallowed

/-! ## Samples -/

/-- A file that enables the metrics. -/
def enablingFile : Option (Node Str) := sectionFile "metrics" (entryNode "enabled" "true")

/-- The command line with the paths that disables the metrics. -/
def disablingArguments : List (Occurrence Str) :=
  ⟨"prometheus_disable", none⟩ :: sampleArguments

/-- Its stored values. -/
def disablingVariables : VariablesMap Value :=
  (samplePlatform.store (cliOptions samplePlatform) disablingArguments).getD fun _ => none

/-- The configuration with the metrics enabled. -/
def enabledConfiguration : Configuration ℕ where
  name := str "noname"
  basePath := str "/base"
  specFile := str "/base/spec.json"
  modulesDir := str "/base/modules"
  database := ⟨str "/base/db", 536870912⟩
  metrics := ⟨⟨0, 9615⟩, some true⟩

/-- The file that enables the metrics is valid. -/
theorem not_fileInvalid_enablingFile : ¬FileInvalid samplePlatform enablingFile := by
  rintro (⟨node, hnode, _⟩ | ⟨node, hnode, _⟩ | ⟨node, hnode, hinvalid⟩)
  · cases hnode
  · cases hnode
  · cases hnode
    obtain hmap | ⟨field, hfield, entry, hentry, hallowed⟩ := hinvalid
    · cases hmap
    · simp only [metricsSchema, List.mem_cons, List.not_mem_nil, or_false] at hfield
      obtain rfl | rfl | rfl := hfield
      · cases hentry
        exact absurd (hallowed _ rfl) (by decide)
      · cases hentry
      · cases hentry

/-! ## The law -/

section Sources

variable (hstep2 : step2 platform args = .ok vm)
include hstep2

/-- The size of the cache on the command line is a number. -/
theorem cacheSize_of_step2 (text : Str) (htext : argumentOf args "db_cache_size" = some text) :
    (platform.asUint32 text).map UInt32.toUInt64 ≠ none := by
  obtain ⟨value, hvalue⟩ := convert_isSome hstep2 rfl htext
  obtain ⟨size, hsize, _⟩ := Option.map_eq_some_iff.mp hvalue
  simp [hsize]

/-- The port on the command line is a number. -/
theorem port_of_step2 (text : Str) (htext : argumentOf args "prometheus_port" = some text) :
    platform.asUint16 text ≠ none := by
  obtain ⟨value, hvalue⟩ := convert_isSome hstep2 rfl htext
  obtain ⟨port, hport, _⟩ := Option.map_eq_some_iff.mp hvalue
  simp [hport]

end Sources

/-- The host on the command line is an address unless it is refused. -/
theorem host_of_not_refused (hrefused : ¬ArgumentRefused platform args) (text : Str)
    (htext : argumentOf args "prometheus_host" = some text) :
    platform.addressFromString text ≠ none :=
  fun hnone => hrefused (.inl ⟨text, htext, hnone⟩)

/-- The size of the cache in a valid file is read, unless its reading is undefined. -/
theorem cacheSize_of_valid
    (hvalid : ¬SectionInvalid configFile (str "database") (databaseSchema platform))
    (haborts : ¬CacheSizeAborts platform configFile) (text : Str)
    (htext : textOf configFile (str "database") (str "cache_size") = some text) :
    entrySize platform text ≠ none := by
  have hallowed := allowed_of_textOf hvalid (List.mem_cons_of_mem _ List.mem_cons_self) htext
  unfold entrySize
  match hparse : parseByteQuantity platform.signedChar text with
  | .ok (some size) => simp
  | .ok none => simp [hparse] at hallowed
  | .error cause => exact absurd ⟨text, cause, htext, hparse⟩ haborts

/-- A size that is read is the one that the parser gives. -/
theorem parseByteQuantity_of_entrySize {text : Str} {size : UInt64}
    (hsize : entrySize platform text = some size) :
    parseByteQuantity platform.signedChar text = .ok (some size) := by
  unfold entrySize at hsize
  split at hsize
  case h_1 hparse => rw [hparse, hsize]
  case h_2 => cases hsize

/-- A port that is read is the number in the text. -/
theorem asSsize_of_entryPort {text : Str} {port : UInt16}
    (hport : entryPort platform text = some port) :
    platform.asSsize text = some (port.toNat : ℤ) := by
  obtain ⟨number, hnumber, hport⟩ := Option.bind_eq_some_iff.mp hport
  split_ifs at hport with hrange
  cases hport
  have hlt : number.toNat < UInt16.size := by
    rw [UInt16.size]
    omega
  rw [hnumber, UInt16.toNat_ofNat_of_lt' hlt, Int.toNat_of_nonneg hrange.1.le]

section Metrics

variable (hvalid : ¬SectionInvalid configFile (str "metrics") (metricsSchema platform))
include hvalid

/-- The host in a valid file is an address. -/
theorem host_of_valid (text : Str)
    (htext : textOf configFile (str "metrics") (str "host") = some text) :
    platform.addressFromString text ≠ none := by
  have hallowed := allowed_of_textOf hvalid (List.mem_cons_of_mem _ List.mem_cons_self) htext
  exact Option.isSome_iff_ne_none.mp hallowed

/-- The port in a valid file is a port. -/
theorem port_of_valid (text : Str)
    (htext : textOf configFile (str "metrics") (str "port") = some text) :
    entryPort platform text ≠ none := by
  have hallowed := allowed_of_textOf hvalid
    (List.mem_cons_of_mem _ (List.mem_cons_of_mem _ List.mem_cons_self)) htext
  cases hport : platform.asSsize text with
  | none => simp [hport] at hallowed
  | some port =>
    have hrange : 1 ≤ port ∧ port ≤ 65535 := by simpa [hport] using hallowed
    have hpos : port > 0 := by omega
    simp [entryPort, hport, hpos, hrange.2]

/-- Whether the metrics are enabled, by the texts of a valid file and the command line. -/
theorem enabled_eq_metricsWanted (hstep2 : step2 platform args = .ok vm)
    (hrefused : ¬ArgumentRefused platform args) :
    ((fileEnabled configFile).or none).getD (endpointGiven platform configFile args) =
      metricsWanted configFile args := by
  unfold fileEnabled metricsWanted
  rw [Option.or_none]
  cases henabled : textOf configFile (str "metrics") (str "enabled") with
  | none =>
    rw [Option.bind_none, Option.getD_none, endpointGiven, fileAddress, filePort, argumentAddress,
      argumentPort, isSome_bind (host_of_valid hvalid), isSome_bind (port_of_valid hvalid),
      isSome_bind (host_of_not_refused hrefused), isSome_bind (port_of_step2 hstep2)]
  | some value =>
    have hallowed := of_decide_eq_true (allowed_of_textOf hvalid List.mem_cons_self henabled)
    obtain rfl | rfl := hallowed
    · rfl
    · rfl

end Metrics

/-! ## The law -/

/-- For a valid file and a command line that `step2` accepts, the values of the configuration have
the first of their sources exactly when metrics that are disabled on the command line are not
enabled otherwise. -/
theorem precedenceLaw_iff (hstep2 : step2 platform args = .ok vm)
    (hvalid : ¬FileInvalid platform configFile)
    (hconfig : calculateConfig platform fs configFile vm = .ok config) :
    PrecedenceLaw platform fs configFile args config ↔
      ¬(metricsDisabled args = true ∧ metricsWanted configFile args = true) := by
  obtain ⟨_, hvalid⟩ := not_or.mp hvalid
  obtain ⟨hdatabase, hmetrics⟩ := not_or.mp hvalid
  obtain ⟨paths, directory, hpaths, hdirectory, haborts, hrefused, rfl⟩ :=
    calculateConfig_eq_ok hstep2 hconfig
  obtain ⟨hmodules, hspec⟩ := makeAbsolute_of_checkPaths hpaths
  have henabled := congrArg some (enabled_eq_metricsWanted hmetrics hstep2 hrefused)
  constructor
  · intro hlaw ⟨hdisabled, hwanted⟩
    have hcontra := henabled.symm.trans hlaw.enabled
    simp [hdisabled, hwanted] at hcontra
  · intro hnot
    have hwanted : metricsWanted configFile args =
        (!metricsDisabled args && metricsWanted configFile args) := by
      cases hdisabled : metricsDisabled args with
      | false => rfl
      | true => exact Bool.eq_false_of_not_eq_true fun hwanted => hnot ⟨hdisabled, hwanted⟩
    exact {
      name := comesFrom_of_pick rfl
      basePath := comesFrom_of_pick rfl
      modulesDir := comesFrom_of_pick hmodules
      specFile := comesFrom_of_pick hspec
      directory := comesFrom_of_pick hdirectory
      cacheSize := (comesFrom_convert (cacheSize_of_step2 hstep2)
        (cacheSize_of_valid hdatabase haborts)).imp_entry fun _ => parseByteQuantity_of_entrySize
      address := comesFrom_convert (host_of_not_refused hrefused) (host_of_valid hmetrics)
      port := (comesFrom_convert (port_of_step2 hstep2) (port_of_valid hmetrics)).imp_entry
        fun _ => asSsize_of_entryPort
      enabled := henabled.trans (congrArg some hwanted) }

/-- The file enables the metrics. -/
theorem precedenceLaw_iff_enabled :
    calculateConfig samplePlatform sampleFileSystem enablingFile sampleVariables =
        .ok enabledConfiguration ∧
      PrecedenceLaw samplePlatform sampleFileSystem enablingFile sampleArguments
        enabledConfiguration := by
  have hstep2 : step2 samplePlatform sampleArguments = .ok sampleVariables := rfl
  refine ⟨rfl, (precedenceLaw_iff hstep2 not_fileInvalid_enablingFile rfl).mpr ?_⟩
  rintro ⟨hdisabled, _⟩
  cases hdisabled

/-- The command line does not disable them. -/
theorem not_precedenceLaw_disabled :
    step2 samplePlatform disablingArguments = .ok disablingVariables ∧
      ¬FileInvalid samplePlatform enablingFile ∧
      calculateConfig samplePlatform sampleFileSystem enablingFile disablingVariables =
        .ok enabledConfiguration ∧
      ¬PrecedenceLaw samplePlatform sampleFileSystem enablingFile disablingArguments
        enabledConfiguration := by
  refine ⟨rfl, not_fileInvalid_enablingFile, rfl, fun hlaw => ?_⟩
  have henabled : some true = some false := hlaw.enabled
  cases henabled

end CppJam.Configurator

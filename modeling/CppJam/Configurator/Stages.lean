import CppJam.Configurator.CalculateConfig

/-!
# The three parts of the calculation

What each part of `calculateConfig` does, from the texts of the file and the arguments of the
command line. Each part reads its section first, which can throw or set the flag for errors,
and takes a value from the command line, else from the file, else it keeps what it had.
-/

namespace CppJam.Configurator

open Bytes Checks Parsers ProgramOptions Yaml

variable {A N : Type} [Nodes N Str] {platform : Platform A} {fs : FileSystem}
  {configFile : Option N} {args : List (Occurrence Str)} {vm : VariablesMap Value} {c : Members A}

/-- A value comes from the command line, else from the file, else it is the default. -/
def pick {α : Type} (argument entry : Option α) (default : α) : α :=
  (argument.or entry).getD default

/-- An argument replaces what an entry replaced. -/
theorem getD_getD_eq_pick {α : Type} (argument entry : Option α) (default : α) :
    argument.getD (entry.getD default) = pick argument entry default := by
  cases argument <;> rfl

/-! ## General -/

/-- A text of the section `general`, or the argument of the same name. -/
def generalText (configFile : Option N) (args : List (Occurrence Str)) (key : String)
    (default : Str) : Str :=
  pick (argumentOf args key) (textOf configFile (str "general") (str key)) default

/-- The check of the paths from their sources. -/
def checkSources (fs : FileSystem) (configFile : Option N)
    (args : List (Occurrence Str)) : Except Stop (Str × Str) :=
  checkPaths fs (generalText configFile args "base_path" [])
    (generalText configFile args "modules_dir" []) (generalText configFile args "spec_file" [])

/-- The configuration after the first part. -/
def generalResult (platform : Platform A) (configFile : Option N)
    (args : List (Occurrence Str)) (paths : Str × Str) : Configuration A :=
  { Configuration.initial platform with
    name := generalText configFile args "name" defaultName
    basePath := generalText configFile args "base_path" []
    modulesDir := paths.1
    specFile := paths.2 }

/-- The section `general` does not throw. -/
theorem not_throws_general :
    ¬SectionThrows configFile (str "general") (generalEntries : List (FileEntry A)) := by
  rintro ⟨e, he, text, _, hthrow⟩
  simp only [generalEntries, List.mem_cons, List.not_mem_nil, or_false] at he
  rcases he with rfl | rfl | rfl | rfl <;> exact hthrow rfl

/-- What reading the section `general` does. -/
theorem readGeneral_eq (hroot : ¬ScalarRoot configFile) (c : Members A) :
    ∃ lines, readGeneral configFile c =
      .ok ⟨sectionConfig configFile (str "general") generalEntries c.config, lines,
        c.fileHasError || sectionFlags configFile (str "general")
          (generalEntries : List (FileEntry A))⟩ :=
  readSection_eq hroot not_throws_general c

/-- The configuration after the section `general`. -/
theorem generalConfig_eq (config : Configuration A) :
    sectionConfig configFile (str "general") generalEntries config =
      { config with
        name := (textOf configFile (str "general") (str "name")).getD config.name
        basePath := (textOf configFile (str "general") (str "base_path")).getD config.basePath
        specFile := (textOf configFile (str "general") (str "spec_file")).getD config.specFile
        modulesDir :=
          (textOf configFile (str "general") (str "modules_dir")).getD config.modulesDir } := by
  simp only [sectionConfig, generalEntries, List.foldl_cons, List.foldl_nil, nameEntry,
    basePathEntry, specFileEntry, modulesDirEntry, textEntry]
  cases textOf configFile (str "general") (str "name") <;>
    cases textOf configFile (str "general") (str "base_path") <;>
    cases textOf configFile (str "general") (str "spec_file") <;>
    cases textOf configFile (str "general") (str "modules_dir") <;> rfl

/-- The first part returns an error when the section `general` sets the flag. -/
theorem initGeneralConfig_of_flags (platform : Platform A) (fs : FileSystem)
    (vm : VariablesMap Value) (hroot : ¬ScalarRoot configFile)
    (hflags : sectionFlags configFile (str "general") (generalEntries : List (FileEntry A))) :
    initGeneralConfig fs configFile vm (Members.initial platform) =
      .error (.returned .configFileParseFailed) := by
  obtain ⟨lines, hread⟩ := readGeneral_eq hroot (Members.initial platform)
  rw [initGeneralConfig, hread, ok_bind, failIf_bind_of (by simp [hflags])]

/-- Otherwise it checks the paths. -/
theorem initGeneralConfig_of_not_flags (fs : FileSystem) (hstep2 : step2 platform args = .ok vm)
    (hroot : ¬ScalarRoot configFile)
    (hflags : ¬sectionFlags configFile (str "general") (generalEntries : List (FileEntry A))) :
    ∃ lines, initGeneralConfig fs configFile vm (Members.initial platform) =
      (fun paths => ⟨generalResult platform configFile args paths, lines, false⟩) <$>
        checkSources fs configFile args := by
  obtain ⟨lines, hread⟩ := readGeneral_eq hroot (Members.initial platform)
  rw [generalConfig_eq, Bool.eq_false_of_not_eq_true hflags] at hread
  refine ⟨lines, ?_⟩
  rw [initGeneralConfig, hread, ok_bind,
    failIf_bind_of_not (by simp [Members.initial]),
    findArgument_string hstep2 rfl, ok_bind, findArgument_string hstep2 rfl, ok_bind,
    findArgument_string hstep2 rfl, ok_bind, findArgument_string hstep2 rfl, ok_bind,
    map_eq_pure_bind]
  simp only [getD_getD_eq_pick]
  rfl

/-! ## Database -/

/-- The size of the cache in a text of the file. -/
def entrySize (platform : Platform A) (value : Str) : Option UInt64 :=
  match parseByteQuantity platform.signedChar value with
  | .ok size => size
  | .error _ => none

/-- The size of the cache that the file gives. -/
def fileCacheSize (platform : Platform A) (configFile : Option N) : Option UInt64 :=
  (textOf configFile (str "database") (str "cache_size")).bind (entrySize platform)

/-- The size of the cache that the command line gives. -/
def argumentCacheSize (platform : Platform A) (args : List (Occurrence Str)) : Option UInt64 :=
  (argumentOf args "db_cache_size").bind fun value =>
    (platform.asUint32 value).map UInt32.toUInt64

/-- The directory of the database from its sources, resolved. -/
def resolveDirectory (fs : FileSystem) (configFile : Option N)
    (args : List (Occurrence Str)) (config : Configuration A) : Except Stop Str :=
  makeAbsolute fs config.basePath
    (pick (argumentOf args "db_path") (textOf configFile (str "database") (str "path"))
      config.database.directory)

/-- The configuration after the second part. -/
def databaseResult (platform : Platform A) (configFile : Option N)
    (args : List (Occurrence Str)) (config : Configuration A) (directory : Str) :
    Configuration A :=
  { config with
    database := ⟨directory, pick (argumentCacheSize platform args)
      (fileCacheSize platform configFile) config.database.cacheSize⟩ }

/-- What the entry `cache_size` changes. -/
theorem change_cacheSizeEntry (config : Configuration A) :
    (cacheSizeEntry platform).change (textOf configFile (str "database") (str "cache_size"))
        config =
      { config with
        database.cacheSize :=
          (fileCacheSize platform configFile).getD config.database.cacheSize } := by
  unfold fileCacheSize
  cases textOf configFile (str "database") (str "cache_size") with
  | none => rfl
  | some value =>
    simp only [FileEntry.change, Option.bind_some, cacheSizeEntry, entrySize]
    match parseByteQuantity platform.signedChar value with
    | .ok (some size) => rfl
    | .ok none => rfl
    | .error cause => rfl

/-- The configuration after the section `database`. -/
theorem databaseConfig_eq (config : Configuration A) :
    sectionConfig configFile (str "database") (databaseEntries platform) config =
      { config with
        database.directory :=
          (textOf configFile (str "database") (str "path")).getD config.database.directory
        database.cacheSize :=
          (fileCacheSize platform configFile).getD config.database.cacheSize } := by
  rw [sectionConfig, databaseEntries, List.foldl_cons, List.foldl_cons, List.foldl_nil]
  refine (change_cacheSizeEntry _).trans ?_
  rw [pathEntry, textEntry]
  cases textOf configFile (str "database") (str "path") <;> rfl

/-- What reading the section `database` does when it does not throw. -/
theorem readDatabase_eq (hroot : ¬ScalarRoot configFile)
    (hthrows : ¬SectionThrows configFile (str "database") (databaseEntries platform))
    (c : Members A) :
    ∃ lines, readDatabase platform configFile c =
      .ok ⟨sectionConfig configFile (str "database") (databaseEntries platform) c.config, lines,
        c.fileHasError || sectionFlags configFile (str "database") (databaseEntries platform)⟩ :=
  readSection_eq hroot hthrows c

/-- The second part throws when the size of the cache does. -/
theorem initDatabaseConfig_of_throws (fs : FileSystem) (vm : VariablesMap Value)
    (hthrows : SectionThrows configFile (str "database") (databaseEntries platform))
    (c : Members A) :
    ∃ exception, initDatabaseConfig platform fs configFile vm c = .error (.thrown exception) := by
  obtain ⟨exception, hread⟩ : ∃ exception, readDatabase platform configFile c =
    .error (.thrown exception) := readSection_throws hthrows c
  exact ⟨exception, by rw [initDatabaseConfig, hread, error_bind]⟩

/-- It returns an error when the section `database` sets the flag. -/
theorem initDatabaseConfig_of_flags (fs : FileSystem) (vm : VariablesMap Value)
    (hroot : ¬ScalarRoot configFile)
    (hthrows : ¬SectionThrows configFile (str "database") (databaseEntries platform))
    (hflags : sectionFlags configFile (str "database") (databaseEntries platform))
    (c : Members A) :
    initDatabaseConfig platform fs configFile vm c =
      .error (.returned .configFileParseFailed) := by
  obtain ⟨lines, hread⟩ := readDatabase_eq hroot hthrows c
  rw [initDatabaseConfig, hread, ok_bind, failIf_bind_of (by simp [hflags])]

/-- Otherwise it resolves the directory. -/
theorem initDatabaseConfig_of_not_flags (fs : FileSystem) (hstep2 : step2 platform args = .ok vm)
    (hroot : ¬ScalarRoot configFile)
    (hthrows : ¬SectionThrows configFile (str "database") (databaseEntries platform))
    (hflags : ¬sectionFlags configFile (str "database") (databaseEntries platform))
    (hc : c.fileHasError = false) :
    ∃ lines, initDatabaseConfig platform fs configFile vm c =
      (fun directory =>
        ⟨databaseResult platform configFile args c.config directory, lines, false⟩) <$>
        resolveDirectory fs configFile args c.config := by
  obtain ⟨lines, hread⟩ := readDatabase_eq hroot hthrows c
  rw [databaseConfig_eq, Bool.eq_false_of_not_eq_true hflags, hc] at hread
  refine ⟨lines, ?_⟩
  rw [initDatabaseConfig, hread, ok_bind, failIf_bind_of_not (by simp),
    findArgument_string hstep2 rfl, ok_bind, findArgument_cacheSize hstep2, ok_bind,
    map_eq_pure_bind]
  simp only [Option.map_bind, getD_getD_eq_pick]
  rfl

/-! ## Metrics -/

/-- Whether the file says that the metrics are enabled, if it says so. -/
def fileEnabled (configFile : Option N) : Option Bool :=
  (textOf configFile (str "metrics") (str "enabled")).bind fun value =>
    if value = str "true" then some true else if value = str "false" then some false else none

/-- The address of the metrics that the file gives. -/
def fileAddress (platform : Platform A) (configFile : Option N) : Option A :=
  (textOf configFile (str "metrics") (str "host")).bind platform.addressFromString

/-- The port of the metrics in a text of the file. -/
def entryPort (platform : Platform A) (value : Str) : Option UInt16 :=
  (platform.asSsize value).bind fun port =>
    if port > 0 ∧ port ≤ 65535 then some (UInt16.ofNat port.toNat) else none

/-- The port of the metrics that the file gives. -/
def filePort (platform : Platform A) (configFile : Option N) : Option UInt16 :=
  (textOf configFile (str "metrics") (str "port")).bind (entryPort platform)

/-- The address of the metrics that the command line gives. -/
def argumentAddress (platform : Platform A) (args : List (Occurrence Str)) : Option A :=
  (argumentOf args "prometheus_host").bind platform.addressFromString

/-- The port of the metrics that the command line gives. -/
def argumentPort (platform : Platform A) (args : List (Occurrence Str)) : Option UInt16 :=
  (argumentOf args "prometheus_port").bind platform.asUint16

/-- The command line gives a host that is not an address, or port 0. -/
def ArgumentRefused (platform : Platform A) (args : List (Occurrence Str)) : Prop :=
  (∃ value, argumentOf args "prometheus_host" = some value ∧
    platform.addressFromString value = none) ∨ argumentPort platform args = some 0

/-- The metrics are given an address or a port. -/
def endpointGiven (platform : Platform A) (configFile : Option N)
    (args : List (Occurrence Str)) : Bool :=
  (fileAddress platform configFile).isSome || (filePort platform configFile).isSome ||
    (argumentAddress platform args).isSome || (argumentPort platform args).isSome

/-- The configuration after the third part. -/
def metricsResult (platform : Platform A) (configFile : Option N)
    (args : List (Occurrence Str)) (config : Configuration A) : Configuration A :=
  { config with
    metrics.endpoint.address := pick (argumentAddress platform args)
      (fileAddress platform configFile) config.metrics.endpoint.address
    metrics.endpoint.port := pick (argumentPort platform args) (filePort platform configFile)
      config.metrics.endpoint.port
    metrics.enabled := some (((fileEnabled configFile).or config.metrics.enabled).getD
      (endpointGiven platform configFile args)) }

/-- The metrics get an address, if there is one. -/
def giveAddress (address : Option A) (config : Configuration A) : Configuration A :=
  address.elim config (setAddress · config)

/-- The metrics get a port, if there is one. -/
def givePort (port : Option UInt16) (config : Configuration A) : Configuration A :=
  port.elim config (setPort · config)

/-- What an address changes. -/
theorem giveAddress_eq (address : Option A) (config : Configuration A) :
    giveAddress address config =
      { config with
        metrics.endpoint.address := address.getD config.metrics.endpoint.address
        metrics.enabled := config.metrics.enabled.or (address.map fun _ => true) } := by
  cases address with
  | none => simp [giveAddress]
  | some address => rfl

/-- What a port changes. -/
theorem givePort_eq (port : Option UInt16) (config : Configuration A) :
    givePort port config =
      { config with
        metrics.endpoint.port := port.getD config.metrics.endpoint.port
        metrics.enabled := config.metrics.enabled.or (port.map fun _ => true) } := by
  cases port with
  | none => simp [givePort]
  | some port => rfl

/-- What the entry `enabled` changes. -/
theorem change_enabledEntry (config : Configuration A) :
    enabledEntry.change (textOf configFile (str "metrics") (str "enabled")) config =
      { config with metrics.enabled := (fileEnabled configFile).or config.metrics.enabled } := by
  unfold fileEnabled
  cases textOf configFile (str "metrics") (str "enabled") with
  | none => rfl
  | some value =>
    simp only [FileEntry.change, Option.bind_some, enabledEntry]
    split_ifs <;> rfl

/-- What the entry `host` changes. -/
theorem change_hostEntry (config : Configuration A) :
    (hostEntry platform).change (textOf configFile (str "metrics") (str "host")) config =
      giveAddress (fileAddress platform configFile) config := by
  unfold fileAddress
  cases textOf configFile (str "metrics") (str "host") with
  | none => rfl
  | some value =>
    simp only [FileEntry.change, Option.bind_some, hostEntry]
    cases platform.addressFromString value <;> rfl

/-- What the entry `port` changes. -/
theorem change_portEntry (config : Configuration A) :
    (portEntry platform).change (textOf configFile (str "metrics") (str "port")) config =
      givePort (filePort platform configFile) config := by
  unfold filePort
  cases textOf configFile (str "metrics") (str "port") with
  | none => rfl
  | some value =>
    simp only [FileEntry.change, Option.bind_some, portEntry, entryPort]
    cases platform.asSsize value with
    | none => rfl
    | some port =>
      simp only [Option.bind_some]
      split_ifs <;> rfl

/-- The configuration after the section `metrics`. -/
theorem metricsConfig_eq (config : Configuration A) :
    sectionConfig configFile (str "metrics") (metricsEntries platform) config =
      givePort (filePort platform configFile) (giveAddress (fileAddress platform configFile)
        { config with
          metrics.enabled := (fileEnabled configFile).or config.metrics.enabled }) := by
  rw [← change_enabledEntry, ← change_hostEntry, ← change_portEntry]
  rfl

/-- The metrics are enabled when that is decided, or by any address or port. -/
theorem enabled_eq {α β γ δ : Type} (decided : Option Bool) (a : Option α) (b : Option β)
    (c : Option γ) (d : Option δ) :
    (((((decided.or (a.map fun _ => true)).or (b.map fun _ => true)).or
      (c.map fun _ => true)).or (d.map fun _ => true)).or (some false)) =
      some (decided.getD (a.isSome || b.isSome || c.isSome || d.isSome)) := by
  cases decided <;> cases a <;> cases b <;> cases c <;> cases d <;> rfl

/-- The host of the command line is taken unless it is refused. -/
theorem adjustHost_eq (hhost : ∀ value, argumentOf args "prometheus_host" = some value →
    platform.addressFromString value ≠ none) (config : Configuration A) :
    adjustHost platform (argumentOf args "prometheus_host") config =
      .ok (giveAddress (argumentAddress platform args) config) := by
  unfold argumentAddress
  cases hargument : argumentOf args "prometheus_host" with
  | none => rfl
  | some value =>
    obtain ⟨address, haddress⟩ := Option.ne_none_iff_exists'.mp (hhost value hargument)
    simp [adjustHost, giveAddress, haddress]

/-- The port of the command line is taken unless it is 0. -/
theorem adjustPort_eq (hport : argumentPort platform args ≠ some 0) (config : Configuration A) :
    adjustPort (argumentPort platform args) config =
      .ok (givePort (argumentPort platform args) config) := by
  cases hargument : argumentPort platform args with
  | none => rfl
  | some value =>
    have hpos : value > 0 := UInt16.pos_iff_ne_zero.mpr fun hzero => hport (hzero ▸ hargument)
    have hle : value ≤ 65535 := UInt16.le_iff_toNat_le.mpr (Nat.le_of_lt_succ value.toNat_lt)
    simp [adjustPort, givePort, hpos, hle]

/-- What reading the section `metrics` does when it does not throw. -/
theorem readMetrics_eq (hroot : ¬ScalarRoot configFile)
    (hthrows : ¬SectionThrows configFile (str "metrics") (metricsEntries platform))
    (c : Members A) :
    ∃ lines, readMetrics platform configFile c =
      .ok ⟨sectionConfig configFile (str "metrics") (metricsEntries platform) c.config, lines,
        c.fileHasError || sectionFlags configFile (str "metrics") (metricsEntries platform)⟩ :=
  readSection_eq hroot hthrows c

/-- The third part throws when the port in the file is not a number. -/
theorem initOpenMetricsConfig_of_throws (vm : VariablesMap Value)
    (hthrows : SectionThrows configFile (str "metrics") (metricsEntries platform))
    (c : Members A) :
    ∃ exception, initOpenMetricsConfig platform configFile vm c = .error (.thrown exception) := by
  obtain ⟨exception, hread⟩ : ∃ exception, readMetrics platform configFile c =
    .error (.thrown exception) := readSection_throws hthrows c
  exact ⟨exception, by rw [initOpenMetricsConfig, hread, error_bind]⟩

/-- It returns an error when the command line is refused. -/
theorem initOpenMetricsConfig_of_refused (hstep2 : step2 platform args = .ok vm)
    (hroot : ¬ScalarRoot configFile)
    (hthrows : ¬SectionThrows configFile (str "metrics") (metricsEntries platform))
    (hrefused : ArgumentRefused platform args) (c : Members A) :
    initOpenMetricsConfig platform configFile vm c = .error (.returned .cliArgsParseFailed) := by
  obtain ⟨lines, hread⟩ := readMetrics_eq hroot hthrows c
  rw [initOpenMetricsConfig, hread, ok_bind, findArgument_string hstep2 rfl, ok_bind]
  by_cases hhost : ∀ value, argumentOf args "prometheus_host" = some value →
    platform.addressFromString value ≠ none
  · have hport : argumentPort platform args = some 0 := by
      refine hrefused.resolve_left ?_
      rintro ⟨value, hvalue, hnone⟩
      exact hhost value hvalue hnone
    rw [adjustHost_eq hhost, ok_bind, findArgument_port hstep2, ok_bind, ← argumentPort, hport]
    rfl
  · push Not at hhost
    obtain ⟨value, hvalue, hnone⟩ := hhost
    simp only [adjustHost, hvalue, hnone]
    rfl

/-- Otherwise it ends with a configuration, also when the section `metrics` sets the flag. -/
theorem initOpenMetricsConfig_of_not_refused (hstep2 : step2 platform args = .ok vm)
    (hroot : ¬ScalarRoot configFile)
    (hthrows : ¬SectionThrows configFile (str "metrics") (metricsEntries platform))
    (hrefused : ¬ArgumentRefused platform args) (c : Members A) :
    ∃ lines flag, initOpenMetricsConfig platform configFile vm c =
      .ok ⟨metricsResult platform configFile args c.config, lines, flag⟩ := by
  obtain ⟨lines, hread⟩ := readMetrics_eq hroot hthrows c
  obtain ⟨hhost, hport⟩ := not_or.mp hrefused
  have hvalid : ∀ value, argumentOf args "prometheus_host" = some value →
      platform.addressFromString value ≠ none := fun value hvalue hnone =>
    hhost ⟨value, hvalue, hnone⟩
  rw [metricsConfig_eq] at hread
  refine ⟨lines, c.fileHasError || sectionFlags configFile (str "metrics")
    (metricsEntries platform), ?_⟩
  rw [initOpenMetricsConfig, hread, ok_bind, findArgument_string hstep2 rfl, ok_bind,
    adjustHost_eq hvalid, ok_bind, findArgument_port hstep2, ok_bind, ← argumentPort,
    adjustPort_eq hport, ok_bind, findFlag_undescribed hstep2 rfl]
  simp only [Bool.false_eq_true, if_false, givePort_eq, giveAddress_eq, getD_getD_eq_pick,
    enabled_eq]
  rfl

end CppJam.Configurator

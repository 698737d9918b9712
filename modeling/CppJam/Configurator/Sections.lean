import CppJam.Configurator.Options
import CppJam.Yaml

/-!
# The configuration file

The configuration with its defaults, and how the sections of the configuration file change it.
All entries are read in the same way: an entry that is not defined changes nothing, one that
is not a scalar is an error, and a scalar is judged by the entry. An error is noted as a line
of text and by a flag; the entries for the size of the cache and the host of the metrics note
the line of a bad value only.
-/

namespace CppJam.Configurator

open Bytes Checks Parsers Yaml

variable {A N : Type} [Nodes N Str]

/-- `boost::asio::ip::tcp::endpoint`. -/
structure Endpoint (A : Type) where
  /-- The address. -/
  address : A
  /-- The port. -/
  port : UInt16

/-- `Configuration::DatabaseConfig`. -/
structure DatabaseConfig where
  /-- The directory of the database. -/
  directory : Str
  /-- The size of its cache. -/
  cacheSize : UInt64

/-- `Configuration::MetricsConfig`. -/
structure MetricsConfig (A : Type) where
  /-- Where the metrics are served. -/
  endpoint : Endpoint A
  /-- Whether they are, if that is known. -/
  enabled : Option Bool

/-- `Configuration`. -/
structure Configuration (A : Type) where
  /-- `name_`. -/
  name : Str
  /-- `base_path_`. -/
  basePath : Str
  /-- `spec_file_`. -/
  specFile : Str
  /-- `modules_dir_`. -/
  modulesDir : Str
  /-- `database_`. -/
  database : DatabaseConfig
  /-- `metrics_`. -/
  metrics : MetricsConfig A

/-- The name of a node without one. -/
def defaultName : Str := str "noname"

/-- The default port of the metrics. -/
def defaultPort : UInt16 := 9615

/-- The configuration that the constructor sets up. -/
def Configuration.initial (platform : Platform A) : Configuration A where
  name := defaultName
  basePath := []
  specFile := []
  modulesDir := []
  database := ⟨defaultDirectory, defaultCacheSize⟩
  metrics := ⟨⟨platform.anyAddress, defaultPort⟩, none⟩

/-- The members of `Configurator` that change. -/
structure Members (A : Type) where
  /-- `config_`. -/
  config : Configuration A
  /-- `file_errors_`, by lines. -/
  fileErrors : List String
  /-- `file_has_error_`. -/
  fileHasError : Bool

/-- What becomes of an entry. -/
inductive Verdict (A : Type) where
  /-- The configuration is changed. -/
  | accept (update : Configuration A → Configuration A)
  /-- A line is noted, with or without the flag. -/
  | note (line : String) (flagged : Bool)
  /-- An exception is thrown. -/
  | throw (exception : Exception)

namespace Verdict

/-- The configuration afterwards. -/
def update : Verdict A → Configuration A → Configuration A
  | .accept update, config => update config
  | _, config => config

/-- The flag is set. -/
def flags : Verdict A → Bool
  | .note _ flagged => flagged
  | _ => false

/-- The exception. -/
def throws : Verdict A → Option Exception
  | .throw exception => some exception
  | _ => none

/-- The lines that are noted. -/
def lines : Verdict A → List String
  | .note line _ => [line]
  | _ => []

/-- Act on a verdict. -/
def apply (v : Verdict A) (c : Members A) : Except Stop (Members A) :=
  match v.throws with
  | some exception => .error (.thrown exception)
  | none => .ok ⟨v.update c.config, c.fileErrors ++ v.lines, c.fileHasError || v.flags⟩

end Verdict

/-- An entry of a section. -/
structure FileEntry (A : Type) where
  /-- Its key. -/
  key : Str
  /-- The line for an entry that is not a scalar. -/
  notScalar : String
  /-- The verdict on a scalar. -/
  judge : Str → Verdict A

/-- The verdict on an entry of a section. -/
def FileEntry.verdictAt (e : FileEntry A) (node : N) : Verdict A :=
  match Nodes.find node e.key with
  | none => .accept id
  | some entry =>
      match Nodes.scalar entry with
      | some value => e.judge value
      | none => .note e.notScalar true

/-- Read a section of the configuration file, if there is one. -/
def readSection (configFile : Option N) (name : Str) (notMap : String)
    (entries : List (FileEntry A)) (c : Members A) : Except Stop (Members A) :=
  match configFile with
  | none => .ok c
  | some file =>
      match Nodes.subscript file name with
      | none => .error (.thrown .badSubscript)
      | some none => .ok c
      | some (some node) =>
          if Nodes.isMap node then entries.foldlM (fun c e => (e.verdictAt node).apply c) c
          else (Verdict.note notMap true).apply c

/-! ## General -/

/-- An entry whose text is taken as it is. -/
def textEntry (key : Str) (notScalar : String)
    (set : Str → Configuration A → Configuration A) : FileEntry A :=
  ⟨key, notScalar, fun value => .accept (set value)⟩

/-- `general.name`. -/
def nameEntry : FileEntry A :=
  textEntry (str "name") "E: Value 'general.name' must be scalar"
    fun value config => { config with name := value }

/-- `general.base_path`. -/
def basePathEntry : FileEntry A :=
  textEntry (str "base_path") "E: Value 'general.base_path' must be scalar"
    fun value config => { config with basePath := value }

/-- `general.spec_file`. -/
def specFileEntry : FileEntry A :=
  textEntry (str "spec_file") "E: Value 'general.spec_file' must be scalar"
    fun value config => { config with specFile := value }

/-- `general.modules_dir`. -/
def modulesDirEntry : FileEntry A :=
  textEntry (str "modules_dir") "E: Value 'general.modules_dir' must be scalar"
    fun value config => { config with modulesDir := value }

/-- The entries of the section `general`. -/
def generalEntries : List (FileEntry A) :=
  [nameEntry, basePathEntry, specFileEntry, modulesDirEntry]

/-- The section `general` of the file. -/
def readGeneral (configFile : Option N) : Members A → Except Stop (Members A) :=
  readSection configFile (str "general") "E: Section 'general' defined, but is not map"
    generalEntries

/-! ## Database -/

/-- `database.path`. -/
def pathEntry : FileEntry A :=
  textEntry (str "path") "E: Value 'database.path' must be scalar"
    fun value config => { config with database.directory := value }

/-- `database.cache_size`. A bad value does not set the flag. -/
def cacheSizeEntry (platform : Platform A) : FileEntry A where
  key := str "cache_size"
  notScalar := "E: Value 'database.cache_size' must be scalar"
  judge value :=
    match parseByteQuantity platform.signedChar value with
    | .ok (some size) => .accept fun config => { config with database.cacheSize := size }
    | .ok none => .note "E: Bad 'cache_size' value; Expected: 4096, 512Mb, 1G, etc." false
    | .error cause => .throw (.abort cause)

/-- The entries of the section `database`. -/
def databaseEntries (platform : Platform A) : List (FileEntry A) :=
  [pathEntry, cacheSizeEntry platform]

/-- The section `database` of the file. -/
def readDatabase (platform : Platform A) (configFile : Option N) :
    Members A → Except Stop (Members A) :=
  readSection configFile (str "database") "E: Section 'database' defined, but is not map"
    (databaseEntries platform)

/-! ## Metrics -/

/-- The metrics are enabled unless that is already decided. -/
def enableByDefault (config : Configuration A) : Configuration A :=
  { config with metrics.enabled := config.metrics.enabled.or (some true) }

/-- A new address of the metrics. -/
def setAddress (address : A) (config : Configuration A) : Configuration A :=
  enableByDefault { config with metrics.endpoint.address := address }

/-- A new port of the metrics. -/
def setPort (port : UInt16) (config : Configuration A) : Configuration A :=
  enableByDefault { config with metrics.endpoint.port := port }

/-- `metrics.enabled`. -/
def enabledEntry : FileEntry A where
  key := str "enabled"
  notScalar := "E: Value 'metrics.enabled' must be scalar"
  judge value :=
    if value = str "true" then
      .accept fun config => { config with metrics.enabled := some true }
    else if value = str "false" then
      .accept fun config => { config with metrics.enabled := some false }
    else
      .note ("E: Value 'network.metrics.enabled' has wrong value. " ++
        "Expected 'true' or 'false'") true

/-- `metrics.host`. A bad value does not set the flag. -/
def hostEntry (platform : Platform A) : FileEntry A where
  key := str "host"
  notScalar := "E: Value 'network.metrics.host' defined, but is not scalar"
  judge value :=
    match platform.addressFromString value with
    | some address => .accept (setAddress address)
    | none => .note "E: Value 'network.metrics.host' defined, but has invalid value" false

/-- `metrics.port`. -/
def portEntry (platform : Platform A) : FileEntry A where
  key := str "port"
  notScalar := "E: Value 'network.metrics.port' defined, but is not scalar"
  judge value :=
    match platform.asSsize value with
    | none => .throw .typedBadConversion
    | some port =>
        if port > 0 ∧ port ≤ 65535 then .accept (setPort (UInt16.ofNat port.toNat))
        else .note "E: Value 'network.metrics.port' defined, but has invalid value" true

/-- The entries of the section `metrics`. -/
def metricsEntries (platform : Platform A) : List (FileEntry A) :=
  [enabledEntry, hostEntry platform, portEntry platform]

/-- The section `metrics` of the file. -/
def readMetrics (platform : Platform A) (configFile : Option N) :
    Members A → Except Stop (Members A) :=
  readSection configFile (str "metrics") "E: Section 'metrics' defined, but is not map"
    (metricsEntries platform)

end CppJam.Configurator

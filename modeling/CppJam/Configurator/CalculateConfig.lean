import CppJam.Configurator.Reading

/-!
# Calculation of the configuration

`calculateConfig` of `configurator.cpp`: for each of its three parts the configuration file is
read, arguments of the command line replace what it said, and values are checked. After the
sections `general` and `database` the flag for errors is tested; after the section `metrics`
it is not. Every query of the file system can throw.
-/

namespace CppJam.Configurator

open Bytes Checks Parsers ProgramOptions Yaml

variable {A N : Type} [Nodes N Str]

/-- The file system. A path is resolved from the working directory, which comes first; a query
without answer throws. -/
structure FileSystem where
  /-- The working directory at the start. -/
  workingDirectory : Str
  /-- `is_directory`. -/
  isDirectory : Str → Str → Option Bool
  /-- `is_regular_file`. -/
  isRegularFile : Str → Str → Option Bool
  /-- `current_path` with an absolute path. -/
  changeDirectory : Str → Option Unit
  /-- `weakly_canonical`. -/
  weaklyCanonical : Str → Str → Option Str

/-- A query of the file system. -/
def query {α : Type} : Option α → Except Stop α
  | some answer => .ok answer
  | none => .error (.thrown .filesystemError)

/-- `is_absolute`: the path starts with a slash. -/
def isAbsolute (path : Str) : Bool := path.head? = some 47

/-- `operator/` of paths. -/
def slash (base path : Str) : Str :=
  if isAbsolute path then path
  else if base = [] ∨ base.getLast? = some 47 then base ++ path
  else base ++ 47 :: path

/-- `make_absolute`, after the working directory was changed to the base path. -/
def makeAbsolute (fs : FileSystem) (basePath path : Str) : Except Stop Str :=
  query (fs.weaklyCanonical basePath (if isAbsolute basePath then path else slash basePath path))

/-- The check of values in `initGeneralConfig`: the new modules directory and spec file. -/
def checkPaths (fs : FileSystem) (basePath modulesDir specFile : Str) :
    Except Stop (Str × Str) := do
  failIf (isAbsolute basePath = false) (.returned .invalidValue)
  let isBase ← query (fs.isDirectory fs.workingDirectory basePath)
  failIf (isBase = false) (.returned .invalidValue)
  query (fs.changeDirectory basePath)
  let modulesDir ← makeAbsolute fs basePath modulesDir
  let isModules ← query (fs.isDirectory basePath modulesDir)
  failIf (isModules = false) (.returned .invalidValue)
  let specFile ← makeAbsolute fs basePath specFile
  let isSpec ← query (fs.isRegularFile basePath specFile)
  failIf (isSpec = false) (.returned .invalidValue)
  return (modulesDir, specFile)

/-- `initGeneralConfig`. -/
def initGeneralConfig (fs : FileSystem) (configFile : Option N) (vm : VariablesMap Value)
    (c : Members A) : Except Stop (Members A) := do
  let c ← readGeneral configFile c
  failIf (c.fileHasError = true) (.returned .configFileParseFailed)
  let name ← findArgument Value.asString vm "name"
  let basePath ← findArgument Value.asString vm "base_path"
  let modulesDir ← findArgument Value.asString vm "modules_dir"
  let specFile ← findArgument Value.asString vm "spec_file"
  let basePath := basePath.getD c.config.basePath
  let paths ← checkPaths fs basePath (modulesDir.getD c.config.modulesDir)
    (specFile.getD c.config.specFile)
  return { c with config := { c.config with
    name := name.getD c.config.name
    basePath := basePath
    modulesDir := paths.1
    specFile := paths.2 } }

/-- `initDatabaseConfig`. -/
def initDatabaseConfig (platform : Platform A) (fs : FileSystem) (configFile : Option N)
    (vm : VariablesMap Value) (c : Members A) : Except Stop (Members A) := do
  let c ← readDatabase platform configFile c
  failIf (c.fileHasError = true) (.returned .configFileParseFailed)
  let directory ← findArgument Value.asString vm "db_path"
  let cacheSize ← findArgument Value.asUint32 vm "db_cache_size"
  let directory ← makeAbsolute fs c.config.basePath (directory.getD c.config.database.directory)
  return { c with config := { c.config with
    database.directory := directory
    database.cacheSize := (cacheSize.map UInt32.toUInt64).getD c.config.database.cacheSize } }

/-- The option `prometheus_host`. -/
def adjustHost (platform : Platform A) (host : Option Str) (config : Configuration A) :
    Except Stop (Configuration A) :=
  match host with
  | none => .ok config
  | some value =>
      match platform.addressFromString value with
      | some address => .ok (setAddress address config)
      | none => .error (.returned .cliArgsParseFailed)

/-- The option `prometheus_port`. -/
def adjustPort (port : Option UInt16) (config : Configuration A) :
    Except Stop (Configuration A) :=
  match port with
  | none => .ok config
  | some value =>
      if value > 0 ∧ value ≤ 65535 then .ok (setPort value config)
      else .error (.returned .cliArgsParseFailed)

/-- `initOpenMetricsConfig`. The option that is looked up at the end is not the one that is
registered, and the flag for errors in the file is not tested. -/
def initOpenMetricsConfig (platform : Platform A) (configFile : Option N)
    (vm : VariablesMap Value) (c : Members A) : Except Stop (Members A) := do
  let c ← readMetrics platform configFile c
  let host ← findArgument Value.asString vm "prometheus_host"
  let config ← adjustHost platform host c.config
  let port ← findArgument Value.asUint16 vm "prometheus_port"
  let config ← adjustPort port config
  let enabled := if findFlag vm "prometheus_disabled" then some false else config.metrics.enabled
  return { c with config := { config with metrics.enabled := enabled.or (some false) } }

/-- The members at the start. -/
def Members.initial (platform : Platform A) : Members A :=
  ⟨Configuration.initial platform, [], false⟩

/-- `calculateConfig`. -/
def calculateConfig (platform : Platform A) (fs : FileSystem) (configFile : Option N)
    (vm : VariablesMap Value) : Except Stop (Configuration A) := do
  let c ← initGeneralConfig fs configFile vm (Members.initial platform)
  let c ← initDatabaseConfig platform fs configFile vm c
  let c ← initOpenMetricsConfig platform configFile vm c
  return c.config

end CppJam.Configurator

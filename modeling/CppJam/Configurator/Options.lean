import CppJam.Parsers.Quantity
import CppJam.ProgramOptions

/-!
# The command line of the node

`configurator.cpp`: the options that the constructor registers, `step2`, which stores the
command line, and the functions that look arguments up by name. What the libraries make of
texts (numbers and addresses), how they store a command line and what the file system answers
are parameters.
-/

namespace CppJam.Configurator

open Bytes Checks Parsers ProgramOptions

/-- `std::string` and `std::filesystem::path`. -/
abbrev Str := List Byte

/-- The text of a literal. -/
def str (literal : String) : Str := text literal.toList

/-- `Configurator::Error`. -/
inductive Error where
  | cliArgsParseFailed
  | configFileParseFailed
  | invalidValue
  deriving DecidableEq

/-- What leaves the configurator as an exception, or ends the process. -/
inductive Exception where
  /-- `YAML::BadSubscript`. -/
  | badSubscript
  /-- `YAML::TypedBadConversion`. -/
  | typedBadConversion
  /-- `boost::bad_any_cast`. -/
  | badAnyCast
  /-- `std::filesystem::filesystem_error`. -/
  | filesystemError
  /-- The behaviour is undefined. -/
  | abort (cause : Abort)

/-- How a computation ends without a value: it returns an error, or it throws. -/
inductive Stop where
  | returned (error : Error)
  | thrown (exception : Exception)

/-- The value of an option. -/
inductive Value where
  /-- An option without argument. -/
  | flag
  | string (value : Str)
  | strings (values : List Str)
  | uint32 (value : UInt32)
  | uint16 (value : UInt16)

/-- The libraries and the platform, with addresses in `A`. -/
structure Platform (A : Type) where
  /-- `char` is signed. -/
  signedChar : Bool
  /-- `boost::asio::ip::address_v4::any`. -/
  anyAddress : A
  /-- `boost::asio::ip::address::from_string`. -/
  addressFromString : Str → Option A
  /-- `YAML::Node::as<ssize_t>` of a scalar, which throws when there is no number. -/
  asSsize : Str → Option ℤ
  /-- The number of an argument of type `uint32_t`. -/
  asUint32 : Str → Option UInt32
  /-- The number of an argument of type `uint16_t`. -/
  asUint16 : Str → Option UInt16
  /-- `po::store` of a parsed command line, unless it throws. -/
  store : List (Description Str Value) → List (Occurrence Str) → Option (VariablesMap Value)
  /-- What its documentation says of it. -/
  store_laws : Laws store

/-- `as<std::string>`. -/
def Value.asString : Value → Option Str
  | .string value => some value
  | _ => none

/-- `as<uint32_t>`. -/
def Value.asUint32 : Value → Option UInt32
  | .uint32 value => some value
  | _ => none

/-- `as<uint16_t>`. -/
def Value.asUint16 : Value → Option UInt16
  | .uint16 value => some value
  | _ => none

/-- An option without argument. -/
def flagOption (name : String) : Description Str Value where
  name := name
  read := once fun argument => if argument.isSome then none else some .flag
  default := none

/-- `po::value<T>`, with the conversion of its argument. -/
def valueOption (name : String) (convert : Str → Option Value) (default : Option Value) :
    Description Str Value where
  name := name
  read := once fun argument => argument.bind convert
  default := default

/-- `po::value<std::string>`. -/
def stringOption (name : String) (default : Option Str) : Description Str Value :=
  valueOption name (fun value => some (.string value)) (default.map .string)

/-- `po::value<std::vector<std::string>>`, which can be given several times. -/
def stringsOption (name : String) : Description Str Value where
  name := name
  read previous argument := argument.map fun value =>
    match previous with
    | some (.strings values) => .strings (values ++ [value])
    | _ => .strings [value]
  default := none

/-- The default directory of the database. -/
def defaultDirectory : Str := str "db"

/-- The default size of the cache of the database, 512 MiB. -/
def defaultCacheSize : UInt64 := (512 : UInt64) <<< 20

/-- The options that the constructor registers. -/
def cliOptions {A : Type} (platform : Platform A) : List (Description Str Value) :=
  [ -- general options
    flagOption "help",
    flagOption "version",
    stringOption "base_path" none,
    stringOption "config" none,
    stringOption "spec_file" none,
    stringOption "modules_dir" none,
    stringOption "name" none,
    stringsOption "log",
    -- storage options
    stringOption "db_path" (some defaultDirectory),
    valueOption "db_cache_size" (fun value => (platform.asUint32 value).map .uint32)
      (some (.uint32 defaultCacheSize.toUInt32)),
    -- metrics options
    flagOption "prometheus_disable",
    stringOption "prometheus_host" none,
    valueOption "prometheus_port" (fun value => (platform.asUint16 value).map .uint16) none ]

/-- `step2`: the command line is stored, or refused as a whole. -/
def step2 {A : Type} (platform : Platform A) (args : List (Occurrence Str)) :
    Except Error (VariablesMap Value) :=
  match platform.store (cliOptions platform) args with
  | some cliValuesMap => .ok cliValuesMap
  | none => .error .cliArgsParseFailed

/-- `find_argument<T>`: the argument of an option, unless it is defaulted. -/
def findArgument {α : Type} (cast : Value → Option α) (vm : VariablesMap Value) (name : String) :
    Except Stop (Option α) :=
  match vm name with
  | none => .ok none
  | some ⟨_, true⟩ => .ok none
  | some ⟨value, false⟩ =>
      match cast value with
      | some argument => .ok (some argument)
      | none => .error (.thrown .badAnyCast)

/-- `find_argument` of an option without argument. -/
def findFlag (vm : VariablesMap Value) (name : String) : Bool :=
  match vm name with
  | some ⟨_, false⟩ => true
  | _ => false

/-! ## Arguments of a stored command line -/

variable {A : Type} {platform : Platform A} {args : List (Occurrence Str)}
  {vm : VariablesMap Value} {name : String}

/-- The argument of an option with a value, as the command line gives it. -/
def argumentOf (args : List (Occurrence Str)) (name : String) : Option Str :=
  (given args name).bind id

/-- `step2` stores the command line. -/
theorem store_of_step2 (hstep2 : step2 platform args = .ok vm) :
    platform.store (cliOptions platform) args = some vm := by
  unfold step2 at hstep2
  split at hstep2
  case h_1 vm' hstore =>
    cases hstep2
    exact hstore
  case h_2 => cases hstep2

/-- The arguments of a command line that is stored can be converted. -/
theorem convert_isSome {convert : Str → Option Value} {default : Option Value} {text : Str}
    (hstep2 : step2 platform args = .ok vm)
    (hname : describe (cliOptions platform) name = some (valueOption name convert default))
    (hargument : argumentOf args name = some text) : ∃ value, convert text = some value := by
  obtain ⟨argument, hgiven, rfl⟩ := Option.bind_eq_some_iff.mp hargument
  obtain ⟨hvalues, _⟩ := platform.store_laws.once (store_of_step2 hstep2) hname rfl
  obtain ⟨value, hvalue, _⟩ := hvalues _ hgiven
  exact ⟨value, hvalue⟩

/-- The lookup of an option with a value finds the argument that was given, converted, and nothing
if none was given. -/
theorem findArgument_value {α : Type} (cast : Value → Option α) {convert : Str → Option Value}
    {default : Option Value} (hstep2 : step2 platform args = .ok vm)
    (hname : describe (cliOptions platform) name = some (valueOption name convert default))
    (hcast : ∀ text value, convert text = some value → (cast value).isSome) :
    findArgument cast vm name =
      .ok ((argumentOf args name).bind fun text => (convert text).bind cast) := by
  obtain ⟨hgiven, hnone⟩ := platform.store_laws.once (store_of_step2 hstep2) hname rfl
  cases hargument : given args name with
  | none =>
    have hvariable := hnone hargument
    rw [findArgument, hvariable, argumentOf, hargument]
    cases default <;> rfl
  | some argument =>
    obtain ⟨value, hvalue, hvariable⟩ := hgiven argument hargument
    obtain ⟨text, rfl, hconvert⟩ := Option.bind_eq_some_iff.mp hvalue
    obtain ⟨result, hresult⟩ := Option.isSome_iff_exists.mp (hcast text value hconvert)
    simp [findArgument, hvariable, hresult, argumentOf, hargument, hconvert]

/-- The lookup of a text finds the argument that was given. -/
theorem findArgument_string {default : Option Str} (hstep2 : step2 platform args = .ok vm)
    (hname : describe (cliOptions platform) name = some (stringOption name default)) :
    findArgument Value.asString vm name = .ok (argumentOf args name) := by
  have hfind := findArgument_value Value.asString hstep2 hname (by rintro text _ ⟨⟩; rfl)
  rw [hfind]
  cases argumentOf args name <;> rfl

/-- The lookup of the size of the cache finds the number that was given. -/
theorem findArgument_cacheSize (hstep2 : step2 platform args = .ok vm) :
    findArgument Value.asUint32 vm "db_cache_size" =
      .ok ((argumentOf args "db_cache_size").bind platform.asUint32) := by
  have hname : describe (cliOptions platform) "db_cache_size" = some (valueOption "db_cache_size"
      (fun value => (platform.asUint32 value).map .uint32)
      (some (.uint32 defaultCacheSize.toUInt32))) := rfl
  have hfind := findArgument_value Value.asUint32 hstep2 hname (by
    intro text value hvalue
    obtain ⟨n, _, rfl⟩ := Option.map_eq_some_iff.mp hvalue
    rfl)
  rw [hfind]
  simp [Option.bind_map, Function.comp_def, Value.asUint32]

/-- The lookup of the port of the metrics finds the number that was given. -/
theorem findArgument_port (hstep2 : step2 platform args = .ok vm) :
    findArgument Value.asUint16 vm "prometheus_port" =
      .ok ((argumentOf args "prometheus_port").bind platform.asUint16) := by
  have hname : describe (cliOptions platform) "prometheus_port" = some (valueOption
      "prometheus_port" (fun value => (platform.asUint16 value).map .uint16) none) := rfl
  have hfind := findArgument_value Value.asUint16 hstep2 hname (by
    intro text value hvalue
    obtain ⟨n, _, rfl⟩ := Option.map_eq_some_iff.mp hvalue
    rfl)
  rw [hfind]
  simp [Option.bind_map, Function.comp_def, Value.asUint16]

/-- An option that was not registered is never found. -/
theorem findFlag_undescribed (hstep2 : step2 platform args = .ok vm)
    (hname : describe (cliOptions platform) name = none) : findFlag vm name = false := by
  rw [findFlag, platform.store_laws.undescribed (store_of_step2 hstep2) hname]

end CppJam.Configurator

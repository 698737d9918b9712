import CppJam.Checks
import CppJam.Common
import CppJam.Storage.Writes
import Mathlib.Data.List.Dedup
import Mathlib.Logic.Function.Basic

/-!
# The persistent storage

`RocksDb` opens a RocksDB database in a directory and hands out its column families
as spaces. RocksDB itself is taken as its documentation describes it: a durable map
for each column family, created on demand by `Open`. What the operating system and
RocksDB can refuse is left open: each call can fail in each session.
-/

namespace CppJam.Storage

open Bytes Checks

/-- `StorageError`. -/
inductive StorageError where
  | ok
  | notSupported
  | corruption
  | invalidArgument
  | ioError
  | notFound
  | dbPathNotCreated
  | storageGone
  | unknown
  deriving DecidableEq

/-- The `rocksdb::Status` of a failed call. -/
inductive FailedStatus where
  | notFound
  | ioError
  | pathNotFound
  | invalidArgument
  | corruption
  | notSupported
  | other
  deriving DecidableEq

/-- `status_as_error`; a path that is not found is a kind of `IOError`. -/
def statusAsError : FailedStatus → StorageError
  | .notFound => .notFound
  | .ioError => .ioError
  | .pathNotFound => .ioError
  | .invalidArgument => .invalidArgument
  | .corruption => .corruption
  | .notSupported => .notSupported
  | .other => .unknown

/-- `Space`. -/
inductive Space where
  /-- `Default`. -/
  | default
  deriving DecidableEq

/-- `std::views::iota(0, SpacesCount)`: the required spaces. -/
def requiredSpaces : List Space := [.default]

/-- `spaceName`. -/
def spaceName : Space → String
  | .default => "default"

/-- Every space is required. -/
theorem mem_requiredSpaces (space : Space) : space ∈ requiredSpaces := by
  cases space
  exact List.mem_singleton.mpr rfl

/-- A RocksDB database: its column families and the entries of each. -/
structure Database where
  /-- The names of the column families. -/
  families : List String
  /-- The value under a key of a column family. -/
  entry : String → ByteVec → Option ByteVec

namespace Database

/-- A new database with the given column families. -/
def fresh (families : List String) : Database := ⟨families, fun _ _ => none⟩

/-- `DBWithTTL::Open` with `create_if_missing` and `create_missing_column_families`: all
existing column families have to be named, missing ones are created empty, and with
a time to live of zero nothing expires. -/
def openWith (found : Option Database) (families : List String) :
    Except FailedStatus Database :=
  match found with
  | none => .ok (fresh families)
  | some db =>
      if db.families.all (fun family => contains families family) then
        .ok ⟨families, fun family => if contains db.families family then db.entry family
          else fun _ => none⟩
      else .error .invalidArgument

/-- `Put` and `Delete` of RocksDB. -/
def write (db : Database) (column : String) (w : Write) : Database :=
  ⟨db.families,
    Function.update db.entry column (Function.update (db.entry column) w.key w.value)⟩

end Database

/-- What the file system has at the path of the database. -/
inductive PathState where
  /-- Nothing. -/
  | absent
  /-- Something that is not a directory. -/
  | file
  /-- A directory, with a database in it or without. -/
  | directory (found : Option Database)

/-- `not exists(path)`. -/
def PathState.isAbsent : PathState → Bool
  | .absent => true
  | .file => false
  | .directory _ => false

/-- The calls that fail in a session, each with its error code or status. -/
structure Environment where
  /-- Whether `getFdLimit` gives no limit. -/
  noFdLimit : Bool
  /-- The code that `create_directories` reports. -/
  createDirectories : Option ℕ
  /-- The code that `create_directory` reports. -/
  createDirectory : Option ℕ
  /-- The status of `ListColumnFamilies`. -/
  listColumnFamilies : Option FailedStatus
  /-- The status of `Open`. -/
  openDatabase : Option FailedStatus

/-- What the constructor throws. -/
inductive Thrown where
  /-- `qtils::raise` of a `StorageError`. -/
  | storageError (error : StorageError)
  /-- `qtils::raise` of a `std::error_code`. -/
  | errorCode (code : ℕ)
  deriving DecidableEq

/-- `RocksDb`. -/
structure RocksDb where
  /-- `db_`: null or the open database. -/
  db : Option Database
  /-- `column_family_handles_`, by the names of the column families. -/
  columnFamilyHandles : List String
  /-- `spaces_`: the column of each space handed out. -/
  spaces : List (Space × String)

/-- `ENOTDIR`. -/
def notADirectory : ℕ := 20

/-- `create_directories(path, ec)`: what the directory then contains. -/
def createDirectories (env : Environment) (path : PathState) : Except ℕ (Option Database) :=
  match env.createDirectories, path with
  | some code, _ => .error code
  | none, .absent => .ok none
  | none, .file => .error notADirectory
  | none, .directory found => .ok found

/-- `RocksDb::createDirectory` on an existing directory; the constructor then raises the
code of `create_directories`, which is clear. -/
def createDirectory (env : Environment) : Except Thrown Unit :=
  match env.createDirectory with
  | some _ => .error (.errorCode 0)
  | none => .ok ()

/-- `ListColumnFamilies`, where a database that is not found has no families. -/
def existingFamilies (env : Environment) (found : Option Database) :
    Except Thrown (List String) :=
  match env.listColumnFamilies, found with
  | some .pathNotFound, _ => .ok []
  | some status, _ => .error (.storageError (statusAsError status))
  | none, none => .ok []
  | none, some db => .ok db.families

/-- `all_families`: the required families and the existing ones. -/
def allFamilies (existing : List String) : List String :=
  let required := requiredSpaces.map spaceName
  required ++ existing.dedup.filter (fun family => ¬contains required family)

/-- `RocksDb::openDatabaseWithTTL`: one handle for each descriptor. -/
def openDatabaseWithTTL (env : Environment) (found : Option Database)
    (families : List String) : Except Thrown RocksDb :=
  match env.openDatabase with
  | some status => .error (.storageError (statusAsError status))
  | none =>
      match Database.openWith found families with
      | .error status => .error (.storageError (statusAsError status))
      | .ok db => .ok ⟨some db, families, []⟩

/-- The constructor from `createDirectory` on. -/
def initialise (env : Environment) (noDbPresented : Bool) (found : Option Database) :
    Except Thrown RocksDb := do
  createDirectory env
  let existing ← existingFamilies env found
  if noDbPresented then openDatabaseWithTTL env found (allFamilies existing)
  else return ⟨none, [], []⟩

/-- `RocksDb::RocksDb`, with the path it leaves behind. -/
def construct (env : Environment) (path : PathState) : PathState × Except Thrown RocksDb :=
  if env.noFdLimit then (path, .error (.storageError .unknown))
  else
    match createDirectories env path with
    | .error code => (path, .error (.errorCode code))
    | .ok found => (.directory found, initialise env path.isAbsent found)

namespace RocksDb

/-- `RocksDb::~RocksDb`: an open database stays in its directory. -/
def destroy (rocks : RocksDb) (path : PathState) : PathState :=
  match rocks.db with
  | some db => .directory (some db)
  | none => path

/-- `RocksDb::getSpace`, giving the column that the space works on. -/
def getSpace (rocks : RocksDb) (space : Space) : Except StorageError (String × RocksDb) :=
  match rocks.spaces.lookup space with
  | some column => .ok (column, rocks)
  | none =>
      match rocks.columnFamilyHandles.find? (fun handle => handle = spaceName space) with
      | none => .error .invalidArgument
      | some column => .ok (column, { rocks with spaces := (space, column) :: rocks.spaces })

/-- `RocksDbSpace::get`. -/
def get (rocks : RocksDb) (column : String) (key : ByteVec) :
    Except Abort (Except StorageError ByteVec) :=
  match rocks.db with
  | none => .error .undefinedBehaviour
  | some db =>
      match db.entry column key with
      | some value => .ok (.ok value)
      | none => .ok (.error (statusAsError .notFound))

/-- A write to the open database. -/
def update (rocks : RocksDb) (column : String) (w : Write) : Except Abort RocksDb :=
  match rocks.db with
  | none => .error .undefinedBehaviour
  | some db => .ok { rocks with db := some (db.write column w) }

/-- `RocksDbSpace::put`. -/
def put (rocks : RocksDb) (column : String) (key value : ByteVec) : Except Abort RocksDb :=
  rocks.update column (.put key value)

/-- `RocksDbSpace::remove`. -/
def remove (rocks : RocksDb) (column : String) (key : ByteVec) : Except Abort RocksDb :=
  rocks.update column (.remove key)

/-- A put or a remove on a space. -/
def apply (column : String) (rocks : RocksDb) : Write → Except Abort RocksDb
  | .put key value => rocks.put column key value
  | .remove key => rocks.remove column key

/-- Puts and removes on a space, in order. -/
def applyAll (rocks : RocksDb) (column : String) (writes : List Write) : Except Abort RocksDb :=
  writes.foldlM (apply column) rocks

end RocksDb

end CppJam.Storage

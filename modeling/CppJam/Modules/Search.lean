import CppJam.Modules.Loading

/-!
# Which modules a node starts

A library is found when no name on its path is hidden, at any depth. The node starts when all found
libraries can be loaded. One that lacks the function `module_info` is never refused.
-/

namespace CppJam.Modules

open Checks

/-! ## Paths of libraries -/

namespace Entries

/-- There is a regular file at the path. -/
inductive Holds : Entries → List String → Library → Prop
  | here {name : String} {library : Library} {rest : Entries} :
      Holds (.file name library rest) [name] library
  | inside {name : String} {inner rest : Entries} {path : List String} {library : Library} :
      Holds inner path library → Holds (.directory name inner rest) (name :: path) library
  | behindFile {name : String} {library' : Library} {rest : Entries} {path : List String}
      {library : Library} : Holds rest path library → Holds (.file name library' rest) path library
  | behindDirectory {name : String} {inner rest : Entries} {path : List String}
      {library : Library} : Holds rest path library →
      Holds (.directory name inner rest) path library
  | behindOther {name : String} {rest : Entries} {path : List String} {library : Library} :
      Holds rest path library → Holds (.other name rest) path library

/-- The names of the entries. -/
def names : Entries → List String
  | .nil => []
  | .file name _ rest => name :: rest.names
  | .directory name _ rest => name :: rest.names
  | .other name rest => name :: rest.names

end Entries

/-- The path of a library: no name on it is hidden, and the last one has the extension. -/
structure IsLibraryPath (path : List String) : Prop where
  /-- No name begins with a dot or an underscore. -/
  visible : ∀ name ∈ path, isSkipped name = false
  /-- The extension is `.so`. -/
  extension : ∃ name, path.getLast? = some name ∧ extension name = ".so"

/-- A library that can be loaded. -/
structure Library.Loads (library : Library) : Prop where
  /-- It is a library. -/
  opens : library.opens = true
  /-- It names its loader. -/
  loaderId : ∃ loaderId, library.loaderId = some (some loaderId)
  /-- It says what it is. -/
  moduleInfo : ∃ moduleInfo, library.moduleInfo = some (some moduleInfo)

/-- A library that names its loader and has no function `module_info`. -/
structure Library.LacksInfo (library : Library) : Prop where
  /-- It is a library. -/
  opens : library.opens = true
  /-- It names its loader. -/
  loaderId : ∃ loaderId, library.loaderId = some (some loaderId)
  /-- It does not say what it is. -/
  moduleInfo : library.moduleInfo = none

/-- What the search of a directory finds and what becomes of it. -/
structure SearchLaw (entries : Entries) (found : List (List String × Library)) : Prop where
  /-- The libraries that are not hidden, at any depth. -/
  complete : ∀ path library, (path, library) ∈ found ↔
    entries.Holds path library ∧ IsLibraryPath path
  /-- None is found twice. -/
  once : (found.map Prod.fst).Nodup
  /-- The node starts when all can be loaded. -/
  starts : (∃ loaders, startLoaders (.directory entries) = .ok (some loaders)) ↔
    ∀ f ∈ found, f.2.Loads
  /-- The node has then started the loaders that it knows, in order, each with its module. -/
  started : ∀ loaders, startLoaders (.directory entries) = .ok (some loaders) →
    (loaders.map fun loader => loader.1.path).Sublist (found.map Prod.fst) ∧
    ∀ module kind, (module, kind) ∈ loaders ↔
      registerLoader module = some kind ∧ ∃ library, (module.path, library) ∈ found ∧
        library.loaderId = some (some module.loaderId) ∧
        library.moduleInfo = some (some module.moduleInfo)
  /-- The node gives up when the first library that cannot be loaded is refused. -/
  givesUp : startLoaders (.directory entries) = .ok none ↔ ∃ front f back,
    found = front ++ f :: back ∧ (∀ g ∈ front, g.2.Loads) ∧ ¬f.2.Loads ∧ ¬f.2.LacksInfo
  /-- The node calls a null pointer when the first library that cannot be loaded lacks
  `module_info`. -/
  crashes : ∀ cause, startLoaders (.directory entries) = .error cause ↔
    cause = .undefinedBehaviour ∧ ∃ front f back,
      found = front ++ f :: back ∧ (∀ g ∈ front, g.2.Loads) ∧ f.2.LacksInfo

namespace Scenario

/-- A library for a loader. -/
def library (loaderId : String) (moduleInfo : Option (Option String)) : Library :=
  ⟨true, some (some loaderId), moduleInfo⟩

/-- A directory with a module, a hidden directory and a directory with a library that does not say
what it is. -/
def directory : Entries :=
  .file "net.so" (library "NetworkingLoader" (some (some "net")))
    (.directory ".git" (.file "old.so" (library "ExampleLoader" (some none)) .nil)
      (.directory "more" (.file "sync.so" (library "SynchronizerLoader" none) .nil) .nil))

end Scenario

end CppJam.Modules

import CppJam.Checks
import CppJam.Modules.Node
import CppJam.Types

/-!
# Finding and loading modules

`run_node` looks for libraries in the directory of modules and below it, asks each for the loader
that it is for, and starts the loaders that it knows. Hidden files and directories are passed over.
The first library that cannot be loaded ends the search, and the node does not start.

The test for `module_info` looks at the function `loader_id` again. A library without `module_info`
passes it, and a null pointer is called.
-/

namespace CppJam.Modules

open Checks

/-- `ModuleLoader::Error`. -/
inductive LoaderError where
  | pathIsNotADir
  | openLibraryFailed
  | noLoaderIdExport
  | unexpectedLoaderId
  | noModuleInfoExport
  | unexpectedModuleInfo
  deriving DecidableEq

/-- What the dynamic linker finds in a file. -/
structure Library where
  /-- `dlopen` gives a handle. -/
  opens : Bool
  /-- The function `loader_id`, if there is one, by what it returns: a text or a null pointer. -/
  loaderId : Option (Option String)
  /-- The function `module_info`, in the same way. -/
  moduleInfo : Option (Option String)

/-- The entries of a directory, in the order in which `directory_iterator` gives them. -/
inductive Entries where
  | nil
  /-- A regular file. -/
  | file (name : String) (library : Library) (rest : Entries)
  /-- A directory. -/
  | directory (name : String) (inner rest : Entries)
  /-- Anything else. -/
  | other (name : String) (rest : Entries)

/-- What is at the path of the modules. -/
inductive Root where
  | absent
  | notADirectory
  | directory (entries : Entries)

/-- `Module`, with its handle in the place of the library. -/
structure LoadedModule where
  /-- `path_`, by its components below the directory of modules. -/
  path : List String
  /-- `module_info_`. -/
  moduleInfo : String
  /-- `loader_id_`. -/
  loaderId : String
  deriving DecidableEq

/-- `entry_name[0] == '.' || entry_name[0] == '_'`. -/
def isSkipped (name : String) : Bool :=
  name.toList.head? = some '.' || name.toList.head? = some '_'

/-- `path::extension`: from the last dot on, unless the name begins with it. -/
def extension (name : String) : String :=
  let suffix := name.toList.reverse.takeWhile (· ≠ '.')
  if suffix.length + 1 < name.toList.length then String.ofList ('.' :: suffix.reverse) else ""

/-- `ModuleLoader::load_module`, without the entry of the deque. -/
def loadModule (path : List String) (library : Library) :
    Except (Exit LoaderError) LoadedModule := do
  failIf (library.opens = false) (.reject .openLibraryFailed)
  match library.loaderId with
  | none => .error (.reject .noLoaderIdExport)
  | some none => .error (.reject .unexpectedLoaderId)
  | some (some loaderId) => do
      -- the source tests `loader_id_func` here, and not `module_info_func`
      failIf (library.loaderId = none) (.reject .noModuleInfoExport)
      match library.moduleInfo with
      | none => .error (.abort .undefinedBehaviour)
      | some none => .error (.reject .unexpectedModuleInfo)
      | some (some moduleInfo) => return ⟨path, moduleInfo, loaderId⟩

/-- The loop of `ModuleLoader::recursive_search` over the entries of a directory. The first test of
the function holds for the directories that the loop goes into. -/
def searchEntries (path : List String) (modules : List LoadedModule) :
    Entries → Except (Exit LoaderError) (List LoadedModule)
  | .nil => .ok modules
  | .file name library rest =>
      if isSkipped name then searchEntries path modules rest
      else if extension name = ".so" then do
        let module ← loadModule (path ++ [name]) library
        searchEntries path (modules ++ [module]) rest
      else searchEntries path modules rest
  | .directory name inner rest =>
      if isSkipped name then searchEntries path modules rest
      else do
        let modules ← searchEntries (path ++ [name]) modules inner
        searchEntries path modules rest
  | .other _ rest => searchEntries path modules rest

/-- `ModuleLoader::recursive_search`. -/
def recursiveSearch (modules : List LoadedModule) :
    Root → Except (Exit LoaderError) (List LoadedModule)
  | .absent => .error (.reject .pathIsNotADir)
  | .notADirectory => .error (.reject .pathIsNotADir)
  | .directory entries => searchEntries [] modules entries

/-- `ModuleLoader::get_modules`. -/
def getModules (root : Root) : Except (Exit LoaderError) (List LoadedModule) :=
  recursiveSearch [] root

/-- The loader that `NodeInjector::register_loader` makes. -/
def registerLoader (module : LoadedModule) : Option Kind :=
  if module.loaderId = "ExampleLoader" then some .exampleModule
  else if module.loaderId = "NetworkingLoader" then some .networking
  else if module.loaderId = "SynchronizerLoader" then some .synchronizer
  else none

/-- `run_node` up to the application: nothing when the node does not start, or else the loaders that
were started, in order. -/
def startLoaders (root : Root) : Except Abort (Option (List (LoadedModule × Kind))) :=
  match getModules root with
  | .error (.reject _) => .ok none
  | .error (.abort abort) => .error abort
  | .ok modules =>
      .ok (some (modules.filterMap fun module => (registerLoader module).map (Prod.mk module)))

end CppJam.Modules

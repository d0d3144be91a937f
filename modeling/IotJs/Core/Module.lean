import IotJs.Lib.Reentrant.Interp
import IotJs.Lib.Reentrant.Play

/-!
# `IotJs.Core.Module`: `require`

`iotjs_module_t` from `src/js/module.js`: the resolution of a module id to a path, the cache, and
`load`, which runs the source of a module that is not in the cache.

The file system and what the process was started with are a `ModuleHost`. A path is resolved by the
host from the working directory, which can change; a regular file has a number, and two paths
that name one file give one number. `cache` and `process.native_sources` are plain objects, so a
lookup also finds what every object inherits (`inherited`).

The source of a module is outside code: `load` yields to it, and it calls `require` as it likes.
What `exports` of a module holds is known to the module's source alone, so that it stands for the
number of the module. The native modules are outside too: `load` hands over to `Native.require`.
-/

set_option autoImplicit false

namespace IotJs

open Reentrant

/-- What a path names. -/
inductive PathEntry where
  | file (file : Nat)
  | directory
deriving DecidableEq, Repr

/-- What the module loader finds outside. -/
structure ModuleHost where
  /-- the names of the native modules -/
  natives : List String
  /-- what `process.cwd()` gave when `module.js` was loaded -/
  cwd : Option String
  /-- `process.env.HOME` -/
  home : String
  /-- `process.env.NODE_PATH` -/
  nodePath : String
  /-- `stat` of a path from a working directory -/
  stat : String → String → Option PathEntry
  /-- `JSONParse(source).main` of a file, as a string, or the exception of the parse -/
  packageMain : Nat → Except String String

structure Module where
  id : String
  /-- the object in `exports` -/
  exports : Nat
  filename : Option String
  /-- the directories that a `require` of this module searches first -/
  dirs : List String
deriving DecidableEq, Repr

/-- What the loader shows: the sources that it ran, and what `require` returned. The path is the
one that the id was resolved to, and the file the one that it named then. -/
inductive ModuleObs where
  | evaluated (path : String) (file : Nat)
  | returned (path : Option String) (file : Option Nat) (exports : Option Nat)
  | native (id : String)
deriving DecidableEq, Repr

/-- The state of the loader. -/
structure Modules where
  cwd : String
  /-- the number of the next object -/
  next : Nat
  cache : List (String × Module)
  log : List ModuleObs
deriving DecidableEq, Repr

/-- The outside code that `load` runs: the source of a file, as the body of a module. -/
structure ModuleYield where
  module : Module
  path : String
  file : Nat
deriving DecidableEq, Repr

namespace Module

/-- The properties that every plain object has. -/
def inherited : List String :=
  ["constructor", "toString", "toLocaleString", "valueOf", "hasOwnProperty", "isPrototypeOf",
    "propertyIsEnumerable"]

/-- `process.native_sources[id]` is an object. -/
def nativeSource (H : ModuleHost) (id : String) : Bool := H.natives.contains id || inherited.contains id

/-- The directories that every `require` searches. An empty variable counts as none. -/
def moduledirs (H : ModuleHost) : List String :=
  [""] ++ (H.cwd.elim [] fun cwd => if cwd = "" then [] else [cwd ++ "/", cwd ++ "/node_modules/"])
    ++ (if H.home = "" then [] else [H.home ++ "/node_modules/"])
    ++ (if H.nodePath = "" then [] else [H.nodePath ++ "/node_modules/"])

def resolveDirectories (H : ModuleHost) (parent : Option Module) : List String :=
  parent.elim (moduledirs H) fun parent => parent.dirs ++ moduledirs H

/-- `statPath`: a path that cannot be examined is as one that does not exist. -/
def tryPath (H : ModuleHost) (cwd path : String) : Option String :=
  match H.stat cwd path with
  | some (.file _) => some path
  | _ => none

/-- The file that `path` names. -/
def fileAt (H : ModuleHost) (cwd path : String) : Option Nat :=
  match H.stat cwd path with
  | some (.file file) => some file
  | _ => none

/-- The field `main` of the file `package.json`. -/
def readMain (H : ModuleHost) (cwd jsonpath : String) : Except String String :=
  match fileAt H cwd jsonpath with
  | some file => H.packageMain file
  | none => .error "cannot read package.json"

def resolveFilepath (H : ModuleHost) (cwd id : String) : List String → Except String (Option String)
  | [] => .ok none
  | dir :: directories =>
      -- 1. 'id'
      if let some filepath := tryPath H cwd (dir ++ id) then .ok (some filepath)
      -- 2. 'id.js'
      else if let some filepath := tryPath H cwd (dir ++ id ++ ".js") then .ok (some filepath)
      else
        -- 3. package path /node_modules/id
        let packagepath := dir ++ id
        let jsonpath := packagepath ++ "/package.json"
        if (tryPath H cwd jsonpath).isSome then
          match readMain H cwd jsonpath with
          | .error message => .error message
          | .ok pkgMainFile =>
              if let some filepath := tryPath H cwd (packagepath ++ "/" ++ pkgMainFile) then
                .ok (some filepath)
              -- index.js
              else if let some filepath := tryPath H cwd (packagepath ++ "/" ++ "index.js") then
                .ok (some filepath)
              else resolveFilepath H cwd id directories
        else resolveFilepath H cwd id directories

def resolveModPath (H : ModuleHost) (cwd id : String) (parent : Option Module) :
    Except String (Option String) :=
  resolveFilepath H cwd id (resolveDirectories H parent)

/-- `SetModuleDirs`: what stands before the last '/', and the '/'. -/
def dirname (filepath : String) : String :=
  String.ofList (filepath.toList.reverse.dropWhile (· ≠ '/')).reverse

end Module

namespace Modules

/-- The key of `cache` that a path, or `false`, becomes. -/
def key (modPath : Option String) : String := modPath.getD "false"

/-- `cache[modPath].exports`, where there is such a property. What is inherited has no
`exports`. -/
def cached (s : Modules) (modPath : Option String) : Option (Option Nat) :=
  match s.cache.lookup (key modPath) with
  | some module => some (some module.exports)
  | none => if Module.inherited.contains (key modPath) then some none else none

/-- A function of the loader. -/
abbrev Loading := Prog Modules ModuleYield Empty

def record (o : ModuleObs) : Loading Unit := modify fun s => { s with log := s.log ++ [o] }

/-- `compile`: runs the source of the file that the module's name refers to. -/
def compile (H : ModuleHost) (module : Module) (path : String) : Loading Unit := do
  match Module.fileAt H (← get).cwd path with
  | some file =>
      record (.evaluated path file)
      Prog.yieldTo ⟨module, path, file⟩
  | none => Prog.fail "cannot read file"

/-- `load(id, parent)`. -/
def load (H : ModuleHost) (id : String) (parent : Option Module) : Loading Unit := do
  if Module.nativeSource H id then record (.native id)
  else
    let s ← get
    match Module.resolveModPath H s.cwd id parent with
    | .error message => Prog.fail message
    | .ok modPath =>
        let file := modPath.bind (Module.fileAt H s.cwd)
        match s.cached modPath with
        | some exports => record (.returned modPath file exports)
        | none =>
            match modPath with
            | none => Prog.fail "No module found"
            | some path =>
                let module : Module := ⟨id, s.next, some path, [Module.dirname path]⟩
                modify fun s => { s with next := s.next + 1 }
                compile H module path
                modify fun s => { s with cache := (path, module) :: s.cache }
                record (.returned modPath file (some module.exports))

/-- What the sources of the modules can do. -/
inductive Call where
  | require (id : String) (parent : Option Module)
  | chdir (cwd : String)
deriving DecidableEq, Repr

/-- The loader between the sources of the modules. -/
def machine (H : ModuleHost) : Machine Modules ModuleYield Empty Call where
  body
    | .require id parent => load H id parent
    | .chdir cwd => modify fun s => { s with cwd := cwd }
  enabled _ _ _ := true

def new (cwd : String) : Modules := ⟨cwd, 0, [], []⟩

/-! ### Sources that only require -/

/-- A source that requires the given ids, one after the other. -/
def runBody (require : String → Modules → Answer Modules Unit) :
    List String → Modules → Answer Modules Unit
  | [], s => some (.ok () s)
  | id :: ids, s =>
      match require id s with
      | some (.ok _ t) => runBody require ids t
      | answer => answer

/-- `load`, where the source of each file requires the ids `requires file`. Bodies that are nested
more than `n` levels deep do not return. -/
def loadWith (H : ModuleHost) (requires : Nat → List String) :
    Nat → String → Option Module → Modules → Answer Modules Unit
  | 0, id, parent => (load H id parent).interp (fun _ _ => none) nofun
  | n + 1, id, parent =>
      (load H id parent).interp
        (fun u => runBody (fun id => loadWith H requires n id (some u.module)) (requires u.file)) nofun

end Modules

end IotJs

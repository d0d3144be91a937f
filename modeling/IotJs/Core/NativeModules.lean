import IotJs.Core.Module

/-!
# `IotJs.Core.NativeModules`: the built-in modules at run time

`Native.require` and `compile` from `src/js/iotjs.js`, the lookup of `CompileNativePtr` in the
table `natives` that `js2c.py` writes, and `process.binding` with
`iotjs_module_initialize_if_necessary` from `src/iotjs_module.c`.

The source of a built-in module is outside code: `compile` yields to it, and it requires, binds and
assigns to `module.exports` as it likes. An object is a number. `Native.cache` is a plain object,
so a lookup also finds what every object inherits (`Module.inherited`), and that has no `exports`.
A property of `process.binding` that does not exist is no number, which `Binding` refuses.
-/

set_option autoImplicit false

namespace IotJs

open Reentrant

/-- The tables that the build makes: the names in `natives`, and those in `MAP_MODULE_LIST`. -/
structure NativeTables where
  natives : List String
  moduleList : List String

/-- What the loader of the built-in modules shows. -/
inductive NativeObs where
  | evaluated (id : String)
  | unknown (id : String)
  | returned (id : String) (exports : Option Nat)
  | initialized (name : String)
  | unbound (name : String)
deriving DecidableEq, Repr

structure NativeModules where
  /-- the number of the next object -/
  next : Nat
  /-- `Native.cache`, with the `exports` of each module -/
  cache : List (String × Nat)
  /-- the entries of `modules` whose `jmodule` is not undefined -/
  modules : List String
  log : List NativeObs
deriving DecidableEq, Repr

/-- The outside code that `compile` runs: the source of a module. -/
structure NativeYield where
  id : String
deriving DecidableEq, Repr

namespace NativeModules

abbrev Loading := Prog NativeModules NativeYield Empty

def record (o : NativeObs) : Loading Unit := modify fun s => { s with log := s.log ++ [o] }

/-- `strcmp` stops at the first NUL. -/
def cString (id : String) : String := String.ofList (id.toList.takeWhile (· ≠ '\x00'))

/-- `Native.cache[id]`, where it counts as true: its `exports`. -/
def cached (s : NativeModules) (id : String) : Option (Option Nat) :=
  match s.cache.lookup id with
  | some exports => some (some exports)
  | none => if Module.inherited.contains id then some none else none

/-- `nativeMod.compile()`: `process.compileNativePtr`, and the function that it gives. -/
def compile (T : NativeTables) (id : String) : Loading Unit := do
  if T.natives.contains (cString id) then
    record (.evaluated id)
    Prog.yieldTo ⟨id⟩
  else
    record (.unknown id)
    Prog.fail "Unknown native module"

/-- `return nativeMod.exports` -/
def returnExports (id : String) : Loading Unit := do
  let s ← get
  record (.returned id (s.cache.lookup id))

/-- `Native.require(id)` -/
def require (T : NativeTables) (id : String) : Loading Unit := do
  if id = "native" then record (.returned id none)
  else
    let s ← get
    match s.cached id with
    | some exports => record (.returned id exports)
    | none =>
        -- the module is in the cache before its source runs
        modify fun s => { s with next := s.next + 1, cache := (id, s.next) :: s.cache }
        compile T id
        returnExports id

/-- `process.binding(process.binding[name])` -/
def binding (T : NativeTables) (name : String) : Loading Unit := do
  let s ← get
  if T.moduleList.contains name then
    if name ∈ s.modules then pure ()
    else
      modify fun s => { s with modules := name :: s.modules }
      record (.initialized name)
  else
    record (.unbound name)
    Prog.fail "Internal error (___Binding_native)"

/-- What the sources of the modules can do. -/
inductive Call where
  | require (id : String)
  | binding (name : String)
  /-- `module.exports = exports` -/
  | assign (id : String) (exports : Nat)
deriving DecidableEq, Repr

/-- The loader between the sources of the modules. -/
def machine (T : NativeTables) : Machine NativeModules NativeYield Empty Call where
  body
    | .require id => require T id
    | .binding name => binding T name
    | .assign id exports => modify fun s => { s with
        cache := s.cache.map fun entry => if entry.1 = id then (id, exports) else entry }
  enabled _ _ _ := true

/-- Before `iotjs.js` runs: the process module is initialized by `iotjs_start`. -/
def new : NativeModules := ⟨0, [], ["process"], []⟩

end NativeModules

end IotJs

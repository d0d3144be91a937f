import IotJs.Core.HandleWrap
import IotJs.Lib.Reentrant.Intercept
import IotJs.Lib.Reentrant.Zoom
import Mathlib.Logic.Function.Basic

/-!
# `IotJs.Core.Teardown`: `iotjs_start` and `iotjs_entry`, to the end of the process

When nothing is left to do in the event loop, `iotjs_start` emits 'exit' and releases the built-in
objects (`iotjs_module_list_cleanup`) and the values that the binding shares
(`iotjs_binding_finalize`). Then `iotjs_entry` closes every handle that libuv still has, runs the
loop until it has nothing left, closes it, and releases the engine, which frees every object with
its wrapper.

The listeners of 'exit' are JavaScript like any other: they make handles, use and close them, and
start requests. What they leave behind completes in the last run of the loop, and its callbacks are
called there.

The `k`-th object that JavaScript makes is of the kind `kinds k`, and its wrapper lies at the
address `k`.
-/

set_option autoImplicit false

namespace IotJs

open Reentrant

inductive TeardownPhase where
  /-- the main script, and the event loop -/
  | running
  /-- `kExiting`: the listeners of 'exit' run -/
  | exiting
  /-- the built-in objects and the values of the binding are released -/
  | closing
  /-- the engine is released -/
  | ended
deriving DecidableEq, Repr

/-- The JavaScript that native code hands control to. -/
inductive TeardownYield where
  | wrap (k : Nat) (u : WrapYield)
  /-- the callback of a request -/
  | request
  /-- `emitExit` of the process object -/
  | exit
deriving DecidableEq, Repr

structure Teardown where
  /-- the wrappers, of which `made` have been initialized -/
  wraps : Nat → HandleWrap
  made : Nat
  /-- how many requests libuv has accepted and not completed -/
  requests : Nat
  phase : TeardownPhase
  /-- `iotjs_make_callback` used a value that was released -/
  stale : Bool
  /-- `IOTJS_ASSERT(res == 0)` has failed -/
  aborted : Bool

namespace Teardown

abbrev Method := Prog Teardown TeardownYield UvCall

/-- One of the wrappers. -/
def wrapFocus (k : Nat) : Focus Teardown HandleWrap where
  get t := t.wraps k
  put w t := { t with wraps := Function.update t.wraps k w }
  get_put w t := Function.update_self k w t.wraps
  put_get t := by rw [Function.update_eq_self]
  put_put w w' t := by simp [Function.update_idem]

/-- A function of a wrapper. -/
def onWrap {α : Type} (k : Nat) (p : Prog HandleWrap WrapYield UvCall α) : Method α :=
  p.zoom (wrapFocus k) (.wrap k) id

/-- `iotjs_make_callback`, up to the function: `this` and the arguments are values of the binding,
and the callbacks of `process.nextTick` are those of the process object. -/
def makeCallback : Method Unit :=
  modify fun t => if t.phase = .closing then { t with stale := true } else t

/-- A function of a wrapper that may call JavaScript back. -/
def callingBack (k : Nat) (p : Prog HandleWrap WrapYield UvCall Unit) : Method Unit :=
  (onWrap k p).intercept (fun _ => makeCallback) id id

/-- `uv_walk` with `iotjs_uv_walk_to_close_callback`. -/
def uvWalk : List Nat → Method Unit
  | [] => pure ()
  | k :: ks => do
      if ((← get).wraps k).inLoop then onWrap k HandleWrap.walk
      uvWalk ks

/-- `jerry_cleanup` frees the objects that are still there. -/
def jerryCleanup : List Nat → Method Unit
  | [] => pure ()
  | k :: ks => do
      unless ((← get).wraps k).freed do onWrap k HandleWrap.destroy
      jerryCleanup ks

/-- `uv_loop_close` finds a handle. -/
def busy (t : Teardown) : Bool := (List.range t.made).any fun k => (t.wraps k).inLoop

/-- libuv waits neither for a request nor for the end of a close. -/
def idle (t : Teardown) : Bool :=
  t.requests == 0 && (List.range t.made).all fun k => !(t.wraps k).pending

/-! ### The machine -/

inductive Call where
  /-- JavaScript makes an object -/
  | create
  /-- JavaScript starts a request -/
  | request
  /-- libuv completes a request -/
  | complete
  /-- something happens to an object -/
  | wrap (k : Nat) (i : HandleWrap.Call)
  /-- the event loop has nothing left to do -/
  | leave
  /-- the last `uv_run` returns -/
  | finish
deriving DecidableEq, Repr

/-- The end of `iotjs_start`, and `uv_walk`. -/
def leave : Method Unit := do
  modify fun t => { t with phase := .exiting }
  Prog.yieldTo .exit
  modify fun t => { t with phase := .closing }
  uvWalk (List.range (← get).made)

/-- The end of `iotjs_entry`. -/
def finish : Method Unit := do
  let t ← get
  if t.busy then
    modify fun t => { t with aborted := true }
    Prog.fail "assertion failed"
  jerryCleanup (List.range t.made)
  modify fun t => { t with phase := .ended }

def body : Call → Method Unit
  | .create => modify fun t => { t with made := t.made + 1 }
  | .request => modify fun t => { t with requests := t.requests + 1 }
  | .complete => do
      modify fun t => { t with requests := t.requests - 1 }
      makeCallback
      Prog.yieldTo .request
  | .wrap k i => callingBack k (HandleWrap.machine.body i)
  | .leave => leave
  | .finish => finish

/-- JavaScript runs: the main script, or what was called back. -/
def inJs (atRest : Bool) (t : Teardown) : Bool :=
  t.phase == .running || !atRest && t.phase != .ended

/-- libuv runs. -/
def inLoop (atRest : Bool) (t : Teardown) : Bool :=
  atRest && (t.phase == .running || t.phase == .closing)

/-- The object can be used so. It is JavaScript that calls methods and loses references. -/
def wrapEnabled (atRest : Bool) (t : Teardown) (w : HandleWrap) : HandleWrap.Call → Bool
  | .op _ | .drop => inJs atRest t
  | .event => inLoop atRest t && !w.closing
  | .closed => inLoop atRest t
  | .gc => t.phase != .ended
  | .walk => false

/-- The process has not ended in the middle. -/
def alive (t : Teardown) : Bool :=
  !t.aborted && (List.range t.made).all fun k => !(t.wraps k).crashed

def enabled (i : Call) (atRest : Bool) (t : Teardown) : Bool :=
  t.alive && match i with
  | .create | .request => inJs atRest t
  | .complete => inLoop atRest t && t.requests != 0
  | .wrap k i =>
      decide (k < t.made) && wrapEnabled atRest t (t.wraps k) i &&
        HandleWrap.machine.enabled i atRest (t.wraps k)
  | .leave => atRest && t.phase == .running && t.idle
  | .finish => atRest && t.phase == .closing && t.idle

/-- A process, from its main script to its end. -/
def machine : Machine Teardown TeardownYield UvCall Call where
  body := body
  enabled := enabled

/-- A process that has made nothing yet. -/
def new (kinds : Nat → HandleKind) : Teardown where
  wraps k := HandleWrap.initialized (kinds k) k
  made := 0
  requests := 0
  phase := .running
  stale := false
  aborted := false

end Teardown

end IotJs

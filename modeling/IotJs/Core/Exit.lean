import IotJs.Lib.Reentrant.Prog

/-!
# `IotJs.Core.Exit`: how a process ends

The process ends in one of three ways: the event loop has nothing left to do and `iotjs_start`
calls `emitExit(0)`; somebody calls `process.exit`; or nobody handles an exception and
`_onUncaughtExcecption` of `iotjs.js` calls `process.exit(1)`. All of them meet in `emitExit`, and
the listeners of 'exit' can come back with an assignment, an exception or another `process.exit`.

The functions of the application are outside code, and every call of them is guarded, so that an
exception is an answer the code asks for (`threw`). `exit` of C hands the low byte of its argument
on as the status of the process.
-/

set_option autoImplicit false

namespace IotJs

open Reentrant

namespace Exit

/-- A value that can be assigned to `process.exitCode`. -/
inductive Value where
  | undefined
  | null
  | nan
  | boolean (b : Bool)
  | number (n : Int)
  | string (s : String)
  | object
deriving DecidableEq, Repr

/-- `code || code == 0` -/
def Value.isCode : Value → Bool
  | undefined | null | nan => false
  | _ => true

/-- `value || 0` -/
def Value.orZero : Value → Value
  | undefined | null | nan | boolean false | string "" => number 0
  | value => value

structure Runtime where
  exitCode : Value
  _exiting : Bool
  /-- a listener of 'uncaughtException' is registered -/
  handled : Bool
  /-- what the listeners of 'exit' were called with -/
  emitted : List Value
  /-- the event loop had nothing left to do -/
  left : Bool
  /-- the exit status, once the process has one -/
  status : Option Int
  /-- an assertion of the native code has failed -/
  aborted : Bool
  /-- what the application assigned to `process.exitCode` last -/
  assigned : Option Value
deriving DecidableEq, Repr

/-- `initProcessExit` -/
def start : Runtime where
  exitCode := .number 0
  _exiting := false
  handled := false
  emitted := []
  left := false
  status := none
  aborted := false
  assigned := none

/-- Who called `process.exit`. -/
inductive Caller where
  | application
  /-- `_onUncaughtExcecption`, for native code -/
  | native
deriving DecidableEq, Repr

/-- The outside code that has control. -/
inductive Tag where
  /-- a function that native code calls, the main script or a callback of `process.nextTick` -/
  | function
  /-- the listeners of 'uncaughtException' -/
  | uncaughtException
  /-- the listeners of 'exit', when `process.exit` was called -/
  | exit (caller : Caller)
  /-- the listeners of 'uncaughtException', after one of 'exit' has thrown -/
  | uncaughtExit (caller : Caller)
  /-- the listeners of 'exit', at the end of the event loop -/
  | exitLeft
  /-- the process is gone -/
  | gone
deriving DecidableEq, Repr

inductive Ask where
  | threw
deriving DecidableEq, Repr

abbrev Method := Prog Runtime Tag Ask

/-- The status of a process that called `exit` with an `int`. -/
def exitStatus (n : Int) : Int := n % 256

/-- `process.doExit(process.exitCode || 0)`. `DoExit` throws where that is no number: through
`process.exit` to the application, and else into an assertion of the native code. -/
def doExit (caller : Caller) : Method Unit := do
  match (← get).exitCode.orZero, caller with
  | .number n, _ =>
      modify fun s => { s with status := some (exitStatus n) }
      Prog.yieldTo .gone
  | _, .application => Prog.fail "Internal error (DoExit)"
  | _, .native =>
      modify fun s => { s with aborted := true }
      Prog.yieldTo .gone

/-- `emitExit`, up to the listeners. -/
def emitExit (code : Value) (s : Runtime) : Runtime :=
  let exitCode := if code.isCode then code else s.exitCode
  { s with _exiting := true, exitCode, emitted := s.emitted ++ [exitCode.orZero] }

/-- The rest of `process.exit`: each way out of `_onUncaughtExcecption` leads to `doExit`. -/
def afterExit (caller : Caller) : Method Unit := do
  if (← Prog.askFor .threw) ≠ 0 then
    modify fun s => { s with exitCode := .number 1 }
    if (← get).handled then Prog.yieldTo (.uncaughtExit caller)
  doExit caller

/-- `process.exit` -/
def exit (caller : Caller) (code : Value) : Method Unit := do
  if (← get)._exiting then doExit caller
  else
    modify (emitExit code)
    Prog.yieldTo (.exit caller)
    afterExit caller

/-- What follows the listeners of 'uncaughtException'. -/
def afterUncaughtException : Method Unit := do
  if (← Prog.askFor .threw) ≠ 0 then exit .native (.number 1)

def _onUncaughtExcecption : Method Unit := do
  if (← get).handled then
    Prog.yieldTo .uncaughtException
    afterUncaughtException
  else exit .native (.number 1)

/-- What follows a function: an exception that nobody has caught. -/
def afterFunction : Method Unit := do
  if (← Prog.askFor .threw) ≠ 0 then _onUncaughtExcecption

/-- The rest of `iotjs_process_emit_exit(0)`, and of `iotjs_entry`, which returns 0. -/
def afterExitLeft : Method Unit := do
  if (← Prog.askFor .threw) ≠ 0 then modify fun s => { s with status := some (exitStatus 2) }
  else modify fun s => { s with status := some (exitStatus 0) }

/-- The end of the event loop. -/
def leave : Method Unit := do
  modify fun s => { s with left := true }
  if (← get)._exiting then modify fun s => { s with status := some (exitStatus 0) }
  else
    modify (emitExit (.number 0))
    Prog.yieldTo .exitLeft
    afterExitLeft

/-! ### The machine -/

inductive Call where
  /-- native code calls a function of the application, also while another one runs -/
  | callback
  /-- the event loop has nothing left to do -/
  | leave
  /-- `process.exit(code)` -/
  | exit (code : Value)
  /-- `process.exitCode = value` -/
  | assign (value : Value)
  /-- a first listener of 'uncaughtException' is registered, or the last one removed -/
  | listen (handled : Bool)
deriving DecidableEq, Repr

def body : Call → Method Unit
  | .callback => do
      Prog.yieldTo .function
      afterFunction
  | .leave => leave
  | .exit code => exit .application code
  | .assign value => modify fun s => { s with exitCode := value, assigned := some value }
  | .listen handled => modify fun s => { s with handled := handled }

/-- The process runs. -/
def Runtime.alive (s : Runtime) : Bool := s.status.isNone && !s.aborted

/-- At rest the event loop runs, until it has nothing left to do. -/
def enabled (s : Runtime) (atRest : Bool) : Call → Bool
  | .callback => s.alive && !(atRest && s.left)
  | .leave => s.alive && atRest && !s.left
  | _ => s.alive && !atRest

def machine : Machine Runtime Tag Ask Call where
  body := body
  enabled i atRest s := enabled s atRest i

/-- How the code goes on when the outside code of a tag returns. -/
def resume : Tag → Method Unit
  | .function => afterFunction
  | .uncaughtException => afterUncaughtException
  | .exit caller => afterExit caller
  | .uncaughtExit caller => doExit caller
  | .exitLeft => afterExitLeft
  | .gone => pure ()

/-- No exception passes a function by, and a process that is gone runs nothing. -/
def running (c : Config Runtime Tag Ask) : Move Call → Prop
  | .call _ _ => True
  | .ret _ => c.heap.alive = true
  | .throw => False

instance (c : Config Runtime Tag Ask) : ∀ m : Move Call, Decidable (running c m)
  | .call _ _ => .isTrue trivial
  | .ret _ => inferInstanceAs (Decidable (_ = _))
  | .throw => .isFalse id

end Exit

end IotJs

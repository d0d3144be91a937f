import IotJs.Lib.Reentrant.Prog

/-!
# `IotJs.Core.EventLoop`: `process.nextTick` and the main loop

Three pieces of code run the callbacks of `process.nextTick`. `_onNextTick` of `iotjs.js` drains
the queue: it takes a private copy, empties the queue and calls the callbacks of the copy.
`iotjs_make_callback` of `iotjs_binding_helper.c`, through which native code calls JavaScript,
drains after every call, also when JavaScript is running already. And `iotjs_start` of `iotjs.c`
drains once in every round of the main loop, and decides whether there is another round.

A registration is known by its number. What the callbacks do, what `uv_run` calls, and the
listeners of 'uncaughtException' and 'exit' are outside code. Each call of outside code is
guarded: an exception is caught (`try` in `_onNextTick`, the flag `throws` in the C code), so it
is an answer that the code asks for (`threw`) and never passes a function by. `process.exit`
ends the process: a process that has exited runs nothing any more.
-/

set_option autoImplicit false

namespace IotJs

open Reentrant

/-- Where the process stands. -/
inductive Phase where
  /-- the main script has not run yet -/
  | main
  /-- in the loop of `iotjs_start` -/
  | loop
  /-- the loop was left -/
  | left
deriving DecidableEq, Repr

structure Process where
  phase : Phase
  /-- callbacks registered so far -/
  registrations : Nat
  nextTickQueue : List Nat
  /-- the callbacks that were called, in order -/
  started : List Nat
  /-- a listener of 'uncaughtException' is registered -/
  handled : Bool
  /-- `uv_loop_alive` -/
  alive : Bool
  _exiting : Bool
  /-- `exit` of C was called -/
  exited : Bool
deriving DecidableEq, Repr

namespace Process

/-- Before the main script. -/
def start : Process where
  phase := .main
  registrations := 0
  nextTickQueue := []
  started := []
  handled := false
  alive := false
  _exiting := false
  exited := false

/-- Who drains the queue. -/
inductive Caller where
  /-- `iotjs_make_callback`, or the application itself -/
  | callback
  /-- `runMain`, after the main script -/
  | runMain
  /-- the main loop, with the answer of `uv_run` -/
  | loop (more : Bool)
deriving DecidableEq, Repr

/-- What is left to do when outside code is finished with. -/
inductive Next where
  /-- the rest of a private copy of the queue -/
  | drain (rest : List Nat) (caller : Caller)
  | onNextTick (caller : Caller)
  | enterLoop
  /-- nothing: the application had called `process.exit` -/
  | return
deriving DecidableEq, Repr

/-- Outside code that something follows. -/
inductive Point where
  /-- the function that `iotjs_make_callback` calls -/
  | function
  /-- a callback of `process.nextTick` -/
  | tick
  /-- the listeners of 'uncaughtException' -/
  | uncaughtException
  /-- the listeners of 'exit' -/
  | exit
  /-- the listeners of 'uncaughtException', after one of 'exit' has thrown -/
  | uncaughtExit
  /-- the process is gone -/
  | gone
deriving DecidableEq, Repr

/-- The outside code that has control. -/
inductive Tag where
  /-- the main script -/
  | main
  | uvRun
  | outside (point : Point) (next : Next)
deriving DecidableEq, Repr

/-- The code that called outside code asks whether it threw. -/
inductive Ask where
  | threw
deriving DecidableEq, Repr

abbrev Method := Prog Process Tag Ask

/-! ### `process.exit` and `_onUncaughtExcecption` -/

/-- `process.doExit` -/
def doExit (next : Next) : Method Unit := do
  modify fun s => { s with exited := true }
  Prog.yieldTo (.outside .gone next)

/-- What follows the listeners of 'exit': an exception goes to `_onUncaughtExcecption`, and each
way of that ends in `doExit`. -/
def afterEmitExit (next : Next) : Method Unit := do
  if (← Prog.askFor .threw) ≠ 0 && (← get).handled then
    Prog.yieldTo (.outside .uncaughtExit next)
  doExit next

/-- `process.exit` -/
def exit (next : Next) : Method Unit := do
  if !(← get)._exiting then
    modify fun s => { s with _exiting := true }
    Prog.yieldTo (.outside .exit next)
    afterEmitExit next
  else doExit next

/-- What follows the listeners of 'uncaughtException': if they throw, nobody handles that. -/
def afterUncaughtException (next : Next) : Method Unit := do
  if (← Prog.askFor .threw) ≠ 0 then exit next

def _onUncaughtExcecption (next : Next) : Method Unit := do
  if (← get).handled then
    Prog.yieldTo (.outside .uncaughtException next)
    afterUncaughtException next
  else exit next

/-- `catch (e) { process._onUncaughtExcecption(e); }`, and `if (throws)` in the C code. -/
def catchException (next : Next) : Method Unit := do
  if (← Prog.askFor .threw) ≠ 0 then _onUncaughtExcecption next

/-! ### Draining -/

/-- The loop of `_onNextTick` over its private copy. -/
def drain (caller : Caller) : List Nat → Method Bool
  | [] => do return !(← get).nextTickQueue.isEmpty
  | callback :: rest => do
      modify fun s => { s with started := s.started ++ [callback] }
      Prog.yieldTo (.outside .tick (.drain rest caller))
      -- each callback has a `try` of its own, so an exception does not end the loop
      catchException (.drain rest caller)
      drain caller rest

def _onNextTick (caller : Caller) : Method Bool := do
  let callbacks := (← get).nextTickQueue
  -- what is registered from now on is for another drain
  modify fun s => { s with nextTickQueue := [] }
  drain caller callbacks

/-- What the caller of `_onNextTick` does with the answer. The main loop goes on while there is
more to do. -/
def finish (caller : Caller) (ticks : Bool) : Method Unit :=
  match caller with
  | .callback => pure ()
  | .runMain => modify fun s => { s with phase := .loop }
  | .loop more => do
      let s ← get
      let more := more || ticks
      let more := if more = false then s.alive else more
      if more = false then modify fun s => { s with phase := .left }

/-- What goes on when outside code, and the handling of what it threw, is finished with. -/
def proceed : Next → Method Unit
  | .drain rest caller => do
      let ticks ← drain caller rest
      finish caller ticks
  | .onNextTick caller => do
      let ticks ← _onNextTick caller
      finish caller ticks
  | .enterLoop => modify fun s => { s with phase := .loop }
  | .return => pure ()

/-! ### The machine -/

/-- What outside code can do. -/
inductive Call where
  /-- `iotjs_run` -/
  | run
  /-- a round of the main loop -/
  | iterate
  /-- `process.nextTick(callback)` -/
  | nextTick
  /-- `process._onNextTick()` of the application -/
  | onNextTick
  /-- native code calls `iotjs_make_callback` -/
  | makeCallback
  /-- `process.exit(code)` -/
  | exit
  /-- a first listener of 'uncaughtException' is registered, or the last one removed -/
  | listen (handled : Bool)
  /-- the first handle or request of the loop becomes active, or the last one inactive -/
  | activate (alive : Bool)
deriving DecidableEq, Repr

def body : Call → Method Unit
  | .run => do
      Prog.yieldTo .main
      if (← Prog.askFor .threw) ≠ 0 then
        -- the exception skips the drain of `runMain`
        _onUncaughtExcecption .enterLoop
        proceed .enterLoop
      else proceed (.onNextTick .runMain)
  | .iterate => do
      Prog.yieldTo .uvRun
      -- `uv_run` answers before the drain: what the callbacks activate is asked for in `finish`
      let more := (← get).alive
      proceed (.onNextTick (.loop more))
  | .nextTick =>
      modify fun s =>
        { s with
          nextTickQueue := s.nextTickQueue ++ [s.registrations]
          registrations := s.registrations + 1 }
  | .onNextTick => proceed (.onNextTick .callback)
  | .makeCallback => do
      Prog.yieldTo (.outside .function (.onNextTick .callback))
      catchException (.onNextTick .callback)
      proceed (.onNextTick .callback)
  | .exit => exit .return
  | .listen handled => modify fun s => { s with handled := handled }
  | .activate alive => modify fun s => { s with alive := alive }

/-- At rest the process starts, or makes a round of the loop. Everything else is done by outside
code that has control. -/
def enabled (s : Process) (atRest : Bool) : Call → Bool
  | .run => atRest && !s.exited && s.phase = .main
  | .iterate => atRest && !s.exited && s.phase = .loop
  | _ => !atRest && !s.exited

def machine : Machine Process Tag Ask Call where
  body := body
  enabled i atRest s := enabled s atRest i

/-- How the code goes on when the outside code of a tag returns. -/
def resume : Tag → Method Unit
  | .main => do
      if (← Prog.askFor .threw) ≠ 0 then
        _onUncaughtExcecption .enterLoop
        proceed .enterLoop
      else proceed (.onNextTick .runMain)
  | .uvRun => do
      let more := (← get).alive
      proceed (.onNextTick (.loop more))
  | .outside point next => do
      match point with
      | .function | .tick => catchException next
      | .uncaughtException => afterUncaughtException next
      | .exit => afterEmitExit next
      | .uncaughtExit => doExit next
      | .gone => pure ()
      proceed next

/-- No exception passes a function by, and a process that has exited runs nothing. -/
def running (c : Config Process Tag Ask) : Move Call → Prop
  | .call _ _ => True
  | .ret _ => c.heap.exited = false
  | .throw => False

instance (c : Config Process Tag Ask) : ∀ m : Move Call, Decidable (running c m)
  | .call _ _ => .isTrue trivial
  | .ret _ => inferInstanceAs (Decidable (_ = _))
  | .throw => .isFalse id

end Process

end IotJs

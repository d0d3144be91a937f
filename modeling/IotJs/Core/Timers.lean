import IotJs.Lib.Reentrant.Prog

/-!
# `IotJs.Core.Timers`: `timers.js` and the native timer

`setTimeout` and `setInterval` make two objects that know each other: a `Timeout`, which the
application holds, and the native `Timer` (`handler`), which knows the `Timeout` by `timeoutObj`.
The native side of a `Timer` is a libuv timer. libuv re-arms it before it calls back when it
repeats, and it does not fire a handle after `uv_close`. Closing a timer tears the two objects
apart step by step, and it may happen inside the callback that the timer is running: then
`handleTimeout` goes on afterwards and closes the timer again.

A `Timeout` and a `Timer` are known by their numbers. A delay is an `Int`, as the documentation
of the module has it. The callback of a timer is outside code.
-/

set_option autoImplicit false

namespace IotJs

open Reentrant

/-- The constructor `Timeout(after)`. -/
structure Timeout where
  after : Int
  isrepeat : Bool
  /-- the callback is set -/
  callback : Bool
  handler : Option Nat
deriving DecidableEq, Repr

/-- A native `Timer`: the JavaScript object and `iotjs_timerwrap_t`. -/
structure TimerWrap where
  timeoutObj : Option Nat
  /-- `uv_is_active` -/
  active : Bool
  /-- what `uv_timer_start` got as `repeat` -/
  repeats : Int
  /-- `uv_is_closing` -/
  closing : Bool
deriving DecidableEq, Repr

/-- What happens to a timer. -/
inductive TimerNote where
  /-- the callback is called -/
  | called
  /-- the callback returned normally -/
  | returned
  /-- `clearTimeout` or `clearInterval` accepted the timer -/
  | cleared
  /-- the native handle was asked to stop -/
  | stopped
deriving DecidableEq, Repr

structure Timers where
  timeouts : List Timeout
  timers : List TimerWrap
  /-- with the number of the `Timeout`, or for `stopped` of the `Timer` -/
  log : List (Nat × TimerNote)
deriving DecidableEq, Repr

/-- The outside code: the callback of a timer. -/
inductive TimerYield where
  | callback (id : Nat)
deriving DecidableEq, Repr

/-- What `clearTimeout` and `clearInterval` are given. -/
inductive TimerArg where
  | timeout (id : Nat)
  /-- a value that is no `Timeout` -/
  | other
deriving DecidableEq, Repr

namespace Timers

/-- No timer was made yet. -/
def start : Timers where
  timeouts := []
  timers := []
  log := []

/-- A method of the module. -/
abbrev Method := Prog Timers TimerYield Empty

def record (id : Nat) (note : TimerNote) (s : Timers) : Timers :=
  { s with log := s.log ++ [(id, note)] }

def modifyTimeout (id : Nat) (f : Timeout → Timeout) (s : Timers) : Timers :=
  { s with timeouts := s.timeouts.modify id f }

def modifyTimer (h : Nat) (f : TimerWrap → TimerWrap) (s : Timers) : Timers :=
  { s with timers := s.timers.modify h f }

/-! ### The native side -/

/-- `iotjs_timerwrap_start` -/
def startTimer (h : Nat) (repeats : Int) (s : Timers) : Timers :=
  s.modifyTimer h fun timer => { timer with active := true, repeats := repeats }

/-- `iotjs_timerwrap_stop`: a handle that is closing is left alone. -/
def stop (h : Nat) (s : Timers) : Timers :=
  (s.modifyTimer h fun timer =>
    if timer.closing then timer else { timer with active := false, closing := true }).record h
      .stopped

/-! ### `Timeout` -/

/-- `Timeout.prototype.activate`, for a timeout that was just made. -/
def activate (id : Nat) (timeout : Timeout) (s : Timers) : Timers :=
  let h := s.timers.length
  let timer : TimerWrap := ⟨some id, false, 0, false⟩
  let s := { s with timers := s.timers ++ [timer] }
  let s := s.modifyTimeout id fun timeout => { timeout with handler := some h }
  s.startTimer h (if timeout.isrepeat then timeout.after else 0)

/-- `Timeout.prototype.close` -/
def close (id : Nat) (s : Timers) : Timers :=
  -- without its callback, an expiration that is still to come runs nothing
  let s := s.modifyTimeout id fun timeout => { timeout with callback := false }
  match s.timeouts[id]?.bind Timeout.handler with
  | none => s
  | some h =>
      -- the two objects forget each other, and the handle is stopped in between
      let s := s.modifyTimer h fun timer => { timer with timeoutObj := none }
      (s.stop h).modifyTimeout id fun timeout => { timeout with handler := none }

/-- A delay that is out of range becomes one millisecond. -/
def clamp (delay : Int) : Int :=
  if delay < 1 ∨ 2147483647 < delay then 1 else delay

/-- What `setTimeout` and `setInterval` do with a callback. -/
def add (isrepeat : Bool) (delay : Int) (s : Timers) : Timers :=
  let id := s.timeouts.length
  let timeout : Timeout := ⟨clamp delay, isrepeat, true, none⟩
  activate id timeout { s with timeouts := s.timeouts ++ [timeout] }

/-! ### The functions of the module -/

/-- `exports.setTimeout` -/
def setTimeout (isFunction : Bool) (delay : Int) : Method Unit := do
  if !isFunction then Prog.fail "Bad arguments: callback must be a Function"
  else modify (add false delay)

/-- `exports.setInterval` -/
def setInterval (isFunction : Bool) (delay : Int) : Method Unit := do
  if !isFunction then Prog.fail "Bad arguments: callback must be a Function"
  else modify (add true delay)

/-- The `Timeout` that an argument is, where `test` holds of it. -/
def find (s : Timers) (test : Timeout → Bool) : TimerArg → Option Nat
  | .timeout id => if s.timeouts[id]?.any test then some id else none
  | .other => none

/-- `exports.clearTimeout` -/
def clearTimeout (timeout : TimerArg) : Method Unit := do
  match (← get).find Timeout.callback timeout with
  | some id => modify fun s => close id (s.record id .cleared)
  | none => Prog.fail "clearTimeout() - invalid timeout"

/-- `exports.clearInterval` -/
def clearInterval (timeout : TimerArg) : Method Unit := do
  match (← get).find Timeout.isrepeat timeout with
  | some id => modify fun s => close id (s.record id .cleared)
  | none => Prog.fail "clearInterval() - invalid interval"

/-- The timeout whose callback an expiration of the handle runs. -/
def due (s : Timers) (h : Nat) : Option Nat :=
  (s.timers[h]?.bind TimerWrap.timeoutObj).filter fun id => s.timeouts[id]?.any Timeout.callback

/-- `Timer.prototype.handleTimeout` -/
def handleTimeout (h : Nat) : Method Unit := do
  match (← get).due h with
  | none => pure ()
  | some id =>
      modify (record id .called)
      Prog.yieldTo (.callback id)
      modify (record id .returned)
      -- the callback may have closed the timeout: then this closes it once more
      if !(← get).timeouts[id]?.any Timeout.isrepeat then
        modify (close id)

/-- libuv stops a timer that does not repeat before it calls back. -/
def expire (h : Nat) : Method Unit := do
  modify (modifyTimer h fun timer => { timer with active := timer.repeats ≠ 0 })
  handleTimeout h

/-! ### The machine -/

inductive Call where
  | setTimeout (isFunction : Bool) (delay : Int)
  | setInterval (isFunction : Bool) (delay : Int)
  | clearTimeout (timeout : TimerArg)
  | clearInterval (timeout : TimerArg)
  /-- the native handle expires -/
  | expire (h : Nat)
deriving DecidableEq, Repr

def body : Call → Method Unit
  | .setTimeout isFunction delay => setTimeout isFunction delay
  | .setInterval isFunction delay => setInterval isFunction delay
  | .clearTimeout timeout => clearTimeout timeout
  | .clearInterval timeout => clearInterval timeout
  | .expire h => expire h

/-- libuv fires an active handle, from its loop only. -/
def enabled (s : Timers) (atRest : Bool) : Call → Bool
  | .expire h => atRest && s.timers[h]?.any fun timer => timer.active && !timer.closing
  | _ => true

def machine : Machine Timers TimerYield Empty Call where
  body := body
  enabled i atRest s := enabled s atRest i

/-- What happened to the timer with this number. -/
def history (s : Timers) (id : Nat) : List TimerNote :=
  (s.log.filter fun entry => entry.1 = id).map Prod.snd

end Timers

end IotJs

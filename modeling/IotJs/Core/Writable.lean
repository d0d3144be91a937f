import IotJs.Core.Data
import IotJs.Lib.Reentrant.Prog

/-!
# `IotJs.Core.Writable`: `stream_writable.js`

The functions of `stream_writable.js`, one definition each, over any object that inherits
from `Writable` (`WritableObject`). What the object brings is what JavaScript would look up
on it: the field `_writableState`, the method `_write` that a concrete stream overrides, and
`emit`. Listeners, overridden methods and callbacks are outside code, so they are yields of
the `Prog`.

`state` of the source is a reference to the one `WritableState` of the stream. So each
definition reads the state again after a call that may have changed it.

The second half is a plain `Writable` with a `_write` that outside code supplies: `_write`
may complete the chunk before it returns or at any later time. `Writable.machine` lets
outside code make every call in every order, at rest and from inside every listener.
-/

set_option autoImplicit false

namespace IotJs

open Reentrant

structure WriteReq where
  chunk : Bytes
  callback : Option Callback
deriving DecidableEq, Repr

structure WritableState where
  /-- buffer of `WriteReq` -/
  buffer : List WriteReq
  /-- total length of messages not flushed yet -/
  length : Int
  highWaterMark : Int
  /-- the stream is ready to write -/
  ready : Bool
  /-- the stream is writing down data to the underlying system -/
  writing : Bool
  /-- the length of the message being written -/
  writingLength : Int
  needDrain : Bool
  ending : Bool
  ended : Bool
deriving DecidableEq, Repr

def defaultHighWaterMark : Int := 128

/-- The constructor `WritableState(options)`, with `options.highWaterMark`. -/
def WritableState.new (highWaterMark : Option Int) : WritableState where
  buffer := []
  length := 0
  highWaterMark := highWaterMark.getD defaultHighWaterMark
  ready := false
  writing := false
  writingLength := 0
  needDrain := false
  ending := false
  ended := false

/-- The events that `stream_writable.js` emits. -/
inductive WritableEvent where
  | drain
  | finish
  | error (message : String)
deriving DecidableEq, Repr

/-- The functions that `stream_writable.js` gives to `process.nextTick`. -/
inductive WritableTick where
  | emitFinish
  | callback (callback : Callback)
deriving DecidableEq, Repr

/-- History: what a caller of `write` and `end` can see. -/
inductive WritableNote where
  | accepted (req : WriteReq)
  | rejected (callback : Option Callback)
  | returned (res : Bool)
  | endCalled
  | endReturned
deriving DecidableEq, Repr

/-- An object that inherits from `Writable`. -/
structure WritableObject (σ υ κ : Type) where
  /-- `this._writableState` -/
  state : σ → WritableState
  setState : WritableState → σ → σ
  /-- `this._write(chunk, callback, onwrite)` -/
  _write : WriteReq → Prog σ υ κ Unit
  /-- `this.emit` -/
  emit : WritableEvent → Prog σ υ κ Unit
  /-- `process.nextTick` -/
  nextTick : WritableTick → Prog σ υ κ Unit
  /-- record a history entry -/
  note : WritableNote → Prog σ υ κ Unit

namespace WritableObject

variable {σ υ κ : Type} (this : WritableObject σ υ κ)

def getState : Prog σ υ κ WritableState := do
  return this.state (← get)

def modifyState (f : WritableState → WritableState) : Prog σ υ κ Unit :=
  modify fun s => this.setState (f (this.state s)) s

/-- Emit 'drain' event -/
def emitDrain : Prog σ υ κ Unit := do
  if (← this.getState).needDrain then
    this.modifyState fun state => { state with needDrain := false }
    this.emit .drain

/-- Emit 'finish' event to notify this stream is finished. -/
def emitFinish : Prog σ υ κ Unit := do
  if !(← this.getState).ended then
    this.modifyState fun state => { state with ended := true }
    this.emit .finish

/-- No more data to write. if this stream is being finishing, emit 'finish'. -/
def onEmptyBuffer : Prog σ υ κ Unit := do
  let state ← this.getState
  if state.ending then
    this.emitFinish
  else if state.needDrain then
    this.emitDrain

/-- `afterWrite`, the closure that `doWrite` passes to `_write`, is `_onwrite` below. -/
def doWrite (req : WriteReq) : Prog σ υ κ Unit := do
  if !(← this.getState).writing then
    this.modifyState fun state =>
      { state with writing := true, writingLength := req.chunk.length }
    this._write req

def writeBuffered : Prog σ υ κ Unit := do
  let state ← this.getState
  if !state.writing then
    match state.buffer with
    | [] => this.onEmptyBuffer
    | req :: rest =>
        this.modifyState fun state => { state with buffer := rest }
        this.doWrite req

def writeOrBuffer (P : Platform) (data : Data) (callback : Option Callback) :
    Prog σ υ κ Bool := do
  let req : WriteReq := ⟨data.toBuffer P, callback⟩
  this.note (.accepted req)
  this.modifyState fun state => { state with length := state.length + req.chunk.length }
  let state ← this.getState
  if !state.ready || state.writing || !state.buffer.isEmpty then
    -- stream not yet ready or there is a pending request to write
    this.modifyState fun state => { state with buffer := state.buffer ++ [req] }
  else
    this.doWrite req
  let state ← this.getState
  if state.highWaterMark ≤ state.length then
    this.modifyState fun state => { state with needDrain := true }
  return !(← this.getState).needDrain

/-- A write call occured after end. -/
def writeAfterEnd (callback : Option Callback) : Prog σ υ κ Unit := do
  this.note (.rejected callback)
  this.emit (.error "write after end")
  if let some callback := callback then
    this.nextTick (.callback callback)

/-- `Writable.prototype.write` -/
def write (P : Platform) (data : Data) (callback : Option Callback) : Prog σ υ κ Bool := do
  if (← this.getState).ended then
    this.writeAfterEnd callback
    this.note (.returned false)
    return false
  else
    let res ← this.writeOrBuffer P data callback
    this.note (.returned res)
    return res

/-- `callback` becomes a listener of 'finish': outside code, which has control whenever
'finish' is emitted. -/
def endWritable (_callback : Option Callback) : Prog σ υ κ Unit := do
  this.modifyState fun state => { state with ending := true }
  let state ← this.getState
  -- If nothing left, emit finish event at next tick.
  if !state.writing && state.buffer.isEmpty then
    this.nextTick .emitFinish

/-- The chunk of `end`: because NuttX cannot poll 'EOF', forcely raise EOF event. -/
def endChunk (P : Platform) (ending : Bool) (chunk : Option Data) : Option Data :=
  if P.nuttx && !ending then
    match chunk with
    | none => some (.string "\\e\\n\\d")
    | some chunk => some (.string (chunk.toString P ++ "\\e\\n\\d"))
  else chunk

/-- `Writable.prototype.end` -/
def end_ (P : Platform) (chunk : Option Data) (callback : Option Callback) :
    Prog σ υ κ Unit := do
  this.note .endCalled
  if let some chunk := endChunk P (← this.getState).ending chunk then
    let _ ← this.write P chunk none
  if !(← this.getState).ending then
    this.endWritable callback
  this.note .endReturned

/-- When stream is ready to write, concrete stream implementation should call this method to
inform it. -/
def _readyToWrite : Prog σ υ κ Unit := do
  this.modifyState fun state => { state with ready := true }
  this.writeBuffered

/-- A chunk of data has been written down to stream. The status is not looked at. -/
def _onwrite (_status : Int) : Prog σ υ κ Unit := do
  this.modifyState fun state =>
    { state with length := state.length - state.writingLength, writing := false,
                 writingLength := 0 }
  this.writeBuffered

end WritableObject

/-! ### A plain `Writable` -/

/-- What a run of a `Writable` shows: the history of its calls, the chunks given to `_write`,
their completions, and the events and callbacks. -/
inductive WritableObs where
  | note (n : WritableNote)
  | handed (chunk : Bytes)
  | completed (status : Int)
  | event (e : WritableEvent)
  | called (callback : Callback)
deriving DecidableEq, Repr

/-- The outside code that a `Writable` hands control to. -/
inductive WritableYield where
  | _write
  | event (e : WritableEvent)
  | callback
deriving DecidableEq, Repr

structure Writable where
  _writableState : WritableState
  /-- an 'error' listener is registered -/
  errorListener : Bool
  /-- callbacks of `process.nextTick` that have not run yet -/
  ticks : List WritableTick
  /-- chunks given to `_write` whose completion has not been called yet -/
  inFlight : Nat
  log : List WritableObs
deriving DecidableEq, Repr

namespace Writable

/-- `new Writable({ highWaterMark: … })` -/
def new (highWaterMark : Option Int) : Writable where
  _writableState := .new highWaterMark
  errorListener := false
  ticks := []
  inFlight := 0
  log := []

/-- A method of the stream, before any primitive: a plain `Writable` asks nothing. -/
abbrev Method := Prog Writable WritableYield Empty

def record (o : WritableObs) : Method Unit :=
  modify fun s => { s with log := s.log ++ [o] }

/-- `EventEmitter.prototype.emit`: an 'error' without a listener is thrown. -/
def emit (e : WritableEvent) : Method Unit := do
  match e with
  | .error message =>
      if (← get).errorListener then
        record (.event e)
        Prog.yieldTo (.event e)
      else Prog.fail message
  | _ =>
      record (.event e)
      Prog.yieldTo (.event e)

/-- The methods of the stream. `_write` belongs to the concrete stream. -/
def this : WritableObject Writable WritableYield Empty where
  state := _writableState
  setState state s := { s with _writableState := state }
  _write req := do
    modify fun s => { s with inFlight := s.inFlight + 1, log := s.log ++ [.handed req.chunk] }
    Prog.yieldTo ._write
  emit := emit
  nextTick t := modify fun s => { s with ticks := s.ticks ++ [t] }
  note n := record (.note n)

/-- What outside code can do with the stream. -/
inductive Call where
  | write (data : Data) (callback : Option Callback)
  | end_ (chunk : Option Data) (callback : Option Callback)
  | _readyToWrite
  /-- the completion of the chunk in flight -/
  | _onwrite (status : Int)
  /-- run a callback of `process.nextTick` -/
  | tick (i : Nat)
  /-- add or remove the listeners of 'error' -/
  | listenError (present : Bool)
deriving DecidableEq, Repr

def enabled (s : Writable) : Call → Bool
  | ._onwrite _ => decide (0 < s.inFlight)
  | .tick i => decide (i < s.ticks.length)
  | _ => true

/-- The function given to `process.nextTick`. -/
def runTick : WritableTick → Method Unit
  | .emitFinish => this.emitFinish
  | .callback callback => do
      record (.called callback)
      Prog.yieldTo .callback

def body (P : Platform) : Call → Method Unit
  | .write data callback => do let _ ← this.write P data callback
  | .end_ chunk callback => this.end_ P chunk callback
  | ._readyToWrite => this._readyToWrite
  | ._onwrite status => do
      modify fun s => { s with inFlight := s.inFlight - 1, log := s.log ++ [.completed status] }
      this._onwrite status
  | .tick i => do
      let ticks := (← get).ticks
      modify fun s => { s with ticks := ticks.eraseIdx i }
      if let some t := ticks[i]? then runTick t
  | .listenError present => modify fun s => { s with errorListener := present }

/-- A `Writable` in any surroundings: every call may come at rest and from inside every
listener, `_write` and callback. -/
def machine (P : Platform) : Machine Writable WritableYield Empty Call where
  body := body P
  enabled i _ s := enabled s i

/-- The chunks that `write` accepted, in order. -/
def accepted (log : List WritableObs) : List Bytes :=
  log.filterMap fun | .note (.accepted req) => some req.chunk | _ => none

/-- The chunks given to `_write`, in order. -/
def handed (log : List WritableObs) : List Bytes :=
  log.filterMap fun | .handed chunk => some chunk | _ => none

/-- The chunks whose completion was called. -/
def completed (log : List WritableObs) : Nat :=
  log.countP fun | .completed _ => true | _ => false

end Writable

end IotJs

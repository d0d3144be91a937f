import IotJs.Core.Data
import IotJs.Lib.Reentrant.Prog

/-!
# `IotJs.Core.Readable`: `stream_readable.js`

The functions of `stream_readable.js`, one definition each, over any object that inherits from
`Readable` (`ReadableObject`). Data leaves a stream by three paths: `push` on a flowing stream
emits it at once, `resume` flushes what is buffered, and `read` takes it. Each path hands
control to listeners before it looks at the state again.

`Buffer` ignores the encoding that `push` passes on, so the encodings are not modelled. The
length of a `Buffer` is a natural number, and `read` takes any integer.
-/

set_option autoImplicit false

namespace IotJs

open Reentrant

structure ReadableState where
  /-- the internal array of buffers -/
  buffer : List Bytes
  /-- the sum of length of buffers -/
  length : Nat
  /-- true if in flowing mode -/
  flowing : Bool
  /-- the stream has met EOF -/
  ended : Bool
  /-- `true` just before 'end' is emitted -/
  endEmitted : Bool
deriving DecidableEq, Repr

/-- The constructor `ReadableState(options)`. -/
def ReadableState.new : ReadableState where
  buffer := []
  length := 0
  flowing := false
  ended := false
  endEmitted := false

/-- The events that `stream_readable.js` emits. -/
inductive ReadableEvent where
  | data (data : Option Bytes)
  | readable
  | pause
  | end_
  | error (message : String)
deriving DecidableEq, Repr

/-- What a caller of `push` passes as `chunk`. -/
inductive Chunk where
  | data (data : Data)
  | null
  /-- neither a string nor a `Buffer` nor `null` -/
  | other
deriving DecidableEq, Repr

/-- History: what `push` accepted, what `read` took and returned, and a failed assertion. -/
inductive ReadableNote where
  | pushed (data : Bytes)
  | eof
  | took (data : Bytes)
  | returned (data : Bytes)
  | assertionFailed
deriving DecidableEq, Repr

/-- An object that inherits from `Readable`. -/
structure ReadableObject (σ υ κ : Type) where
  /-- `this._readableState` -/
  state : σ → ReadableState
  setState : ReadableState → σ → σ
  /-- `this.emit` -/
  emit : ReadableEvent → Prog σ υ κ Unit
  /-- `Stream.prototype.on`, for the named event -/
  addListener : String → Prog σ υ κ Unit
  /-- record a history entry -/
  note : ReadableNote → Prog σ υ κ Unit

/-- `getMessage` of `assert.js`, for `assert.equal`. -/
def assertEqualMessage (actual expected : String) : String :=
  "\x7b actual: " ++ actual ++ ", expected: " ++ expected ++ ", operator: == \x7d"

namespace ReadableObject

variable {σ υ κ : Type} (this : ReadableObject σ υ κ)

def getState : Prog σ υ κ ReadableState := do
  return this.state (← get)

def modifyState (f : ReadableState → ReadableState) : Prog σ υ κ Unit :=
  modify fun s => this.setState (f (this.state s)) s

/-- `readBuffer(stream, n)`; without `n`, and with `n = 0`, it takes everything. -/
def readBuffer (n : Option Int) : Prog σ υ κ (Option Bytes) := do
  let state ← this.getState
  let n : Int := if n.getD 0 = 0 then state.length else n.getD 0
  if state.buffer.isEmpty || state.length == 0 then
    return none
  else if (state.length : Int) ≤ n then
    this.modifyState fun state => { state with buffer := [], length := 0 }
    return some state.buffer.flatten
  else
    Prog.fail "not implemented"

/-- `stream.length` of the source is `undefined`, so only `ended` is tested. -/
def emitEnd : Prog σ υ κ Unit := do
  if !(← this.getState).ended then
    Prog.fail "stream ended on non-EOF stream"
  else if !(← this.getState).endEmitted then
    this.modifyState fun state => { state with endEmitted := true }
    this.emit .end_

/-- Emit 'end' when the stream has met EOF and nothing is left. -/
def emitEndIfEmpty : Prog σ υ κ Unit := do
  let state ← this.getState
  if state.ended && state.length == 0 then
    this.emitEnd

def emitReadable : Prog σ υ κ Unit :=
  this.emit .readable

/-- `assert.equal(readBuffer(stream), null)` -/
def assertEmpty (P : Platform) : Prog σ υ κ Unit := do
  if let some actual := ← this.readBuffer none then
    this.note .assertionFailed
    Prog.fail (assertEqualMessage (bufferToString P actual) "null")

def emitData (P : Platform) (data : Option Bytes) : Prog σ υ κ Unit := do
  this.assertEmpty P
  -- the listeners may read, push or pause before 'end' is looked at
  this.emit (.data data)
  this.emitEndIfEmpty

def emitError (message : String) : Prog σ υ κ Unit :=
  this.emit (.error message)

def onEof : Prog σ υ κ Unit := do
  this.note .eof
  this.modifyState fun state => { state with ended := true }
  if (← this.getState).length == 0 then
    this.emitEnd

/-- The number of bytes that `read(n)` asks `readBuffer` for; `none` is no number. -/
def readLength (length : Nat) : Option Int → Int
  | none => length
  | some n => if (length : Int) < n then length else if n < 0 then 0 else n

/-- The second half of `read`, with what `readBuffer` took out. -/
def afterReadBuffer (res : Option Bytes) : Prog σ υ κ (Option Bytes) := do
  match res with
  | some data =>
      this.note (.took data)
      this.emitEndIfEmpty
      this.note (.returned data)
  | none => this.emitEndIfEmpty
  return res

/-- `Readable.prototype.read` -/
def read (n : Option Int) : Prog σ υ κ (Option Bytes) := do
  let n := readLength (← this.getState).length n
  if 0 < n then
    this.afterReadBuffer (← this.readBuffer (some n))
  else
    this.afterReadBuffer none

/-- `Readable.prototype.isPaused` -/
def isPaused : Prog σ υ κ Bool := do
  return !(← this.getState).flowing

/-- `Readable.prototype.pause` -/
def pause : Prog σ υ κ Unit := do
  if (← this.getState).flowing then
    this.modifyState fun state => { state with flowing := false }
    this.emit .pause

/-- `Readable.prototype.resume` -/
def resume (P : Platform) : Prog σ υ κ Unit := do
  if !(← this.getState).flowing then
    this.modifyState fun state => { state with flowing := true }
    -- the stream flows already when the listeners of 'data' run
    if 0 < (← this.getState).length then
      this.emitData P (← this.readBuffer none)

/-- `Readable.prototype.on`: a listener of 'data' starts the flow. -/
def on (P : Platform) (ev : String) : Prog σ υ κ Unit := do
  this.addListener ev
  if ev = "data" then this.resume P

/-- `Readable.prototype.error` -/
def error (message : String) : Prog σ υ κ Unit :=
  this.emitError message

/-- `Readable.prototype.push` -/
def push (P : Platform) (chunk : Chunk) : Prog σ υ κ Unit := do
  match chunk with
  | .other => this.emitError "Invalid chunk"
  | .null => this.onEof
  | .data data =>
      if (← this.getState).ended then
        this.emitError "stream.push() after EOF"
      else
        let chunk := data.toBuffer P
        this.note (.pushed chunk)
        if (← this.getState).flowing then
          this.emitData P (some chunk)
        else
          this.modifyState fun state =>
            { state with length := state.length + chunk.length, buffer := state.buffer ++ [chunk] }
          this.emitReadable

end ReadableObject

/-! ### A plain `Readable` -/

/-- What a run of a `Readable` shows: the history of its calls, and the events. -/
inductive ReadableObs where
  | note (n : ReadableNote)
  | event (e : ReadableEvent)
deriving DecidableEq, Repr

structure Readable where
  _readableState : ReadableState
  /-- an 'error' listener is registered -/
  errorListener : Bool
  log : List ReadableObs
deriving DecidableEq, Repr

namespace Readable

/-- `new Readable()` -/
def new : Readable where
  _readableState := .new
  errorListener := false
  log := []

/-- A method of the stream: it hands control to the listeners of an event, and asks nothing. -/
abbrev Method := Prog Readable ReadableEvent Empty

def record (o : ReadableObs) : Method Unit :=
  modify fun s => { s with log := s.log ++ [o] }

/-- `EventEmitter.prototype.emit`: an 'error' without a listener is thrown. -/
def emit (e : ReadableEvent) : Method Unit := do
  match e with
  | .error message =>
      if (← get).errorListener then
        record (.event e)
        Prog.yieldTo e
      else Prog.fail message
  | _ =>
      record (.event e)
      Prog.yieldTo e

def this : ReadableObject Readable ReadableEvent Empty where
  state := _readableState
  setState state s := { s with _readableState := state }
  emit := emit
  addListener ev := modify fun s => { s with errorListener := s.errorListener || ev = "error" }
  note n := record (.note n)

/-- What outside code can do with the stream. -/
inductive Call where
  | push (chunk : Chunk)
  | read (n : Option Int)
  | pause
  | resume
  | on (ev : String)
  | error (message : String)
  | removeAllListeners (ev : String)
deriving DecidableEq, Repr

def body (P : Platform) : Call → Method Unit
  | .push chunk => this.push P chunk
  | .read n => do let _ ← this.read n
  | .pause => this.pause
  | .resume => this.resume P
  | .on ev => this.on P ev
  | .error message => this.error message
  | .removeAllListeners ev =>
      modify fun s => { s with errorListener := s.errorListener && ev ≠ "error" }

/-- A `Readable` in any surroundings: every call may come at rest and from inside every
listener. -/
def machine (P : Platform) : Machine Readable ReadableEvent Empty Call where
  body := body P
  enabled _ _ _ := true

/-- The bytes that `push` accepted, in order. -/
def accepted (log : List ReadableObs) : Bytes :=
  log.flatMap fun | .note (.pushed data) => data | _ => []

/-- The bytes of 'data' events and of the results of `read`, in order. -/
def delivered (log : List ReadableObs) : Bytes :=
  log.flatMap fun | .event (.data (some data)) => data | .note (.returned data) => data | _ => []

/-- The bytes of 'data' events, and those that `read` took out of the buffer, in order. They
differ from the delivered ones while `read` has not returned yet. -/
def taken (log : List ReadableObs) : Bytes :=
  log.flatMap fun | .event (.data (some data)) => data | .note (.took data) => data | _ => []

end Readable

end IotJs

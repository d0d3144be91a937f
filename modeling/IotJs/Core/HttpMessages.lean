import IotJs.Core.Readable
import IotJs.Lib.Reentrant.Zoom
import Mathlib.Logic.Function.Basic

/-!
# `IotJs.Core.HttpMessages`: the bodies of the messages on a connection

`http_parser` reports the messages of a connection one after the other: the headers of a message are
complete, there is a piece of its body, the message is complete. For each of them
`iotjs_module_httpparser.c` calls the function of `http_common.js` that makes an `IncomingMessage`,
pushes the piece into it, or ends it.

The messages are streams of their own. An application keeps as many of them as it likes, and uses
each at any time, also from a listener of another one. It pushes nothing into them.
-/

set_option autoImplicit false

namespace IotJs

open Reentrant

/-- What `http_parser` reports. -/
inductive HttpEvent where
  | headersComplete
  | body (data : Bytes)
  | messageComplete
deriving DecidableEq, Repr

/-- The outside code that the functions of `http_common.js` hand control to. -/
inductive HttpMessagesYield where
  /-- `parser.onIncoming`, with the message -/
  | onIncoming (message : Nat)
  /-- the listeners of an event of a message -/
  | message (message : Nat) (e : ReadableEvent)
  /-- `stream.socket.resume` -/
  | resume
deriving DecidableEq, Repr

structure HttpMessages where
  /-- the streams of the messages, of which `created` have been made -/
  messages : Nat → Readable
  created : Nat
  /-- `parser.incoming` -/
  incoming : Option Nat
  /-- `complete` of a message -/
  complete : Nat → Bool
  /-- what `http_parser` has reported -/
  log : List HttpEvent

namespace HttpMessages

abbrev Method := Prog HttpMessages HttpMessagesYield Empty

/-- One of the messages. -/
def messageFocus (k : Nat) : Focus HttpMessages Readable where
  get s := s.messages k
  put message s := { s with messages := Function.update s.messages k message }
  get_put message s := Function.update_self k message s.messages
  put_get s := by rw [Function.update_eq_self]
  put_put m m' s := by simp [Function.update_idem]

/-- A method of the stream of a message. -/
def onMessage {α : Type} (k : Nat) (p : Readable.Method α) : Method α :=
  p.zoom (messageFocus k) (.message k) id

def report (e : HttpEvent) : Method Unit :=
  modify fun s => { s with log := s.log ++ [e] }

/-- `Slice` of `iotjs_module_buffer.c`, for indexes that are not negative. -/
def slice (buf : Bytes) (first last : Nat) : Bytes := (buf.take last).drop first

/-- This is called when header part in http msg is parsed. -/
def parserOnHeadersComplete : Method Unit := do
  let message := (← get).created
  modify fun s => { s with created := message + 1, incoming := some message }
  Prog.yieldTo (.onIncoming message)

/-- `parserOnBody` is called when HTTPParser parses http msg(incoming) and get body part. -/
def parserOnBody (P : Platform) (buf : Bytes) (start len : Nat) : Method Unit := do
  if let some stream := (← get).incoming then
    -- push body part into incoming stream, which will emit 'data' event
    let body := slice buf start (start + len)
    onMessage stream (Readable.this.push P (.data (.buffer body)))

/-- This is called when parsing of incoming http msg done. -/
def parserOnMessageComplete (P : Platform) : Method Unit := do
  match (← get).incoming with
  | some stream =>
      modify fun s => { s with complete := Function.update s.complete stream true }
      -- no more data from incoming, stream will emit 'end' event
      onMessage stream (Readable.this.push P .null)
      Prog.yieldTo .resume
  | none => Prog.fail "TypeError"

/-! ### The machine -/

inductive Call where
  | on_headers_complete
  /-- `len` bytes from `start` on, in the buffer that is being parsed -/
  | on_body (cur_buf : Bytes) (start len : Nat)
  | on_message_complete
  /-- the application uses a message -/
  | message (k : Nat) (i : Readable.Call)
deriving DecidableEq, Repr

/-- An application does not push. -/
def ofApplication : Readable.Call → Bool
  | .push _ => false
  | _ => true

/-- A piece of a body lies in the buffer. -/
def enabled (s : HttpMessages) : Call → Bool
  | .on_body cur_buf start len => decide (start + len ≤ cur_buf.length)
  | .message k i => decide (k < s.created) && ofApplication i
  | _ => true

def body (P : Platform) : Call → Method Unit
  | .on_headers_complete => do
      report .headersComplete
      parserOnHeadersComplete
  | .on_body cur_buf start len => do
      report (.body ((cur_buf.drop start).take len))
      parserOnBody P cur_buf start len
  | .on_message_complete => do
      report .messageComplete
      parserOnMessageComplete P
  | .message k i => onMessage k (Readable.body P i)

/-- The messages of a connection between `http_parser` and an application. -/
def machine (P : Platform) : Machine HttpMessages HttpMessagesYield Empty Call where
  body := body P
  enabled i _ s := enabled s i

/-- A connection with a new parser. -/
def new : HttpMessages where
  messages _ := .new
  created := 0
  incoming := none
  complete _ := false
  log := []

end HttpMessages

/-! ### What was reported -/

/-- A message as `http_parser` reports it. -/
structure HttpReport where
  body : Bytes
  complete : Bool
deriving DecidableEq, Repr

namespace HttpReport

/-- What is reported is about the last message. -/
def next (ms : List HttpReport) : HttpEvent → List HttpReport
  | .headersComplete => ms ++ [⟨[], false⟩]
  | .body data =>
      ms.modify (ms.length - 1) fun m => if m.complete then m else ⟨m.body ++ data, false⟩
  | .messageComplete => ms.modify (ms.length - 1) fun m => ⟨m.body, true⟩

/-- The messages that were reported. -/
def all (log : List HttpEvent) : List HttpReport := log.foldl next []

/-- One of them. -/
def message (log : List HttpEvent) (k : Nat) : HttpReport := (all log)[k]?.getD ⟨[], false⟩

end HttpReport

end IotJs

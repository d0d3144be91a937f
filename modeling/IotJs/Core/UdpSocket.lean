import IotJs.Core.Dgram
import IotJs.Core.EventEmitter
import IotJs.Lib.Reentrant.Zoom

/-!
# `IotJs.Core.UdpSocket`: a UDP socket and its listeners

The `Socket` of `src/js/dgram.js` is an `EventEmitter`, and two of its functions register listeners
of 'listening' by themselves: `bind`, for its callback, and the first `enqueue`, for `clearQueue`.
`UdpSocket` is the socket with its emitter. The functions that do not look at the listeners are
those of `Dgram`, run on the socket; `bind`, `startListening` and what comes before them are
written out with the listeners that they register and call.

`clearQueue` is the function 0, those of the application have the other numbers.
-/

set_option autoImplicit false

namespace IotJs

open Reentrant

structure UdpSocket where
  socket : Dgram
  emitter : EventEmitter
  /-- Kept for the proofs: the registration that the last `bind` made for its callback. -/
  binding : Option Nat

namespace UdpSocket

open Dgram (Address BindState Native)

/-- The outside code: that of the socket, or a listener of 'listening'. -/
inductive Yield where
  | socket (tag : Dgram.Yield)
  | listener (tag : EmitterYield)
deriving DecidableEq, Repr

/-- A method of the socket. -/
abbrev Method := Prog UdpSocket Yield Native

def socketFocus : Focus UdpSocket Dgram where
  get := socket
  put s t := { t with socket := s }
  get_put _ _ := rfl
  put_get _ := rfl
  put_put _ _ _ := rfl

def emitterFocus : Focus UdpSocket EventEmitter where
  get := emitter
  put s t := { t with emitter := s }
  get_put _ _ := rfl
  put_get _ := rfl
  put_put _ _ _ := rfl

def onSocket {α : Type} (p : Dgram.Datagram α) : Method α := p.zoom socketFocus .socket id

def onEmitter {α : Type} (p : EventEmitter.Method α) : Method α :=
  p.zoom emitterFocus .listener Empty.elim

def new : UdpSocket := ⟨Dgram.new, EventEmitter.new, none⟩

/-- `clearQueue`, as a function that is registered. -/
def clearQueue : Nat := 0

/-- A function of the application. -/
def function (f : Nat) : Nat := f + 1

/-- `self.once('listening', f)` -/
def once (f : Nat) : Method Unit := onEmitter (EventEmitter.once "listening" (some f))

/-- The callback of a `bind` is registered, if there is one. -/
def register (callback : Option Nat) : Method Unit := do
  modify fun s => { s with binding := callback.map fun _ => s.emitter.registrations }
  match callback with
  | some f => once (function f)
  | none => pure ()

/-- `bind(port, address, callback)`. -/
def bind (address : Address) (callback : Option Nat) : Method Unit := do
  onSocket Dgram.healthCheck
  let s ← get
  if s.socket._bindState ≠ .unbound then Prog.fail "Socket is already bound"
  else
    onSocket (modify fun s => { s with _bindState := .binding })
    register callback
    onSocket (Dgram.lookup address .bind)

/-- The `bind(0, null)` of an unbound socket has no callback. -/
def registerNone (before : BindState) : Method Unit := do
  let s ← get
  if s.socket._bindState = before then pure () else register none

/-- The `enqueue` that makes the queue registers `clearQueue`. -/
def registerFlush (before : Bool) : Method Unit := do
  let s ← get
  if before = false ∧ s.socket._queue.isSome = true then once clearQueue

/-- `send`. What it does itself is done on the socket, and then come the listeners that it has
registered. -/
def send (list : Dgram.Message) (port : Int) (address : Address) (callback : Bool) :
    Method Unit := do
  let before ← get
  onSocket (Dgram.sendCall list port address callback)
  registerNone before.socket._bindState
  registerFlush before.socket._queue.isSome

/-- A listener of 'listening' is called, and `rest` are those after it. -/
def callListener (listener : Listener) (rest : List Listener) : Method Unit :=
  match listener with
  | .once id type 0 => do
      -- `clearQueue`
      onEmitter (EventEmitter.removeFunction type (.once id type clearQueue))
      onSocket Dgram.clearQueue
  | _ => onEmitter (EventEmitter.callListener listener [] rest)

/-- The loop of `emit('listening')`. -/
def callListeners : List Listener → Method Unit
  | [] => pure ()
  | listener :: rest => do
      callListener listener rest
      callListeners rest

def startListening : Method Unit := do
  onSocket (modify fun s => { s with _receiving := true, _bindState := .bound })
  let s ← get
  callListeners (s.emitter.listeners "listening")

/-- The callback of the lookup in `bind`. -/
def afterBindLookup (failed : Bool) : Method Unit := do
  if failed then
    onSocket (modify fun s => { s with _bindState := .unbound })
    Prog.yieldTo (.socket .error)
  else
    let s ← get
    -- a socket that was closed in the meantime is left as it is
    if s.socket._handle then
      let err ← Prog.askFor .bind
      if err ≠ 0 then
        Prog.yieldTo (.socket .bindError)
        onSocket (modify fun s => { s with _bindState := .unbound })
      else startListening

def afterLookup (failed : Bool) : Dgram.Lookup → Method Unit
  | .bind => afterBindLookup failed
  | .send args => onSocket (Dgram.doSend failed args)

/-- What can happen to the socket. -/
inductive Call where
  | bind (address : Address) (callback : Option Nat)
  | send (list : Dgram.Message) (port : Int) (address : Address) (callback : Bool)
  | close
  /-- the application registers a listener of 'listening', or takes one out -/
  | on (listener : Nat)
  | once (listener : Nat)
  | removeListener (listener : Nat)
  | lookup (i : Nat) (failed : Bool)
  | sent (i : Nat) (status : Int)
  | tick
deriving DecidableEq, Repr

/-- The socket between the application, the resolver and the network. -/
def machine : Machine UdpSocket Yield Native Call where
  body
    | .bind address callback => bind address callback
    | .send list port address callback => send list port address callback
    | .close => onSocket Dgram.close
    | .on listener => onEmitter (EventEmitter.addListener "listening" (some (function listener)))
    | .once listener => once (function listener)
    | .removeListener listener =>
        onEmitter (EventEmitter.removeListener "listening" (some (function listener)))
    | .lookup i failed => do
        let s ← get
        match s.socket.lookups[i]? with
        | some wait =>
            onSocket (modify fun s => { s with lookups := s.lookups.eraseIdx i })
            afterLookup failed wait
        | none => pure ()
    | .sent i status => onSocket (Dgram.machine.body (.sent i status))
    | .tick => onSocket (Dgram.machine.body .tick)
  enabled call atRest s :=
    match call with
    | .bind .. | .send .. | .close | .on _ | .once _ | .removeListener _ => true
    | .lookup i failed => Dgram.machine.enabled (.lookup i failed) atRest s.socket
    | .sent i status => Dgram.machine.enabled (.sent i status) atRest s.socket
    | .tick => Dgram.machine.enabled .tick atRest s.socket

end UdpSocket

end IotJs

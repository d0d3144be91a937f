import IotJs.Lib.Reentrant.Prog

/-!
# `IotJs.Core.Dgram`: a UDP socket

`Socket` from `src/js/dgram.js`: `bind`, `send` and `close`, with what the native handle and
`dns.lookup` do for them. A `send` that comes before the socket is bound waits in `_queue`, as a
function that calls `send` again; a `close` that finds a queue waits there too. 'listening'
flushes the queue. Then a `send` waits for the lookup of its address, and then for the native
layer.

Each `send` has a number. The arguments of `send` come in six forms, which all come to a message,
a port, an address and perhaps a callback. What is looked up or sent natively is in flight until
its result comes back, in any order and at rest. The callbacks of `send` and the listeners of the
socket are outside code. `emit('error')` without a listener throws, as a listener can.
-/

set_option autoImplicit false

namespace IotJs

open Reentrant

namespace Dgram

/-- An item of a message: a buffer, or a string with its bytes, or something else. -/
inductive BufferArg where
  | data (bytes : List Nat)
  | other
deriving DecidableEq, Repr

inductive Message where
  | single (chunk : BufferArg)
  | list (chunks : List BufferArg)
deriving DecidableEq, Repr

inductive Address where
  /-- `undefined`, `null` or the like -/
  | absent
  | name (hostname : String)
  /-- a value that is no string -/
  | other
deriving DecidableEq, Repr

inductive BindState where
  | unbound | binding | bound
deriving DecidableEq, Repr

/-- The arguments of a `send`, and its number. -/
structure Send where
  id : Nat
  list : Message
  port : Int
  address : Address
  callback : Bool
deriving DecidableEq, Repr

/-- A function in `_queue`. -/
inductive Queued where
  | send (send : Send)
  | close
deriving DecidableEq, Repr

/-- What waits for the result of a lookup. -/
inductive Lookup where
  | bind
  | send (send : Send)
deriving DecidableEq, Repr

inductive Reply where
  | null | error
deriving DecidableEq, Repr

inductive Note where
  /-- a `send` returned -/
  | accepted (id : Nat) (callback : Bool)
  /-- the datagram went to the network, or could not be sent -/
  | fate (id : Nat) (callback : Bool) (handed : Bool)
  /-- the callback was called -/
  | answered (id : Nat) (reply : Reply)
deriving DecidableEq, Repr

end Dgram

open Dgram in
structure Dgram where
  /-- `_handle` is not null -/
  _handle : Bool
  _receiving : Bool
  _bindState : BindState
  _queue : Option (List Queued)
  /-- the number of the next `send` -/
  next : Nat
  /-- the lookups in flight -/
  lookups : List Lookup
  /-- the native sends in flight -/
  sending : List Send
  /-- the calls of `nextTick` that will emit 'close' -/
  closes : Nat
  log : List Note
deriving DecidableEq, Repr

namespace Dgram

/-- The outside code. -/
inductive Yield where
  | callback (id : Nat)
  | error
  /-- the listeners of 'error', before the socket is unbound again -/
  | bindError
  /-- the listeners of 'listening' ahead of the flush -/
  | listening
  /-- those after it -/
  | listened
  | close
deriving DecidableEq, Repr

/-- The native functions whose result is used. -/
inductive Native where
  | getaddrinfo | bind | send
deriving DecidableEq, Repr

/-- `createSocket('udp4')`. -/
def new : Dgram where
  _handle := true
  _receiving := false
  _bindState := .unbound
  _queue := none
  next := 0
  lookups := []
  sending := []
  closes := 0
  log := []

/-- A function of the module. -/
abbrev Datagram := Prog Dgram Yield Native

def note (o : Note) : Datagram Unit := modify fun s => { s with log := s.log ++ [o] }

def healthCheck : Datagram Unit := do
  let s ← get
  if !s._handle then Prog.fail "Not running"

/-- `handle.lookup(address, …)`: `lookup4` and `dns.lookup`. A lookup that fails at once has no
result. -/
def lookup (address : Address) (wait : Lookup) : Datagram Unit := do
  if address = .other then Prog.fail "invalid argument: hostname must be a string"
  else
    let err ← Prog.askFor .getaddrinfo
    if err = 0 then modify fun s => { s with lookups := s.lookups ++ [wait] }

/-- `bind(port, address)`. Its callback is a listener of 'listening'. -/
def bind (address : Address) : Datagram Unit := do
  healthCheck
  let s ← get
  if s._bindState ≠ .unbound then Prog.fail "Socket is already bound"
  else
    modify fun s => { s with _bindState := .binding }
    lookup address .bind

def enqueue (toEnqueue : Queued) : Datagram Unit :=
  modify fun s => { s with _queue := some (s._queue.getD [] ++ [toEnqueue]) }

/-- `fixBufferList`. -/
def fixBufferList (list : List BufferArg) : Option (List (List Nat)) :=
  list.mapM fun
    | .data bytes => some bytes
    | .other => none

/-- The list of buffers that a message is, or the text of the error. -/
def buffers : Message → Except String (List (List Nat))
  | .single (.data bytes) => .ok [bytes]
  | .single .other => .error "First argument must be a buffer or a string"
  | .list chunks =>
      match fixBufferList chunks with
      | some list => .ok list
      | none => .error "Buffer list arguments must be buffers or strings"

/-- `port >>> 0`. -/
def toUint32 (port : Int) : Int := port % 4294967296

/-- `send`, with the number of the call that it goes back to. -/
def send (args : Send) : Datagram Unit := do
  match buffers args.list with
  | .error message => Prog.fail message
  | .ok _ =>
      if toUint32 args.port = 0 ∨ 65535 < toUint32 args.port then
        Prog.fail "Port should be > 0 and < 65536"
      else
        healthCheck
        let s ← get
        if s._bindState = .unbound then bind .absent
        let s ← get
        -- before the socket is bound, the packet waits in the queue
        if s._bindState ≠ .bound then enqueue (.send args)
        else lookup args.address (.send args)

/-- `close`, without its callback, which is a listener of 'close'. -/
def close : Datagram Unit := do
  let s ← get
  -- the queue is only there until the socket is bound
  if s._queue.isSome then enqueue .close
  else
    healthCheck
    modify fun s => { s with _receiving := false, _handle := false, closes := s.closes + 1 }

def runQueued : Queued → Datagram Unit
  | .send args => Dgram.send args
  | .close => Dgram.close

/-- The functions of a queue, one after the other. -/
def flush : List Queued → Datagram Unit
  | [] => pure ()
  | toRun :: queue => do
      runQueued toRun
      flush queue

/-- `clearQueue`, a listener of 'listening' where there is a queue. -/
def clearQueue : Datagram Unit := do
  let s ← get
  match s._queue with
  | some queue =>
      modify fun s => { s with _queue := none }
      flush queue
  | none => pure ()

def startListening : Datagram Unit := do
  modify fun s => { s with _receiving := true, _bindState := .bound }
  Prog.yieldTo .listening
  -- `clearQueue` was registered by the first `enqueue`, between the other listeners
  clearQueue
  Prog.yieldTo .listened

/-- The callback of the lookup in `bind`. -/
def afterBindLookup (failed : Bool) : Datagram Unit := do
  if failed then
    modify fun s => { s with _bindState := .unbound }
    Prog.yieldTo .error
  else
    let s ← get
    -- a socket that was closed in the meantime is left as it is
    if s._handle then
      let err ← Prog.askFor .bind
      if err ≠ 0 then
        Prog.yieldTo .bindError
        modify fun s => { s with _bindState := .unbound }
      else startListening

/-- The callback is called, if there is one. -/
def answer (args : Send) (handed : Bool) : Datagram Unit := do
  note (.fate args.id args.callback handed)
  if args.callback then
    note (.answered args.id (if handed then .null else .error))
    Prog.yieldTo (.callback args.id)

/-- `doSend`, the callback of the lookup in `send`. -/
def doSend (failed : Bool) (args : Send) : Datagram Unit := do
  if failed then
    answer args false
    if !args.callback then Prog.yieldTo .error
  else
    let s ← get
    -- a socket that was closed in the meantime: `doSend` returns and tells nobody
    if s._handle then
      let err ← Prog.askFor .send
      if err = 0 then modify fun s => { s with sending := s.sending ++ [args] }
      else if args.callback then Prog.fail "exceptionWithHostPort is not defined"

/-- What a result does with the lookup that it belongs to. -/
def afterLookup (failed : Bool) : Lookup → Datagram Unit
  | .bind => afterBindLookup failed
  | .send args => doSend failed args

/-- What can happen to the socket. -/
inductive Call where
  /-- `bind(port, address)` -/
  | bind (address : Address)
  | send (list : Message) (port : Int) (address : Address) (callback : Bool)
  | close
  /-- the result of a lookup, by its place among those in flight -/
  | lookup (i : Nat) (failed : Bool)
  /-- the result of a native send -/
  | sent (i : Nat) (status : Int)
  /-- a function given to `nextTick` runs -/
  | tick
deriving DecidableEq, Repr

/-- A call of `send`. It is accepted when it does not throw. -/
def sendCall (list : Message) (port : Int) (address : Address) (callback : Bool) :
    Datagram Unit := do
  let s ← get
  modify fun s => { s with next := s.next + 1 }
  send ⟨s.next, list, port, address, callback⟩
  note (.accepted s.next callback)

/-- The socket between the application, the resolver and the network. -/
def machine : Machine Dgram Yield Native Call where
  body
    | .bind address => bind address
    | .send list port address callback => sendCall list port address callback
    | .close => close
    | .lookup i failed => do
        let s ← get
        match s.lookups[i]? with
        | some wait =>
            modify fun s => { s with lookups := s.lookups.eraseIdx i }
            afterLookup failed wait
        | none => pure ()
    | .sent i status => do
        let s ← get
        match s.sending[i]? with
        | some args =>
            modify fun s => { s with sending := s.sending.eraseIdx i }
            answer args (status == 0)
        | none => pure ()
    | .tick => do
        modify fun s => { s with closes := s.closes - 1 }
        Prog.yieldTo .close
  enabled call atRest s :=
    match call with
    | .bind _ | .send .. | .close => true
    | .lookup i _ => atRest && decide (i < s.lookups.length)
    | .sent i _ => atRest && decide (i < s.sending.length)
    | .tick => atRest && decide (0 < s.closes)

end Dgram

end IotJs

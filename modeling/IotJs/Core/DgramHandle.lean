import IotJs.Core.Dgram

/-!
# `IotJs.Core.DgramHandle`: the operations on the handle of a UDP socket

`address`, the options and the multicast groups of a `Socket` from `src/js/dgram.js`. They change
nothing of the socket itself: each of them checks its argument, calls its native function and
throws the error that it returns. An operation is given the state of the socket and what the
native function does, which can return an error number or throw.

`address`, `addMembership` and `dropMembership` begin with `_healthCheck`, the setters use
`this._handle` as it is.
-/

set_option autoImplicit false

namespace IotJs.Dgram

/-- What the native function does. -/
abbrev Answer := Except String Int

/-- An argument that should be a number. -/
inductive Arg where
  | number (n : Int)
  | other
deriving DecidableEq, Repr

/-- `_healthCheck`, for operations that leave the socket as it is. -/
def running (s : Dgram) : Except String Unit :=
  if !s._handle then .error "Not running" else .ok ()

/-- The text of `util.errnoException(err, syscall)`. -/
def errnoException (syscall : String) : String := syscall ++ " " ++ "error"

/-- `this._handle.f(…)`: a property of `null` is a `TypeError` of the engine. -/
def onHandle (s : Dgram) (answer : Answer) : Answer :=
  if s._handle then answer else .error "TypeError"

/-- A native error is thrown. -/
def check (syscall : String) (answer : Answer) : Except String Unit := do
  let err ← answer
  if err ≠ 0 then throw (errnoException syscall)

/-- `setBroadcast(arg)`. Any argument will do, only whether it is truthy counts. -/
def setBroadcast (answer : Answer) (s : Dgram) : Except String Unit :=
  check "setBroadcast" (onHandle s answer)

def setMulticastLoopback (answer : Answer) (s : Dgram) : Except String Unit :=
  check "setMulticastLoopback" (onHandle s answer)

/-- The setters with a number. -/
def setNumber (syscall : String) (arg : Arg) (answer : Answer) (s : Dgram) : Except String Unit :=
  match arg with
  | .other => throw "Argument must be a number"
  | .number _ => check syscall (onHandle s answer)

def setTTL : Arg → Answer → Dgram → Except String Unit := setNumber "setTTL"

def setMulticastTTL : Arg → Answer → Dgram → Except String Unit := setNumber "setMulticastTTL"

def address (answer : Answer) (s : Dgram) : Except String Unit := do
  running s
  check "getsockname" (onHandle s answer)

/-- `addMembership` and `dropMembership`. -/
def membership (syscall : String) (multicastAddress : Address) (answer : Answer) (s : Dgram) :
    Except String Unit := do
  running s
  if multicastAddress = .absent ∨ multicastAddress = .name "" then
    throw "multicast address must be specified"
  else check syscall (onHandle s answer)

def addMembership : Address → Answer → Dgram → Except String Unit := membership "addMembership"

def dropMembership : Address → Answer → Dgram → Except String Unit := membership "dropMembership"

/-- An operation that needs the handle. -/
inductive Operation where
  | bind (address : Address)
  | send (args : Send)
  | close
  | address
  | setBroadcast
  | setTTL (arg : Arg)
  | setMulticastTTL (arg : Arg)
  | setMulticastLoopback
  | addMembership (multicastAddress : Address)
  | dropMembership (multicastAddress : Address)
deriving DecidableEq, Repr

/-- What a program threw. -/
def thrown {α : Type} : Reentrant.Outcome Dgram Yield Native α → Option String
  | .thrown e _ => some e
  | _ => none

/-- What a function threw. -/
def refused : Except String Unit → Option String
  | .error e => some e
  | .ok _ => none

/-- What the operation throws, if it throws: `rs` are the answers that `bind` and `send` get of
the native side, and `answer` is the one of the native function of the other operations. -/
def Operation.throws (rs : List Int) (answer : Answer) (s : Dgram) : Operation → Option String
  | .bind host => thrown ((Dgram.bind host).exec rs s)
  | .send args => thrown ((Dgram.send args).exec rs s)
  | .close => thrown (Dgram.close.exec rs s)
  | .address => refused (Dgram.address answer s)
  | .setBroadcast => refused (Dgram.setBroadcast answer s)
  | .setTTL arg => refused (Dgram.setTTL arg answer s)
  | .setMulticastTTL arg => refused (Dgram.setMulticastTTL arg answer s)
  | .setMulticastLoopback => refused (Dgram.setMulticastLoopback answer s)
  | .addMembership multicastAddress => refused (Dgram.addMembership multicastAddress answer s)
  | .dropMembership multicastAddress => refused (Dgram.dropMembership multicastAddress answer s)

/-- The operation comes to the handle: it does not refuse its arguments before that. -/
def Operation.accepted : Operation → Bool
  | .send args =>
      (buffers args.list).isOk && decide (0 < toUint32 args.port ∧ toUint32 args.port ≤ 65535)
  | .setTTL arg | .setMulticastTTL arg => decide (arg ≠ .other)
  | _ => true

/-- The operation uses the handle without `_healthCheck`. -/
def Operation.unchecked : Operation → Bool
  | .setBroadcast | .setTTL _ | .setMulticastTTL _ | .setMulticastLoopback => true
  | _ => false

end IotJs.Dgram

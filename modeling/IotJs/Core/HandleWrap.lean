import IotJs.Lib.Reentrant.Prog

/-!
# `IotJs.Core.HandleWrap`: a JavaScript object and its libuv handle

`iotjs_handlewrap_t` from `src/iotjs_handlewrap.c`, with the methods of the tcp, udp and timer
objects that reach it. The wrapper embeds the libuv handle. Its pointer `handle` goes to the
embedded handle until the close has completed, and is NULL from then on. Until then the wrapper
holds a reference to the JavaScript object, which has the wrapper as its native handle, and frees
it when it is collected.

The methods call libuv as a primitive that answers with an error number. libuv calls back: for an
event of a handle that is not closed (a connection, data, a timeout), when the process ends and
walks over all handles, and once for each `uv_close`. A callback hands control to JavaScript, which
may use the object in any way. The exceptions of such a callback end in `iotjs_make_callback`.
A read through NULL ends the process, and so does an assertion that fails.
-/

set_option autoImplicit false

namespace IotJs

open Reentrant

/-- The libuv handle that the object stands for. -/
inductive HandleKind where
  | tcp | udp | timer
deriving DecidableEq, Repr

/-- The functions that are registered with `iotjs_handlewrap_close`. -/
inductive OnCloseHandler where
  | afterClose
deriving DecidableEq, Repr

inductive WrapNote where
  /-- a read through the pointer `handle` while it is NULL -/
  | nullRead
  | uvClose (onCloseCb : Option OnCloseHandler)
  /-- the registered function is called -/
  | onClose (cb : OnCloseHandler)
  /-- `iotjs_handlewrap_destroy`, with the pointer `handle` set or not -/
  | destroyed (handle : Bool)
  /-- what a method returns to JavaScript -/
  | returned (err : Int)
deriving DecidableEq, Repr

structure HandleWrap where
  kind : HandleKind
  /-- the address of the wrapper -/
  self : Nat
  /-- the native handle of the JavaScript object -/
  native : Nat
  /-- the pointer `handle` is not NULL -/
  handle : Bool
  /-- the field `data` of the libuv handle -/
  data : Nat
  onCloseCb : Option OnCloseHandler
  /-- `uv_is_closing` -/
  closing : Bool
  /-- libuv has not called back for `uv_close` yet -/
  pending : Bool
  /-- the wrapper's reference to the JavaScript object -/
  referenced : Bool
  /-- JavaScript can reach the object -/
  reachable : Bool
  freed : Bool
  /-- the process ended in the middle -/
  crashed : Bool
  log : List WrapNote
deriving DecidableEq, Repr

/-- The JavaScript that a callback of libuv runs. -/
inductive WrapYield where
  /-- the property `onclose` of the object -/
  | onclose
  /-- `onconnection`, `onread`, `onmessage` or `handleTimeout` -/
  | callback
deriving DecidableEq, Repr

/-- What is asked of libuv, or of the object. -/
inductive UvCall where
  | tcpBind | tcpConnect | listen | write | readStart | shutdown | tcpKeepalive | getsockname
  | udpBind | udpRecvStart | udpRecvStop | udpSend | udpSetSockopt | udpSetMembership
  | timerStart
  /-- the property `onclose` is a function -/
  | onclose
deriving DecidableEq, Repr

namespace HandleWrap

/-- A function over the wrapper. -/
abbrev Wrapping := Prog HandleWrap WrapYield UvCall

def note (o : WrapNote) : Wrapping Unit := modify fun w => { w with log := w.log ++ [o] }

/-- `IOTJS_ASSERT`. -/
def iotjsAssert (holds : Bool) : Wrapping Unit :=
  if holds then pure ()
  else do
    modify fun w => { w with crashed := true }
    Prog.fail "assertion failed"

/-- `iotjs_handlewrap_initialize`, for an object that JavaScript has just made. -/
def initialized (kind : HandleKind) (self : Nat) : HandleWrap where
  kind := kind
  self := self
  native := self
  handle := true
  data := self
  onCloseCb := none
  closing := false
  pending := false
  referenced := true
  reachable := true
  freed := false
  crashed := false
  log := []

def validate : Wrapping Unit := do
  let w ← get
  if w.handle then
    iotjsAssert (w.self == w.data)
    iotjsAssert (w.self == w.native)
  else
    -- `_this->handle->data`
    modify fun w => { w with crashed := true, log := w.log ++ [.nullRead] }
    Prog.fail "segmentation fault"

def fromHandle : Wrapping Unit := validate

def fromJobject : Wrapping Unit := validate

def getUvHandle : Wrapping Unit := validate

/-- `iotjs_jobjectwrap_jobject`. -/
def jobjectwrapJobject : Wrapping Unit := do
  let w ← get
  iotjsAssert (w.self == w.native)

def jobject : Wrapping Unit := do
  validate
  jobjectwrapJobject

def destroy : Wrapping Unit := do
  let w ← get
  note (.destroyed w.handle)
  iotjsAssert (!w.handle)
  modify fun w => { w with freed := true }

def close (onCloseCb : Option OnCloseHandler) : Wrapping Unit := do
  let w ← get
  if w.handle && !w.closing then
    modify fun w => { w with
      onCloseCb := onCloseCb, closing := true, pending := true
      log := w.log ++ [.uvClose onCloseCb] }

/-- Control goes to JavaScript, which can reach the object from there. -/
def makeCallback (u : WrapYield) : Wrapping Unit := do
  modify fun w => { w with reachable := true }
  Prog.yieldTo u

/-- `AfterClose` of the tcp module. -/
def afterClose : Wrapping Unit := do
  fromHandle
  jobject
  let isFunction ← Prog.askFor .onclose
  if isFunction ≠ 0 then makeCallback .onclose

/-- The end of `iotjs_handlewrap_on_close`. -/
def release : Wrapping Unit := do
  -- `handle` is cleared first: from here on a validation reads through NULL
  modify fun w => { w with handle := false }
  jobjectwrapJobject
  modify fun w => { w with referenced := false }

def onClose : Wrapping Unit := do
  let w ← get
  match w.onCloseCb with
  | some .afterClose =>
      note (.onClose .afterClose)
      afterClose
      release
  | none => release

def onHandleClosed : Wrapping Unit := do
  fromHandle
  onClose

/-! ### The methods of the objects -/

/-- The methods that ask libuv something about the handle. -/
def withHandle (q : UvCall) : Wrapping Unit := do
  fromJobject
  getUvHandle
  let err ← Prog.askFor q
  note (.returned err)

/-- `addrErr` is what `uv_ip4_addr` makes of the arguments. -/
inductive Op where
  | tcpOpen | tcpClose | tcpBind (addrErr : Int) | tcpConnect (addrErr : Int) | tcpListen
  | tcpWrite | tcpReadStart | tcpShutdown | tcpSetKeepAlive | tcpGetSockeName
  | udpBind (addrErr : Int) | udpRecvStart | udpRecvStop | udpSend (addrErr : Int) | udpClose
  | udpGetSockeName | udpSetSockopt | udpSetMembership
  | timerStart | timerStop
deriving DecidableEq, Repr

def tcpClose : Wrapping Unit := do
  fromJobject
  close (some .afterClose)

def tcpBind (addrErr : Int) : Wrapping Unit :=
  if addrErr = 0 then withHandle .tcpBind else note (.returned addrErr)

def tcpConnect (addrErr : Int) : Wrapping Unit :=
  if addrErr = 0 then withHandle .tcpConnect else note (.returned addrErr)

def udpBind (addrErr : Int) : Wrapping Unit := do
  fromJobject
  if addrErr = 0 then
    getUvHandle
    let err ← Prog.askFor .udpBind
    note (.returned err)
  else note (.returned addrErr)

/-- `UV_EALREADY`. -/
def uvEalready : Int := -114

def udpRecvStart : Wrapping Unit := do
  fromJobject
  getUvHandle
  let err ← Prog.askFor .udpRecvStart
  note (.returned (if err = uvEalready then 0 else err))

def udpSend (addrErr : Int) : Wrapping Unit := do
  fromJobject
  if addrErr = 0 then
    getUvHandle
    let err ← Prog.askFor .udpSend
    note (.returned err)
  else note (.returned addrErr)

def udpClose : Wrapping Unit := do
  fromJobject
  close none

/-- `Start` works on the embedded handle. -/
def timerStart : Wrapping Unit := do
  fromJobject
  let res ← Prog.askFor .timerStart
  note (.returned res)

def timerStop : Wrapping Unit := do
  fromJobject
  getUvHandle
  let w ← get
  if !w.closing then close none
  note (.returned 0)

def Op.kind : Op → HandleKind
  | .tcpOpen | .tcpClose | .tcpBind _ | .tcpConnect _ | .tcpListen | .tcpWrite | .tcpReadStart
  | .tcpShutdown | .tcpSetKeepAlive | .tcpGetSockeName => .tcp
  | .udpBind _ | .udpRecvStart | .udpRecvStop | .udpSend _ | .udpClose | .udpGetSockeName
  | .udpSetSockopt | .udpSetMembership => .udp
  | .timerStart | .timerStop => .timer

def perform : Op → Wrapping Unit
  | .tcpOpen => pure ()
  | .tcpClose => tcpClose
  | .tcpBind addrErr => tcpBind addrErr
  | .tcpConnect addrErr => tcpConnect addrErr
  | .tcpListen => withHandle .listen
  | .tcpWrite => withHandle .write
  | .tcpReadStart => withHandle .readStart
  | .tcpShutdown => withHandle .shutdown
  | .tcpSetKeepAlive => withHandle .tcpKeepalive
  | .tcpGetSockeName => withHandle .getsockname
  | .udpBind addrErr => udpBind addrErr
  | .udpRecvStart => udpRecvStart
  | .udpRecvStop => withHandle .udpRecvStop
  | .udpSend addrErr => udpSend addrErr
  | .udpClose => udpClose
  | .udpGetSockeName => withHandle .getsockname
  | .udpSetSockopt => withHandle .udpSetSockopt
  | .udpSetMembership => withHandle .udpSetMembership
  | .timerStart => timerStart
  | .timerStop => timerStop

/-- What can happen to the object. -/
inductive Call where
  /-- JavaScript calls a method -/
  | op (op : Op)
  /-- libuv calls back for an event of the handle -/
  | event
  /-- `iotjs_uv_walk_to_close_callback`, when the process ends -/
  | walk
  /-- libuv calls back for `uv_close` -/
  | closed
  /-- JavaScript loses its last reference to the object -/
  | drop
  /-- the object is collected -/
  | gc
deriving DecidableEq, Repr

/-- `OnConnection`, `OnRead`, `OnRecv` and `TimeoutHandler`. -/
def event : Wrapping Unit := do
  fromHandle
  getUvHandle
  jobject
  makeCallback .callback

def walk : Wrapping Unit := do
  fromHandle
  close none

/-- libuv has the handle in its loop. -/
def inLoop (w : HandleWrap) : Bool := !w.closing || w.pending

/-- The object between JavaScript, libuv and the collector. -/
def machine : Machine HandleWrap WrapYield UvCall Call where
  body
    | .op op => perform op
    | .event => event
    | .walk => walk
    | .closed => do
        modify fun w => { w with pending := false }
        onHandleClosed
    | .drop => modify fun w => { w with reachable := false }
    | .gc => destroy
  enabled call atRest w := !w.crashed &&
    match call with
    | .op op => w.reachable && op.kind == w.kind
    | .event => atRest && w.inLoop
    | .walk => atRest && w.inLoop
    | .closed => atRest && w.closing && w.pending
    | .drop => w.reachable
    | .gc => !w.reachable && !w.referenced && !w.freed

end HandleWrap

end IotJs

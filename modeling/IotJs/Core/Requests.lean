import IotJs.Lib.Ledger
import IotJs.Lib.Reentrant.Prog

/-!
# `IotJs.Core.Requests`: what the native modules take and give back

The functions of `iotjs_module_tcp.c`, `iotjs_module_udp.c`, `iotjs_module_dns.c` and
`iotjs_module_fs.c` that make requests to libuv or that libuv calls back, with `iotjs_reqwrap_t`,
the arguments `iotjs_jargs_t`, and the calls into JavaScript from `iotjs_binding_helper.c`.

The ledger `heap` has an entry for each thing that these functions take and have to give back: the
memory of a request wrapper, its copy of the callback, strings, buffers, references to values, and
lists of arguments. A request that libuv has accepted is in `pending` until libuv calls back, which
happens when no other code runs. JavaScript code may call any of the functions, in between. The
branches for NuttX are left out.

An assertion that fails ends the process (`aborted`). Reading what was given back is not defined in
C (`stale`). The handles themselves are in `HandleWrap`; what a function of libuv returns is asked.
-/

set_option autoImplicit false

namespace IotJs

open Reentrant Ledger

/-- The types of arguments from JavaScript. -/
inductive JsType where
  | undefined | null | boolean | number | string | object | function
deriving DecidableEq, Repr

/-- What goes to JavaScript. -/
inductive JsValue where
  | undefined | null
  | boolean (b : Bool)
  | number (n : Int)
  | text (s : String)
  /-- `iotjs_create_uv_exception` -/
  | error (err : Int) (syscall : String)
  | names (entries : List String)
  | stat
  /-- a handle, a socket, a buffer or an address -/
  | object
deriving DecidableEq, Repr

/-- `uv_fs_type` -/
inductive FsType where
  | open | close | read | write | scandir | stat | mkdir | rmdir | unlink | rename
deriving DecidableEq, Repr

inductive RequestKind where
  | connect | write | shutdown | send | getaddrinfo
  | fs (type : FsType)
deriving DecidableEq, Repr

inductive Resource where
  | reqwrap
  /-- `jcallback` of a request wrapper -/
  | jcallback
  | string
  /-- a reference to a value of the engine -/
  | jval
  | buffer
  | jargs (capacity argc : Nat)
deriving DecidableEq, Repr

/-- `iotjs_reqwrap_t`: its memory and its copy of the callback, as entries of the ledger. -/
structure Request where
  kind : RequestKind
  wrap : Nat
  jcallback : Nat
deriving DecidableEq, Repr

inductive RequestNote where
  | returned (value : JsValue)
  | thrown (message : String)
  /-- the callback of a request is called -/
  | called (wrap : Nat) (args : List JsValue)
  /-- the wrapper of a request that libuv has not accepted is given back -/
  | rejected (wrap : Nat)
  /-- `uv_accept` fails -/
  | acceptFailed (err : Int)
deriving DecidableEq, Repr

structure Requests where
  heap : List (Entry Resource)
  /-- the requests that libuv has accepted -/
  pending : List Request
  /-- something was used after it was given back -/
  stale : Bool
  aborted : Bool
  log : List RequestNote
deriving DecidableEq, Repr

/-- The JavaScript that is called. -/
inductive RequestYield where
  | callback (args : List JsValue)
  | onconnection (args : List JsValue)
  | onread (args : List JsValue)
  | onmessage (args : List JsValue)
  | createTcp
  | createStat
  | onUncaughtException
  | onNextTick
deriving DecidableEq, Repr

/-- What libuv or the engine answers. -/
inductive RequestAsk where
  | ip4Addr | tcpBind | tcpConnect | accept | write | shutdown
  | udpBind | udpSend | setMembership | getaddrinfo
  | fs (type : FsType)
  /-- the callback has thrown -/
  | throws
  /-- a function of the JavaScript library has thrown -/
  | fails
  /-- the property, or the result of the call, has the type -/
  | has (name : String) (type : JsType)
deriving DecidableEq, Repr

namespace JsType

/-- `iotjs_jval_is_..`: a function is an object. -/
def is (t type : JsType) : Bool := t == type || (type == .object && t == .function)

end JsType

namespace Requests

abbrev Requesting := Prog Requests RequestYield RequestAsk

/-! ### The ledger -/

def allocate (k : Resource) : Requesting Nat := do
  let s ← get
  set { s with heap := take s.heap k }
  return s.heap.length

def giveBack (i : Nat) : Requesting Unit := modify fun s => { s with heap := release s.heap i }

/-- Something that is only taken under a condition: a buffer, or NULL. -/
def allocateIf (taken : Bool) (k : Resource) : Requesting (Option Nat) :=
  if taken then do
    let i ← allocate k
    return some i
  else return none

def giveBackIf : Option Nat → Requesting Unit
  | none => pure ()
  | some i => giveBack i

/-- Something is used. -/
def touch (i : Nat) : Requesting Unit :=
  modify fun s => { s with stale := s.stale || !isLive s.heap i }

/-- Data is read from a buffer: libuv has data in a buffer only. -/
def touchIf : Option Nat → Requesting Unit
  | none => pure ()
  | some i => touch i

def note (o : RequestNote) : Requesting Unit := modify fun s => { s with log := s.log ++ [o] }

/-- `IOTJS_ASSERT` -/
def iotjsAssert (holds : Bool) : Requesting Unit :=
  if holds then pure ()
  else do
    modify fun s => { s with aborted := true }
    Prog.fail "assertion failed"

/-- `IOTJS_ASSERT(iotjs_jval_is_..)` for a property, or for what a call has returned -/
def assertHas (name : String) (type : JsType) : Requesting Unit := do
  let answer ← Prog.askFor (.has name type)
  iotjsAssert (answer ≠ 0)

/-! ### Arguments of a call into JavaScript -/

def jargsCreate (capacity : Nat) : Requesting Nat := allocate (.jargs capacity 0)

def argsOf (s : Requests) (i : Nat) : Nat × Nat :=
  match s.heap[i]? with
  | some ⟨.jargs capacity argc, _⟩ => (capacity, argc)
  | _ => (0, 0)

/-- `iotjs_jargs_append_jval` -/
def jargsAppend (i : Nat) : Requesting Unit := do
  touch i
  let s ← get
  iotjsAssert ((s.argsOf i).2 < (s.argsOf i).1)
  set { s with heap := update s.heap i (.jargs (s.argsOf i).1 ((s.argsOf i).2 + 1)) }

/-- `iotjs_jargs_append_number` and `iotjs_jargs_append_string_raw` -/
def jargsAppendNew (i : Nat) : Requesting Unit := do
  let jval ← allocate .jval
  jargsAppend i
  giveBack jval

/-- `iotjs_jargs_replace` -/
def jargsReplace (i index : Nat) : Requesting Unit := do
  touch i
  let s ← get
  iotjsAssert (index < (s.argsOf i).2)

def jargsDestroy (i : Nat) : Requesting Unit := do
  let s ← get
  iotjsAssert (0 < (s.argsOf i).2)
  iotjsAssert ((s.argsOf i).2 ≤ (s.argsOf i).1)
  giveBack i

/-! ### Calls into JavaScript -/

/-- `iotjs_jhelper_call`, with a copy of the arguments while it runs: the result. -/
def jhelperCall (f : RequestYield) (jargs : Option Nat) : Requesting Nat := do
  match jargs with
  | none => Prog.yieldTo f
  | some jargs =>
      touch jargs
      let jargv ← allocate .buffer
      Prog.yieldTo f
      giveBack jargv
  allocate .jval

def jhelperCallOk (f : RequestYield) (jargs : Option Nat) : Requesting Nat := do
  let jres ← jhelperCall f jargs
  let throws ← Prog.askFor .fails
  iotjsAssert (throws = 0)
  return jres

def uncaughtException : Requesting Unit := do
  let jonuncaughtexception ← allocate .jval
  assertHas "_onUncaughtExcecption" .function
  let args ← jargsCreate 1
  jargsAppend args
  let jres ← jhelperCallOk .onUncaughtException (some args)
  giveBack jres
  jargsDestroy args
  giveBack jonuncaughtexception

def processNextTick : Requesting Unit := do
  let jonNextTick ← allocate .jval
  assertHas "_onNextTick" .function
  let jres ← jhelperCallOk .onNextTick none
  assertHas "_onNextTick()" .boolean
  giveBack jres
  giveBack jonNextTick

def makeCallback (f : RequestYield) (jargs : Nat) : Requesting Unit := do
  let jres ← jhelperCall f (some jargs)
  let throws ← Prog.askFor .throws
  if throws ≠ 0 then uncaughtException
  processNextTick
  giveBack jres

/-! ### Functions that JavaScript calls -/

/-- `iotjs_jhandler_return_number` -/
def returnNumber (n : Int) : Requesting Unit := do
  let jval ← allocate .jval
  note (.returned (.number n))
  giveBack jval

/-- `JHANDLER_THROW` -/
def jhandlerThrow (message : String) : Requesting Unit := do
  let e ← allocate .jval
  note (.thrown message)
  giveBack e

/-- `JHANDLER_CHECK` -/
def jhandlerCheck (name : String) (holds : Bool) : Requesting Unit :=
  if holds then pure ()
  else do
    jhandlerThrow ("Internal error (___" ++ name ++ "_native)")
    Prog.fail "Internal error"

/-- `iotjs_jhandler_get_arg` -/
def getArg (args : List JsType) (index : Nat) : Requesting JsType := do
  iotjsAssert (index < args.length)
  return args.getD index .undefined

/-- `JHANDLER_CHECK_ARGS_n`, without the number of arguments -/
def checkTypes (name : String) (args : List JsType) : Nat → List JsType → Requesting Unit
  | _, [] => pure ()
  | index, type :: types => do
      let arg ← getArg args index
      jhandlerCheck name (arg.is type)
      checkTypes name args (index + 1) types

/-- `JHANDLER_CHECK_ARGS` -/
def checkArgs (name : String) (args types : List JsType) : Requesting Unit := do
  jhandlerCheck name (types.length ≤ args.length)
  checkTypes name args 0 types

/-- `JHANDLER_CHECK_ARG_IF_EXIST` -/
def checkArgIfExist (name : String) (args : List JsType) (index : Nat) (type : JsType) :
    Requesting Unit :=
  if index < args.length then do
    let arg ← getArg args index
    jhandlerCheck name (arg.is type)
  else pure ()

/-! ### Request wrappers -/

/-- `iotjs_.._reqwrap_create` with `iotjs_reqwrap_initialize` -/
def reqwrapCreate (kind : RequestKind) (jcallback : JsType) : Requesting Request := do
  let wrap ← allocate .reqwrap
  iotjsAssert (jcallback.is .function)
  let copy ← allocate .jcallback
  return ⟨kind, wrap, copy⟩

/-- `iotjs_.._reqwrap_dispatched` -/
def dispatched (r : Request) : Requesting Unit := do
  touch r.wrap
  giveBack r.jcallback
  giveBack r.wrap

/-- libuv has accepted the request. -/
def accept (r : Request) : Requesting Unit := modify fun s => { s with pending := s.pending ++ [r] }

def reject (r : Request) : Requesting Unit := do
  note (.rejected r.wrap)
  dispatched r

/-- What a function does with a request: `err` is what libuv says. -/
def submit (r : Request) (ask : RequestAsk) : Requesting Int := do
  touch r.wrap
  let err ← Prog.askFor ask
  if err ≠ 0 then reject r else accept r
  return err

/-- The callback of a request. -/
def callBack (r : Request) (args : List JsValue) (jargs : Nat) : Requesting Unit := do
  touch r.wrap
  touch r.jcallback
  note (.called r.wrap args)
  makeCallback (.callback args) jargs

/-! ### tcp -/

/-- `Bind`, for tcp -/
def tcpBind (args : List JsType) : Requesting Unit := do
  checkArgs "Bind" args [.string, .number]
  let address ← allocate .string
  let parsed ← Prog.askFor .ip4Addr
  let err ← if parsed = 0 then Prog.askFor .tcpBind else pure parsed
  returnNumber err
  giveBack address

/-- `Connect` -/
def connect (args : List JsType) : Requesting Unit := do
  checkArgs "Connect" args [.string, .number, .function]
  let address ← allocate .string
  touch address
  let parsed ← Prog.askFor .ip4Addr
  let err ← if parsed = 0 then do
      let r ← reqwrapCreate .connect .function
      submit r .tcpConnect
    else pure parsed
  returnNumber err
  giveBack address

/-- `Write` -/
def write (args : List JsType) : Requesting Unit := do
  checkArgs "Write" args [.object, .function]
  let r ← reqwrapCreate .write .function
  let err ← submit r .write
  returnNumber err

/-- `Shutdown` -/
def shutdown (args : List JsType) : Requesting Unit := do
  checkArgs "Shutdown" args [.function]
  let r ← reqwrapCreate .shutdown .function
  let err ← submit r .shutdown
  returnNumber err

/-- `AfterConnect`, `AfterWrite` and `AfterShutdown` -/
def afterStatus (r : Request) (status : Int) : Requesting Unit := do
  let args ← jargsCreate 1
  jargsAppendNew args
  callBack r [.number status] args
  jargsDestroy args
  dispatched r

/-- `OnConnection` -/
def onConnection (status : Int) : Requesting Unit := do
  let jonconnection ← allocate .jval
  assertHas "onconnection" .function
  let args ← jargsCreate 2
  jargsAppendNew args
  if status = 0 then
    let jcreateTcp ← allocate .jval
    assertHas "createTCP" .function
    let jclientTcp ← jhelperCallOk .createTcp none
    assertHas "createTCP()" .object
    let err ← Prog.askFor .accept
    if err ≠ 0 then
      note (.acceptFailed err)
      return
    jargsAppend args
    giveBack jcreateTcp
    giveBack jclientTcp
  makeCallback (.onconnection (.number status :: if status = 0 then [.object] else [])) args
  giveBack jonconnection
  jargsDestroy args

/-- `UV__EOF` -/
def eof : Int := -4095

/-- `OnAlloc` and `OnRead`: libuv has asked for a buffer, or comes without one. -/
def onRead (allocated : Bool) (nread : Int) : Requesting Unit := do
  let base ← allocateIf allocated .buffer
  let jsocket ← allocate .jval
  assertHas "owner" .object
  let jonread ← allocate .jval
  assertHas "onread" .function
  let jargs ← jargsCreate 4
  jargsAppend jargs
  jargsAppendNew jargs
  jargsAppend jargs
  if nread ≤ 0 then
    giveBackIf base
    if nread < 0 then
      if nread = eof then jargsReplace jargs 2
      makeCallback (.onread [.object, .number nread, .boolean (nread == eof)]) jargs
  else
    let jbuffer ← allocate .jval
    touchIf base
    jargsAppend jargs
    makeCallback (.onread [.object, .number nread, .boolean false, .object]) jargs
    giveBack jbuffer
    giveBackIf base
  jargsDestroy jargs
  giveBack jonread
  giveBack jsocket

/-! ### udp -/

/-- `Bind`, for udp -/
def udpBind (args : List JsType) : Requesting Unit := do
  checkTypes "Bind" args 0 [.string, .number]
  let address ← allocate .string
  let reuseAddr ← allocate .jval
  -- or undefined
  assertHas "_reuseAddr" .boolean
  let parsed ← Prog.askFor .ip4Addr
  let err ← if parsed = 0 then Prog.askFor .udpBind else pure parsed
  returnNumber err
  giveBack reuseAddr
  giveBack address

/-- `Send` -/
def send (args : List JsType) : Requesting Unit := do
  checkTypes "Send" args 0 [.object, .number, .string]
  let callback ← getArg args 3
  iotjsAssert (callback.is .function || callback.is .undefined)
  let address ← allocate .string
  -- `JHANDLER_GET_ARG(3, object)`
  iotjsAssert (callback.is .object)
  let r ← reqwrapCreate .send callback
  touch address
  let parsed ← Prog.askFor .ip4Addr
  let err ← if parsed = 0 then submit r .udpSend
    else do
      reject r
      pure parsed
  returnNumber err
  giveBack address

/-- `OnSend` -/
def onSend (r : Request) (status size : Int) : Requesting Unit := do
  let jargs ← jargsCreate 2
  jargsAppendNew jargs
  jargsAppendNew jargs
  callBack r [.number status, .number size] jargs
  jargsDestroy jargs
  dispatched r

/-- `OnAlloc` and `OnRecv` -/
def onRecv (allocated : Bool) (nread : Int) (addr : Bool) : Requesting Unit := do
  let base ← allocateIf allocated .buffer
  if nread = 0 ∧ addr = false then
    giveBackIf base
    return
  let jonmessage ← allocate .jval
  assertHas "onmessage" .function
  let jargs ← jargsCreate 4
  jargsAppendNew jargs
  jargsAppend jargs
  if nread < 0 then
    giveBackIf base
    makeCallback (.onmessage [.number nread, .object]) jargs
    giveBack jonmessage
    jargsDestroy jargs
    return
  let jbuffer ← allocate .jval
  touchIf base
  jargsAppend jargs
  let rinfo ← allocate .jval
  jargsAppend jargs
  makeCallback (.onmessage [.number nread, .object, .object, .object]) jargs
  giveBack rinfo
  giveBack jbuffer
  giveBack jonmessage
  giveBackIf base
  jargsDestroy jargs

/-- `SetMembership` -/
def setMembership (name : String) (args : List JsType) : Requesting Unit := do
  checkTypes name args 0 [.string]
  let address ← allocate .string
  let arg1 ← getArg args 1
  if arg1.is .undefined || arg1.is .null then
    let err ← Prog.askFor .setMembership
    returnNumber err
    giveBack address
  else
    iotjsAssert (arg1.is .string)
    let iface ← allocate .string
    let err ← Prog.askFor .setMembership
    returnNumber err
    giveBack address
    giveBack iface

/-! ### dns -/

/-- `GetAddrInfo`. The function returns where it throws. -/
def getAddrInfo (args : List JsType) (option : Int) : Requesting Unit := do
  checkArgs "GetAddrInfo" args [.string, .number, .number, .function]
  let hostname ← allocate .string
  if option ≠ 0 ∧ option ≠ 4 ∧ option ≠ 6 then jhandlerThrow "bad address family"
  else
    let r ← reqwrapCreate .getaddrinfo .function
    touch hostname
    let err ← submit r .getaddrinfo
    returnNumber err
    giveBack hostname

/-- `AfterGetAddrInfo` -/
def afterGetAddrInfo (r : Request) (status : Int) (ip : String) : Requesting Unit := do
  let args ← jargsCreate 3
  jargsAppendNew args
  if status = 0 then jargsAppendNew args
  callBack r (.number status :: if status = 0 then [.text ip] else []) args
  jargsDestroy args
  dispatched r

/-! ### fs -/

/-- `MakeStatObject` -/
def makeStatObject : Requesting Nat := do
  let createStat ← allocate .jval
  assertHas "_createStat" .function
  let jstat ← allocate .jval
  let jargs ← jargsCreate 1
  jargsAppend jargs
  giveBack jstat
  let res ← jhelperCallOk .createStat (some jargs)
  jargsDestroy jargs
  giveBack createStat
  return res

/-- The loop over `uv_fs_scandir_next`. -/
def scandirNames : List String → Requesting Unit
  | [] => pure ()
  | _ :: entries => do
      let name ← allocate .jval
      giveBack name
      scandirNames entries

/-- What `AfterAsync` puts behind the error of a request that has succeeded. -/
def asyncResult (type : FsType) (result : Int) (entries : List String) : List JsValue :=
  match type with
  | .close => []
  | .open | .read | .write => [.number result]
  | .scandir => [.names entries]
  | .stat => [.stat]
  | .mkdir | .rmdir | .unlink | .rename => [.null]

/-- `AfterAsync`: the exception names `open`, whatever was called. -/
def afterAsync (r : Request) (type : FsType) (result : Int) (entries : List String) :
    Requesting Unit := do
  touch r.wrap
  let jarg ← jargsCreate 2
  if result < 0 then
    let jerror ← allocate .jval
    jargsAppend jarg
    giveBack jerror
    callBack r [.error result "open"] jarg
  else
    jargsAppend jarg
    match type with
    | .close => pure ()
    | .open | .read | .write => jargsAppendNew jarg
    | .scandir =>
        let ret ← allocate .jval
        scandirNames entries
        jargsAppend jarg
        giveBack ret
    | .stat =>
        let ret ← makeStatObject
        jargsAppend jarg
        giveBack ret
    | .mkdir | .rmdir | .unlink | .rename => jargsAppend jarg
    callBack r (.null :: asyncResult type result entries) jarg
  jargsDestroy jarg
  dispatched r

/-- `AfterSync` -/
def afterSync (type : FsType) (err : Int) (entries : List String) : Requesting Unit := do
  if err < 0 then
    let jerror ← allocate .jval
    note (.thrown "uv exception")
    giveBack jerror
  else
    match type with
    | .close => pure ()
    | .open | .read | .write => returnNumber err
    | .stat =>
        let stat ← makeStatObject
        note (.returned .stat)
        giveBack stat
    | .mkdir | .rmdir | .unlink | .rename => note (.returned .undefined)
    | .scandir =>
        let ret ← allocate .jval
        scandirNames entries
        note (.returned (.names entries))
        giveBack ret

/-- `FS_ASYNC`: a request that libuv refuses is answered at once. -/
def fsAsync (type : FsType) (entries : List String) : Requesting Unit := do
  let r ← reqwrapCreate (.fs type) .function
  touch r.wrap
  let err ← Prog.askFor (.fs type)
  if err < 0 then afterAsync r type err entries else accept r
  note (.returned .null)

/-- `FS_SYNC` -/
def fsSync (type : FsType) (entries : List String) : Requesting Unit := do
  let err ← Prog.askFor (.fs type)
  afterSync type err entries

/-- The buffer of `Read` and `Write`, and the part of it that is asked for. -/
structure FsBuffer where
  data : Bool
  dataLength : Int
  offset : Int
  length : Int
deriving DecidableEq, Repr

def checkBuffer (name : String) (b : FsBuffer) : Requesting Unit := do
  jhandlerCheck name b.data
  jhandlerCheck name (0 < b.dataLength)
  if b.offset ≥ b.dataLength then
    jhandlerThrow "offset out of bound"
    Prog.fail "RangeError"
  if b.offset + b.length > b.dataLength then
    jhandlerThrow "length out of bound"
    Prog.fail "RangeError"

/-- The functions of `fs`: the types of the arguments, the place of the callback, and how many of
the arguments are paths. -/
def fsFunction (name : String) (type : FsType) (types : List JsType) (callback paths : Nat)
    (args : List JsType) (buffer : Option FsBuffer) (entries : List String) : Requesting Unit := do
  checkArgs name args types
  checkArgIfExist name args callback .function
  let first ← allocateIf (0 < paths) .string
  let second ← allocateIf (1 < paths) .string
  match buffer with
  | none => pure ()
  | some b => checkBuffer name b
  if callback < args.length then fsAsync type entries else fsSync type entries
  giveBackIf first
  giveBackIf second

inductive FsCall where
  | close | open | read (buffer : FsBuffer) | write (buffer : FsBuffer) | stat | mkdir | rmdir
  | unlink | rename | readdir
deriving DecidableEq, Repr

/-- `ReadDir` takes the callback from the third place. -/
def fs (call : FsCall) (args : List JsType) (entries : List String) : Requesting Unit :=
  match call with
  | .close => fsFunction "Close" .close [.number] 1 0 args none entries
  | .open => fsFunction "Open" .open [.string, .number, .number] 3 1 args none entries
  | .read b => fsFunction "Read" .read [.number, .object, .number, .number, .number] 5 0 args
      (some b) entries
  | .write b => fsFunction "Write" .write [.number, .object, .number, .number, .number] 5 0 args
      (some b) entries
  | .stat => fsFunction "Stat" .stat [.string] 1 1 args none entries
  | .mkdir => fsFunction "MkDir" .mkdir [.string, .number] 2 1 args none entries
  | .rmdir => fsFunction "RmDir" .rmdir [.string] 1 1 args none entries
  | .unlink => fsFunction "Unlink" .unlink [.string] 1 1 args none entries
  | .rename => fsFunction "Rename" .rename [.string, .string] 2 2 args none entries
  | .readdir => fsFunction "ReadDir" .scandir [.string] 2 1 args none entries

/-! ### All of them -/

/-- What libuv has found out when it calls back. -/
structure UvResult where
  status : Int
  size : Int
  ip : String
  entries : List String
deriving DecidableEq, Repr

/-- libuv calls back for a request. -/
def complete (r : Request) (result : UvResult) : Requesting Unit := do
  modify fun s => { s with pending := s.pending.erase r }
  match r.kind with
  | .connect | .write | .shutdown => afterStatus r result.status
  | .send => onSend r result.status result.size
  | .getaddrinfo => afterGetAddrInfo r result.status result.ip
  | .fs type => afterAsync r type result.status result.entries

inductive Call where
  | tcpBind (args : List JsType)
  | connect (args : List JsType)
  | write (args : List JsType)
  | shutdown (args : List JsType)
  | udpBind (args : List JsType)
  | send (args : List JsType)
  | setMembership (name : String) (args : List JsType)
  | getAddrInfo (args : List JsType) (option : Int)
  | fs (call : FsCall) (args : List JsType) (entries : List String)
  | complete (r : Request) (result : UvResult)
  | connection (status : Int)
  | read (allocated : Bool) (nread : Int)
  | recv (allocated : Bool) (nread : Int) (addr : Bool)
deriving DecidableEq, Repr

def body : Call → Requesting Unit
  | .tcpBind args => tcpBind args
  | .connect args => connect args
  | .write args => write args
  | .shutdown args => shutdown args
  | .udpBind args => udpBind args
  | .send args => send args
  | .setMembership name args => setMembership name args
  | .getAddrInfo args option => getAddrInfo args option
  | .fs call args entries => fs call args entries
  | .complete r result => complete r result
  | .connection status => onConnection status
  | .read allocated nread => onRead allocated nread
  | .recv allocated nread addr => onRecv allocated nread addr

/-- libuv calls back when nothing else runs, for a request only once, and it has data only in a
buffer that it was given. -/
def enabled (atRest : Bool) (s : Requests) : Call → Bool
  | .complete r _ => !s.aborted && atRest && s.pending.contains r
  | .connection _ => !s.aborted && atRest
  | .read allocated nread => !s.aborted && atRest && (allocated || decide (nread ≤ 0))
  | .recv allocated nread addr =>
      !s.aborted && atRest && (allocated || decide (nread < 0) || (nread == 0 && !addr))
  | _ => !s.aborted

def machine : Machine Requests RequestYield RequestAsk Call where
  body := body
  enabled i atRest s := enabled atRest s i

/-- What the JavaScript library is written to do: its functions are there and do not throw, and it
passes arguments that the native functions take. -/
def libraryAnswers : RequestAsk → Int → Prop
  | .has _ _, answer => answer ≠ 0
  | .fails, answer => answer = 0
  | _, _ => True

def libraryCalls : Call → Prop
  | .udpBind args => 2 ≤ args.length
  | .send args => 4 ≤ args.length ∧ args.getD 3 .undefined = .function
  | .setMembership _ args =>
      2 ≤ args.length ∧ args.getD 1 .undefined ∈ [.undefined, .null, .string]
  | _ => True

/-- The surroundings, with the library as it is written or with any other: nothing goes on in a
process that has ended, and an exception of JavaScript ends in the functions that call it. -/
def surroundings (library : Bool) : Env Requests RequestYield RequestAsk Call where
  call i _ := library = true → libraryCalls i
  answer q _ answer := library = true → libraryAnswers q answer
  returns _ s := s.aborted = false
  throws _ _ := False

def new : Requests := ⟨[], [], false, false, []⟩

end Requests

end IotJs

import IotJs.Core.HttpConnection
import IotJs.Core.Readable
import IotJs.Core.Writable

/-!
# `IotJs.Core.Socket`: the `Socket` of `net.js`

The functions of `net.js` that make a `Socket`, one definition each. A `Socket` is a `Duplex`:
it brings the objects over which the functions of `stream_writable.js` and `stream_readable.js`
run (`writable`, `readable`). Its `_write` gives the chunk to the native TCP handle, and its
own listeners of 'finish' and 'end' run before those of the application.

What the native side does is outside code: a native operation answers with a return code
(`SocketNative`), and when it answers `0` its completion comes later, as a call of the
machine. libuv makes no callback for an operation that returned an error. On NuttX
`getaddrinfo` calls back before it returns. Elsewhere the native side calls back only when no
JavaScript runs. The callbacks of `process.nextTick` also run inside other code: after that
callback of `getaddrinfo`, and after each callback of an HTTP parser that a listener of 'data'
uses (`EventLoop.lean`).

An operation on a missing handle is a `TypeError`. On a handle that was closed the native side
is called all the same; the log records each operation with the state of the handle.
-/

set_option autoImplicit false

namespace IotJs

open Reentrant

/-- The constructor `SocketState(options)`. -/
structure SocketState where
  /-- `true` during connection handshaking -/
  connecting : Bool
  /-- `true` when connection established -/
  connected : Bool
  writable : Bool
  readable : Bool
  destroyed : Bool
  allowHalfOpen : Bool
deriving DecidableEq, Repr

def SocketState.new (allowHalfOpen : Bool) : SocketState where
  connecting := false
  connected := false
  writable := true
  readable := true
  destroyed := false
  allowHalfOpen := allowHalfOpen

/-- A native TCP object. -/
structure Handle where
  /-- `close` was called (`uv_is_closing`) -/
  closed : Bool
  /-- `readStart` succeeded -/
  reading : Bool
deriving DecidableEq, Repr

/-- A `Timeout` of `timers.js`. -/
structure Timer where
  start : Nat
  after : Nat
  /-- it has not fired yet -/
  active : Bool
deriving DecidableEq, Repr

def timeoutMax : Int := 2147483647

/-- `setTimeout(callback, delay)` at the time `now`. -/
def setTimeout (now : Nat) (delay : Int) : Timer where
  start := now
  after := if delay < 1 ∨ timeoutMax < delay then 1 else delay.toNat
  active := true

/-- `options.host` of `connect`. -/
inductive Host where
  | absent
  | string (host : String)
  /-- a value that is not a string -/
  | other
deriving DecidableEq, Repr

/-- `options.host ? options.host : 'localhost'` -/
def Host.orLocalhost : Host → Host
  | .absent => .string "localhost"
  | .string host => .string (if host = "" then "localhost" else host)
  | .other => .other

/-- The options of `connect`, as `normalizeConnectArgs` makes them. A port that is no number
is `none`; `family` is `options.family >>> 0`. -/
structure ConnectOptions where
  host : Host
  port : Option Int
  family : Nat
deriving DecidableEq, Repr

/-- A pending `dns.lookup`: what its callback needs. -/
structure Lookup where
  host : String
  port : Int
deriving DecidableEq, Repr

/-- The functions that `net.js` and `stream_writable.js` give to `process.nextTick`. -/
inductive SocketTick where
  | writable (tick : WritableTick)
  | lookupFailed (message : String)
  | readStart
deriving DecidableEq, Repr

/-- The events that a `Socket` emits, and 'connection' of the server that accepted it. -/
inductive SocketEvent where
  | drain
  | finish
  | data (data : Option Bytes)
  | readable
  | pause
  | end_
  | lookup (err : Option String)
  | connect
  | timeout
  | close
  | connection
  | error (message : String)
deriving DecidableEq, Repr

def SocketEvent.ofWritable : WritableEvent → SocketEvent
  | .drain => .drain
  | .finish => .finish
  | .error message => .error message

def SocketEvent.ofReadable : ReadableEvent → SocketEvent
  | .data d => .data d
  | .readable => .readable
  | .pause => .pause
  | .end_ => .end_
  | .error message => .error message

/-- The native operations that `net.js` issues on a TCP handle. -/
inductive NativeOp where
  | connect
  | write
  | shutdown
  | readStart
  | close
deriving DecidableEq, Repr

/-- The state of the handle that an operation is issued on. -/
inductive HandleStatus where
  | missing
  | closed
  | live
deriving DecidableEq, Repr

/-- The native calls whose return code the model asks for. -/
inductive SocketNative where
  | getaddrinfo
  | connect
  | write
  | shutdown
  | readStart
deriving DecidableEq, Repr

/-- What a run of a `Socket` shows. -/
inductive SocketObs where
  | note (n : WritableNote)
  | readNote (n : ReadableNote)
  | event (e : SocketEvent)
  | native (op : NativeOp) (status : HandleStatus)
  /-- the native write returned the error `err`, and will not call back -/
  | refused (req : WriteReq) (err : Int)
  /-- the native write completed -/
  | wrote (req : WriteReq) (status : Int)
  /-- the callback of an accepted write was called -/
  | called (callback : Callback) (status : Int)
  /-- the callback of a rejected write was called, with the error -/
  | calledBack (callback : Callback)
  | destroyCalled
  /-- a lookup error, or a non-zero status of the native connect -/
  | connectFailed
deriving DecidableEq, Repr

/-- The outside code that a `Socket` hands control to. -/
inductive SocketYield where
  | event (e : SocketEvent)
  /-- the callback of a write -/
  | callback
  /-- the native `getaddrinfo` of NuttX -/
  | getaddrinfo
deriving DecidableEq, Repr

structure Socket where
  _writableState : WritableState
  _readableState : ReadableState
  _socketState : SocketState
  _timer : Option Timer
  _timeout : Int
  _host : Host
  _handle : Option Handle
  /-- an accepted socket that its server still counts -/
  _server : Bool
  /-- the listeners of 'finish' that `destroy` and `destroySoon` added -/
  finishListeners : Nat
  /-- an 'error' listener is registered -/
  errorListener : Bool
  /-- callbacks of `process.nextTick` that have not run yet -/
  ticks : List SocketTick
  /-- lookups without a result -/
  lookups : List Lookup
  /-- callbacks of lookups that wait for the listeners of 'lookup' -/
  lookedUp : Nat
  /-- native connects without a result -/
  connects : Nat
  /-- native writes without a result -/
  writes : List WriteReq
  /-- native shutdowns without a result -/
  shutdowns : Nat
  /-- the native close has not called back yet -/
  closing : Bool
  /-- the server has the handle of a connection, and no one else has the socket -/
  accepting : Bool
  /-- milliseconds -/
  now : Nat
  /-- what the HTTP modules keep with the socket; no function of `net.js` touches it -/
  http : HttpConnection
  log : List SocketObs
deriving DecidableEq, Repr

namespace Socket

/-- `new Socket(options)` -/
def new (highWaterMark : Option Int) (allowHalfOpen : Bool) : Socket where
  _writableState := .new highWaterMark
  _readableState := .new
  _socketState := .new allowHalfOpen
  _timer := none
  _timeout := 0
  _host := .absent
  _handle := none
  _server := false
  finishListeners := 0
  errorListener := false
  ticks := []
  lookups := []
  lookedUp := 0
  connects := 0
  writes := []
  shutdowns := 0
  closing := false
  accepting := false
  now := 0
  http := .new .neither
  log := []

/-- `new Socket({ handle: clientHandle, allowHalfOpen: … })` in `onconnection`. -/
def accepted (allowHalfOpen : Bool) : Socket :=
  { new none allowHalfOpen with
    _handle := some ⟨false, false⟩
    _server := true
    accepting := true }

/-- A method of the socket. -/
abbrev Method := Prog Socket SocketYield SocketNative

def record (o : SocketObs) : Method Unit :=
  modify fun s => { s with log := s.log ++ [o] }

def modifyState (f : SocketState → SocketState) : Method Unit :=
  modify fun s => { s with _socketState := f s._socketState }

def nextTick (tick : SocketTick) : Method Unit :=
  modify fun s => { s with ticks := s.ticks ++ [tick] }

/-- `EventEmitter.prototype.emit`, for the listeners of the application: an 'error' without a
listener is thrown. -/
def emit (e : SocketEvent) : Method Unit := do
  match e with
  | .error message =>
      if (← get).errorListener then
        record (.event e)
        Prog.yieldTo (.event e)
      else Prog.fail message
  | _ =>
      record (.event e)
      Prog.yieldTo (.event e)

/-- What an operation on `_handle` finds. -/
def handleStatus (s : Socket) : HandleStatus :=
  match s._handle with
  | none => .missing
  | some handle => if handle.closed then .closed else .live

/-- `socket._handle.op(…)`: without a handle it throws. -/
def useHandle (op : NativeOp) : Method Unit := do
  let s ← get
  record (.native op s.handleStatus)
  if s._handle.isNone then Prog.fail "TypeError"

def clearSocketTimeout : Method Unit :=
  modify fun s => { s with _timer := none }

/-- Start timeout over again. -/
def resetSocketTimeout : Method Unit := do
  if !(← get)._socketState.destroyed then
    clearSocketTimeout
    modify fun s => { s with _timer := some (IotJs.setTimeout s.now s._timeout) }

/-- `Socket.prototype._write`: the return code of the native write is not looked at. -/
def _write (req : WriteReq) : Method Unit := do
  resetSocketTimeout
  useHandle .write
  let err ← Prog.askFor .write
  if err = 0 then
    modify fun s => { s with writes := s.writes ++ [req] }
  else
    record (.refused req err)

/-- The writable half, with what runs when 'finish' is emitted. -/
def writableObject (onFinish : Method Unit) : WritableObject Socket SocketYield SocketNative where
  state := _writableState
  setState state s := { s with _writableState := state }
  _write := _write
  emit e :=
    match e with
    | .drain => emit .drain
    | .finish => do
        record (.event .finish)
        onFinish
    | .error message => emit (.error message)
  nextTick tick := nextTick (.writable tick)
  note n := record (.note n)

/-- The writable half as `end` uses it: `end` never emits 'finish' itself. -/
def unfinished : WritableObject Socket SocketYield SocketNative :=
  writableObject (pure ())

/-- `Socket.prototype.end` -/
def end_ (P : Platform) (data : Option Data) (callback : Option Callback) : Method Unit := do
  -- end of writable stream
  unfinished.end_ P data callback
  -- this socket is no longer writable
  modifyState fun state => { state with writable := false }

/-- The native `close` does nothing on a handle that is closing. -/
def close : Method Unit := do
  useHandle .close
  modify fun s =>
    { s with
      closing := s.closing || s._handle.any (!·.closed)
      _handle := s._handle.map fun handle => { handle with closed := true }
      _server := false }

/-- Destroy this socket as fast as possible. What `end` does here neither yields nor throws, so
that the call may be recorded after it. -/
def destroy (P : Platform) : Method Unit := do
  if (← get)._socketState.destroyed then
    record .destroyCalled
  else
    if (← get)._socketState.writable then
      end_ P none none
    clearSocketTimeout
    record .destroyCalled
    if (← get)._writableState.ended then
      close
      modifyState fun state => { state with destroyed := true }
    else
      modify fun s => { s with finishListeners := s.finishListeners + 1 }

/-- `_writableState` has no field `finished`, so the test of the source always fails. -/
def destroySoon (P : Platform) : Method Unit := do
  if (← get)._socketState.writable then
    end_ P none none
  modify fun s => { s with finishListeners := s.finishListeners + 1 }

def maybeDestroy (P : Platform) : Method Unit := do
  let state := (← get)._socketState
  if !state.connecting && !state.writable && !state.readable then
    destroy P

/-- Writable stream finished. -/
def onSocketFinish (P : Platform) : Method Unit := do
  let s ← get
  if !s._socketState.readable || s._readableState.ended then
    -- no readable stream or ended, destroy(close) socket
    destroy P
  else
    -- readable stream alive, shutdown only outgoing stream
    useHandle .shutdown
    let err ← Prog.askFor .shutdown
    if err = 0 then
      modify fun s => { s with shutdowns := s.shutdowns + 1 }

/-- Readable stream ended. -/
def onSocketEnd (P : Platform) : Method Unit := do
  maybeDestroy P
  if !(← get)._socketState.allowHalfOpen then
    destroySoon P

/-- The listeners of 'finish' that `destroy` and `destroySoon` added with `once`. -/
def runFinishListeners (P : Platform) : Nat → Method Unit
  | 0 => pure ()
  | n + 1 => do
      modify fun s => { s with finishListeners := s.finishListeners - 1 }
      destroy P
      Prog.yieldTo (.event .finish)
      runFinishListeners P n

/-- The listeners of 'finish': `onSocketFinish` is the first one, and those of the application
stand between the others. -/
def onFinish (P : Platform) : Method Unit := do
  let n := (← get).finishListeners
  onSocketFinish P
  Prog.yieldTo (.event .finish)
  runFinishListeners P n

/-- The writable half. -/
def writable (P : Platform) : WritableObject Socket SocketYield SocketNative :=
  writableObject (onFinish P)

/-- The readable half: `onSocketEnd` is the first listener of 'end'. -/
def readable (P : Platform) : ReadableObject Socket SocketYield SocketNative where
  state := _readableState
  setState state s := { s with _readableState := state }
  emit e :=
    match e with
    | .end_ => do
        record (.event .end_)
        onSocketEnd P
        Prog.yieldTo (.event .end_)
    | _ => emit (.ofReadable e)
  addListener ev := modify fun s => { s with errorListener := s.errorListener || ev = "error" }
  note n := record (.readNote n)

/-- `Socket.prototype.write` -/
def write (P : Platform) (chunk : Chunk) (callback : Option Callback) : Method Unit := do
  match chunk with
  | .data data => let _ ← (writable P).write P data callback
  | _ => Prog.fail "invalid argument"

/-- `dns.lookup`: the return code of `getaddrinfo` is not looked at. -/
def lookup (P : Platform) (hostname : Host) (port : Int) : Method Unit := do
  match hostname with
  | .string hostname =>
      if P.nuttx then
        modify fun s => { s with lookups := s.lookups ++ [⟨hostname, port⟩] }
        Prog.yieldTo .getaddrinfo
      else
        let err ← Prog.askFor .getaddrinfo
        if err = 0 then
          modify fun s => { s with lookups := s.lookups ++ [⟨hostname, port⟩] }
  | _ => Prog.fail "invalid argument: hostname must be a string"

/-- The checks of `connect`, and what they throw. -/
def checkConnect (options : ConnectOptions) : Except String Int :=
  match options.port with
  | none => .error "port should be >= 0 and < 65536: "
  | some port =>
      if port < 0 ∨ 65535 < port then
        .error ("port should be >= 0 and < 65536: " ++ toString port)
      else if options.family ≠ 0 ∧ options.family ≠ 4 ∧ options.family ≠ 6 then
        .error ("port should be 4 or 6: " ++ toString options.family)
      else .ok port

/-- `Socket.prototype.connect`. Its callback becomes a listener of 'connect'. -/
def connect (P : Platform) (options : ConnectOptions) : Method Unit := do
  let state := (← get)._socketState
  if !(state.connecting || state.connected) then
    if (← get)._handle.isNone then
      modify fun s => { s with _handle := some ⟨false, false⟩ }
    resetSocketTimeout
    modifyState fun state => { state with connecting := true }
    match checkConnect options with
    | .error message => Prog.fail message
    | .ok port =>
        modify fun s => { s with _host := options.host.orLocalhost }
        lookup P options.host.orLocalhost port

/-- A connection is established. -/
def onSocketConnect (P : Platform) : Method Unit := do
  modifyState fun state => { state with connecting := false, connected := true }
  resetSocketTimeout
  (writable P)._readyToWrite
  -- `readStart` on next tick, after connection event handled
  nextTick .readStart

/-- `connect(socket, ip, port)`: the return code of the native connect is not looked at. -/
def connectHandle : Method Unit := do
  useHandle .connect
  let err ← Prog.askFor .connect
  if err = 0 then
    modify fun s => { s with connects := s.connects + 1 }

/-- `dnsException(err, 'getaddrinfo', hostname)` -/
def dnsException (err : Int) (hostname : String) : String :=
  "getaddrinfo " ++ toString err ++ " " ++ hostname

/-- The callback of the lookup `lookup` in `connect`, with `err` as the native side gives it. -/
def afterLookup (lookup : Lookup) (err : Int) : Method Unit := do
  if err = 0 then
    modify fun s => { s with lookedUp := s.lookedUp + 1 }
    emit (.lookup none)
    modify fun s => { s with lookedUp := s.lookedUp - 1 }
    resetSocketTimeout
    connectHandle
  else
    record .connectFailed
    emit (.lookup (some (dnsException err lookup.host)))
    nextTick (.lookupFailed (dnsException err lookup.host))

/-- `afterConnect`, the callback of the native connect. -/
def afterConnect (P : Platform) (status : Int) : Method Unit := do
  if status ≠ 0 then record .connectFailed
  modifyState fun state => { state with connecting := false }
  if !(← get)._socketState.destroyed then
    if status = 0 then
      onSocketConnect P
      emit .connect
    else
      destroy P
      emit (.error ("connect failed - status: " ++ toString status))

/-- The callback of the native write: `afterWrite` of `doWrite`, then the callback of the
application. -/
def afterWrite (P : Platform) (req : WriteReq) (status : Int) : Method Unit := do
  record (.wrote req status)
  (writable P)._onwrite status
  if let some callback := req.callback then
    record (.called callback status)
    Prog.yieldTo .callback

/-- The callback of the native shutdown. -/
def afterShutdown (P : Platform) : Method Unit := do
  if (← get)._readableState.ended then
    destroy P

/-- What the native side reports to `onread`. -/
inductive ReadResult where
  | eof
  | error (nread : Int)
  | data (buffer : Bytes)
deriving DecidableEq, Repr

/-- `onread(socket, 0, true, null)` -/
def onreadEof (P : Platform) : Method Unit := do
  resetSocketTimeout
  -- pushing readable stream null means EOF
  (readable P).push P .null
  if (← get)._readableState.length = 0 then
    -- this socket is no longer readable
    modifyState fun state => { state with readable := false }
    -- destroy if this socket is not writable
    maybeDestroy P

/-- What `OnRead` passes on: the native side reports no empty block. -/
def ReadResult.reported : ReadResult → Bool
  | .eof => true
  | .error nread => decide (nread < 0)
  | .data buffer => !buffer.isEmpty

/-- What `end` appends on NuttX: the six characters `\e\n\d`. -/
def eofMark : String := "\\e\\n\\d"

/-- The payload of a block that NuttX received, and whether the block ends the stream. -/
def splitEof (P : Platform) (buffer : Bytes) : Option Bytes × Bool :=
  let str := bufferToString P buffer
  let length := P.stringLength str
  if 6 ≤ length ∧ eofMark.toList.isSuffixOf str.toList then
    (if length = 6 then none else some (buffer.take (length - 6)), true)
  else (some buffer, false)

def onread (P : Platform) (result : ReadResult) : Method Unit := do
  match result with
  | .eof => onreadEof P
  | .error nread =>
      resetSocketTimeout
      (readable P).error ("read error: " ++ toString nread)
  | .data buffer =>
      resetSocketTimeout
      if P.nuttx then
        let (payload, eofNeeded) := splitEof P buffer
        if let some payload := payload then
          (readable P).push P (.data (.buffer payload))
        if eofNeeded then onreadEof P
      else
        (readable P).push P (.data (.buffer buffer))

/-- `Socket.prototype.setTimeout`. Its callback is a listener of 'timeout'. -/
def setTimeout (msecs : Int) : Method Unit := do
  modify fun s => { s with _timeout := msecs }
  clearSocketTimeout
  if msecs ≠ 0 then
    modify fun s => { s with _timer := some (IotJs.setTimeout s.now msecs) }

/-- The callback of the timer. -/
def onTimeout : Method Unit := do
  modify fun s => { s with _timer := s._timer.map fun timer => { timer with active := false } }
  emit .timeout
  clearSocketTimeout

/-- The function given to `process.nextTick`. `_destroy` of the source is `undefined`. -/
def runTick (P : Platform) : SocketTick → Method Unit
  | .writable .emitFinish => (writable P).emitFinish
  | .writable (.callback callback) => do
      record (.calledBack callback)
      Prog.yieldTo .callback
  | .lookupFailed message => do
      emit (.error message)
      Prog.fail "TypeError"
  | .readStart => do
      useHandle .readStart
      let err ← Prog.askFor .readStart
      if err = 0 then
        modify fun s =>
          { s with _handle := s._handle.map fun handle => { handle with reading := true } }

/-! ### The machine -/

/-- What the application, the native side and the event loop can do with the socket. -/
inductive Call where
  | connect (options : ConnectOptions)
  | write (chunk : Chunk) (callback : Option Callback)
  | end_ (data : Option Data) (callback : Option Callback)
  | destroy
  | destroySoon
  | setTimeout (msecs : Int)
  | read (n : Option Int)
  | pause
  | resume
  | on (ev : String)
  | removeAllListeners (ev : String)
  | tick (i : Nat)
  | afterLookup (err : Int)
  | afterConnect (status : Int)
  | afterWrite (status : Int)
  | afterShutdown
  | onread (result : ReadResult)
  | onclose
  /-- the server takes the connection: `onconnection` after the socket was made -/
  | onconnection
  | onTimeout
  | elapse (msecs : Nat)
deriving DecidableEq, Repr

/-- Calls of the native side come at rest, except on NuttX the result of a lookup. A tick can
come whenever outside code has control. Nobody has a socket that is being accepted. -/
def enabled (P : Platform) (s : Socket) (atRest : Bool) : Call → Bool
  | .onconnection => s.accepting
  | .tick i => !s.accepting && decide (i < s.ticks.length)
  | .afterLookup _ => !s.accepting && (atRest || P.nuttx) && !s.lookups.isEmpty
  | .afterConnect _ => !s.accepting && atRest && decide (0 < s.connects)
  | .afterWrite _ => !s.accepting && atRest && !s.writes.isEmpty
  | .afterShutdown => !s.accepting && atRest && decide (0 < s.shutdowns)
  | .onread result =>
      !s.accepting && atRest && result.reported && s._handle.any fun h => h.reading && !h.closed
  | .onclose => !s.accepting && atRest && s.closing
  | .onTimeout =>
      !s.accepting && atRest && s._timer.any fun t => t.active && t.start + t.after ≤ s.now
  | .elapse _ => atRest
  | _ => !s.accepting

def body (P : Platform) : Call → Method Unit
  | .connect options => connect P options
  | .write chunk callback => write P chunk callback
  | .end_ data callback => end_ P data callback
  | .destroy => destroy P
  | .destroySoon => destroySoon P
  | .setTimeout msecs => setTimeout msecs
  | .read n => do let _ ← (readable P).read n
  | .pause => (readable P).pause
  | .resume => (readable P).resume P
  | .on ev => (readable P).on P ev
  | .removeAllListeners ev =>
      modify fun s => { s with errorListener := s.errorListener && ev ≠ "error" }
  | .tick i => do
      let ticks := (← get).ticks
      modify fun s => { s with ticks := ticks.eraseIdx i }
      if let some tick := ticks[i]? then runTick P tick
  | .afterLookup err => do
      let lookups := (← get).lookups
      modify fun s => { s with lookups := lookups.tail }
      if let some lookup := lookups.head? then afterLookup lookup err
  | .afterConnect status => do
      modify fun s => { s with connects := s.connects - 1 }
      afterConnect P status
  | .afterWrite status => do
      let writes := (← get).writes
      modify fun s => { s with writes := writes.tail }
      if let some req := writes.head? then afterWrite P req status
  | .afterShutdown => do
      modify fun s => { s with shutdowns := s.shutdowns - 1 }
      afterShutdown P
  | .onread result => onread P result
  | .onclose => do
      modify fun s => { s with closing := false }
      emit .close
  | .onconnection => do
      modify fun s => { s with accepting := false }
      onSocketConnect P
      emit .connection
  | .onTimeout => onTimeout
  | .elapse msecs => modify fun s => { s with now := s.now + msecs }

/-- A `Socket` between an application, the native side and the event loop. -/
def machine (P : Platform) : Machine Socket SocketYield SocketNative Call where
  body := body P
  enabled i atRest s := enabled P s atRest i

/-- A socket as the application makes it, or as a server does. -/
def Initial (s : Socket) : Prop :=
  (∃ highWaterMark allowHalfOpen, s = new highWaterMark allowHalfOpen) ∨
    ∃ allowHalfOpen, s = accepted allowHalfOpen

/-- Nothing is pending: no tick, no request in flight, no timer, no close callback. -/
def Quiet (s : Socket) : Prop :=
  s.accepting = false ∧ s.ticks = [] ∧ s.lookups = [] ∧ s.connects = 0 ∧ s.writes = [] ∧
    s.shutdowns = 0 ∧ s._timer.all (!·.active) ∧ s.closing = false

instance (s : Socket) : Decidable (Quiet s) :=
  inferInstanceAs (Decidable (_ ∧ _))

end Socket

end IotJs

import IotJs.Core.Socket

/-!
# `IotJs.Core.Server`: the TCP server of `net.js`

`Server` from `src/js/net.js`: `listen`, `close`, `_emitCloseIfDrained` and `onconnection`. Each
of these functions emits its event, if any, as its last act, so a call is one step: listeners run
after it, and what they call are further steps. `listen` and `close` give 'listening' and 'close'
to `process.nextTick`; the function that was scheduled runs in a later step.

The server counts the sockets that it accepted. `Net` is a server with these sockets, each a run
of the machine of `IotJs.Core.Socket`, which moves on its own: any order of the steps of the
server and its sockets is a run of a `Net`. When a socket closes its handle it tells its server
(`socketClosed`).
-/

set_option autoImplicit false

namespace IotJs

open Reentrant

/-- A TCP handle that was made to listen. -/
structure ListenHandle where
  listening : Bool
  closed : Bool
deriving DecidableEq, Repr

/-- The functions that the server gives to `process.nextTick`. -/
inductive ServerTick where
  | listening
  | close
deriving DecidableEq, Repr

inductive ServerEvent where
  | listening
  | close
  | connection
  | error (message : String)
deriving DecidableEq, Repr

/-- What a run of a server shows: its events, the calls of `close`, and the native calls with
their return codes. -/
inductive ServerObs where
  | event (e : ServerEvent)
  | closeCalled
  | bind (host : String) (port : Int) (err : Int)
  | listen (backlog : Int) (err : Int)
deriving DecidableEq, Repr

/-- The options of `listen`, as `normalizeListenArgs` makes them: a port or backlog that is no
number, and a host that is no string, is `none`. -/
structure ListenOptions where
  port : Option Int
  host : Option String
  backlog : Option Int
deriving DecidableEq, Repr

structure Server where
  _handle : Option ListenHandle
  _socketCount : Int
  allowHalfOpen : Bool
  /-- callbacks of `process.nextTick` that have not run yet -/
  ticks : List ServerTick
  log : List ServerObs
deriving DecidableEq, Repr

namespace Server

/-- `new Server(options)` -/
def new (allowHalfOpen : Bool) : Server where
  _handle := none
  _socketCount := 0
  allowHalfOpen := allowHalfOpen
  ticks := []
  log := []

variable (s : Server)

def record (o : ServerObs) : Server := { s with log := s.log ++ [o] }

def nextTick (tick : ServerTick) : Server := { s with ticks := s.ticks ++ [tick] }

/-- `self._handle.close()`: the handle stays where it is. -/
def closeHandle : Server :=
  { s with _handle := s._handle.map fun handle => { handle with closed := true } }

/-- The handle is open, and the native side may report connections. -/
def listens : Bool := s._handle.any fun handle => handle.listening && !handle.closed

/-- `Server.prototype.listen`: an exception, or what it returns. `bindErr` and `listenErr` are
the return codes of the native `bind` and `listen`. -/
def listen (options : ListenOptions) (bindErr listenErr : Int) :
    Except String (Option Int) × Server :=
  match options.port with
  | none => (.error "invalid argument - need port number", s)
  | some port =>
      -- Create server handle.
      let s : Server := { s with _handle := some (s._handle.getD ⟨false, false⟩) }
      -- bind port
      let s := s.record (.bind (options.host.getD "0.0.0.0") port bindErr)
      if bindErr ≠ 0 then (.ok (some bindErr), s.closeHandle)
      else
        -- listen
        let s := s.record (.listen (options.backlog.getD 511) listenErr)
        if listenErr ≠ 0 then (.ok (some listenErr), s.closeHandle)
        else
          let handle := s._handle.map fun handle => { handle with listening := true }
          (.ok none, nextTick { s with _handle := handle } .listening)

def _emitCloseIfDrained : Server :=
  if s._handle.isSome ∨ 0 < s._socketCount then s else s.nextTick .close

/-- `Server.prototype.close`. Its callback becomes a listener of 'close'. -/
def close : Server :=
  let s := s.record .closeCalled
  -- a handle is closed and dropped
  _emitCloseIfDrained { s with _handle := none }

/-- What `close(socket)` does with the server of the socket. -/
def socketClosed : Server := _emitCloseIfDrained { s with _socketCount := s._socketCount - 1 }

/-- `onconnection`, for what it does with the server. -/
def onconnection (status : Int) : Server :=
  if status ≠ 0 then s.record (.event (.error ("accept error: " ++ toString status)))
  else record { s with _socketCount := s._socketCount + 1 } (.event .connection)

/-- The function given to `process.nextTick`. -/
def runTick : ServerTick → Server
  | .listening => if s._handle.isSome then s.record (.event .listening) else s
  | .close => s.record (.event .close)

end Server

/-- A server and the sockets that it accepted, in the order in which they came. -/
structure Net where
  server : Server
  sockets : List (Config Socket SocketYield SocketNative)

namespace Net

def new (allowHalfOpen : Bool) : Net := ⟨.new allowHalfOpen, []⟩

/-- What can happen: calls of the application, ticks, connections that the native side reports,
and the moves of each socket. -/
inductive Move where
  | listen (options : ListenOptions) (bindErr listenErr : Int)
  | close
  | tick (i : Nat)
  | onconnection (status : Int) (answers : List Int)
  | socket (i : Nat) (m : Reentrant.Move Socket.Call)

/-- `onconnection(status, clientHandle)`: a new socket is connected before the server counts
it. -/
def accept (P : Platform) (n : Net) (status : Int) (answers : List Int) : Option Net :=
  if status ≠ 0 then some { n with server := n.server.onconnection status }
  else do
    let start := ⟨Socket.accepted n.server.allowHalfOpen, []⟩
    let c ← (Socket.machine P).step start (.call .onconnection answers)
    some ⟨n.server.onconnection 0, n.sockets ++ [c]⟩

/-- A move of one socket: when it closes its handle, its server learns of it. -/
def socketStep (P : Platform) (n : Net) (i : Nat) (m : Reentrant.Move Socket.Call) :
    Option Net := do
  let c ← n.sockets[i]?
  let c' ← (Socket.machine P).step c m
  let closed := c.heap._server && !c'.heap._server
  some ⟨if closed then n.server.socketClosed else n.server, n.sockets.set i c'⟩

def step (P : Platform) (n : Net) : Move → Option Net
  | .listen options bindErr listenErr =>
      some { n with server := (n.server.listen options bindErr listenErr).2 }
  | .close => some { n with server := n.server.close }
  | .tick i => do
      let tick ← n.server.ticks[i]?
      let server : Server := { n.server with ticks := n.server.ticks.eraseIdx i }
      some { n with server := server.runTick tick }
  | .onconnection status answers => if n.server.listens then n.accept P status answers else none
  | .socket i m => n.socketStep P i m

end Net

end IotJs

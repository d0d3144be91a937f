import IotJs.Core.Socket
import IotJs.Lib.Reentrant.Intercept

/-!
# `IotJs.Core.Http`: the HTTP modules on a `Socket`

The listeners that `http_client.js` and `http_server.js` put on a socket, the callbacks that
`http_common.js` gives to the parser, and the code that sets both up. A listener runs inside
the code of `net.js` that emits the event, in front of the listeners of the application
(`Prog.intercept`), and what it throws comes out of `emit`.

The parser itself is outside code. `execute` and `finish` hand control to it, and it calls
`OnHeadersComplete` and `OnMessageComplete` back, in any order and number; only `execute` can
complete headers. An exception of such a callback ends in `iotjs_make_callback`, so it never
reaches the listener that called `execute`. The streams of the incoming messages are outside
code as well: `push` on them is a yield, and their listeners `responseOnEnd` and `resOnFinish`
are calls.
-/

set_option autoImplicit false

namespace IotJs.Http

open Reentrant

/-- The outside code that the HTTP modules hand control to. -/
inductive HttpYield where
  /-- what `net.js` hands control to -/
  | socket (u : SocketYield)
  /-- the parser, inside `execute` -/
  | execute
  /-- the parser, inside `finish` -/
  | finish
  /-- the stream of an incoming message, with its listeners -/
  | incoming
  /-- the listeners of a `ClientRequest` -/
  | request
  /-- the listeners of a `Server`, and of its responses -/
  | server
deriving DecidableEq, Repr

/-- What the HTTP modules ask for. -/
inductive HttpAsk where
  | socket (q : SocketNative)
  /-- whether `execute` or `finish` returned an `Error`; `0` is none -/
  | error
  /-- whether `emit` found a listener; `0` is none -/
  | listened
  /-- `server.timeout` -/
  | timeout
  /-- `server.httpAllowHalfOpen`; `0` is false -/
  | httpAllowHalfOpen
deriving DecidableEq, Repr

abbrev Method := Prog Socket HttpYield HttpAsk

def modifyHttp (f : HttpConnection → HttpConnection) : Method Unit :=
  modify fun s => { s with http := f s.http }

def record (o : HttpObs) : Method Unit :=
  modifyHttp fun http => { http with log := http.log ++ [o] }

/-- A method of the socket, with `listen` in front of the listeners of the application. -/
def within {α : Type} (listen : SocketYield → Method Unit) (p : Socket.Method α) : Method α :=
  p.intercept listen .socket .socket

/-- A method of the socket that emits nothing. -/
def net {α : Type} (p : Socket.Method α) : Method α := within (fun _ => pure ()) p

/-- `socket.parser.…`: on `null` it throws. -/
def useParser : Method Unit := do
  if !(← get).http.parser then
    record .nullParser
    Prog.fail "TypeError"

/-- `server.…`, where `server` is what `socket._server` was. -/
def useServer (server : Bool) : Method Unit := do
  if !server then
    record .nullServer
    Prog.fail "TypeError"

/-- `parser.execute(d)`, on a parser that is not `null`. -/
def execute : Method Int := do
  modifyHttp fun http => { http with executing := http.executing + 1 }
  Prog.yieldTo .execute
  modifyHttp fun http => { http with executing := http.executing - 1 }
  Prog.askFor .error

/-- `parser.finish()`, on a parser that is not `null`. -/
def finish : Method Int := do
  modifyHttp fun http => { http with finishing := http.finishing + 1 }
  Prog.yieldTo .finish
  modifyHttp fun http => { http with finishing := http.finishing - 1 }
  Prog.askFor .error

/-- `socket.parser = null` -/
def releaseParser : Method Unit :=
  modifyHttp fun http => { http with parser := false }

/-! ### `http_client.js` -/

namespace Client

/-- `req.emit(…)` -/
def emit (o : HttpObs) : Method Unit := do
  record o
  Prog.yieldTo .request

/-- Unref all links to parser, make parser GCed. -/
def unrefParser : Method Unit := do
  if (← get).http.parser then
    let _ ← finish
    releaseParser

def socketOnError (P : Platform) : Method Unit := do
  unrefParser
  net (Socket.destroy P)

def socketOnData (P : Platform) : Method Unit := do
  useParser
  let ret ← execute
  if ret ≠ 0 then
    record .malformed
    let _ ← finish
    releaseParser
    net (Socket.destroy P)
    emit (.error .parse)

def socketOnEnd (P : Platform) : Method Unit := do
  unrefParser
  net (Socket.destroy P)

/-- The listeners, 'close' apart. -/
def listener (P : Platform) : SocketEvent → Method Unit
  | .error _ => socketOnError P
  | .data _ => socketOnData P
  | .end_ => socketOnEnd P
  | _ => pure ()

/-- The events that `socket.read()` emits come before the request hears of the close. The
parser is the one of the time before it. -/
def socketOnClose (P : Platform) : Method Unit := do
  let parser := (← get).http.parser
  within (fun | .event e => listener P e | _ => pure ()) do
    let _ ← (Socket.readable P).read none
  emit .close
  if (← get).http.res then
    -- socket closed before the response ended: `res.push(null)`
    Prog.yieldTo .incoming
  else
    -- socket closed before response starts
    emit (.error .hangUp)
  if parser then
    let _ ← finish
    releaseParser

/-- This is called after response header is parsed. -/
def parserOnIncomingClient (P : Platform) : Method Unit := do
  if (← get).http.res then
    -- server sent responses twice
    net (Socket.destroy P)
  else
    modifyHttp fun http => { http with res := true }
    emit .response

def responseOnEnd (P : Platform) : Method Unit := do
  if (← get)._socketState.writable then
    net (Socket.destroySoon P)

end Client

/-! ### `http_server.js` -/

namespace Server

def socketOnData (P : Platform) : Method Unit := do
  useParser
  let ret ← execute
  if ret ≠ 0 then
    net (Socket.destroy P)

def socketOnEnd (P : Platform) : Method Unit := do
  let server := (← get)._server
  useParser
  let ret ← finish
  if ret ≠ 0 then
    net (Socket.destroy P)
  else
    releaseParser
    useServer server
    let httpAllowHalfOpen ← Prog.askFor .httpAllowHalfOpen
    if httpAllowHalfOpen = 0 then
      if (← get)._socketState.writable then
        net (Socket.end_ P none none)

/-- After `socketOnClose` comes `onServerResponseClose`. -/
def socketOnClose : Method Unit := do
  releaseParser
  if (← get).http._httpMessage then
    Prog.yieldTo .server

/-- `emit('timeout', socket)` on an object that there is: whether it has a listener. -/
def emitTimeout (present : Bool) (u : HttpYield) : Method Int := do
  if present then
    Prog.yieldTo u
    Prog.askFor .listened
  else
    return 0

def socketOnTimeout (P : Platform) : Method Unit := do
  useServer (← get)._server
  let serverTimeout ← emitTimeout true .server
  let http := (← get).http
  let reqTimeout ← emitTimeout (http.parser && http.incoming && !http.complete) .incoming
  let resTimeout ← emitTimeout (← get).http._httpMessage .server
  -- if user doesn't provide timeout handler, kill socket
  if serverTimeout = 0 ∧ reqTimeout = 0 ∧ resTimeout = 0 then
    net (Socket.destroy P)

/-- The first listener of 'clientError' is the one that `Server` adds. -/
def socketOnError (P : Platform) : Method Unit := do
  useServer (← get)._server
  net (Socket.destroy P)
  Prog.yieldTo .server

/-- The listeners, 'close' apart. -/
def listener (P : Platform) : SocketEvent → Method Unit
  | .error _ => socketOnError P
  | .data _ => socketOnData P
  | .end_ => socketOnEnd P
  | .timeout => socketOnTimeout P
  | _ => pure ()

/-- This is called after req header is parsed. -/
def parserOnIncoming : Method Unit := do
  let server := (← get)._server
  -- `res.assignSocket(socket)`
  modifyHttp fun http => { http with _httpMessage := true }
  useServer server
  Prog.yieldTo .server

/-- This cb is called when response ended. -/
def resOnFinish (P : Platform) : Method Unit := do
  -- `res.detachSocket()`
  modifyHttp fun http => { http with _httpMessage := false }
  net (Socket.destroySoon P)

end Server

/-! ### Setting up, and the parser's callbacks -/

/-- The listeners of the HTTP module that has the socket. -/
def dispatch (client server : SocketEvent → Method Unit) : SocketYield → Method Unit
  | .event e => do
      let http := (← get).http
      if http.listening then
        match http.side with
        | .neither => pure ()
        | .client => client e
        | .server => server e
  | _ => pure ()

/-- The listeners of what `read`, `resume` and `on` emit. -/
def onRead (P : Platform) : SocketYield → Method Unit :=
  dispatch (Client.listener P) (Server.listener P)

/-- `setupConnection` -/
def setupConnection (P : Platform) : Method Unit := do
  modifyHttp fun http => { http with parser := true, incoming := false, listening := true }
  within (onRead P) do
    (Socket.readable P).on P "error"
    (Socket.readable P).on P "data"
    (Socket.readable P).on P "end"
    (Socket.readable P).on P "close"

/-- `connectionListener` -/
def connectionListener (P : Platform) : Method Unit := do
  modifyHttp fun http => { http with parser := true, incoming := false, listening := true }
  within (onRead P) do
    (Socket.readable P).on P "data"
    (Socket.readable P).on P "end"
    (Socket.readable P).on P "close"
    (Socket.readable P).on P "timeout"
    (Socket.readable P).on P "error"
  let timeout ← Prog.askFor .timeout
  if timeout ≠ 0 then
    net (Socket.setTimeout timeout)

/-- All listeners. That of 'connection' is on the server. -/
def listen (P : Platform) : SocketYield → Method Unit
  | .event .connection => do
      if (← get).http.side = .server then
        connectionListener P
  | .event .close =>
      dispatch (fun _ => Client.socketOnClose P) (fun _ => Server.socketOnClose) (.event .close)
  | u => onRead P u

/-- `ClientRequest(options)`. It stores the header, and sends nothing yet. -/
def clientRequest (P : Platform) (options : ConnectOptions) : Method Unit := do
  within (listen P) (Socket.connect P options)
  setupConnection P

/-- This is called when header part in http msg is parsed. -/
def parserOnHeadersComplete (P : Platform) : Method Unit := do
  modifyHttp fun http => { http with incoming := true, complete := false }
  match (← get).http.side with
  | .neither => pure ()
  | .client => Client.parserOnIncomingClient P
  | .server => Server.parserOnIncoming

/-- This is called when parsing of incoming http msg done. -/
def parserOnMessageComplete (P : Platform) : Method Unit := do
  if (← get).http.incoming then
    modifyHttp fun http => { http with complete := true }
    -- no more data from incoming, stream will emit 'end' event
    Prog.yieldTo .incoming
    within (onRead P) ((Socket.readable P).resume P)
  else
    Prog.fail "TypeError"

/-! ### The machine -/

inductive Call where
  /-- an application makes a `ClientRequest` -/
  | clientRequest (options : ConnectOptions)
  | socket (i : Socket.Call)
  | parserOnHeadersComplete
  | parserOnMessageComplete
  | responseOnEnd
  | resOnFinish
deriving DecidableEq, Repr

/-- What an application does with a socket. -/
def ofApplication : Socket.Call → Bool
  | .connect _ | .write .. | .end_ .. | .destroy | .destroySoon | .setTimeout _ => true
  | .read _ | .pause | .resume | .on _ | .removeAllListeners _ => true
  | _ => false

/-- The application has the socket once the listeners are registered, and it leaves them
there. -/
def permitted (s : Socket) (i : Socket.Call) : Bool :=
  match i with
  | .removeAllListeners ev =>
      s.http.listening && ev ∉ ["error", "data", "end", "close", "timeout"]
  | i => s.http.listening || !ofApplication i

def enabled (P : Platform) (s : Socket) (atRest : Bool) : Call → Bool
  | .clientRequest _ => decide (s.http.side = .client) && s._handle.isNone
  | .socket i => Socket.enabled P s atRest i && permitted s i
  | .parserOnHeadersComplete => decide (0 < s.http.executing)
  | .parserOnMessageComplete => decide (0 < s.http.executing + s.http.finishing)
  | .responseOnEnd => s.http.res
  | .resOnFinish => s.http._httpMessage

def body (P : Platform) : Call → Method Unit
  | .clientRequest options => clientRequest P options
  | .socket i => within (listen P) (Socket.body P i)
  | .parserOnHeadersComplete => parserOnHeadersComplete P
  | .parserOnMessageComplete => parserOnMessageComplete P
  | .responseOnEnd => Client.responseOnEnd P
  | .resOnFinish => Server.resOnFinish P

/-- A connection of a `ClientRequest` or of a `Server`. -/
def machine (P : Platform) : Machine Socket HttpYield HttpAsk Call where
  body := body P
  enabled i atRest s := enabled P s atRest i

/-- The socket of a `ClientRequest` that is about to be made. -/
def client : Socket := { Socket.new none false with http := .new .client }

/-- A socket that a `Server` is about to accept. -/
def server : Socket := { Socket.accepted true with http := .new .server }

end IotJs.Http

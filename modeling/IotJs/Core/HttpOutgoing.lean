import IotJs.Core.Data

/-!
# `IotJs.Core.HttpOutgoing`: `http_outgoing.js`, and what its users add

An `OutgoingMessage` is a `ClientRequest` (`http_client.js`) or a `ServerResponse`
(`http_server.js`). The header block `_header` is a string: the request stores it when it is
constructed, the response when `writeHead` runs, at the latest in the first `write` or `end`
(`_implicitHeader`). The first `_send` puts the block in front of its chunk.

A response that has ended has no connection any more: `end` emits 'prefinish', and `resOnFinish`
detaches the socket.

`handed` is the list of the strings that `connection.write` was called with. The connection makes
a buffer of each (`newBuffer`), so the bytes handed to it are those of `wire`. Calling a method of
`null`, or a method that is not there, is a `TypeError`.
-/

set_option autoImplicit false

namespace IotJs

/-- `STATUS_CODES` of `http_server.js` -/
def statusCodes : Nat → Option String
  | 100 => some "Continue"
  | 101 => some "Switching Protocols"
  | 200 => some "OK"
  | 201 => some "Created"
  | 202 => some "Accepted"
  | 203 => some "Non-Authoritative Information"
  | 204 => some "No Content"
  | 205 => some "Reset Content"
  | 206 => some "Partial Content"
  | 300 => some "Multiple Choices"
  | 301 => some "Moved Permanently"
  | 302 => some "Found"
  | 303 => some "See Other"
  | 304 => some "Not Modified"
  | 305 => some "Use Proxy"
  | 307 => some "Temporary Redirect"
  | 400 => some "Bad Request"
  | 401 => some "Unauthorized"
  | 402 => some "Payment Required"
  | 403 => some "Forbidden"
  | 404 => some "Not Found"
  | 405 => some "Method Not Allowed"
  | 406 => some "Not Acceptable"
  | 407 => some "Proxy Authentication Required"
  | 408 => some "Request Timeout"
  | 409 => some "Conflict"
  | 410 => some "Gone"
  | 411 => some "Length Required"
  | 412 => some "Precondition Failed"
  | 413 => some "Payload Too Large"
  | 414 => some "URI Too Large"
  | 415 => some "Unsupported Media Type"
  | 416 => some "Range Not Satisfiable"
  | 417 => some "Expectation Failed"
  | 426 => some "Upgrade Required"
  | 500 => some "Internal Server Error"
  | 501 => some "Not Implemented"
  | 502 => some "Bad Gateway"
  | 503 => some "Service Unavailable"
  | 504 => some "Gateway Time-out"
  | 505 => some "HTTP Version Not Supported"
  | _ => none

/-- The exception of a property access or a call that cannot be made. -/
inductive TypeError where
  | typeError
deriving DecidableEq, Repr

inductive OutgoingKind where
  | clientRequest
  | serverResponse
deriving DecidableEq, Repr

structure OutgoingMessage where
  kind : OutgoingKind
  _hasBody : Bool
  finished : Bool
  _sentHeader : Bool
  /-- `connection` is a socket, and not `null` -/
  connection : Bool
  /-- the header block, `null` before it is stored -/
  _header : Option String
  /-- the header fields, in the order of their keys -/
  _headers : List (String × String)
  statusCode : Nat
  statusMessage : Option String
  /-- the strings that `connection.write` was called with -/
  handed : List String
deriving DecidableEq, Repr

namespace OutgoingMessage

/-! ### The header block -/

/-- The constructor `OutgoingMessage` -/
def new (kind : OutgoingKind) : OutgoingMessage where
  kind := kind
  _hasBody := true
  finished := false
  _sentHeader := false
  connection := false
  _header := none
  _headers := []
  statusCode := 200
  statusMessage := none
  handed := []

/-- `_storeHeader` -/
def _storeHeader (s : OutgoingMessage) (statusLine : String) : OutgoingMessage :=
  let headerStr := s._headers.foldl (fun str entry => str ++ entry.1 ++ ": " ++ entry.2 ++ "\r\n") ""
  { s with _header := some (statusLine ++ headerStr) }

/-- `setHeader` -/
def setHeader (s : OutgoingMessage) (name value : String) : OutgoingMessage :=
  if s._headers.any (·.1 == name) then
    { s with _headers := s._headers.map fun entry => if entry.1 == name then (name, value) else entry }
  else { s with _headers := s._headers ++ [(name, value)] }

/-- `removeHeader` -/
def removeHeader (s : OutgoingMessage) (name : String) : OutgoingMessage :=
  { s with _headers := s._headers.filter (·.1 != name) }

/-- A response with this status code has a body. -/
def codeHasBody (statusCode : Nat) : Bool :=
  !(statusCode == 204 || statusCode == 304 || (100 ≤ statusCode && statusCode ≤ 199))

/-- `ServerResponse.prototype.writeHead`. The loop over `obj` runs over the indices of its keys:
what it enters for the index `i` is `obj[i]`, so only a key that is an index itself has a value. -/
def writeHead (s : OutgoingMessage) (statusCode : Nat) (reason : Option String)
    (obj : List (String × String)) : OutgoingMessage :=
  let message := reason.getD ((statusCodes statusCode).getD "unknown")
  let statusLine := "HTTP/1.1 " ++ toString statusCode ++ " " ++ message ++ "\r\n"
  let s := { s with statusMessage := some message, statusCode := statusCode }
  let s := if codeHasBody statusCode then s else { s with _hasBody := false }
  let s := (List.range obj.length).foldl
    (fun s i => s.setHeader (toString i) ((obj.lookup (toString i)).getD "undefined")) s
  s._storeHeader statusLine

/-- `_implicitHeader`, which only a response has. -/
def _implicitHeader (s : OutgoingMessage) : Except TypeError OutgoingMessage :=
  match s.kind with
  | .clientRequest => throw .typeError
  | .serverResponse => return s.writeHead s.statusCode none []

/-- The constructor `ClientRequest`, with the socket of `setupConnection`. -/
def clientRequest (method path : String) (headers : List (String × String)) : OutgoingMessage :=
  let s := headers.foldl (fun s entry => s.setHeader entry.1 entry.2) (new .clientRequest)
  let s := { s with connection := true }
  s._storeHeader (method ++ " " ++ path ++ " HTTP/1.1\r\n")

/-- The constructor `ServerResponse(req)`, and `assignSocket`. -/
def serverResponse (method : String) : OutgoingMessage :=
  { new .serverResponse with _hasBody := method != "HEAD", connection := true }

/-- A message with a body that nothing was sent on: what the constructors make, and what the
program may do with it before the first `write` or `end`. -/
inductive Prepared : OutgoingMessage → Prop where
  | clientRequest (method path : String) (headers : List (String × String)) :
    Prepared (OutgoingMessage.clientRequest method path headers)
  | serverResponse (method : String) (body : method ≠ "HEAD") :
    Prepared (OutgoingMessage.serverResponse method)
  | setHeader {s : OutgoingMessage} (name value : String) :
    Prepared s → Prepared (s.setHeader name value)
  | removeHeader {s : OutgoingMessage} (name : String) : Prepared s → Prepared (s.removeHeader name)
  | statusCode {s : OutgoingMessage} (code : Nat) (body : codeHasBody code = true) :
    Prepared s → Prepared { s with statusCode := code }
  | writeHead {s : OutgoingMessage} (code : Nat) (reason : Option String)
      (obj : List (String × String)) (response : s.kind = .serverResponse)
      (body : codeHasBody code = true) :
    Prepared s → Prepared (s.writeHead code reason obj)

/-! ### Sending -/

variable (P : Platform)

/-- `_send`. The chunk of `end`, the empty string, comes with a callback. -/
def _send (s : OutgoingMessage) (chunk : Data) : Except TypeError OutgoingMessage := do
  let chunk := chunk.toString P
  let (s, chunk) :=
    if s._sentHeader then (s, chunk)
    else ({ s with _sentHeader := true }, s._header.getD "null" ++ "\r\n" ++ chunk)
  -- the header counts as sent before `connection` is used
  unless s.connection do
    throw .typeError
  return { s with handed := s.handed ++ [chunk] }

/-- `if (!this._header) this._implicitHeader()` -/
def flushHeader (s : OutgoingMessage) : Except TypeError OutgoingMessage :=
  if s._header.getD "" = "" then s._implicitHeader else return s

/-- `write` -/
def write (s : OutgoingMessage) (chunk : Data) : Except TypeError OutgoingMessage := do
  let s ← s.flushHeader
  if s._hasBody then s._send P chunk else return s

/-- `resOnFinish`, the listener of 'prefinish' of a response, as far as the response goes:
`detachSocket`. -/
def resOnFinish (s : OutgoingMessage) : OutgoingMessage :=
  { s with connection := false }

/-- `_finish` -/
def _finish (s : OutgoingMessage) : OutgoingMessage :=
  match s.kind with
  | .clientRequest => s
  | .serverResponse => s.resOnFinish

/-- `if (data)`: a string that is not empty, or a buffer. -/
def truthy : Option Data → Bool
  | none => false
  | some (.string s) => s != ""
  | some (.buffer _) => true

/-- `end`. When the message is finished it returns before it does anything. -/
def «end» (s : OutgoingMessage) (data : Option Data) : Except TypeError OutgoingMessage := do
  if s.finished then
    return s
  let s ← s.flushHeader
  let s ← match data with
    | some chunk => if truthy data then s.write P chunk else pure s
    | none => pure s
  -- the empty chunk carries the callback; it also takes the header along if nothing was written
  let s ← s._send P (.string "")
  return { s with finished := true }._finish

/-- A call that the program makes. -/
inductive Call where
  | write (chunk : Data)
  | «end» (data : Option Data)
deriving DecidableEq, Repr

def call (s : OutgoingMessage) : Call → Except TypeError OutgoingMessage
  | .write chunk => s.write P chunk
  | .end data => s.end P data

def run (s : OutgoingMessage) (calls : List Call) : Except TypeError OutgoingMessage :=
  calls.foldlM (call P) s

/-- The bytes that the connection was handed. -/
def wire (s : OutgoingMessage) : Bytes := s.handed.flatMap (newBuffer P)

end OutgoingMessage

end IotJs

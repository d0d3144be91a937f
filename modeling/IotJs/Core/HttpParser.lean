import IotJs.Core.Data

/-!
# `IotJs.Core.HttpParser`: `iotjs_module_httpparser.c` and the parser callbacks of `http_common.js`

The third-party `http_parser` cuts the bytes of a connection into pieces and calls the wrapper
`iotjs_httpparserwrap_t` once for each piece of a url, of a status text, of a field name or of a
value. The wrapper gathers header lines in two arrays of `HEADER_MAX` strings. When the arrays are
full it hands the lines to the JavaScript object (`OnHeaders`), and at the end of the header part
it hands over the rest (`OnHeadersComplete`). The JavaScript object gathers the lines it is given
early in `_headers`, and the url in `_url`.

`HttpParser` holds the fields of both. Each callback is a function to `Except Fault`: a failed
`IOTJS_ASSERT` and an index outside of `fields` or `values` are faults.

`Message` is a message as `http_parser` reports it: its pieces, and what `http_parser` promises
about them. The callback for body pieces touches none of the fields here and is left out.
-/

set_option autoImplicit false

namespace IotJs

/-- `enum http_parser_type` -/
inductive ParserType where
  | request
  | response
deriving DecidableEq, Repr

/-- `HEADER_MAX` -/
def headerMax : Nat := 10

/-- `iotjs_string_append`, which copies with `strncpy`: the copy stops at a NUL and is filled up
with NULs. -/
def stringAppend (str data : Bytes) : Bytes :=
  let copied := data.takeWhile (· != 0)
  str ++ copied ++ List.replicate (data.length - copied.length) 0

/-- What an `IncomingMessage` is built with. -/
structure IncomingMessage where
  /-- `undefined` on the client -/
  url : Option String
  /-- what `addHeaders` is given: a name, its value, the next name, and so on -/
  headers : List String
  /-- the number of the method in `HTTPParser.methods` -/
  method : Option Nat
  statusCode : Option Nat
  statusMessage : Option String
deriving DecidableEq, Repr

namespace IncomingMessage

/-- The loop of `addHeaders`: the pairs that it enters into `this.headers`, in order. A name
without a value is entered as `undefined`. -/
def addHeaders : List String → List (String × Option String)
  | [] => []
  | [name] => [(name, none)]
  | name :: value :: rest => (name, some value) :: addHeaders rest

end IncomingMessage

/-- Why the process stops. -/
inductive Fault where
  /-- a failed `IOTJS_ASSERT` -/
  | assertion
  /-- an index outside of `fields` or `values` -/
  | index
deriving DecidableEq, Repr

structure HttpParser where
  type : ParserType
  url : Bytes
  status_msg : Bytes
  fields : List Bytes
  values : List Bytes
  n_fields : Nat
  n_values : Nat
  flushed : Bool
  /-- `_headers` of the JavaScript object -/
  _headers : List String
  /-- `_url` of the JavaScript object, `undefined` on the client -/
  _url : Option String
  /-- the messages that were built so far -/
  received : List IncomingMessage
deriving DecidableEq, Repr

namespace HttpParser

/-! ### Construction -/

/-- `parser.reinitialize`, which is `iotjs_httpparserwrap_initialize`. -/
def reinitialize (s : HttpParser) (type : ParserType) : HttpParser :=
  { s with
      type := type
      url := []
      status_msg := []
      n_fields := 0
      n_values := 0
      flushed := false }

/-- `createHTTPParser` of `http_common.js`, down to `iotjs_httpparserwrap_create`, and
`parser._headers = {}` of both users of it. -/
def createHTTPParser : HttpParser where
  type := .request
  url := []
  status_msg := []
  fields := List.replicate headerMax []
  values := List.replicate headerMax []
  n_fields := 0
  n_values := 0
  flushed := false
  _headers := []
  _url := none
  received := []

/-- The parser of `connectionListener` (`http_server.js`), or of `setupConnection`
(`http_client.js`). -/
def create : ParserType → HttpParser
  | .request => { createHTTPParser with _url := some "" }
  | .response => createHTTPParser.reinitialize .response

variable (P : Platform)

/-! ### Handing over to JavaScript -/

/-- `iotjs_httpparserwrap_make_header` -/
def makeHeader (s : HttpParser) : Except Fault (List String) := do
  unless s.n_values ≤ s.fields.length && s.n_values ≤ s.values.length do
    throw .index
  return ((s.fields.zip s.values).take s.n_values).flatMap fun line =>
    [P.bytesToString line.1, P.bytesToString line.2]

/-- `parserOnHeaders`: the lines go to `_headers` (`AddHeader`), and a url, when there is one that
is not empty, is appended to `_url`. -/
def parserOnHeaders (s : HttpParser) (headers : List String) (url : Option String) : HttpParser :=
  let s := { s with _headers := s._headers ++ headers }
  match url with
  | none => s
  | some url => if url = "" then s else { s with _url := some (s._url.getD "undefined" ++ url) }

/-- `iotjs_httpparserwrap_flush` -/
def flush (s : HttpParser) : Except Fault HttpParser := do
  let headers ← makeHeader P s
  let url := if s.type = .request ∧ s.url ≠ [] then some (P.bytesToString s.url) else none
  let s := s.parserOnHeaders headers url
  return { s with url := [], flushed := true }

/-- `info`, which `OnHeadersComplete` is called with. -/
structure Info where
  headers : Option (List String)
  url : Option String
  method : Option Nat
  status : Option Nat
  status_msg : Option String
deriving DecidableEq, Repr

/-- `parserOnHeadersComplete`. An empty url counts as none (`!url`). -/
def parserOnHeadersComplete (s : HttpParser) (info : Info) : HttpParser :=
  -- the source clears `parser.url` here, and leaves `_url` as it is
  let url := if info.url.getD "" = "" then s._url else info.url
  let (headers, left) :=
    match info.headers with
    | some headers => (headers, s._headers)
    | none => (s._headers, [])
  let incoming : IncomingMessage := match info.method with
    | some method =>
      { url := url, headers := headers, method := some method, statusCode := none,
        statusMessage := none }
    | none =>
      { url := url, headers := headers, method := none, statusCode := info.status,
        statusMessage := info.status_msg }
  { s with _headers := left, received := s.received ++ [incoming] }

/-! ### The callbacks of `http_parser` -/

/-- `strings[n - 1]` is replaced by `f` of it. -/
def modifyLast (strings : List Bytes) (n : Nat) (f : Bytes → Bytes) : Except Fault (List Bytes) :=
  match n with
  | 0 => throw .index
  | i + 1 => if i < strings.length then return strings.modify i f else throw .index

def on_message_begin (s : HttpParser) : HttpParser :=
  { s with url := [], status_msg := [] }

def on_url (s : HttpParser) (data : Bytes) : HttpParser :=
  { s with url := stringAppend s.url data }

def on_status (s : HttpParser) (data : Bytes) : HttpParser :=
  { s with status_msg := stringAppend s.status_msg data }

/-- The first piece of a field name: the name gets the next place of the arrays. When that is the
last place, the lines gathered so far are flushed first and the name gets the first place. -/
def openField (s : HttpParser) : Except Fault HttpParser := do
  let s := { s with n_fields := s.n_fields + 1 }
  let s ← if s.n_fields = headerMax then do
      let s ← flush P s
      pure { s with n_fields := 1, n_values := 0 }
    else pure s
  let fields ← modifyLast s.fields s.n_fields fun _ => []
  return { s with fields := fields }

def on_header_field (s : HttpParser) (data : Bytes) : Except Fault HttpParser := do
  let s ← if s.n_fields = s.n_values then openField P s else pure s
  unless s.n_fields = s.n_values + 1 do
    throw .assertion
  let fields ← modifyLast s.fields s.n_fields (stringAppend · data)
  return { s with fields := fields }

/-- The first piece of a value. -/
def openValue (s : HttpParser) : Except Fault HttpParser := do
  let s := { s with n_values := s.n_values + 1 }
  let values ← modifyLast s.values s.n_values fun _ => []
  return { s with values := values }

def on_header_value (s : HttpParser) (data : Bytes) : Except Fault HttpParser := do
  let s ← if s.n_fields ≠ s.n_values then openValue s else pure s
  unless s.n_fields = s.n_values do
    throw .assertion
  let values ← modifyLast s.values s.n_values (stringAppend · data)
  return { s with values := values }

/-- `code` is `parser.method` of a request, `parser.status_code` of a response. -/
def on_headers_complete (s : HttpParser) (code : Nat) : Except Fault HttpParser := do
  let (s, headers, url) ← if s.flushed then do
      let s ← flush P s
      pure (s, none, none)
    else do
      let headers ← makeHeader P s
      if s.type = .request then
        if s.url = [] then
          throw .assertion
        pure (s, some headers, some (P.bytesToString s.url))
      else pure (s, some headers, none)
  let s := { s with n_fields := 0, n_values := 0 }
  let info : Info := match s.type with
    | .request =>
      { headers := headers, url := url, method := some code, status := none, status_msg := none }
    | .response =>
      { headers := headers, url := url, method := none, status := some code,
        status_msg := some (P.bytesToString s.status_msg) }
  return s.parserOnHeadersComplete info

/-- A call of `http_parser`. The one at the end of a message (`on_message_complete`) changes none
of the fields here. -/
inductive Event where
  | messageBegin
  | url (data : Bytes)
  | status (data : Bytes)
  | headerField (data : Bytes)
  | headerValue (data : Bytes)
  | headersComplete (code : Nat)
  | messageComplete
deriving DecidableEq, Repr

def step (s : HttpParser) : Event → Except Fault HttpParser
  | .messageBegin => return s.on_message_begin
  | .url data => return s.on_url data
  | .status data => return s.on_status data
  | .headerField data => on_header_field P s data
  | .headerValue data => on_header_value s data
  | .headersComplete code => on_headers_complete P s code
  | .messageComplete => return s

def run (s : HttpParser) (events : List Event) : Except Fault HttpParser :=
  events.foldlM (step P) s

end HttpParser

/-! ### Messages -/

/-- A piece of text from the parser holds no NUL. -/
def Clean (pieces : List Bytes) : Prop := ∀ piece ∈ pieces, (0 : UInt8) ∉ piece

instance (pieces : List Bytes) : Decidable (Clean pieces) :=
  inferInstanceAs (Decidable (∀ piece ∈ pieces, (0 : UInt8) ∉ piece))

/-- A header line, in pieces. -/
structure Header where
  field : List Bytes
  value : List Bytes
  field_pieces : field ≠ []
  value_pieces : value ≠ []
  field_clean : Clean field
  value_clean : Clean value

namespace Header

def events (header : Header) : List HttpParser.Event :=
  header.field.map .headerField ++ header.value.map .headerValue

/-- The name and the value as the program reads them, whatever the pieces were. -/
def pair (P : Platform) (header : Header) : String × Option String :=
  (P.bytesToString header.field.flatten, some (P.bytesToString header.value.flatten))

/-- The line as `addHeaders` is given it. -/
def own (P : Platform) (header : Header) : List String :=
  [P.bytesToString header.field.flatten, P.bytesToString header.value.flatten]

end Header

/-- A message on a parser of the given type, with what `http_parser` promises about its pieces.
`text` is the url of a request, the status text of a response. -/
structure Message (type : ParserType) where
  code : Nat
  text : List Bytes
  headers : List Header
  /-- header lines after the body (chunked encoding) -/
  trailers : List Header
  text_clean : Clean text
  url_nonempty : type = .request → text.flatten ≠ []

namespace Message

variable {type : ParserType}

def textEvent : ParserType → Bytes → HttpParser.Event
  | .request => .url
  | .response => .status

/-- The calls of `http_parser` for the message. -/
def events (m : Message type) : List HttpParser.Event :=
  .messageBegin :: m.text.map (textEvent type) ++ m.headers.flatMap Header.events ++
    .headersComplete m.code :: m.trailers.flatMap Header.events ++ [.messageComplete]

/-- The `IncomingMessage` of the message alone. -/
def own (P : Platform) (m : Message type) : IncomingMessage :=
  match type with
  | .request =>
    { url := some (P.bytesToString m.text.flatten)
      headers := m.headers.flatMap (Header.own P)
      method := some m.code
      statusCode := none
      statusMessage := none }
  | .response =>
    { url := none
      headers := m.headers.flatMap (Header.own P)
      method := none
      statusCode := some m.code
      statusMessage := some (P.bytesToString m.text.flatten) }

end Message

end IotJs

import IotJs.Core.HttpOutgoing
import IotJs.Lib.Reentrant.Prog

/-!
# `IotJs.Core.HttpSkipBody`: what a response head tells the parser about its body

When the head of a response is parsed, `iotjs_httpparserwrap_on_headers_complete` calls
`OnHeadersComplete` of the parser, `parserOnHeadersComplete` of `http_common.js`. It returns what
`parserOnIncomingClient` of `http_client.js` returns, and that is to say whether the parser skips
the body. The native code takes the value as a boolean, by an assertion.

`iotjs_make_callback_with_result` is in between. It hands an exception to
`_onUncaughtExcecption`, runs the callbacks of `process.nextTick`, and returns the value, or what
was thrown. The listeners of 'response' and of 'uncaughtException' and the callbacks of
`process.nextTick` are outside code. The parser may be called again while they run, and whether the
listeners of 'response' threw is an answer that the code asks for (`thrown`).
-/

set_option autoImplicit false

namespace IotJs

open Reentrant

namespace SkipBody

/-- A value, as far as the native code looks at it. -/
inductive JsValue where
  | undefined
  | boolean (b : Bool)
  | other
deriving DecidableEq, Repr

/-- The options of a `ClientRequest` that its first header line and its fields are made of. -/
structure Options where
  method : Option String
  path : Option String
  headers : List (String × String)
deriving DecidableEq, Repr

/-- `option || default` -/
def orDefault (option : Option String) (default : String) : String :=
  if option.getD "" = "" then default else option.getD ""

/-- The request's method: `options.method || 'GET'`. -/
def Options.requestMethod (options : Options) : String := orDefault options.method "GET"

structure ClientRequest where
  /-- the message that the constructor makes -/
  message : OutgoingMessage
  /-- `req.method` -/
  method : Option String
  /-- `req.res` is set -/
  res : Bool
  /-- `socket.destroy()` was called -/
  destroyed : Bool
  /-- what the native code got of the calls of `OnHeadersComplete` -/
  returned : List JsValue
  /-- an assertion of the native code has failed -/
  aborted : Bool
deriving DecidableEq, Repr

/-- `ClientRequest(options)`. The method is a variable of the constructor: it goes into the first
header line, and no property has it. -/
def clientRequest (options : Options) : ClientRequest where
  message := OutgoingMessage.clientRequest options.requestMethod (orDefault options.path "/")
    options.headers
  method := none
  res := false
  destroyed := false
  returned := []
  aborted := false

/-- The outside code that has control. -/
inductive Tag where
  /-- the listeners of 'response' -/
  | response
  /-- `_onUncaughtExcecption`. It does not come back if the process exits. -/
  | uncaughtException (jres : JsValue)
  /-- the callbacks of `process.nextTick` -/
  | nextTick (jres : JsValue)
deriving DecidableEq, Repr

inductive Ask where
  /-- what the listeners of 'response' threw -/
  | threw
deriving DecidableEq, Repr

abbrev Method := Prog ClientRequest Tag Ask

/-- The answer to `threw`: nothing, a boolean, or another value. -/
def thrown (answer : Int) : Option JsValue :=
  if answer = 0 then none
  else if answer = 1 then some (.boolean false)
  else if answer = 2 then some (.boolean true)
  else some .other

/-- `iotjs_jval_as_boolean` -/
def iotjs_jval_as_boolean : JsValue → Method Unit
  | .boolean _ => pure ()
  | _ => modify fun s => { s with aborted := true }

/-- The end of `iotjs_make_callback_with_result`, and of
`iotjs_httpparserwrap_on_headers_complete`. -/
def afterCall (jres : JsValue) : Method Unit := do
  Prog.yieldTo (.nextTick jres)
  iotjs_jval_as_boolean jres

def record (jres : JsValue) : Method Unit :=
  modify fun s => { s with returned := s.returned ++ [jres] }

/-- The handler has returned. -/
def returns (value : JsValue) : Method Unit := do
  record value
  afterCall value

/-- The handler has thrown. -/
def throws (error : JsValue) : Method Unit := do
  record error
  Prog.yieldTo (.uncaughtException error)
  afterCall error

/-- The rest of `parserOnIncomingClient`: a response to a HEAD request has no body. -/
def afterResponse : Method Unit := do
  match thrown (← Prog.askFor .threw) with
  | some error => throws error
  | none => returns (.boolean ((← get).method == some "HEAD"))

def parserOnIncomingClient : Method Unit := do
  if (← get).res then
    -- server sent responses twice: it returns nothing
    modify fun s => { s with destroyed := true }
    returns .undefined
  else
    modify fun s => { s with res := true }
    Prog.yieldTo .response
    afterResponse

/-- `parserOnHeadersComplete`. It makes the `IncomingMessage` and returns what `onIncoming`
returns. -/
def parserOnHeadersComplete : Method Unit := parserOnIncomingClient

/-! ### The machine -/

inductive Call where
  /-- the parser has the head of a response -/
  | onHeadersComplete
deriving DecidableEq, Repr

def machine : Machine ClientRequest Tag Ask Call where
  body
    | .onHeadersComplete => parserOnHeadersComplete
  enabled _ _ s := !s.aborted

/-- How a function goes on. -/
def resume : Tag → Method Unit
  | .response => afterResponse
  | .uncaughtException jres => afterCall jres
  | .nextTick jres => iotjs_jval_as_boolean jres

/-- The moves of a process that runs. The code asks for an exception of the listeners, and an
exception of the other outside code stays in native code. -/
def running (c : Config ClientRequest Tag Ask) : Move Call → Prop
  | .throw => False
  | _ => c.heap.aborted = false

instance (c : Config ClientRequest Tag Ask) : ∀ m : Move Call, Decidable (running c m)
  | .call .. => inferInstanceAs (Decidable (c.heap.aborted = false))
  | .ret _ => inferInstanceAs (Decidable (c.heap.aborted = false))
  | .throw => .isFalse id

end SkipBody

end IotJs

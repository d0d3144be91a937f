import Mathlib.Tactic.Common

/-!
# `IotJs.Core.HttpConnection`: what the HTTP modules keep of one connection

`http_client.js` and `http_server.js` give each other's objects new properties: the socket gets
`parser` and `_httpMessage`, the parser `incoming`, the request `res`. A connection has one of
each, so one record holds them all, with what the parser is doing and what a run shows. It says
which references are `null`; what they refer to is outside code or a part of the socket.
-/

set_option autoImplicit false

namespace IotJs

/-- Whose socket it is. -/
inductive HttpSide where
  /-- no HTTP module has it -/
  | neither
  /-- a `ClientRequest` -/
  | client
  /-- a `Server` -/
  | server
deriving DecidableEq, Repr

/-- The errors that a `ClientRequest` emits. -/
inductive RequestError where
  /-- what `execute` returned -/
  | parse
  /-- 'socket hang up' -/
  | hangUp
deriving DecidableEq, Repr

/-- What a run of the HTTP modules shows. -/
inductive HttpObs where
  /-- a `ClientRequest` emits 'response' -/
  | response
  /-- a `ClientRequest` emits 'error' -/
  | error (err : RequestError)
  /-- a `ClientRequest` emits 'close' -/
  | close
  /-- `execute` returned an `Error` to a `ClientRequest` -/
  | malformed
  /-- `execute` or `finish` is called on a parser that is `null` -/
  | nullParser
  /-- a property of a `_server` that is `null` is read -/
  | nullServer
deriving DecidableEq, Repr

structure HttpConnection where
  side : HttpSide
  /-- the listeners of the HTTP module are registered on the socket -/
  listening : Bool
  /-- `socket.parser` is not `null` -/
  parser : Bool
  /-- the calls of `execute` that have not returned -/
  executing : Nat
  /-- the calls of `finish` that have not returned -/
  finishing : Nat
  /-- `parser.incoming` is not `null` -/
  incoming : Bool
  /-- `parser.incoming.complete` -/
  complete : Bool
  /-- `req.res` is set -/
  res : Bool
  /-- `socket._httpMessage` of a server is not `null` -/
  _httpMessage : Bool
  log : List HttpObs
deriving DecidableEq, Repr

/-- A connection that no HTTP module has seen. -/
def HttpConnection.new (side : HttpSide) : HttpConnection where
  side := side
  listening := false
  parser := false
  executing := 0
  finishing := 0
  incoming := false
  complete := false
  res := false
  _httpMessage := false
  log := []

end IotJs

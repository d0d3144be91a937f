import IotJs.Core.Socket
import Mathlib.Logic.Function.Basic

/-!
# `IotJs.Core.Connection`: two sockets that are connected

The two ends of a TCP connection are two sockets (`Socket.machine`), each with an application, an
event loop and a native side of its own, and each on a platform of its own. What one end gives to
`uv_write` is on its way to the other end, in order. A block that `OnRead` reports at one end is the
next part of what is on its way, however TCP has cut it. Everything else that the native side
reports is free: it may fail a write, a lookup or a connect, report an error or EOF at any time, and
leave bytes on their way for ever.
-/

set_option autoImplicit false

namespace IotJs

open Reentrant

namespace Socket

/-- A request that `uv_write` has completed or refused. -/
def settled : SocketObs → Option WriteReq
  | .wrote req _ => some req
  | .refused req _ => some req
  | _ => none

/-- What `uv_write` was given, in order. -/
def given (s : Socket) : List WriteReq := s.log.filterMap settled ++ s.writes

/-- The bytes of some requests. -/
def bytesOf (reqs : List WriteReq) : Bytes := reqs.flatMap WriteReq.chunk

end Socket

structure Connection where
  ends : Bool → Config Socket SocketYield SocketNative
  /-- how many bytes of the other end have arrived at this one -/
  arrived : Bool → Nat

namespace Connection

/-- What is on its way to an end. -/
def underWay (n : Connection) (b : Bool) : Bytes :=
  (Socket.bytesOf (Socket.given (n.ends !b).heap)).drop (n.arrived b)

/-- The block that a move reports. -/
def block : Move Socket.Call → Bytes
  | .call (.onread (.data buffer)) _ => buffer
  | _ => []

/-- A move of one end. -/
def step (P : Bool → Platform) (n : Connection) (b : Bool) (m : Move Socket.Call) :
    Option Connection :=
  if (block m).isPrefixOf (n.underWay b) then
    ((Socket.machine (P b)).step (n.ends b) m).map fun c =>
      { ends := Function.update n.ends b c
        arrived := Function.update n.arrived b (n.arrived b + (block m).length) }
  else none

/-- Moves of both ends, in any order. -/
def run (P : Bool → Platform) : Connection → List (Bool × Move Socket.Call) → Option Connection
  | n, [] => some n
  | n, (b, m) :: ms => (n.step P b m).bind fun n => run P n ms

/-- Two sockets of which nobody has used either. -/
def start (s : Bool → Socket) : Connection where
  ends b := ⟨s b, []⟩
  arrived _ := 0

end Connection

end IotJs

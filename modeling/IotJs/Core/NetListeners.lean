import IotJs.Core.EventEmitter
import IotJs.Core.Server
import IotJs.Lib.Reentrant.Zoom

/-!
# `IotJs.Core.NetListeners`: the listeners that `net.js` registers for a callback

`Server.prototype.listen`, `Server.prototype.close` and `Socket.prototype.connect` register their
callback with `once` before the native calls and the checks that come after. `Emitting` is an
object with the emitter that it is, and the three functions are written out with the listeners.
What they do to the server or to the socket alone is in `Server.lean` and `Socket.lean`.

The function number `2 * f` is the function `f` of the application, and `2 * f + 1` is the one that
`close` makes from it for a server that is not running.
-/

set_option autoImplicit false

namespace IotJs

open Reentrant

/-- An object and its listeners. -/
structure Emitting (σ : Type) where
  object : σ
  emitter : EventEmitter

namespace Emitting

variable {σ υ κ : Type}

/-- A method of the object. What has control is the outside code of the object, or a listener. -/
abbrev Method (σ υ κ : Type) := Prog (Emitting σ) (υ ⊕ EmitterYield) κ

def objectFocus : Focus (Emitting σ) σ where
  get := object
  put s t := { t with object := s }
  get_put _ _ := rfl
  put_get _ := rfl
  put_put _ _ _ := rfl

def emitterFocus : Focus (Emitting σ) EventEmitter where
  get := emitter
  put s t := { t with emitter := s }
  get_put _ _ := rfl
  put_get _ := rfl
  put_put _ _ _ := rfl

def onObject {α : Type} (p : Prog σ υ κ α) : Method σ υ κ α := p.zoom objectFocus .inl id

def onEmitter {α : Type} (p : EventEmitter.Method α) : Method σ υ κ α :=
  p.zoom emitterFocus .inr Empty.elim

/-- A function of the application. -/
def function (f : Nat) : Nat := 2 * f

/-- `self.once(type, f)` -/
def once (type : String) (f : Nat) : Method σ υ κ Unit :=
  onEmitter (EventEmitter.once type (some f))

/-- `if (util.isFunction(callback)) self.once(type, callback)` -/
def register (type : String) (callback : Option Nat) : Method σ υ κ Unit :=
  match callback with
  | some f => once type (function f)
  | none => pure ()

end Emitting

/-- The native calls of a server whose return code is looked at. -/
inductive ServerNative where
  | bind
  | listen
deriving DecidableEq, Repr

/-- A server with its listeners. -/
abbrev NetServer := Emitting Server

namespace NetServer

open Emitting

/-- No function here hands control to outside code. -/
abbrev Method := Emitting.Method Server Empty ServerNative

def new (allowHalfOpen : Bool) : NetServer := ⟨Server.new allowHalfOpen, EventEmitter.new⟩

def onServer (f : Server → Server) : Method Unit := onObject (modify f)

/-- `Server.prototype.listen`, and what it returns. -/
def listen (options : ListenOptions) (callback : Option Nat) : Method (Option Int) :=
  match options.port with
  | none => Prog.fail "invalid argument - need port number"
  | some port => do
      -- register listening event listener
      register "listening" callback
      -- create server handle
      onServer fun s => { s with _handle := some (s._handle.getD ⟨false, false⟩) }
      -- bind port
      let err ← Prog.askFor .bind
      onServer fun s => s.record (.bind (options.host.getD "0.0.0.0") port err)
      if err ≠ 0 then
        onServer Server.closeHandle
        pure (some err)
      else
        -- listen
        let err ← Prog.askFor .listen
        onServer fun s => s.record (.listen (options.backlog.getD 511) err)
        if err ≠ 0 then
          onServer Server.closeHandle
          pure (some err)
        else
          onServer fun s =>
            { s with _handle := s._handle.map fun handle => { handle with listening := true } }
          onServer fun s => s.nextTick .listening
          pure none

/-- `function() { callback(new Error('Not running')); }` -/
def notRunning (f : Nat) : Nat := 2 * f + 1

/-- `Server.prototype.close` -/
def close (callback : Option Nat) : Method Unit := do
  let s ← get
  match callback with
  | some f => once "close" (if s.object._handle.isNone then notRunning f else function f)
  | none => pure ()
  onServer Server.close

end NetServer

/-- A socket with its listeners. -/
abbrev NetSocket := Emitting Socket

namespace NetSocket

open Emitting

abbrev Method := Emitting.Method Socket SocketYield SocketNative

def new (allowHalfOpen : Bool) : NetSocket := ⟨Socket.new none allowHalfOpen, EventEmitter.new⟩

/-- `Socket.prototype.connect`. The source makes the handle before it registers the callback; the
one does not look at the other. -/
def connect (P : Platform) (options : ConnectOptions) (callback : Option Nat) : Method Unit := do
  let s ← get
  if !(s.object._socketState.connecting || s.object._socketState.connected) then
    register "connect" callback
  onObject (Socket.connect P options)

end NetSocket

end IotJs

import IotJs.Lib.Reentrant.Prog
import Mathlib.Logic.Function.Basic

/-!
# `IotJs.Core.EventEmitter`: the `EventEmitter` of `events.js`

An emitter keeps its listeners in a plain object, `_events`, whose properties are arrays. A name
that the object does not have itself is looked up in `Object.prototype`, so a few names are
never undefined.

Functions are compared by identity. Those of the application are numbers here. A function that
`once` makes (`Listener.once`) is numbered by its registration and carries its `type` and its
`listener`; the application may also set a property `listener` on its own functions, which
`removeListener` looks at. The constructor sets `_events` and nothing unsets it, so the tests
`!this._events` of the source never hold.

The listeners are outside code: `emit` hands control to each of them, and they may call the
emitter again. What is left of the copy that `emit` iterates over stands in the tag of the yield.
-/

set_option autoImplicit false

namespace IotJs

open Reentrant

/-- A value that is emitted: an `Error`, by its message, or something else. -/
inductive Value where
  | error (message : String)
  | other (n : Nat)
deriving DecidableEq, Repr

/-- A function in a list of listeners. -/
inductive Listener where
  /-- a function of the application -/
  | function (f : Nat)
  /-- the function `f` that `once` made, with `f.type` and `f.listener` -/
  | once (id : Nat) (type : String) (listener : Nat)
deriving DecidableEq, Repr

/-- The names that every object inherits. -/
def objectPrototype : List String :=
  ["constructor", "toString", "toLocaleString", "valueOf", "hasOwnProperty", "isPrototypeOf",
    "propertyIsEnumerable"]

/-- What a run of an emitter shows. -/
inductive EmitterObs where
  /-- the listener was called with the arguments; that of `once` calls its own `listener` -/
  | called (listener : Listener) (args : List Value)
  /-- an `emit` returned -/
  | returned (result : Bool)
deriving DecidableEq, Repr

/-- A listener has control. `emit` has to call the `rest` afterwards. -/
structure EmitterYield where
  listener : Listener
  args : List Value
  rest : List Listener
deriving DecidableEq, Repr

structure EventEmitter where
  /-- the own properties of `_events` -/
  _events : String → Option (List Listener)
  /-- the property `listener` that the application set on a function -/
  listenerOf : Nat → Option Nat
  /-- registrations by `once` so far -/
  registrations : Nat
  log : List EmitterObs

/-- What `_events[type]` evaluates to. -/
inductive Property where
  | undefined
  | array (listeners : List Listener)
  | inherited
deriving DecidableEq, Repr

/-- `!!_events[type]`: an empty array is true. -/
def Property.truthy : Property → Bool
  | .undefined => false
  | _ => true

namespace EventEmitter

/-- The constructor. -/
def new : EventEmitter where
  _events _ := none
  listenerOf _ := none
  registrations := 0
  log := []

def property (s : EventEmitter) (type : String) : Property :=
  match s._events type with
  | some listeners => .array listeners
  | none => if type ∈ objectPrototype then .inherited else .undefined

/-- The listeners that are registered for `type`. -/
def listeners (s : EventEmitter) (type : String) : List Listener :=
  (s._events type).getD []

/-- A method of the emitter. -/
abbrev Method := Prog EventEmitter EmitterYield Empty

def record (o : EmitterObs) : Method Unit :=
  modify fun s => { s with log := s.log ++ [o] }

/-- `this._events[type] = listeners` -/
def assign (type : String) (listeners : List Listener) : Method Unit :=
  modify fun s => { s with _events := Function.update s._events type (some listeners) }

/-- `a == b` for functions. -/
def same : Listener → Listener → Bool
  | .function f, .function g => f = g
  | .once i _ _, .once j _ _ => i = j
  | _, _ => false

/-- `item.listener && item.listener == listener` -/
def carries (s : EventEmitter) (item listener : Listener) : Bool :=
  match item, listener with
  | .function f, .function g => s.listenerOf f = some g
  | .once _ _ f, .function g => f = g
  | _, .once .. => false

/-- The comparison of `removeListener`. -/
def isMatch (s : EventEmitter) (listener item : Listener) : Bool :=
  same item listener || s.carries item listener

/-- The loop of `removeListener`, from the index below `i` down: it removes the first match that
it meets, and stops. -/
def spliceFrom (p : Listener → Bool) (list : List Listener) : Nat → List Listener
  | 0 => list
  | i + 1 =>
      if list[i]?.any p then list.eraseIdx i
      else spliceFrom p list i

/-- `removeListener` for a function. -/
def removeFunction (type : String) (listener : Listener) : Method Unit := do
  let s ← get
  if let .array list := s.property type then
    assign type (spliceFrom (s.isMatch listener) list list.length)

/-- `listeners[i].apply(this, args)`: the function that `once` made removes itself first. -/
def callListener (listener : Listener) (args : List Value) (rest : List Listener) :
    Method Unit := do
  if let .once _ type _ := listener then
    removeFunction type listener
  record (.called listener args)
  Prog.yieldTo ⟨listener, args, rest⟩

/-- The loop of `emit` over its copy of the listeners. -/
def callListeners (args : List Value) : List Listener → Method Bool
  | [] => pure true
  | listener :: rest => do
      callListener listener args rest
      callListeners args rest

/-- What `emit('error', …)` throws when nobody listens. -/
def uncaught (args : List Value) : String :=
  match args.head? with
  | some (.error message) => message
  | _ => "Uncaught 'error' event"

/-- `EventEmitter.prototype.emit` -/
def emit (type : String) (args : List Value) : Method Bool := do
  -- about to emit 'error' event but there are no listeners for it
  if type = "error" && !((← get).property "error").truthy then
    Prog.fail (uncaught args)
  else
    match (← get).property type with
    | .array listeners => callListeners args listeners
    | _ => pure false

/-- `EventEmitter.prototype.addListener`, for a function. -/
def addFunction (type : String) (listener : Listener) : Method Unit := do
  -- an inherited name is truthy: no list is assigned, and what is inherited has no `push`
  if !((← get).property type).truthy then
    assign type []
  match (← get).property type with
  | .array list => assign type (list ++ [listener])
  | _ => Prog.fail "TypeError"

/-- A `listener` that is no function is `none`. -/
def addListener (type : String) (listener : Option Nat) : Method Unit :=
  match listener with
  | some f => addFunction type (.function f)
  | none => Prog.fail "listener must be a function"

/-- `EventEmitter.prototype.once` -/
def once (type : String) (listener : Option Nat) : Method Unit := do
  match listener with
  | some f =>
      let id := (← get).registrations
      modify fun s => { s with registrations := s.registrations + 1 }
      addFunction type (.once id type f)
  | none => Prog.fail "listener must be a function"

/-- `EventEmitter.prototype.removeListener` -/
def removeListener (type : String) (listener : Option Nat) : Method Unit :=
  match listener with
  | some f => removeFunction type (.function f)
  | none => Prog.fail "listener must be a function"

/-- `EventEmitter.prototype.removeAllListeners`; without an argument, `type` is `none`. -/
def removeAllListeners (type : Option String) : Method Unit :=
  modify fun s =>
    match type with
    | none => { s with _events := fun _ => none }
    | some type => { s with _events := Function.update s._events type none }

/-! ### The machine -/

/-- What the application can do with an emitter, also from inside a listener. -/
inductive Call where
  | on (type : String) (listener : Option Nat)
  | once (type : String) (listener : Option Nat)
  | removeListener (type : String) (listener : Option Nat)
  | removeAllListeners (type : Option String)
  | emit (type : String) (args : List Value)
  /-- the application sets the property `listener` of one of its functions -/
  | setListener (f : Nat) (listener : Option Nat)
deriving DecidableEq, Repr

def body : Call → Method Unit
  | .on type listener => addListener type listener
  | .once type listener => once type listener
  | .removeListener type listener => removeListener type listener
  | .removeAllListeners type => removeAllListeners type
  | .emit type args => do
      let result ← emit type args
      record (.returned result)
  | .setListener f listener =>
      modify fun s => { s with listenerOf := Function.update s.listenerOf f listener }

/-- An emitter and the application around it. -/
def machine : Machine EventEmitter EmitterYield Empty Call where
  body := body
  enabled _ _ _ := true

/-- How `emit` goes on when a listener returns. -/
def resume (u : EmitterYield) : Method Unit := do
  let result ← callListeners u.args u.rest
  record (.returned result)

end EventEmitter

end IotJs

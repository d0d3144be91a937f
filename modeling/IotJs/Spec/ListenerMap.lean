import IotJs.Core.EventEmitter
import IotJs.Lib.LastMatch

/-!
# `IotJs.Spec.ListenerMap`: what an emitter is for

The abstract emitter: a map from names to lists of entries. An entry is a function, and the
number of the registration when `once` registered it. This is a statement of the purpose of an
`EventEmitter`, and not a translation of `events.js`: there are no arrays, no names that are
special, and no wrappers. `emit` calls the entries that the list has at the moment of the call.
An entry of `once` leaves the list when it is called.

It is a machine with the calls of the emitter, so that the two can be compared move by move.
-/

set_option autoImplicit false

namespace IotJs

open Reentrant LastMatch

namespace ListenerMap

/-- A registered function. -/
structure Entry where
  function : Nat
  /-- the number of its registration, where `once` registered it -/
  once : Option Nat
deriving DecidableEq, Repr

/-- An entry has control; the `rest` of the list is called afterwards. -/
structure Waiting where
  name : String
  entry : Entry
  args : List Value
  rest : List Entry
deriving DecidableEq, Repr

end ListenerMap

open ListenerMap

/-- A map from names to lists of entries, and the calls that it made. -/
structure ListenerMap where
  map : String → List Entry
  /-- registrations by `once` so far -/
  registrations : Nat
  /-- the functions that were called, with their arguments -/
  calls : List (Entry × List Value)

namespace ListenerMap

def empty : ListenerMap where
  map _ := []
  registrations := 0
  calls := []

/-- The list of one name changes, and no other. -/
def change (name : String) (f : List Entry → List Entry) (m : ListenerMap) : ListenerMap :=
  { m with map := Function.update m.map name (f (m.map name)) }

abbrev Method := Prog ListenerMap Waiting Empty

/-- Call the entries, one after the other. -/
def callEach (name : String) (args : List Value) : List Entry → Method Unit
  | [] => pure ()
  | entry :: rest => do
      if let some n := entry.once then
        modify (change name (eraseLast fun e => e.once = some n))
      modify fun m => { m with calls := m.calls ++ [(entry, args)] }
      Prog.yieldTo ⟨name, entry, args, rest⟩
      callEach name args rest

/-- The operations. What is no function changes nothing, nor does a property of a function. -/
def body : EventEmitter.Call → Method Unit
  | .on name (some f) => modify (change name (· ++ [⟨f, none⟩]))
  | .once name (some f) =>
      modify fun m =>
        { change name (· ++ [⟨f, some m.registrations⟩]) m with
          registrations := m.registrations + 1 }
  | .removeListener name (some f) => modify (change name (eraseLast fun e => e.function = f))
  | .removeAllListeners none => modify fun m => { m with map := fun _ => [] }
  | .removeAllListeners (some name) => modify (change name fun _ => [])
  | .emit name args => do
      let entries := (← get).map name
      callEach name args entries
  | .on _ none | .once _ none | .removeListener _ none | .setListener _ _ => pure ()

def machine : Machine ListenerMap Waiting Empty EventEmitter.Call where
  body := body
  enabled _ _ _ := true

/-- How `emit` goes on when a function returns. -/
def resume (w : Waiting) : Method Unit :=
  callEach w.name w.args w.rest

/-! ### Names -/

/-- An operation on one name leaves the lists of the others. -/
theorem change_of_ne {name other : String} (h : other ≠ name) (f : List Entry → List Entry)
    (m : ListenerMap) : (change name f m).map other = m.map other :=
  Function.update_of_ne h ..

@[simp] theorem change_same (name : String) (f : List Entry → List Entry) (m : ListenerMap) :
    (change name f m).map name = f (m.map name) :=
  Function.update_self ..

end ListenerMap

end IotJs

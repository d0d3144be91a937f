import IotJs.Core.EventEmitter
import IotJs.Lib.LastMatch
import IotJs.Lib.Reentrant.Play

/-!
# `IotJs.Proofs.EmitterExec`: the methods of an emitter, step by step

What each method of `events.js` does up to the first listener, as a function of the state, and
what it makes of the lists. The loop of `emit` yields the listeners that it has not called yet,
so the tags that wait determine the stack (`machine_tagged`).
-/

set_option autoImplicit false

namespace IotJs.EventEmitter

open Reentrant LastMatch

/-! ### What the methods do, as functions of the state -/

/-- The list of `type` is `list`. -/
def withList (type : String) (list : List Listener) (s : EventEmitter) : EventEmitter :=
  { s with _events := Function.update s._events type (some list) }

/-- After `removeFunction`. -/
def removed (type : String) (listener : Listener) (s : EventEmitter) : EventEmitter :=
  match s._events type with
  | some list => withList type (spliceFrom (s.isMatch listener) list list.length) s
  | none => s

/-- When a listener gets control. -/
def calling (args : List Value) (listener : Listener) (s : EventEmitter) : EventEmitter :=
  match listener with
  | .function _ => { s with log := s.log ++ [.called listener args] }
  | .once _ type _ =>
      { removed type listener s with log := (removed type listener s).log ++ [.called listener args] }

@[simp] theorem property_withList (type : String) (list : List Listener) (s : EventEmitter) :
    (withList type list s).property type = .array list := by
  rw [property, withList]
  simp only [Function.update_self]

section exec

variable {α : Type} {s : EventEmitter} {rs : List Int} {type : String} {listener : Listener}
variable {args : List Value} {rest : List Listener}

theorem exec_removeFunction (f : Unit → Method α) :
    (removeFunction type listener >>= f).exec rs s = (f ()).exec rs (removed type listener s) := by
  rw [removeFunction, Prog.bind_assoc, Prog.exec_get_bind, removed, property]
  cases s._events type with
  | some list => rfl
  | none =>
      by_cases hin : type ∈ objectPrototype
      · rw [if_pos hin]
        rfl
      · rw [if_neg hin]
        rfl

theorem exec_callListener (f : Unit → Method α) :
    (callListener listener args rest >>= f).exec rs s =
      .yielded ⟨listener, args, rest⟩ (f ()) (calling args listener s) := by
  cases listener with
  | function g => rfl
  | once id type g =>
      rw [callListener, Prog.bind_assoc]
      exact exec_removeFunction _

theorem exec_callListeners_cons (f : Bool → Method α) :
    (callListeners args (listener :: rest) >>= f).exec rs s =
      .yielded ⟨listener, args, rest⟩ (callListeners args rest >>= f)
        (calling args listener s) := by
  rw [callListeners, Prog.bind_assoc]
  exact exec_callListener _

/-- `this._events[type].push(listener)` -/
def push (type : String) (listener : Listener) : Property → Method Unit
  | .array list => assign type (list ++ [listener])
  | _ => Prog.fail "TypeError"

/-- `addFunction` throws for a name that is inherited and that the object does not have. -/
theorem exec_addFunction (h : s._events type ≠ none ∨ type ∉ objectPrototype) :
    (addFunction type listener).exec rs s =
      .done () (withList type (s.listeners type ++ [listener]) s) := by
  rw [addFunction, Prog.exec_get_bind, property, listeners]
  cases he : s._events type with
  | some list =>
      show (push type listener (s.property type)).exec rs s = _
      rw [property, he]
      rfl
  | none =>
      -- the first listener: an empty list is assigned, and then found again
      have hin : type ∉ objectPrototype := h.resolve_left fun hne => hne he
      rw [if_neg hin]
      show (push type listener ((withList type [] s).property type)).exec rs
        (withList type [] s) = _
      rw [property_withList]
      show Outcome.done () (withList type [listener] (withList type [] s)) = _
      rw [withList, withList, withList, Function.update_idem]
      rfl

end exec

/-! ### The stack -/

section tagged

variable {K : EmitterYield → Method Unit}

theorem tagged_removeFunction {type : String} {listener : Listener} {f : Unit → Method Unit}
    (h : (f ()).Tagged K) : (removeFunction type listener >>= f).Tagged K := by
  rw [removeFunction, Prog.bind_assoc, Prog.tagged_get_bind]
  intro s
  cases s.property type with
  | array list => exact fun _ => h
  | undefined => exact h
  | inherited => exact h

/-- What goes on after a listener is what its tag says. -/
theorem tagged_callListeners (args : List Value) (list : List Listener) :
    (callListeners args list >>= fun result => record (.returned result)).Tagged resume := by
  cases list with
  | nil => exact fun _ => trivial
  | cons listener rest =>
      rw [callListeners, Prog.bind_assoc]
      cases listener with
      | function g => exact fun _ => rfl
      | once id type g =>
          rw [callListener, Prog.bind_assoc]
          exact tagged_removeFunction fun _ => rfl

theorem tagged_addFunction (type : String) (listener : Listener) :
    (addFunction type listener).Tagged K := by
  have hrest : ∀ s : EventEmitter, (push type listener (s.property type)).Tagged K := by
    intro s
    cases s.property type with
    | array list => exact fun _ => trivial
    | undefined => trivial
    | inherited => trivial
  rw [addFunction, Prog.tagged_get_bind]
  intro s
  cases (s.property type).truthy with
  | true => exact hrest
  | false => exact fun _ => hrest

/-- The tags determine the stack of an emitter. -/
theorem machine_tagged : machine.Tagged resume where
  resume u := tagged_callListeners u.args u.rest
  body i := by
    cases i with
    | on type listener =>
        cases listener with
        | some f => exact tagged_addFunction type _
        | none => trivial
    | once type listener =>
        cases listener with
        | some f => exact fun _ _ => tagged_addFunction type _
        | none => trivial
    | removeListener type listener =>
        cases listener with
        | some f =>
            show (removeFunction type (.function f)).Tagged resume
            rw [removeFunction, Prog.tagged_get_bind]
            intro s
            cases s.property type with
            | array list => exact fun _ => trivial
            | undefined => trivial
            | inherited => trivial
        | none => trivial
    | removeAllListeners type => exact fun _ => trivial
    | emit type args =>
        show (emit type args >>= fun result => record (.returned result)).Tagged resume
        rw [emit, Prog.bind_assoc, Prog.tagged_get_bind]
        intro s
        split
        · trivial
        · rw [Prog.bind_assoc, Prog.tagged_get_bind]
          intro s
          cases s.property type with
          | array list => exact tagged_callListeners args list
          | undefined => exact fun _ => trivial
          | inherited => exact fun _ => trivial
    | setListener f listener => exact fun _ => trivial

end tagged

/-! ### What they make of the lists -/

/-- The loop of `removeListener` takes the last match out. -/
theorem spliceFrom_append (p : Listener → Bool) (list post : List Listener) :
    spliceFrom p (list ++ post) list.length = eraseLast p list ++ post := by
  -- the loop runs downwards, so the induction is on the end of the list
  induction list using List.reverseRecOn generalizing post with
  | nil => rfl
  | append_singleton list a ih =>
      have hat : (list ++ [a] ++ post)[list.length]? = some a := by simp
      rw [List.length_append, List.length_singleton, spliceFrom, hat, eraseLast_concat]
      show (if p a = true then _ else _) = _
      by_cases ha : p a = true
      · rw [if_pos ha, if_pos ha, List.append_assoc, List.eraseIdx_append_of_length_le (by simp)]
        simp
      · rw [if_neg ha, if_neg ha, List.append_assoc, ih, List.append_assoc]

theorem spliceFrom_length (p : Listener → Bool) (list : List Listener) :
    spliceFrom p list list.length = eraseLast p list := by
  have h := spliceFrom_append p list []
  rwa [List.append_nil, List.append_nil] at h

theorem listeners_withList (type : String) (list : List Listener) (s : EventEmitter) :
    (withList type list s).listeners = Function.update s.listeners type list := by
  funext name
  by_cases hname : name = type
  · subst hname
    rw [Function.update_self, listeners, withList]
    simp only [Function.update_self, Option.getD_some]
  · rw [Function.update_of_ne hname, listeners, withList]
    simp only [Function.update_of_ne hname]
    rfl

theorem listeners_removed (type : String) (listener : Listener) (s : EventEmitter) :
    (removed type listener s).listeners =
      Function.update s.listeners type (eraseLast (s.isMatch listener) (s.listeners type)) := by
  rw [removed]
  cases he : s._events type with
  | some list =>
      have hlist : s.listeners type = list := by rw [listeners, he, Option.getD_some]
      rw [hlist, ← spliceFrom_length]
      exact listeners_withList type _ s
  | none =>
      have hlist : s.listeners type = [] := by rw [listeners, he, Option.getD_none]
      rw [hlist]
      exact (Function.update_eq_self_iff.mpr hlist.symm).symm

theorem log_removed (type : String) (listener : Listener) (s : EventEmitter) :
    (removed type listener s).log = s.log := by
  rw [removed]
  cases s._events type <;> rfl

theorem registrations_removed (type : String) (listener : Listener) (s : EventEmitter) :
    (removed type listener s).registrations = s.registrations := by
  rw [removed]
  cases s._events type <;> rfl

end IotJs.EventEmitter

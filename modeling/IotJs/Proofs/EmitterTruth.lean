import IotJs.Core.EventEmitter
import IotJs.Lib.Reentrant.Contract

/-!
# `IotJs.Proofs.EmitterTruth`: what `emit` says about the listeners

`emit` answers from the shape of what `_events[type]` holds: an array means that somebody
listens. `removeListener` takes listeners out of the array and leaves the array where it is, and
so does a listener of `once` that is called. So an emitter that lost its last listener in one of
these ways answers `true`, and does not throw for an 'error'. `removeAllListeners` deletes the
property, and then the answer is right.

`emit_truthful_iff` says that the empty array is the only wrong shape, for every state that the
history of an emitter can leave. What `emit` returns is known only when its listeners have
returned: they may do anything meanwhile, and the rules of `Prog.wp` allow for that.
-/

set_option autoImplicit false

namespace IotJs.EventEmitter

open Reentrant

/-- Listeners may do what they like, except throw. -/
def listenersReturn : Env EventEmitter EmitterYield Empty Call where
  call _ _ := True
  answer _ _ _ := True
  returns _ _ := True
  throws _ _ := False

/-- Unless a listener throws, the program does not throw, and what it returns is `result`. -/
def Returns (m : Method Bool) (result : Bool) (s : EventEmitter) : Prop :=
  m.wp listenersReturn .nil .nil (fun _ => False) (fun answer _ => answer = result) s

/-- `emit(type, …)` in the state `s` says whether a listener for `type` is registered. An 'error'
that nobody listens to is thrown, itself when it is an `Error`. -/
structure Truthful (s : EventEmitter) (type : String) (args : List Value) : Prop where
  listened : s.listeners type ≠ [] → Returns (emit type args) true s
  silent : s.listeners type = [] → type ≠ "error" → (emit type args).exec [] s = .done false s
  uncaught : s.listeners type = [] → type = "error" →
    (emit type args).exec [] s = .thrown (uncaught args) s

/-! ### The loop of `emit` -/

section loop

variable {s : EventEmitter} {type : String} {args : List Value}

theorem wp_removeFunction {listener : Listener} {Q : Unit → EventEmitter → Prop}
    (hQ : ∀ t, Q () t) :
    (removeFunction type listener).wp listenersReturn .nil .nil (fun _ => False) Q s := by
  simp only [removeFunction, Prog.wp_bind, Prog.wp_get]
  cases s.property type with
  | array list => exact hQ _
  | undefined => exact hQ _
  | inherited => exact hQ _

/-- A listener gets control and gives it back. -/
theorem wp_callListener {listener : Listener} {rest : List Listener}
    {Q : Unit → EventEmitter → Prop} (hQ : ∀ t, Q () t) :
    (callListener listener args rest).wp listenersReturn .nil .nil (fun _ => False) Q s := by
  have hyield : ∀ t, (record (.called listener args) >>= fun _ =>
      Prog.yieldTo ⟨listener, args, rest⟩).wp listenersReturn .nil .nil (fun _ => False) Q t :=
    fun t => ⟨trivial, fun u _ _ => ⟨fun _ => hQ u, id⟩⟩
  cases listener with
  | function f => exact hyield s
  | once id type f =>
      rw [callListener, Prog.wp_bind]
      exact wp_removeFunction hyield

/-- However the listeners behave, the loop ends with `true`. -/
theorem callListeners_returns (list : List Listener) : Returns (callListeners args list) true s := by
  induction list generalizing s with
  | nil => rfl
  | cons listener rest ih =>
      rw [Returns, callListeners, Prog.wp_bind]
      exact wp_callListener fun t => ih

end loop

section emit

variable {s : EventEmitter} {type : String} {args : List Value}

/-- What `emit` does with what it finds in `_events[type]`. -/
def callAll (args : List Value) : Property → Method Bool
  | .array listeners => callListeners args listeners
  | _ => pure false

/-- Where `_events[type]` is an array, `emit` calls what is in it and returns `true`. -/
theorem emit_of_array {list : List Listener} (h : s._events type = some list) :
    (emit type args).exec [] s = (callListeners args list).exec [] s ∧
      (Returns (callListeners args list) true s → Returns (emit type args) true s) := by
  have hprop : s.property type = .array list := by rw [property, h]
  have herror : ¬ (decide (type = "error") && !(s.property "error").truthy) = true := by
    rw [Bool.and_eq_true, decide_eq_true_eq]
    rintro ⟨rfl, hn⟩
    rw [hprop] at hn
    cases hn
  constructor
  · show (if (decide (type = "error") && !(s.property "error").truthy) = true then _ else _ :
      Method Bool).exec [] s = _
    rw [if_neg herror]
    show (callAll args (s.property type)).exec [] s = _
    rw [hprop]
    rfl
  · intro hreturns
    simp only [Returns, emit, Prog.wp_bind, Prog.wp_get, Prog.wp_ite]
    refine ⟨fun he => absurd he herror, fun _ => ?_⟩
    rw [hprop]
    exact hreturns

/-- Where it is none, `emit` calls nothing: it throws an 'error', and returns `false` otherwise. -/
theorem emit_of_none (h : s._events type = none) :
    (emit type args).exec [] s =
      if type = "error" then .thrown (uncaught args) s else .done false s := by
  by_cases herror : type = "error"
  · subst herror
    rw [if_pos rfl]
    show (if (decide ("error" = "error") && !(s.property "error").truthy) = true then _ else _ :
      Method Bool).exec [] s = _
    rw [property, h]
    rfl
  · rw [if_neg herror]
    show (if (decide (type = "error") && !(s.property "error").truthy) = true then _ else _ :
      Method Bool).exec [] s = _
    rw [decide_eq_false herror, Bool.false_and, if_neg Bool.false_ne_true]
    show (callAll args (s.property type)).exec [] s = _
    rw [property, h]
    by_cases hin : type ∈ objectPrototype
    · rw [if_pos hin]
      rfl
    · rw [if_neg hin]
      rfl

/-- An empty array listens to nothing, and `emit` returns `true`. -/
theorem not_truthful_of_empty (h : s._events type = some []) : ¬ Truthful s type args := by
  intro htrue
  have hnone : s.listeners type = [] := by rw [listeners, h, Option.getD_some]
  -- the loop over no listeners ends at once
  have hexec : (emit type args).exec [] s = .done true s := (emit_of_array h).1
  by_cases herror : type = "error"
  · have hthrown := htrue.uncaught hnone herror
    rw [hexec] at hthrown
    cases hthrown
  · have hsilent := htrue.silent hnone herror
    rw [hexec] at hsilent
    cases hsilent

/-- In every state of an emitter, `emit` is truthful exactly if `_events[type]` is not an empty
array. -/
theorem emit_truthful_iff (s : EventEmitter) (type : String) (args : List Value) :
    Truthful s type args ↔ s._events type ≠ some [] := by
  constructor
  · intro h hempty
    exact not_truthful_of_empty hempty h
  · intro hne
    cases he : s._events type with
    | none =>
        have hnone : s.listeners type = [] := by rw [listeners, he, Option.getD_none]
        have hexec : (emit type args).exec [] s = _ := emit_of_none he
        refine ⟨fun hsome => absurd hnone hsome, fun _ herror => ?_, fun _ herror => ?_⟩
        · rw [hexec, if_neg herror]
        · rw [hexec, if_pos herror]
    | some list =>
        have hlist : s.listeners type = list := by rw [listeners, he, Option.getD_some]
        have hcons : list ≠ [] := by
          rintro rfl
          exact hne he
        refine ⟨fun _ => (emit_of_array he).2 (callListeners_returns list), fun hnone => ?_,
          fun hnone => ?_⟩
        · exact absurd (hlist.symm.trans hnone) hcons
        · exact absurd (hlist.symm.trans hnone) hcons

/-- The only listener for 'error' is removed, and `emit` does not throw. -/
theorem emit_untruthful :
    ¬ ∀ (c : Config EventEmitter EmitterYield Empty) (type : String) (args : List Value),
      machine.Reach .free new c → Truthful c.heap type args := by
  intro hall
  obtain ⟨c, hc, hrun⟩ := Machine.exists_reach_of_run machine .free new
    [.call (.on "error" (some 0)) [], .call (.removeListener "error" (some 0)) []]
    (fun c => decide (c.heap._events "error" = some [])) rfl
  exact not_truthful_of_empty (of_decide_eq_true hrun) (hall c "error" [.error "e"] hc)

end emit

end IotJs.EventEmitter

import IotJs.Proofs.EmitterExec
import IotJs.Spec.ListenerMap

/-!
# `IotJs.Proofs.EmitterRefines`: an emitter is a map from names to lists

`events.js` keeps a list in an own property of `_events`, removes from it by index, and puts a
function of its own around a listener of `once`. `Represents` says which map from names to lists
that stands for, and `simulates` that the two machines make the same moves: the functions that
are called, their arguments and what is still to be called are the same, however deep the
listeners call the emitter again.

Two kinds of calls leave the map. A name that every object inherits is never undefined, so that
`on` finds a function where it expects an array, and throws. And `removeListener` takes out a
function of the application that carries the one to be removed in a property `listener`, as the
functions of `once` do. `asMap` excludes these two.
-/

set_option autoImplicit false

namespace IotJs.EventEmitter

open Reentrant LastMatch ListenerMap

/-- The tags determine the stack of an abstract emitter. -/
theorem tagged_callEach (name : String) (args : List Value) (list : List Entry) :
    (callEach name args list).Tagged ListenerMap.resume := by
  cases list with
  | nil => trivial
  | cons e rest =>
      obtain ⟨f, id⟩ := e
      cases id with
      | none => exact fun _ => rfl
      | some id => exact fun _ _ => rfl

theorem map_tagged : ListenerMap.machine.Tagged ListenerMap.resume where
  resume w := tagged_callEach w.name w.args w.rest
  body i := by
    cases i with
    | on name listener =>
        cases listener with
        | some f => exact fun _ => trivial
        | none => trivial
    | once name listener =>
        cases listener with
        | some f => exact fun _ => trivial
        | none => trivial
    | removeListener name listener =>
        cases listener with
        | some f => exact fun _ => trivial
        | none => trivial
    | removeAllListeners name =>
        cases name with
        | none => exact fun _ => trivial
        | some name => exact fun _ => trivial
    | emit name args => exact fun m => tagged_callEach name args (m.map name)
    | setListener f listener => trivial

/-! ### The simulation -/

/-- The entry that a listener stands for. -/
def entry : Listener → Entry
  | .function f => ⟨f, none⟩
  | .once id _ f => ⟨f, some id⟩

/-- A function of `once` knows the name of its list. -/
def OfType (name : String) : Listener → Prop
  | .function _ => True
  | .once _ type _ => type = name

/-- The calls that the log shows. -/
def callsOf (log : List EmitterObs) : List (Entry × List Value) :=
  log.filterMap fun | .called listener args => some (entry listener, args) | .returned _ => none

/-- The map that an emitter stands for. -/
structure Represents (s : EventEmitter) (m : ListenerMap) : Prop where
  lists : ∀ name, (s.listeners name).map entry = m.map name
  ofType : ∀ name, ∀ listener ∈ s.listeners name, OfType name listener
  registrations : s.registrations = m.registrations
  calls : callsOf s.log = m.calls

/-- The listener that has control, its arguments, and those to be called afterwards. -/
structure RepresentsYield (u : EmitterYield) (w : Waiting) : Prop where
  entry : entry u.listener = w.entry
  args : u.args = w.args
  rest : u.rest.map EventEmitter.entry = w.rest
  ofType : ∀ listener ∈ u.rest, OfType w.name listener

/-- The calls after which an emitter is still a map: `on` and `once` are given a name that is not
inherited, and what `removeListener` takes out is what it was given. -/
def asMap (i : Call) (s : EventEmitter) : Prop :=
  match i with
  | .on type (some _) | .once type (some _) => type ∉ objectPrototype
  | .removeListener type (some f) =>
      ((s.listeners type).reverse.find? (s.isMatch (.function f))).all
        fun item => (entry item).function = f
  | _ => True

instance (i : Call) (s : EventEmitter) : Decidable (asMap i s) := by
  unfold asMap
  split <;> infer_instance

section represents

variable {s : EventEmitter} {m : ListenerMap} {type name : String} {listener : Listener}
variable {args : List Value}

/-- One list changes on both sides. -/
theorem Represents.change {s' : EventEmitter} {list : List Listener} {f : List Entry → List Entry}
    (h : Represents s m) (hs : s'.listeners = Function.update s.listeners type list)
    (hlist : list.map entry = f (m.map type)) (htype : ∀ item ∈ list, OfType type item)
    (hreg : s'.registrations = s.registrations) (hlog : s'.log = s.log) :
    Represents s' (ListenerMap.change type f m) where
  lists name := by
    rw [hs]
    by_cases hname : name = type
    · subst hname
      rw [Function.update_self, change_same, hlist]
    · rw [Function.update_of_ne hname, change_of_ne hname, h.lists]
  ofType name item hitem := by
    rw [hs] at hitem
    by_cases hname : name = type
    · subst hname
      rw [Function.update_self] at hitem
      exact htype item hitem
    · rw [Function.update_of_ne hname] at hitem
      exact h.ofType name item hitem
  registrations := hreg.trans h.registrations
  calls := (congrArg callsOf hlog).trans h.calls

/-- The last match leaves both lists, if it is the same on both sides. -/
theorem Represents.remove {q : Entry → Bool} (h : Represents s m)
    (hq : ∀ item, q (entry item) = true → s.isMatch listener item = true)
    (hlast : ((s.listeners type).reverse.find? (s.isMatch listener)).all fun item =>
      q (entry item)) :
    Represents (removed type listener s) (ListenerMap.change type (eraseLast q) m) := by
  refine h.change (listeners_removed type listener s) ?_ (fun item hitem => ?_)
    (registrations_removed type listener s) (log_removed type listener s)
  · rw [map_eraseLast hq hlast, h.lists]
  · exact h.ofType type item ((eraseLast_sublist _ _).subset hitem)

/-- The function of a registration is the only one that `removeListener` finds for it. -/
theorem isMatch_once (s : EventEmitter) (id : Nat) (type : String) (f : Nat) (item : Listener) :
    s.isMatch (.once id type f) item = decide ((entry item).once = some id) := by
  cases item with
  | function g => simp [isMatch, same, carries, entry]
  | once i t g => simp [isMatch, same, carries, entry]

theorem isMatch_function {f : Nat} {item : Listener} (h : (entry item).function = f) :
    s.isMatch (.function f) item = true := by
  cases item with
  | function g =>
      rw [show g = f from h]
      simp [isMatch, same]
  | once i t g =>
      rw [show g = f from h]
      simp [isMatch, same, carries]

theorem all_find?_self {α : Type} (p : α → Bool) (list : List α) : (list.find? p).all p := by
  cases hf : list.find? p with
  | none => rfl
  | some a =>
      have hp : p a = true := List.find?_some hf
      exact hp

theorem callsOf_append (log : List EmitterObs) (o : EmitterObs) :
    callsOf (log ++ [o]) = callsOf log ++ callsOf [o] :=
  List.filterMap_append

/-- A listener of the list `name` gets control. -/
theorem Represents.calling (h : Represents s m) (htype : OfType name listener)
    (args : List Value) :
    ∃ m', Represents (calling args listener s) m' ∧ ∀ (rest : List Entry) (rs : List Int),
      (callEach name args (entry listener :: rest)).exec rs m =
        .yielded ⟨name, entry listener, args, rest⟩ (callEach name args rest) m' := by
  cases listener with
  | function f =>
      refine ⟨{ m with calls := m.calls ++ [(⟨f, none⟩, args)] }, ⟨h.lists, h.ofType,
        h.registrations, ?_⟩, fun rest rs => rfl⟩
      show callsOf (s.log ++ [_]) = _
      rw [callsOf_append, h.calls]
      rfl
  | once id type f =>
      -- the function of `once` removes itself from the list under its own name
      rw [show type = name from htype]
      have hq : s.isMatch (.once id name f) = fun item => decide ((entry item).once = some id) :=
        funext (isMatch_once s id name f)
      have hremove : Represents (removed name (.once id name f) s)
          (ListenerMap.change name (eraseLast fun e => e.once = some id) m) := by
        refine h.remove (fun item hitem => ?_) ?_
        · rw [hq]
          exact hitem
        · rw [hq]
          exact all_find?_self _ _
      refine ⟨{ ListenerMap.change name (eraseLast fun e => e.once = some id) m with
          calls := m.calls ++ [(⟨f, some id⟩, args)] }, ⟨hremove.lists, hremove.ofType,
        hremove.registrations, ?_⟩, fun rest rs => rfl⟩
      show callsOf ((removed name (.once id name f) s).log ++ [_]) = _
      rw [callsOf_append, hremove.calls]
      rfl

/-- The loop of `emit`, on both sides. -/
theorem matches_callListeners {list : List Listener} (h : Represents s m)
    (htype : ∀ item ∈ list, OfType name item) (rs : List Int) :
    Outcome.Matches Represents RepresentsYield
      ((callListeners args list >>= fun result => record (.returned result)).exec rs s)
      ((callEach name args (list.map entry)).exec rs m) := by
  cases list with
  | nil =>
      refine ⟨⟨h.lists, h.ofType, h.registrations, ?_⟩, .none⟩
      show callsOf (s.log ++ [.returned true]) = m.calls
      rw [callsOf_append, h.calls]
      exact List.append_nil _
  | cons item rest =>
      obtain ⟨m', hm', hexec⟩ := h.calling (htype item List.mem_cons_self) args
      rw [exec_callListeners_cons, List.map_cons, hexec]
      exact ⟨hm', .some ⟨rfl, rfl, rfl, fun i hi => htype i (List.mem_cons_of_mem item hi)⟩⟩

/-- A listener is added. -/
theorem Represents.add (h : Represents s m) (htype : OfType type listener) :
    Represents (withList type (s.listeners type ++ [listener]) s)
      (ListenerMap.change type (· ++ [entry listener]) m) := by
  refine h.change (listeners_withList type _ s) ?_ ?_ rfl rfl
  · rw [List.map_append, h.lists, List.map_singleton]
  · intro item hitem
    rcases List.mem_append.mp hitem with hold | hnew
    · exact h.ofType type item hold
    · rw [List.mem_singleton.mp hnew]
      exact htype

theorem matches_emit (h : Represents s m) (type : String) (args : List Value) (rs : List Int) :
    Outcome.Matches Represents RepresentsYield ((body (.emit type args)).exec rs s)
      ((ListenerMap.body (.emit type args)).exec rs m) := by
  have hlists := h.lists type
  show Outcome.Matches _ _
    ((emit type args >>= fun result => record (.returned result)).exec rs s)
    ((callEach type args (m.map type)).exec rs m)
  rw [← hlists, emit, Prog.bind_assoc, Prog.exec_get_bind]
  by_cases herror : (decide (type = "error") && !(s.property "error").truthy) = true
  · -- nobody listens to 'error', so no entry is called
    have hnone : s._events type = none := by
      rw [Bool.and_eq_true, decide_eq_true_eq] at herror
      rw [herror.1]
      cases he : s._events "error" with
      | none => rfl
      | some list =>
          rw [property, he] at herror
          cases herror.2
    rw [if_pos herror, listeners, hnone]
    exact ⟨h, .none⟩
  · rw [if_neg herror, Prog.bind_assoc, Prog.exec_get_bind, property, listeners]
    cases he : s._events type with
    | some list =>
        have hof : ∀ item ∈ list, OfType type item := by
          have hof := h.ofType type
          rwa [listeners, he] at hof
        exact matches_callListeners h hof rs
    | none =>
        -- there is no list: `emit` returns, also where the name is inherited
        have hreturn : Represents { s with log := s.log ++ [.returned false] } m := by
          refine ⟨h.lists, h.ofType, h.registrations, ?_⟩
          rw [callsOf_append, h.calls]
          exact List.append_nil _
        by_cases hin : type ∈ objectPrototype
        · rw [if_pos hin]
          exact ⟨hreturn, .none⟩
        · rw [if_neg hin]
          exact ⟨hreturn, .none⟩

/-- The two machines make the same moves. -/
theorem emitter_simulates :
    Machine.Simulates Represents RepresentsYield machine ListenerMap.machine resume
      ListenerMap.resume asMap where
  resume u w s t rs hst huw := by
    show Outcome.Matches _ _ (Prog.exec (do
      let result ← callListeners u.args u.rest
      record (.returned result)) rs s) ((callEach w.name w.args w.rest).exec rs t)
    rw [← huw.rest, ← huw.args]
    exact matches_callListeners hst huw.ofType rs
  call i b s t rs hst ha _ := by
    refine ⟨rfl, ?_⟩
    cases i with
    | on type listener =>
        cases listener with
        | some f =>
            have hadd : Represents (withList type (s.listeners type ++ [.function f]) s)
                (ListenerMap.change type (· ++ [⟨f, none⟩]) t) := hst.add trivial
            show Outcome.Matches _ _ ((addFunction type (.function f)).exec rs s) _
            rw [exec_addFunction (.inr ha)]
            exact ⟨hadd, .none⟩
        | none => exact ⟨hst, .none⟩
    | once type listener =>
        cases listener with
        | some f =>
            have hnext : Represents { s with registrations := s.registrations + 1 }
                { t with registrations := t.registrations + 1 } :=
              ⟨hst.lists, hst.ofType, congrArg (· + 1) hst.registrations, hst.calls⟩
            have hof : OfType type (.once s.registrations type f) := rfl
            show Outcome.Matches _ _
              ((addFunction type (.once s.registrations type f)).exec rs
                { s with registrations := s.registrations + 1 }) _
            rw [exec_addFunction (.inr ha)]
            refine ⟨?_, .none⟩
            -- both sides number their registrations alike, so the entries agree
            have hreg : some t.registrations = some s.registrations :=
              congrArg some hst.registrations.symm
            show Represents _ { ListenerMap.change type (· ++ [⟨f, some t.registrations⟩]) t with
              registrations := t.registrations + 1 }
            rw [hreg]
            exact hnext.add hof
        | none => exact ⟨hst, .none⟩
    | removeListener type listener =>
        cases listener with
        | some f =>
            have hexec : (body (.removeListener type (some f))).exec rs s =
                .done () (removed type (.function f) s) := by
              rw [← Prog.bind_pure (body _)]
              exact exec_removeFunction pure
            show Outcome.Matches _ _ ((body (.removeListener type (some f))).exec rs s) _
            rw [hexec]
            exact ⟨hst.remove (fun item hitem => isMatch_function (of_decide_eq_true hitem)) ha,
              .none⟩
        | none => exact ⟨hst, .none⟩
    | removeAllListeners type =>
        cases type with
        | none =>
            refine ⟨⟨fun name => rfl, fun name item hitem => (by cases hitem),
              hst.registrations, hst.calls⟩, .none⟩
        | some type =>
            have hlists : listeners { s with _events := Function.update s._events type none } =
                Function.update s.listeners type [] := by
              funext name
              by_cases hname : name = type
              · subst hname
                rw [Function.update_self, listeners]
                simp only [Function.update_self, Option.getD_none]
              · rw [Function.update_of_ne hname, listeners]
                simp only [Function.update_of_ne hname]
                rfl
            have hclear : Represents { s with _events := Function.update s._events type none }
                (ListenerMap.change type (fun _ => []) t) :=
              hst.change hlists rfl (by simp) rfl rfl
            exact ⟨hclear, .none⟩
    | emit type args => exact matches_emit hst type args rs
    | setListener f listener =>
        exact ⟨⟨hst.lists, hst.ofType, hst.registrations, hst.calls⟩, .none⟩

end represents

/-! ### Runs -/

/-- A map stands for what an emitter is in every run in which `asMap` holds of each call: the map
makes the same moves, and then has the same lists, has made the same calls, and has the same
listeners to call. -/
theorem emitter_refines_map {ms : List (Move Call)} {c : Config EventEmitter EmitterYield Empty}
    (hmeets : machine.Meets (Machine.OnCalls asMap) ⟨new, []⟩ ms)
    (hplay : machine.play ⟨new, []⟩ ms = some c) :
    ∃ d, ListenerMap.machine.play ⟨ListenerMap.empty, []⟩ ms = some d ∧
      Represents c.heap d.heap ∧ List.Forall₂ RepresentsYield c.tags d.tags := by
  have hinit : Config.Related Represents RepresentsYield resume ListenerMap.resume
      (⟨new, []⟩ : Config EventEmitter EmitterYield Empty) ⟨ListenerMap.empty, []⟩ :=
    ⟨⟨fun name => rfl, fun name item hitem => (by cases hitem), rfl, rfl⟩, .nil, nofun, nofun⟩
  obtain ⟨d, hd, hrel⟩ := emitter_simulates.play machine_tagged map_tagged hinit hmeets hplay
  exact ⟨d, hd, hrel.heap, hrel.tags⟩

/-- A listener of `once` between two others, one of which is removed while 'a' is emitted. -/
theorem emitter_refines_map_nested :
    ∃ (c : Config EventEmitter EmitterYield Empty) (d : Config ListenerMap Waiting Empty),
      machine.play ⟨new, []⟩
        [.call (.on "a" (some 0)) [], .call (.once "a" (some 1)) [], .call (.on "a" (some 2)) [],
          .call (.emit "a" [.other 5]) [], .call (.removeListener "a" (some 2)) [], .ret [],
          .ret []] = some c ∧
      d.heap.map "a" = [⟨0, none⟩] ∧ Represents c.heap d.heap ∧
      List.Forall₂ RepresentsYield c.tags d.tags := by
  obtain ⟨d, hd, hrep, htags⟩ := @emitter_refines_map
    [.call (.on "a" (some 0)) [], .call (.once "a" (some 1)) [], .call (.on "a" (some 2)) [],
      .call (.emit "a" [.other 5]) [], .call (.removeListener "a" (some 2)) [], .ret [], .ret []]
    _ (by decide) rfl
  cases hd
  exact ⟨_, _, rfl, rfl, hrep, htags⟩

/-- A listener for a name that every object inherits is not registered. -/
theorem emitter_inherited_name :
    ¬ ∀ (ms : List (Move Call)) (c : Config EventEmitter EmitterYield Empty),
      machine.play ⟨new, []⟩ ms = some c →
      ∃ d, ListenerMap.machine.play ⟨ListenerMap.empty, []⟩ ms = some d ∧
        Represents c.heap d.heap ∧ List.Forall₂ RepresentsYield c.tags d.tags := by
  intro hall
  obtain ⟨d, hd, hrep, -⟩ := hall [.call (.on "constructor" (some 0)) []] _ rfl
  cases hd
  have hlists := hrep.lists "constructor"
  cases hlists

end IotJs.EventEmitter

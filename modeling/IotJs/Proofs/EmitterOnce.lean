import IotJs.Proofs.EmitterExec
import Mathlib.Data.List.Nodup

/-!
# `IotJs.Proofs.EmitterOnce`: how often a listener of `once` runs

The function that `once` registers leaves the list when it is called, and that is all that keeps
it from being called again. `emit` iterates over a copy, so a copy that was made earlier and is
not used up still has it. If a listener emits the same event, the inner `emit` makes a second
copy with the function in it, and both call it.

So a registration is safe as long as one copy at most has it. `oneCopy` says so of a call of
`emit`: no function of `once` in the list still waits in the copy of another `emit`. Then the
registrations that were called, and those that wait in some copy, are all different (`OnceInv`),
and each is called at most once.
-/

set_option autoImplicit false

namespace IotJs.EventEmitter

open Reentrant LastMatch

/-- The registration that a function belongs to, when `once` made it. -/
def onceId : Listener → Option Nat
  | .function _ => none
  | .once id _ _ => some id

/-- The registrations in a list of listeners. -/
def onceIds (list : List Listener) : List Nat :=
  list.filterMap onceId

/-- The registrations whose listener was called, in order. -/
def calledIds (log : List EmitterObs) : List Nat :=
  log.filterMap fun | .called listener _ => onceId listener | .returned _ => none

/-- The listeners that wait in the copies of `emit`. -/
def waiting (tags : List EmitterYield) : List Listener :=
  tags.flatMap EmitterYield.rest

/-- `emit` copies no registration that waits in another copy. -/
def oneCopy (c : Config EventEmitter EmitterYield Empty) : Move Call → Prop
  | .call (.emit type _) _ => ∀ id ∈ onceIds (c.heap.listeners type), id ∉ onceIds (waiting c.tags)
  | _ => True

instance (c : Config EventEmitter EmitterYield Empty) : ∀ m : Move Call, Decidable (oneCopy c m)
  | .call (.emit type _) _ =>
      inferInstanceAs (Decidable (∀ id ∈ onceIds (c.heap.listeners type),
        id ∉ onceIds (waiting c.tags)))
  | .call (.on ..) _ | .call (.once ..) _ | .call (.removeListener ..) _
  | .call (.removeAllListeners _) _ | .call (.setListener ..) _ | .ret _ | .throw => .isTrue trivial

/-! ### The invariant -/

/-- The registrations that were called or wait are all different. `typeOf` is the name that a
registration was made for. -/
structure OnceInv (s : EventEmitter) (waiting : List Listener) (typeOf : Nat → String) :
    Prop where
  listed : ∀ type id t f, .once id t f ∈ s.listeners type →
    id < s.registrations ∧ typeOf id = type ∧ id ∉ calledIds s.log
  waits : ∀ id t f, .once id t f ∈ waiting → id < s.registrations ∧ typeOf id = t
  ofType : ∀ type id t f, .once id t f ∈ s.listeners type → t = type
  single : ∀ type, (onceIds (s.listeners type)).Nodup
  called : ∀ id ∈ calledIds s.log, id < s.registrations
  different : (calledIds s.log ++ onceIds waiting).Nodup

section inv

variable {s s' : EventEmitter} {waits waits' : List Listener} {typeOf : Nat → String}
variable {type : String} {listener : Listener}

theorem mem_onceIds {id : Nat} {list : List Listener} :
    id ∈ onceIds list ↔ ∃ t f, .once id t f ∈ list := by
  rw [onceIds, List.mem_filterMap]
  constructor
  · rintro ⟨item, hitem, hid⟩
    cases item with
    | function g => cases hid
    | once i t f =>
        cases hid
        exact ⟨t, f, hitem⟩
  · rintro ⟨t, f, hitem⟩
    exact ⟨_, hitem, rfl⟩

theorem calledIds_append (log : List EmitterObs) (o : EmitterObs) :
    calledIds (log ++ [o]) = calledIds log ++ calledIds [o] :=
  List.filterMap_append

/-- Lists lose listeners, and so do the copies. -/
theorem OnceInv.shrink (h : OnceInv s waits typeOf)
    (hlists : ∀ type, (s'.listeners type).Sublist (s.listeners type))
    (hwaits : waits'.Sublist waits) (hreg : s'.registrations = s.registrations)
    (hlog : calledIds s'.log = calledIds s.log) : OnceInv s' waits' typeOf where
  listed type id t f hitem := by
    rw [hreg, hlog]
    exact h.listed type id t f ((hlists type).subset hitem)
  waits id t f hitem := by
    rw [hreg]
    exact h.waits id t f (hwaits.subset hitem)
  ofType type id t f hitem := h.ofType type id t f ((hlists type).subset hitem)
  single type := (h.single type).sublist ((hlists type).filterMap onceId)
  called id hid := by
    rw [hlog] at hid
    rw [hreg]
    exact h.called id hid
  different := by
    rw [hlog]
    exact h.different.sublist ((hwaits.filterMap onceId).append_left _)

/-- Nothing changes but entries about other things. -/
theorem OnceInv.log (h : OnceInv s waits typeOf) (result : Bool) :
    OnceInv { s with log := s.log ++ [.returned result] } waits typeOf :=
  h.shrink (fun _ => .refl _) (.refl _) rfl
    ((calledIds_append s.log _).trans (List.append_nil _))

theorem sublist_removed (type : String) (listener : Listener) (s : EventEmitter) (name : String) :
    ((removed type listener s).listeners name).Sublist (s.listeners name) := by
  rw [listeners_removed]
  by_cases hname : name = type
  · subst hname
    rw [Function.update_self]
    exact eraseLast_sublist _ _
  · rw [Function.update_of_ne hname]

/-- A function of the application is added. -/
theorem OnceInv.addFunction (h : OnceInv s waits typeOf) (type : String) (f : Nat) :
    OnceInv (withList type (s.listeners type ++ [.function f]) s) waits typeOf := by
  have hmem : ∀ name id t g,
      .once id t g ∈ (withList type (s.listeners type ++ [.function f]) s).listeners name →
      .once id t g ∈ s.listeners name := by
    intro name id t g hitem
    rw [listeners_withList] at hitem
    by_cases hname : name = type
    · subst hname
      rw [Function.update_self] at hitem
      simpa using hitem
    · rwa [Function.update_of_ne hname] at hitem
  refine ⟨fun name id t g hitem => h.listed name id t g (hmem name id t g hitem), h.waits,
    fun name id t g hitem => h.ofType name id t g (hmem name id t g hitem), fun name => ?_,
    h.called, h.different⟩
  rw [listeners_withList]
  by_cases hname : name = type
  · subst hname
    have hids : onceIds (s.listeners name ++ [.function f]) = onceIds (s.listeners name) :=
      List.filterMap_append.trans (List.append_nil _)
    rw [Function.update_self, hids]
    exact h.single name
  · rw [Function.update_of_ne hname]
    exact h.single name

/-- A new registration is different from all that came before. -/
theorem OnceInv.register (h : OnceInv s waits typeOf) (type : String) :
    OnceInv { s with registrations := s.registrations + 1 } waits
      (Function.update typeOf s.registrations type) := by
  have hold : ∀ id, id < s.registrations →
      Function.update typeOf s.registrations type id = typeOf id :=
    fun id hid => Function.update_of_ne (Nat.ne_of_lt hid) ..
  refine ⟨fun name id t g hitem => ?_, fun id t g hitem => ?_, h.ofType, h.single,
    fun id hid => Nat.lt_succ_of_lt (h.called id hid), h.different⟩
  · obtain ⟨hid, htype, hcalled⟩ := h.listed name id t g hitem
    exact ⟨Nat.lt_succ_of_lt hid, (hold id hid).trans htype, hcalled⟩
  · obtain ⟨hid, htype⟩ := h.waits id t g hitem
    exact ⟨Nat.lt_succ_of_lt hid, (hold id hid).trans htype⟩

/-- The function of the latest registration is added. -/
theorem OnceInv.addOnce {id : Nat} (h : OnceInv s waits typeOf) (hid : id < s.registrations)
    (htype : typeOf id = type) (hcalled : id ∉ calledIds s.log)
    (hnew : ∀ name t g, .once id t g ∉ s.listeners name) (f : Nat) :
    OnceInv (withList type (s.listeners type ++ [.once id type f]) s) waits typeOf := by
  have hmem : ∀ name i t g,
      .once i t g ∈ (withList type (s.listeners type ++ [.once id type f]) s).listeners name →
      .once i t g ∈ s.listeners name ∨ (i = id ∧ t = type ∧ name = type) := by
    intro name i t g hitem
    rw [listeners_withList] at hitem
    by_cases hname : name = type
    · subst hname
      rw [Function.update_self, List.mem_append, List.mem_singleton] at hitem
      rcases hitem with hitem | heq
      · exact .inl hitem
      · cases heq
        exact .inr ⟨rfl, rfl, rfl⟩
    · rw [Function.update_of_ne hname] at hitem
      exact .inl hitem
  refine ⟨fun name i t g hitem => ?_, h.waits, fun name i t g hitem => ?_, fun name => ?_,
    h.called, h.different⟩
  · rcases hmem name i t g hitem with hold | ⟨rfl, rfl, rfl⟩
    · exact h.listed name i t g hold
    · exact ⟨hid, htype, hcalled⟩
  · rcases hmem name i t g hitem with hold | ⟨rfl, rfl, rfl⟩
    · exact h.ofType name i t g hold
    · rfl
  · rw [listeners_withList]
    by_cases hname : name = type
    · subst hname
      have hids : onceIds (s.listeners name ++ [.once id name f]) =
          onceIds (s.listeners name) ++ [id] := List.filterMap_append
      rw [Function.update_self, hids]
      refine (h.single name).append (List.nodup_singleton id) ?_
      intro i hi hi'
      rw [List.mem_singleton] at hi'
      subst hi'
      obtain ⟨t, g, hitem⟩ := mem_onceIds.mp hi
      exact hnew name t g hitem
    · rw [Function.update_of_ne hname]
      exact h.single name

/-- `emit` makes a copy. -/
theorem OnceInv.copy (h : OnceInv s waits typeOf) (type : String)
    (hone : ∀ id ∈ onceIds (s.listeners type), id ∉ onceIds waits) :
    OnceInv s (s.listeners type ++ waits) typeOf := by
  -- the list is now in a copy as well; no registration of it is called or waits already
  refine ⟨h.listed, fun id t f hitem => ?_, h.ofType, h.single, h.called, ?_⟩
  · rcases List.mem_append.mp hitem with hlist | hwait
    · obtain ⟨hid, htype, -⟩ := h.listed type id t f hlist
      exact ⟨hid, htype.trans (h.ofType type id t f hlist).symm⟩
    · exact h.waits id t f hwait
  · have hids : onceIds (s.listeners type ++ waits) =
        onceIds (s.listeners type) ++ onceIds waits := List.filterMap_append
    obtain ⟨hcalled, hwaits, hdisj⟩ := List.nodup_append'.mp h.different
    rw [hids]
    refine List.nodup_append'.mpr ⟨hcalled, List.nodup_append'.mpr ⟨h.single type, hwaits, ?_⟩, ?_⟩
    · exact hone
    · intro id hid hmem
      rcases List.mem_append.mp hmem with hlist | hwait
      · obtain ⟨t, f, hitem⟩ := mem_onceIds.mp hlist
        exact (h.listed type id t f hitem).2.2 hid
      · exact hdisj hid hwait

/-- The next listener of a copy is called. -/
theorem OnceInv.calling (h : OnceInv s (listener :: waits) typeOf) (args : List Value) :
    OnceInv (calling args listener s) waits typeOf := by
  cases listener with
  | function f =>
      exact h.shrink (fun _ => .refl _) (List.sublist_cons_self _ _) rfl
        ((calledIds_append s.log _).trans (List.append_nil _))
  | once id t f =>
      have hreg := registrations_removed t (.once id t f) s
      have hlog : calledIds (EventEmitter.calling args (.once id t f) s).log =
          calledIds s.log ++ [id] := by
        show calledIds ((removed t (.once id t f) s).log ++ [_]) = _
        rw [calledIds_append, log_removed]
        rfl
      obtain ⟨hid, htype⟩ := h.waits id t f List.mem_cons_self
      have hsub := sublist_removed t (.once id t f) s
      -- it was in no list but that of its type, and has left that
      have hgone : ∀ name t' f',
          .once id t' f' ∉ (removed t (.once id t f) s).listeners name := by
        intro name t' f' hitem
        obtain ⟨-, hname, -⟩ := h.listed name id t' f' ((hsub name).subset hitem)
        have heq : name = t := hname.symm.trans htype
        subst heq
        rw [listeners_removed, Function.update_self] at hitem
        have hp : s.isMatch (.once id name f) = fun item => onceId item == some id := by
          funext item
          cases item with
          | function g => rfl
          | once i t'' g => by_cases hi : i = id <;> simp [isMatch, same, carries, onceId, hi]
        rw [hp] at hitem
        have hle : (s.listeners name).countP (fun item => onceId item == some id) ≤ 1 := by
          rw [← List.count_filterMap]
          exact List.nodup_iff_count_le_one.mp (h.single name) id
        have hnone := eraseLast_of_countP_le_one hle _ hitem
        simp [onceId] at hnone
      -- the registration goes over from those that wait to those that were called
      have hdiff : (calledIds s.log ++ [id] ++ onceIds waits).Nodup := by
        have h' := h.different
        rw [List.append_assoc]
        exact h'
      refine ⟨fun name i t' f' hitem => ?_, fun i t' f' hitem => ?_, fun name i t' f' hitem => ?_,
        fun name => ?_, fun i hi => ?_, ?_⟩
      · obtain ⟨hi, hname, hcalled⟩ := h.listed name i t' f' ((hsub name).subset hitem)
        refine ⟨?_, hname, ?_⟩
        · show i < (removed t (.once id t f) s).registrations
          rw [hreg]
          exact hi
        · rw [hlog, List.mem_append, List.mem_singleton]
          rintro (hmem | rfl)
          · exact hcalled hmem
          · exact hgone name t' f' hitem
      · show i < (removed t (.once id t f) s).registrations ∧ _
        rw [hreg]
        exact h.waits i t' f' (List.mem_cons_of_mem _ hitem)
      · exact h.ofType name i t' f' ((hsub name).subset hitem)
      · exact (h.single name).sublist ((hsub name).filterMap onceId)
      · show i < (removed t (.once id t f) s).registrations
        rw [hlog, List.mem_append, List.mem_singleton] at hi
        rw [hreg]
        rcases hi with hi | rfl
        · exact h.called i hi
        · exact hid
      · rw [hlog]
        exact hdiff

end inv

/-! ### Runs -/

section runs

variable {s : EventEmitter} {waits : List Listener} {typeOf : Nat → String} {type : String}
variable {args : List Value} {rs : List Int}

/-- What `emit` leaves when it hands control away or returns. -/
abbrev Leaves (o : Outcome EventEmitter EmitterYield Empty Unit) (waits : List Listener)
    (typeOf : Nat → String) : Prop :=
  OnceInv o.heap (waiting o.tag.toList ++ waits) typeOf

theorem leaves_callListeners {list : List Listener} (h : OnceInv s (list ++ waits) typeOf) :
    Leaves ((callListeners args list >>= fun result => record (.returned result)).exec rs s) waits
      typeOf := by
  cases list with
  | nil => exact h.log true
  | cons listener rest =>
      rw [exec_callListeners_cons]
      have hcalling := h.calling args
      show OnceInv _ (waiting [⟨listener, args, rest⟩] ++ waits) typeOf
      rw [waiting, List.flatMap_singleton]
      exact hcalling

theorem leaves_emit (h : OnceInv s waits typeOf)
    (hone : ∀ id ∈ onceIds (s.listeners type), id ∉ onceIds waits) :
    Leaves ((body (.emit type args)).exec rs s) waits typeOf := by
  show Leaves ((emit type args >>= fun result => record (.returned result)).exec rs s) _ _
  rw [emit, Prog.bind_assoc, Prog.exec_get_bind]
  split
  · exact h
  · rw [Prog.bind_assoc, Prog.exec_get_bind, property]
    cases he : s._events type with
    | some list =>
        have hlist : s.listeners type = list := by rw [listeners, he, Option.getD_some]
        have hcopy := h.copy type hone
        rw [hlist] at hcopy
        exact leaves_callListeners hcopy
    | none =>
        by_cases hin : type ∈ objectPrototype
        · rw [if_pos hin]
          exact h.log false
        · rw [if_neg hin]
          exact h.log false

/-- `on` and `once` add their function, or throw. -/
theorem exec_addFunction_cases (s : EventEmitter) (type : String) (listener : Listener)
    (rs : List Int) :
    (addFunction type listener).exec rs s =
        .done () (withList type (s.listeners type ++ [listener]) s) ∨
      (addFunction type listener).exec rs s = .thrown "TypeError" s := by
  by_cases h : s._events type ≠ none ∨ type ∉ objectPrototype
  · exact .inl (exec_addFunction h)
  · have hnone : s._events type = none := by
      by_contra hne
      exact h (.inl hne)
    have hin : type ∈ objectPrototype := by
      by_contra hne
      exact h (.inr hne)
    refine .inr ?_
    rw [addFunction, Prog.exec_get_bind, property, hnone, if_pos hin]
    show (push type listener (s.property type)).exec rs s = _
    rw [property, hnone, if_pos hin]
    rfl

theorem leaves_body {i : Call} (h : OnceInv s waits typeOf)
    (hone : ∀ type args, i = .emit type args →
      ∀ id ∈ onceIds (s.listeners type), id ∉ onceIds waits) :
    ∃ typeOf', Leaves ((body i).exec rs s) waits typeOf' := by
  cases i with
  | on type listener =>
      refine ⟨typeOf, ?_⟩
      cases listener with
      | some f =>
          show Leaves ((addFunction type (.function f)).exec rs s) _ _
          rcases exec_addFunction_cases s type (.function f) rs with hexec | hexec
          · rw [hexec]
            exact h.addFunction type f
          · rw [hexec]
            exact h
      | none => exact h
  | once type listener =>
      cases listener with
      | some f =>
          have hreg := h.register type
          refine ⟨Function.update typeOf s.registrations type, ?_⟩
          -- the number is taken before `on` runs, which may throw
          show Leaves ((addFunction type (.once s.registrations type f)).exec rs
            { s with registrations := s.registrations + 1 }) _
            (Function.update typeOf s.registrations type)
          rcases exec_addFunction_cases { s with registrations := s.registrations + 1 } type
              (.once s.registrations type f) rs with hexec | hexec
          · rw [hexec]
            refine hreg.addOnce (Nat.lt_succ_self _) (Function.update_self ..) ?_ ?_ f
            · intro hcalled
              exact Nat.lt_irrefl _ (h.called _ hcalled)
            · intro name t g hitem
              exact Nat.lt_irrefl _ (h.listed name _ t g hitem).1
          · rw [hexec]
            exact hreg
      | none => exact ⟨typeOf, h⟩
  | removeListener type listener =>
      refine ⟨typeOf, ?_⟩
      cases listener with
      | some f =>
          show Leaves ((removeFunction type (.function f)).exec rs s) _ _
          rw [← Prog.bind_pure (removeFunction _ _), exec_removeFunction]
          exact h.shrink (sublist_removed type (.function f) s) (.refl _)
            (registrations_removed ..) (congrArg calledIds (log_removed ..))
      | none => exact h
  | removeAllListeners type =>
      refine ⟨typeOf, ?_⟩
      cases type with
      | none => exact h.shrink (fun _ => List.nil_sublist _) (.refl _) rfl rfl
      | some type =>
          refine h.shrink (fun name => ?_) (.refl _) rfl rfl
          show List.Sublist (Option.getD (Function.update s._events type none name) []) _
          by_cases hname : name = type
          · subst hname
            rw [Function.update_self]
            exact List.nil_sublist _
          · rw [Function.update_of_ne hname]
            exact .refl _
  | emit type args => exact ⟨typeOf, leaves_emit h (hone type args rfl)⟩
  | setListener f listener =>
      exact ⟨typeOf, h.listed, h.waits, h.ofType, h.single, h.called, h.different⟩

/-- In every run in which no `emit` copies a registration that still waits in another copy, the
listener of a registration by `once` is called at most once. -/
theorem once_at_most_once {ms : List (Move Call)} {c : Config EventEmitter EmitterYield Empty}
    (hmeets : machine.Meets oneCopy ⟨new, []⟩ ms) (hplay : machine.play ⟨new, []⟩ ms = some c)
    (id : Nat) : (calledIds c.heap.log).count id ≤ 1 := by
  have hinit : OnceInv new (waiting []) fun _ => "" :=
    ⟨fun _ _ _ _ hitem => (by cases hitem), fun _ _ _ hitem => (by cases hitem),
      fun _ _ _ _ hitem => (by cases hitem), fun _ => List.nodup_nil, fun _ hid => (by cases hid),
      List.nodup_nil⟩
  have hinv : ∃ typeOf, OnceInv c.heap (waiting c.tags) typeOf := by
    refine machine_tagged.play (I := fun s tags => ∃ typeOf, OnceInv s (waiting tags) typeOf) ?_
      ⟨_, hinit⟩ hmeets hplay
    rintro c m s' tags' ha ⟨typeOf, h⟩ hstep
    generalize htags : c.tags = tags at h hstep
    cases hstep with
    | call i rs tags hen =>
        rw [waiting, List.flatMap_append]
        refine leaves_body h ?_
        rintro type args rfl
        rw [← htags]
        exact ha
    | ret rs u tags =>
        rw [waiting, List.flatMap_append]
        exact ⟨typeOf, leaves_callListeners h⟩
    | throw u tags => exact ⟨typeOf, h.shrink (fun _ => .refl _) (List.sublist_append_right _ _) rfl rfl⟩
  obtain ⟨typeOf, h⟩ := hinv
  exact List.nodup_iff_count_le_one.mp (List.nodup_append'.mp h.different).1 id

/-- The listener of `once` removes itself before it emits its own event again. -/
theorem once_at_most_once_nested :
    ∃ c : Config EventEmitter EmitterYield Empty,
      machine.play ⟨new, []⟩
        [.call (.once "a" (some 1)) [], .call (.on "a" (some 0)) [], .call (.emit "a" []) [],
          .call (.emit "a" []) [], .ret [], .ret [], .ret []] = some c ∧
      calledIds c.heap.log = [0] ∧ (calledIds c.heap.log).count 0 ≤ 1 :=
  ⟨_, rfl, rfl, @once_at_most_once
    [.call (.once "a" (some 1)) [], .call (.on "a" (some 0)) [], .call (.emit "a" []) [],
      .call (.emit "a" []) [], .ret [], .ret [], .ret []] _ (by decide) rfl 0⟩

/-- A listener that stands before that of `once` emits the event again, and both copies call it. -/
theorem once_called_twice :
    ¬ ∀ (ms : List (Move Call)) (c : Config EventEmitter EmitterYield Empty) (id : Nat),
      machine.play ⟨new, []⟩ ms = some c → (calledIds c.heap.log).count id ≤ 1 := by
  intro hall
  have htwice := hall
    [.call (.on "a" (some 0)) [], .call (.once "a" (some 1)) [], .call (.emit "a" []) [],
      .call (.emit "a" []) [], .ret [], .ret [], .ret [], .ret []] _ 0 rfl
  exact absurd htwice (by decide)

end runs

end IotJs.EventEmitter

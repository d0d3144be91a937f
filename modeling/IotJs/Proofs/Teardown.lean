import IotJs.Core.Teardown
import IotJs.Lib.Reentrant.Parts
import IotJs.Proofs.HandleContract

/-!
# `IotJs.Proofs.Teardown`: the process gives back what it made

The wrappers share nothing, so each of them goes through its stages as it does alone (`wrapping`).
What the process adds is that nobody is left out: once the listeners of 'exit' have returned,
`uv_walk` has closed every handle that was made, and nothing makes another one (`Ordered`). So the
loop is empty when it is closed, and each wrapper is freed behind it.
-/

set_option autoImplicit false

namespace IotJs.Teardown

open Reentrant HandleWrap

/-! ### Many wrappers -/

theorem apart : Apart wrapFocus := by
  intro i j hij w t
  exact Function.update_of_ne hij w t.wraps

/-- Surroundings in which no method comes after the close of its object, and nothing is made in the
last run of the loop. A listener of 'exit' that throws ends the process. -/
def orderly : Env Teardown TeardownYield UvCall Call where
  call
    | .wrap k (.op op), t => reads op = true → (t.wraps k).handle = true
    | .create, t => t.phase ≠ .closing
    | _, _ => True
  answer _ _ _ := True
  returns _ _ := True
  throws u _ := u = .exit

theorem orderly_covers (k : Nat) :
    orderly.Covers (wrapFocus k) (.wrap k) id HandleWrap.orderly where
  answer _ _ _ _ := trivial
  returns _ _ _ := trivial
  throws _ _ h := nomatch h

/-- Each of the wrappers goes through its stages. -/
def wrapping : Contract Teardown := .each wrapFocus lifecycle

theorem enabled_wrap {k : Nat} {i : HandleWrap.Call} {atRest : Bool} {t : Teardown}
    (h : enabled (.wrap k i) atRest t = true) :
    k < t.made ∧ wrapEnabled atRest t (t.wraps k) i = true ∧
      HandleWrap.machine.enabled i atRest (t.wraps k) = true := by
  obtain ⟨-, h⟩ := Bool.and_eq_true_iff.mp h
  obtain ⟨h, hwrap⟩ := Bool.and_eq_true_iff.mp h
  obtain ⟨hmade, hcalled⟩ := Bool.and_eq_true_iff.mp h
  exact ⟨of_decide_eq_true hmade, hcalled, hwrap⟩

/-- What happens to one object. -/
theorem body_keeps {k : Nat} {i : HandleWrap.Call} {atRest : Bool} {t : Teardown}
    (h : wrapping.inv t) (hen : enabled (.wrap k i) atRest t = true)
    (hcall : orderly.call (.wrap k i) t) :
    (onWrap k (HandleWrap.machine.body i)).wp orderly .nil wrapping (wrapping.PostAt atRest t)
      (fun _ => wrapping.PostAt atRest t) t := by
  refine Prog.wp_zoom_postAt apart (orderly_covers k) ?_ fun j _ => ⟨h j, lifecycle.refl _⟩
  have htallied : Tallied (t.wraps k) := h k
  obtain ⟨-, hcalled, hwrap⟩ := enabled_wrap hen
  obtain ⟨-, hwrap⟩ := Bool.and_eq_true_iff.mp hwrap
  cases i with
  | op op => exact Prog.wp_at atRest (op_keeps htallied hcall)
  | event => exact Prog.wp_at atRest (event_keeps htallied (Bool.and_eq_true_iff.mp hwrap).2)
  | walk => exact absurd hcalled Bool.false_ne_true
  | closed =>
      obtain ⟨hwrap, hpending⟩ := Bool.and_eq_true_iff.mp hwrap
      obtain ⟨rfl, -⟩ := Bool.and_eq_true_iff.mp hwrap
      exact closed_keeps htallied hpending
  | drop =>
      have hpost : lifecycle.Post (t.wraps k) { t.wraps k with reachable := false } :=
        ⟨htallied.reach false, id, rfl⟩
      exact hpost.at atRest
  | gc =>
      obtain ⟨hwrap, hfreed⟩ := Bool.and_eq_true_iff.mp hwrap
      obtain ⟨-, hreferenced⟩ := Bool.and_eq_true_iff.mp hwrap
      exact Prog.wp_at atRest (gc_keeps htallied (Bool.not_eq_true' _ ▸ hreferenced)
        (Bool.not_eq_true' _ ▸ hfreed))

/-! ### The order of the end -/

/-- From the end of the loop on, every handle closes, and when the engine is gone every wrapper is
freed. -/
structure Ordered (t : Teardown) : Prop where
  closing : t.phase = .closing ∨ t.phase = .ended → ∀ k < t.made, (t.wraps k).closing = true
  freed : t.phase = .ended → ∀ k < t.made, (t.wraps k).freed = true
  holds : t.aborted = false

/-- Only at rest does the process go on to its next phase. -/
def ordered : Contract Teardown where
  inv := Ordered
  rely t u := u.phase = t.phase
  outer _ _ := True
  refl _ := rfl
  trans h₁ h₂ := h₂.trans h₁
  outer_of_rely _ := trivial
  outer_trans _ _ := trivial

/-- A write to a wrapper, or to nothing that the order depends on. -/
structure Still (noisy : Prop) (t u : Teardown) : Prop where
  phase : u.phase = t.phase
  made : u.made = t.made
  aborted : u.aborted = t.aborted
  onward : ∀ k, Onward noisy (t.wraps k) (u.wraps k)

section still

variable {noisy : Prop} {t u v : Teardown} {k : Nat} {w : HandleWrap}

theorem Still.refl (t : Teardown) : Still noisy t t := ⟨rfl, rfl, rfl, fun _ => .refl _⟩

theorem Still.trans (h₁ : Still noisy t u) (h₂ : Still noisy u v) : Still noisy t v where
  phase := h₂.phase.trans h₁.phase
  made := h₂.made.trans h₁.made
  aborted := h₂.aborted.trans h₁.aborted
  onward k :=
    ⟨(h₂.onward k).closing ∘ (h₁.onward k).closing, (h₂.onward k).freed ∘ (h₁.onward k).freed,
      fun hn => (h₂.onward k).silent hn ∘ (h₁.onward k).silent hn⟩

theorem still_put (h : Onward noisy (t.wraps k) w) : Still noisy t ((wrapFocus k).put w t) where
  phase := rfl
  made := rfl
  aborted := rfl
  onward j := by
    show Onward noisy (t.wraps j) (Function.update t.wraps k w j)
    by_cases hj : j = k
    · rw [hj, Function.update_self]
      exact h
    · rw [Function.update_of_ne hj]
      exact .refl _

theorem Ordered.still (h : Ordered t) (hstill : Still noisy t u) : Ordered u where
  closing hphase k hk :=
    (hstill.onward k).closing (h.closing (hstill.phase ▸ hphase) k (hstill.made ▸ hk))
  freed hphase k hk :=
    (hstill.onward k).freed (h.freed (hstill.phase ▸ hphase) k (hstill.made ▸ hk))
  holds := hstill.aborted.trans h.holds

end still

/-! ### The two loops -/

/-- What a loop over the wrappers does: it handles those of the list, and no outside code runs. -/
structure Swept (handled : HandleWrap → Prop) (ks : List Nat) (t u : Teardown) : Prop where
  still : Still False t u
  posts : ∀ k, lifecycle.Post (t.wraps k) (u.wraps k)
  handle : ∀ k, (u.wraps k).handle = (t.wraps k).handle
  all : ∀ k ∈ ks, handled (u.wraps k)
  stale : u.stale = t.stale
  requests : u.requests = t.requests

section loops

variable {handled : HandleWrap → Prop} {t u v : Teardown} {k : Nat} {ks : List Nat} {w : HandleWrap}
variable {E : Env Teardown TeardownYield UvCall Call} {G C : Contract Teardown}
variable {X : Teardown → Prop} {Q : Unit → Teardown → Prop}

theorem swept_nil (h : ∀ k, Tallied (t.wraps k)) : Swept handled [] t t :=
  ⟨.refl t, fun k => ⟨h k, lifecycle.refl _⟩, fun _ => rfl, nofun, rfl, rfl⟩

theorem Swept.cons (hkeeps : ∀ {w v}, Onward False w v → handled w → handled v)
    (h₁ : Swept handled [k] t u) (h₂ : Swept handled ks u v) : Swept handled (k :: ks) t v where
  still := h₁.still.trans h₂.still
  posts j := ⟨(h₂.posts j).1, lifecycle.trans (h₁.posts j).2 (h₂.posts j).2⟩
  handle j := (h₂.handle j).trans (h₁.handle j)
  all := List.forall_mem_cons.mpr
    ⟨hkeeps (h₂.still.onward k) (h₁.all k List.mem_cons_self), h₂.all⟩
  stale := h₂.stale.trans h₁.stale
  requests := h₂.requests.trans h₁.requests

/-- A wrapper that was handled before. -/
theorem swept_skip (h : ∀ k, Tallied (t.wraps k)) (hk : handled (t.wraps k)) :
    Swept handled [k] t t :=
  have hnone : Swept handled [] t t := swept_nil h
  { hnone with all := fun _ hj => List.mem_singleton.mp hj ▸ hk }

theorem swept_put (h : ∀ k, Tallied (t.wraps k)) (hpost : lifecycle.Post (t.wraps k) w)
    (honward : Onward False (t.wraps k) w) (hhandle : w.handle = (t.wraps k).handle)
    (hk : handled w) : Swept handled [k] t ((wrapFocus k).put w t) := by
  have hget : ∀ P : Nat → HandleWrap → Prop, P k w → (∀ j, P j (t.wraps j)) →
      ∀ j, P j (Function.update t.wraps k w j) := by
    intro P hw hothers j
    by_cases hj : j = k
    · rw [hj, Function.update_self]
      exact hw
    · rw [Function.update_of_ne hj]
      exact hothers j
  refine ⟨still_put honward, ?_, ?_, fun j hj => ?_, rfl, rfl⟩
  · exact hget (fun j v => lifecycle.Post (t.wraps j) v) hpost fun j => ⟨h j, lifecycle.refl _⟩
  · exact hget (fun j v => v.handle = (t.wraps j).handle) hhandle fun _ => rfl
  · rw [List.mem_singleton.mp hj]
    show handled (Function.update t.wraps k w k)
    rw [Function.update_self]
    exact hk

/-- A function of a wrapper that comes to its end. -/
theorem wp_onWrap {p : Wrapping Unit} (hp : ∀ rs, p.exec rs (t.wraps k) = .done () w)
    (hQ : Q () ((wrapFocus k).put w t)) : (onWrap k p).wp E G C X Q t := by
  refine Prog.wp_given _ (Contract.wp_of_exec _ fun rs _ => ?_)
  have hexec : p.exec rs ((wrapFocus k).get t) = .done () w := hp rs
  rw [onWrap, Prog.exec_zoom, hexec]
  exact hQ

theorem wp_uvWalk (h : ∀ k, Tallied (t.wraps k))
    (hQ : ∀ u, Swept (fun w => w.closing = true) ks t u → Q () u) :
    (uvWalk ks).wp E G C X Q t := by
  induction ks generalizing t with
  | nil => exact hQ t (swept_nil h)
  | cons k ks ih =>
      have hrest : ∀ u, Swept (fun w => w.closing = true) [k] t u →
          (uvWalk ks).wp E G C X Q u := fun u hu =>
        ih (fun j => (hu.posts j).1) fun v hv => hQ v (.cons (fun h => h.closing) hu hv)
      refine (Prog.wp_bind ..).mpr ((Prog.wp_get ..).mpr ?_)
      cases hloop : (t.wraps k).inLoop with
      | false =>
          have hclosing : (t.wraps k).closing = true := by
            rw [HandleWrap.inLoop, Bool.or_eq_false_iff, Bool.not_eq_false'] at hloop
            exact hloop.1
          exact hrest t (swept_skip h hclosing)
      | true =>
          obtain ⟨stage, hat⟩ := (h k).stage
          have hgood : Good (t.wraps k) := hat.good (hat.inLoop hloop).1
          show (onWrap k HandleWrap.walk >>= fun _ => uvWalk ks).wp E G C X Q t
          refine (Prog.wp_bind ..).mpr (wp_onWrap (fun rs => exec_walk hgood) (hrest _ ?_))
          cases hclosing : (t.wraps k).closing with
          | true =>
              have hsame : (wrapFocus k).put (t.wraps k) t = t := (wrapFocus k).put_get t
              rw [if_pos rfl, hsame]
              exact swept_skip h hclosing
          | false =>
              rw [if_neg Bool.false_ne_true]
              refine swept_put h ⟨(h k).startClose hclosing none, fun _ => rfl, ?_⟩
                ⟨fun _ => rfl, id, fun _ _ _ => rfl⟩ rfl rfl
              exact (calling_startClose none).trans (calling_of_open hclosing).symm

theorem wp_jerryCleanup (h : ∀ k, Tallied (t.wraps k))
    (hnull : ∀ k ∈ ks, (t.wraps k).handle = false)
    (hQ : ∀ u, Swept (fun w => w.freed = true) ks t u → Q () u) :
    (jerryCleanup ks).wp E G C X Q t := by
  induction ks generalizing t with
  | nil => exact hQ t (swept_nil h)
  | cons k ks ih =>
      obtain ⟨hk, hks⟩ := List.forall_mem_cons.mp hnull
      have hrest : ∀ u, Swept (fun w => w.freed = true) [k] t u →
          (jerryCleanup ks).wp E G C X Q u := fun u hu =>
        ih (fun j => (hu.posts j).1) (fun j hj => (hu.handle j).trans (hks j hj))
          fun v hv => hQ v (.cons (fun h => h.freed) hu hv)
      refine (Prog.wp_bind ..).mpr ((Prog.wp_get ..).mpr ?_)
      cases hfreed : (t.wraps k).freed with
      | true => exact hrest t (swept_skip h hfreed)
      | false =>
          show (onWrap k HandleWrap.destroy >>= fun _ => jerryCleanup ks).wp E G C X Q t
          refine (Prog.wp_bind ..).mpr (wp_onWrap (fun rs => exec_destroy hk) (hrest _ ?_))
          exact swept_put h ⟨(h k).destroy hk hfreed, id, rfl⟩ ⟨id, fun _ => rfl, fun _ => id⟩
            rfl rfl

end loops

/-! ### The process -/

/-- What the two contracts look at is as it was. -/
structure Same (t u : Teardown) : Prop where
  wraps : u.wraps = t.wraps
  phase : u.phase = t.phase
  made : u.made = t.made
  aborted : u.aborted = t.aborted

section process

variable {t u : Teardown} {atRest : Bool} {kinds : Nat → HandleKind}

theorem Same.still {noisy : Prop} (h : Same t u) : Still noisy t u :=
  ⟨h.phase, h.made, h.aborted, fun _ => h.wraps ▸ .refl _⟩

theorem wrapping_post (h : wrapping.inv t) (hwraps : u.wraps = t.wraps) : wrapping.Post t u := by
  have hget : ∀ k, (wrapFocus k).get u = (wrapFocus k).get t := congrFun hwraps
  refine ⟨fun k => ?_, fun k => ?_⟩
  · rw [hget]
    exact h k
  · rw [hget]
    exact lifecycle.refl _

theorem ordered_post {noisy : Prop} (h : Ordered t) (hstill : Still noisy t u) : ordered.Post t u :=
  ⟨h.still hstill, hstill.phase⟩

theorem Same.post (h : (wrapping.and ordered).inv t) (hsame : Same t u) :
    (wrapping.and ordered).Post t u :=
  have hwrapping := wrapping_post h.1 hsame.wraps
  have hordered : ordered.Post t u := ordered_post h.2 (hsame.still : Still False t u)
  ⟨⟨hwrapping.1, hordered.1⟩, hwrapping.2, hordered.2⟩

theorem makeCallback_same : makeCallback.ChangesBy Same := by
  intro t
  refine (Prog.changes_modify _).mpr ?_
  split
  · exact ⟨rfl, rfl, rfl, rfl⟩
  · exact ⟨rfl, rfl, rfl, rfl⟩

theorem wp_same {p : Method Unit} (h : (wrapping.and ordered).inv t) (hp : p.ChangesBy Same) :
    p.wp orderly .nil (wrapping.and ordered) ((wrapping.and ordered).PostAt atRest t)
      (fun _ => (wrapping.and ordered).PostAt atRest t) t :=
  Prog.wp_at atRest ((hp t).wp (fun _ _ => Same.post) _ ⟨h, (wrapping.and ordered).refl t⟩)

/-- An object is used, and JavaScript is called back. -/
theorem wrap_keeps {k : Nat} {i : HandleWrap.Call} (h : (wrapping.and ordered).inv t)
    (hen : enabled (.wrap k i) atRest t = true) (hcall : orderly.call (.wrap k i) t) :
    (callingBack k (HandleWrap.machine.body i)).wp orderly .nil (wrapping.and ordered)
      ((wrapping.and ordered).PostAt atRest t)
      (fun _ => (wrapping.and ordered).PostAt atRest t) t := by
  have hwrapping : (callingBack k (HandleWrap.machine.body i)).wp orderly .nil wrapping
      (wrapping.PostAt atRest t) (fun _ => wrapping.PostAt atRest t) t := by
    refine Prog.wp_intercept (fun _ _ _ => id) (fun _ _ => id) (fun _ _ => id) (fun _ u hu _ => ?_)
      _ (body_keeps h.1 hen hcall) (Prog.hands_trivial _ t)
    refine (Prog.wp_modify ..).mpr (wrapping_post hu ?_)
    split
    · rfl
    · rfl
  -- the order is a matter of the single writes, and each of them is to one wrapper
  have hstill : (callingBack k (HandleWrap.machine.body i)).ChangesBy
      (Still (i = .op .tcpClose)) :=
    .intercept (fun _ => makeCallback_same.mono fun _ _ hsame => hsame.still)
      ((body_onward i).zoom fun _ _ => still_put)
  have hordered : (callingBack k (HandleWrap.machine.body i)).wp orderly wrapping ordered
      (ordered.Post t) (fun _ => ordered.Post t) t :=
    (hstill t).wp (fun _ _ => ordered_post) _ ⟨h.2, ordered.refl t⟩
  have hall : ∀ u, wrapping.PostAt atRest t u ∧ ordered.Post t u →
      (wrapping.and ordered).PostAt atRest t u := by
    intro u hu
    cases atRest with
    | true => exact ⟨⟨hu.1.1, hu.2.1⟩, hu.1.2, trivial⟩
    | false => exact ⟨⟨hu.1.1, hu.2.1⟩, hu.1.2, hu.2.2⟩
  exact Prog.wp_mono hall (fun _ => hall) _ (Prog.wp_and _ hwrapping hordered)

theorem enabled_leave (h : enabled .leave atRest t = true) :
    atRest = true ∧ t.phase = .running ∧ t.idle = true := by
  obtain ⟨-, h⟩ := Bool.and_eq_true_iff.mp h
  obtain ⟨h, hidle⟩ := Bool.and_eq_true_iff.mp h
  obtain ⟨hrest, hphase⟩ := Bool.and_eq_true_iff.mp h
  exact ⟨hrest, eq_of_beq hphase, hidle⟩

theorem enabled_finish (h : enabled .finish atRest t = true) :
    atRest = true ∧ t.phase = .closing ∧ t.idle = true := by
  obtain ⟨-, h⟩ := Bool.and_eq_true_iff.mp h
  obtain ⟨h, hidle⟩ := Bool.and_eq_true_iff.mp h
  obtain ⟨hrest, hphase⟩ := Bool.and_eq_true_iff.mp h
  exact ⟨hrest, eq_of_beq hphase, hidle⟩

theorem pending_of_idle (hidle : t.idle = true) (k : Nat) (hk : k < t.made) :
    (t.wraps k).pending = false := by
  have hall := List.all_eq_true.mp (Bool.and_eq_true_iff.mp hidle).2 k (List.mem_range.mpr hk)
  rwa [Bool.not_eq_true'] at hall

/-- The loop has nothing left to do, and 'exit' is emitted. -/
theorem leave_keeps (h : (wrapping.and ordered).inv t) :
    leave.wp orderly .nil (wrapping.and ordered) ((wrapping.and ordered).PostAt true t)
      (fun _ => (wrapping.and ordered).PostAt true t) t := by
  have hexiting : (wrapping.and ordered).inv { t with phase := .exiting } :=
    ⟨h.1, ⟨fun hphase => hphase.elim nofun nofun, nofun, h.2.holds⟩⟩
  refine (Prog.wp_bind ..).mpr ((Prog.wp_modify ..).mpr ((Prog.wp_bind ..).mpr
    ((Prog.wp_yieldTo ..).mpr ⟨hexiting, fun u _ hu => ?_⟩)))
  have houter : wrapping.outer t u := wrapping.outer_of_rely hu.2.1
  -- a listener that throws leaves the process where it is
  refine ⟨fun _ => ?_, fun _ => ⟨hu.1, houter, trivial⟩⟩
  refine (Prog.wp_bind ..).mpr ((Prog.wp_modify ..).mpr ((Prog.wp_bind ..).mpr
    ((Prog.wp_get ..).mpr (wp_uvWalk hu.1.1 fun v hv => ?_))))
  have hphase : v.phase = .closing := hv.still.phase
  have hordered : Ordered v := {
    closing := fun _ k hk => hv.all k (List.mem_range.mpr (hv.still.made ▸ hk))
    freed := fun hended => nomatch hphase.symm.trans hended
    holds := hv.still.aborted.trans hu.1.2.holds }
  exact ⟨⟨fun k => (hv.posts k).1, hordered⟩,
    fun k => lifecycle.outer_trans (houter k) (lifecycle.outer_of_rely (hv.posts k).2), trivial⟩

/-- The loop is empty when it is closed, and every object is freed behind it. -/
theorem wp_finish {E : Env Teardown TeardownYield UvCall Call} {G C : Contract Teardown}
    {X : Teardown → Prop} {Q : Unit → Teardown → Prop} (h : (wrapping.and ordered).inv t)
    (hphase : t.phase = .closing) (hidle : t.idle = true) (hrest : wrapping.outer (new kinds) t)
    (hQ : ∀ u, Swept (fun w => w.freed = true) (List.range t.made) t u →
      Q () { u with phase := .ended }) : finish.wp E G C X Q t := by
  have hclosing : ∀ k < t.made, (t.wraps k).closing = true := h.2.closing (.inl hphase)
  have hpending : ∀ k < t.made, (t.wraps k).pending = false := pending_of_idle hidle
  have hbusy : t.busy = false := by
    refine List.any_eq_false.mpr fun k hk => ?_
    have hk := List.mem_range.mp hk
    rw [HandleWrap.inLoop, hclosing k hk, hpending k hk]
    exact Bool.false_ne_true
  -- at rest no `onclose` runs, so every close has completed
  have hnull : ∀ k ∈ List.range t.made, (t.wraps k).handle = false := by
    intro k hk
    have hk := List.mem_range.mp hk
    by_contra hhandle
    rw [Bool.not_eq_false] at hhandle
    have hcalling : (t.wraps k).calling = true := by
      rw [calling, hhandle, hclosing k hk, hpending k hk]
      rfl
    exact Bool.false_ne_true ((hrest k).2 hcalling)
  refine (Prog.wp_bind ..).mpr ((Prog.wp_get ..).mpr ?_)
  rw [hbusy]
  exact (Prog.wp_bind ..).mpr (wp_jerryCleanup h.1 hnull fun u hu =>
    (Prog.wp_modify ..).mpr (hQ u hu))

theorem finish_keeps (h : (wrapping.and ordered).inv t) (hphase : t.phase = .closing)
    (hidle : t.idle = true) (hrest : wrapping.outer (new kinds) t) :
    finish.wp orderly .nil (wrapping.and ordered) ((wrapping.and ordered).PostAt true t)
      (fun _ => (wrapping.and ordered).PostAt true t) t := by
  refine wp_finish h hphase hidle hrest fun v hv => ?_
  have hordered : Ordered { v with phase := .ended } := {
    closing := fun _ k hk => (hv.still.onward k).closing
      (h.2.closing (.inl hphase) k (hv.still.made ▸ hk))
    freed := fun _ k hk => hv.all k (List.mem_range.mpr (hv.still.made ▸ hk))
    holds := hv.still.aborted.trans h.2.holds }
  exact ⟨⟨fun k => (hv.posts k).1, hordered⟩, fun k => lifecycle.outer_of_rely (hv.posts k).2,
    trivial⟩

theorem teardown_holds (kinds : Nat → HandleKind) :
    Contract.Holds machine orderly .nil (wrapping.and ordered) (new kinds) where
  init := ⟨fun k => tallied_initialized (kinds k) k, ⟨fun h => h.elim nofun nofun, nofun, rfl⟩⟩
  body i atRest t _ h hen hcall hrest := by
    cases i with
    | create =>
        -- a new handle is open, so it must not come behind `uv_walk`
        have hphase : ¬ (t.phase = .closing ∨ t.phase = .ended) := by
          rintro (hclosing | hended)
          · exact absurd hclosing hcall
          · have hjs : inJs atRest t = true := (Bool.and_eq_true_iff.mp hen).2
            rw [inJs, hended] at hjs
            cases atRest <;> cases hjs
        have hordered : Ordered { t with made := t.made + 1 } :=
          ⟨fun hclosing => absurd hclosing hphase, fun hended => absurd (.inr hended) hphase,
            h.2.holds⟩
        have hwraps : wrapping.Post t { t with made := t.made + 1 } := wrapping_post h.1 rfl
        have hpost : (wrapping.and ordered).Post t { t with made := t.made + 1 } :=
          ⟨⟨hwraps.1, hordered⟩, hwraps.2, rfl⟩
        exact hpost.at atRest
    | request => exact wp_same h fun _ => (Prog.changes_modify _).mpr ⟨rfl, rfl, rfl, rfl⟩
    | complete =>
        refine wp_same h fun _ => (Prog.changes_modify_bind ..).mpr ⟨⟨rfl, rfl, rfl, rfl⟩, ?_⟩
        exact makeCallback_same.bind (fun _ _ => Prog.changes_yieldTo _) _
    | wrap k i => exact wrap_keeps h hen hcall
    | leave =>
        obtain ⟨rfl, -⟩ := enabled_leave hen
        exact leave_keeps h
    | finish =>
        obtain ⟨rfl, hphase, hidle⟩ := enabled_finish hen
        exact finish_keeps h hphase hidle (hrest rfl).2.1

end process

/-! ### Everything is given back -/

/-- What is left of a wrapper when the process has ended. -/
structure Spent (w : HandleWrap) : Prop where
  handle : w.handle = false
  closes : w.log.countP isClose = 1
  frees : w.log.count (.destroyed false) = 1
  called : w.log.count (.onClose .afterClose) = w.log.count (.uvClose (some .afterClose))

/-- Nothing has happened to the wrapper twice, or at the wrong time. -/
structure Sound (w : HandleWrap) : Prop where
  crashed : w.crashed = false
  unread : .nullRead ∉ w.log
  destroyed : .destroyed true ∉ w.log
  closes : w.log.countP isClose ≤ 1
  frees : w.log.count (.destroyed false) ≤ 1

section released

variable {t : Teardown} {w : HandleWrap} {kinds : Nat → HandleKind}

theorem sound_of_tallied (h : Tallied w) : Sound w := by
  obtain ⟨stage, hat⟩ := h.stage
  refine ⟨hat.crashed, hat.unread, hat.destroyed, ?_, ?_⟩
  · rw [h.closes]
    split <;> decide
  · rw [h.frees]
    split <;> decide

theorem spent_of_freed (h : Tallied w) (hclosing : w.closing = true) (hfreed : w.freed = true) :
    Spent w where
  handle := h.freed hfreed
  closes := by rw [h.closes, hclosing, if_pos rfl]
  frees := by rw [h.frees, hfreed, if_pos rfl]
  called := by
    obtain ⟨stage, hat⟩ := h.stage
    have hstage : stage.handle = false := hat.handle.symm.trans (h.freed hfreed)
    rw [hat.called, hat.registered]
    cases stage with
    | closed cb => rfl
    | opened => cases hstage
    | closing cb => cases hstage
    | calling => cases hstage

/-- The last run of the loop goes on until it has nothing left. -/
theorem closing_goes_on (h : (wrapping.and ordered).inv t) (hphase : t.phase = .closing) :
    ∃ i, (i = .finish ∨ i = .complete ∨ ∃ k, i = .wrap k .closed) ∧
      machine.enabled i true t = true := by
  have hcrashed : ∀ k, (t.wraps k).crashed = false := fun k => (sound_of_tallied (h.1 k)).crashed
  have halive : t.alive = true := by
    refine Bool.and_eq_true_iff.mpr ⟨?_, List.all_eq_true.mpr fun k _ => ?_⟩
    · rw [h.2.holds]
      rfl
    · rw [hcrashed k]
      rfl
  have henabled : ∀ {i p}, p = true → machine.enabled i true t = (t.alive && p) →
      machine.enabled i true t = true := fun hp hi =>
    hi.trans (Bool.and_eq_true_iff.mpr ⟨halive, hp⟩)
  cases hidle : t.idle with
  | true =>
      refine ⟨.finish, .inl rfl, henabled ?_ rfl⟩
      rw [hphase, hidle]
      rfl
  | false =>
      -- libuv waits for a request or for the end of a close, and it can come
      rw [idle, Bool.and_eq_false_iff] at hidle
      rcases hidle with hrequests | hpending
      · refine ⟨.complete, .inr (.inl rfl), henabled ?_ rfl⟩
        rw [inLoop, hphase, bne, hrequests]
        rfl
      · obtain ⟨k, hk, hpending⟩ := List.all_eq_false.mp hpending
        rw [Bool.not_eq_true, Bool.not_eq_false'] at hpending
        have hmade : k < t.made := List.mem_range.mp hk
        refine ⟨.wrap k .closed, .inr (.inr ⟨k, rfl⟩), henabled ?_ rfl⟩
        have hclosing : (t.wraps k).closing = true := h.2.closing (.inl hphase) k hmade
        show (decide (k < t.made) && inLoop true t &&
          (!(t.wraps k).crashed && (true && (t.wraps k).closing && (t.wraps k).pending))) = true
        rw [decide_eq_true hmade, inLoop, hphase, hcrashed k, hclosing, hpending]
        rfl

end released

instance : orderly.Testable where
  call
    | .wrap k (.op op), t =>
        inferInstanceAs (Decidable (reads op = true → (t.wraps k).handle = true))
    | .create, t => inferInstanceAs (Decidable (t.phase ≠ .closing))
    | .wrap _ .event, _ | .wrap _ .walk, _ | .wrap _ .closed, _ | .wrap _ .drop, _
    | .wrap _ .gc, _ | .request, _ | .complete, _ | .leave, _ | .finish, _ => .isTrue trivial
  answer _ _ _ := .isTrue trivial
  returns _ _ := .isTrue trivial
  throws u _ := inferInstanceAs (Decidable (u = .exit))

/-- A socket that is closed by hand, and one that is left open, made by a listener of 'exit'. -/
def socketsRun : List (Move Call) :=
  [.call .create [], .call (.wrap 0 (.op .tcpClose)) [], .call (.wrap 0 .closed) [1], .ret [],
    .call .leave [], .call .create [], .ret [], .call (.wrap 1 .closed) [], .call .finish []]

end IotJs.Teardown

import IotJs.Lib.Reentrant.Changes
import IotJs.Lib.Reentrant.Intercept
import IotJs.Lib.Reentrant.Zoom

/-!
# `IotJs.Lib.Reentrant.Parts`: many objects of one kind

A state may hold many objects of one kind, each with an index, that share no field (`Apart`).
Outside code that has control may call any of them. `Contract.each` asks of every part what a
contract asks of one. What a program keeps on its part alone, it keeps among the others
(`Prog.wp_zoom_each`): the others do not move while it runs, and outside code keeps the contract of
all of them. So a contract that was proved of one object holds of each of many.

`Prog.ChangesBy.zoom` is the same for single writes.
-/

set_option autoImplicit false

namespace Reentrant

variable {τ σ υ ω κ μ ι ι' J α : Type}

/-- Parts that share nothing. -/
def Apart (F : J → Focus τ σ) : Prop :=
  ∀ {i j : J}, i ≠ j → ∀ s t, (F i).get ((F j).put s t) = (F i).get t

/-- The contract of each part. -/
def Contract.each (F : J → Focus τ σ) (C : Contract σ) : Contract τ where
  inv t := ∀ j, C.inv ((F j).get t)
  rely t u := ∀ j, C.rely ((F j).get t) ((F j).get u)
  outer t u := ∀ j, C.outer ((F j).get t) ((F j).get u)
  refl t j := C.refl ((F j).get t)
  trans h₁ h₂ j := C.trans (h₁ j) (h₂ j)
  outer_of_rely h j := C.outer_of_rely (h j)
  outer_trans h₁ h₂ j := C.outer_trans (h₁ j) (h₂ j)

/-- Surroundings of the whole that do to one part no more than surroundings of its own would. -/
structure Env.Covers (E : Env τ ω μ ι') (F : Focus τ σ) (f : υ → ω) (g : κ → μ)
    (D : Env σ υ κ ι) : Prop where
  answer : ∀ q t r, E.answer (g q) t r → D.answer q (F.get t) r
  returns : ∀ u t, E.returns (f u) t → D.returns u (F.get t)
  throws : ∀ u t, E.throws (f u) t → D.throws u (F.get t)

section each

variable {F : J → Focus τ σ} {f : υ → ω} {g : κ → μ} {C : Contract σ}

/-- From `t₀` to `t`, the parts other than `i` owe nothing more. -/
def Others (F : J → Focus τ σ) (C : Contract σ) (i : J) (t₀ t : τ) : Prop :=
  ∀ j, j ≠ i → C.Post ((F j).get t₀) ((F j).get t)

theorem Others.put (hF : Apart F) {i : J} {t₀ t : τ} (h : Others F C i t₀ t) (s : σ) :
    Others F C i t₀ ((F i).put s t) := by
  intro j hj
  rw [hF hj]
  exact h j hj

/-- A part and the others are all there is. -/
theorem Others.postAt [DecidableEq J] {i : J} {t₀ t : τ} {atRest : Bool} (h : Others F C i t₀ t)
    (hi : C.PostAt atRest ((F i).get t₀) ((F i).get t)) :
    (Contract.each F C).PostAt atRest t₀ t := by
  have hall : ∀ j, C.PostAt atRest ((F j).get t₀) ((F j).get t) := by
    intro j
    by_cases hj : j = i
    · rw [hj]
      exact hi
    · exact (h j hj).at atRest
  cases atRest with
  | true => exact ⟨fun j => (hall j).1, fun j => (hall j).2⟩
  | false => exact ⟨fun j => (hall j).1, fun j => (hall j).2⟩

/-- What a program keeps on its part, it keeps among the others. -/
theorem Prog.wp_zoom_each [DecidableEq J] (hF : Apart F) {i : J} {E : Env τ ω μ ι'}
    {D : Env σ υ κ ι} (hE : E.Covers (F i) f g D) {X : σ → Prop} {Q : α → σ → Prop} {t₀ : τ} :
    ∀ (p : Prog σ υ κ α) {t : τ}, p.wp D .nil C X Q ((F i).get t) → Others F C i t₀ t →
      (p.zoom (F i) f g).wp E .nil (.each F C) (fun u => X ((F i).get u) ∧ Others F C i t₀ u)
        (fun a u => Q a ((F i).get u) ∧ Others F C i t₀ u) t := by
  intro p
  induction p with
  | ret a => exact fun h ho => ⟨h, ho⟩
  | read k ih => exact fun h ho => ih _ h ho
  | write s k ih =>
      intro t h ho
      refine ih ?_ (ho.put hF s)
      rw [(F i).get_put]
      exact h
  | yield u k ih =>
      intro t h ho
      have hinv : (Contract.each F C).inv t := by
        intro j
        by_cases hj : j = i
        · rw [hj]
          exact h.1
        · exact (ho j hj).1
      refine ⟨hinv, fun t' _ ht' => ?_⟩
      obtain ⟨hk, hthrow⟩ := h.2 _ ⟨trivial, trivial⟩ ⟨ht'.1 i, ht'.2 i⟩
      -- outside code kept the contract of the others too
      have ho' : Others F C i t₀ t' := fun j hj => ⟨ht'.1 j, C.trans (ho j hj).2 (ht'.2 j)⟩
      exact ⟨fun hu => ih (hk (hE.returns u t' hu)) ho',
        fun hu => ⟨hthrow (hE.throws u t' hu), ho'⟩⟩
  | ask q k ih => exact fun h ho r hr => ih r (h r (hE.answer q _ r hr)) ho
  | throw e => exact fun h ho => ⟨h, ho⟩

/-- A program that keeps the contract of its part keeps that of the whole. -/
theorem Prog.wp_zoom_postAt [DecidableEq J] (hF : Apart F) {i : J} {E : Env τ ω μ ι'}
    {D : Env σ υ κ ι} (hE : E.Covers (F i) f g D) {p : Prog σ υ κ α} {t₀ t : τ} {atRest : Bool}
    (hp : p.wp D .nil C (C.PostAt atRest ((F i).get t₀))
      (fun _ => C.PostAt atRest ((F i).get t₀)) ((F i).get t))
    (ho : Others F C i t₀ t) :
    (p.zoom (F i) f g).wp E .nil (.each F C) ((Contract.each F C).PostAt atRest t₀)
      (fun _ => (Contract.each F C).PostAt atRest t₀) t :=
  Prog.wp_mono (fun _ h => h.2.postAt h.1) (fun _ _ h => h.2.postAt h.1) _
    (Prog.wp_zoom_each hF hE p hp ho)

end each

/-- What the writes of a program do to its part, they do to the whole. -/
theorem Prog.ChangesBy.zoom {F : Focus τ σ} {f : υ → ω} {g : κ → μ} {R : σ → σ → Prop}
    {S : τ → τ → Prop} (hR : ∀ t s, R (F.get t) s → S t (F.put s t)) {p : Prog σ υ κ α}
    (hp : p.ChangesBy R) : (p.zoom F f g).ChangesBy S := by
  have hchanges : ∀ (p : Prog σ υ κ α) (t : τ), p.Changes R (F.get t) →
      (p.zoom F f g).Changes S t := by
    intro p
    induction p with
    | ret a => exact fun _ _ => trivial
    | read k ih => exact fun t h => ih _ t h
    | write s k ih =>
        intro t h
        refine ⟨hR t s h.1, ih _ ?_⟩
        rw [F.get_put]
        exact h.2
    | yield u k ih => exact fun _ h t' => ih t' (h (F.get t'))
    | ask q k ih => exact fun t h r => ih r t (h r)
    | throw e => exact fun _ _ => trivial
  exact fun t => hchanges p t (hp (F.get t))

/-- Known code whose writes change the state as those of the program do. -/
theorem Prog.ChangesBy.intercept {R : σ → σ → Prop} {listen : υ → Prog σ ω μ Unit} {f : υ → ω}
    {g : κ → μ} (hlisten : ∀ u, (listen u).ChangesBy R) {p : Prog σ υ κ α} (hp : p.ChangesBy R) :
    (p.intercept listen f g).ChangesBy R := by
  have hchanges : ∀ (p : Prog σ υ κ α) (s : σ), p.Changes R s →
      (p.intercept listen f g).Changes R s := by
    intro p
    induction p with
    | ret a => exact fun _ _ => trivial
    | read k ih => exact fun s h => ih s s h
    | write t k ih => exact fun _ h => ⟨h.1, ih t h.2⟩
    | yield u k ih => exact fun s h => (hlisten u s).bind fun _ _ t => ih t (h t)
    | ask q k ih => exact fun s h r => ih r s (h r)
    | throw e => exact fun _ _ => trivial
  exact fun s => hchanges p s (hp s)

/-- What the writes of a program keep, and outside code does, holds wherever it yields. -/
theorem Prog.hands_of_changes {E : Env σ υ κ ι} {C : Contract σ} {R : σ → σ → Prop}
    {B : σ → Prop} (hR : ∀ s t, B s → R s t → B t) (hC : ∀ s t, B s → C.Post s t → B t) :
    ∀ (p : Prog σ υ κ α) {s : σ}, p.Changes R s → B s →
      p.hands E C (fun _ => B) (fun _ _ => True) s := by
  intro p
  induction p with
  | ret a => exact fun _ _ => trivial
  | read k ih => exact fun hp h => ih _ hp h
  | write t k ih => exact fun hp h => ih hp.2 (hR _ t h hp.1)
  | yield u k ih => exact fun hp h => ⟨h, fun t ht _ => ih (hp t) (hC _ t h ht)⟩
  | ask q k ih => exact fun hp h r _ => ih r (hp r) h
  | throw e => exact fun _ _ => trivial

end Reentrant

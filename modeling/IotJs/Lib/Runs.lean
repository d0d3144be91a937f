import Mathlib.Tactic.Common

/-!
# `IotJs.Lib.Runs`: runs of a step function

A system that answers each move at once is a partial step function: the next state, or `none` where
the move cannot come. `Runs.Reach step A s₀` are the states that its runs reach from `s₀` by moves
that `A` allows. An invariant is a property of the first state that each such step preserves, and
a concrete run is evaluated by `play`.

`along_iff` is about a list of moves and a condition that is exact: a step keeps what holds so far
if and only if the condition is met.

`Ends step good s` says of all runs from `s` at once that they come to an end, and to a good one.
-/

set_option autoImplicit false

namespace Runs

variable {σ ι : Type}

/-- The states that runs from `s₀` reach when each move is one that `A` allows. -/
inductive Reach (step : σ → ι → Option σ) (A : σ → ι → Prop) (s₀ : σ) : σ → Prop
  | start : Reach step A s₀ s₀
  | next {s t : σ} {i : ι} : Reach step A s₀ s → A s i → step s i = some t → Reach step A s₀ t

/-- Every move is allowed. -/
def Free (_ : σ) (_ : ι) : Prop := True

instance (s : σ) (i : ι) : Decidable (Free s i) := .isTrue trivial

section

variable {step : σ → ι → Option σ} {A B : σ → ι → Prop} {s₀ s t : σ}

/-- The induction over runs. -/
theorem Reach.invariant {I : σ → Prop} (hinit : I s₀)
    (hstep : ∀ s i t, I s → A s i → step s i = some t → I t) (h : Reach step A s₀ s) : I s := by
  induction h with
  | start => exact hinit
  | @next s t i _ ha hs ih => exact hstep s i t ih ha hs

theorem Reach.mono (hAB : ∀ s i, A s i → B s i) (h : Reach step A s₀ s) : Reach step B s₀ s := by
  induction h with
  | start => exact .start
  | next _ ha hs ih => exact ih.next (hAB _ _ ha) hs

theorem Reach.trans (h₁ : Reach step A s₀ s) (h₂ : Reach step A s t) : Reach step A s₀ t := by
  induction h₂ with
  | start => exact h₁
  | next _ ha hs ih => exact ih.next ha hs

/-- Make the moves one after the other, each where it is allowed. -/
def play (step : σ → ι → Option σ) (A : σ → ι → Prop) [∀ s i, Decidable (A s i)] :
    σ → List ι → Option σ
  | s, [] => some s
  | s, i :: moves =>
      if A s i then
        match step s i with
        | some t => play step A t moves
        | none => none
      else none

/-- A concrete run reaches the state that it ends in. -/
theorem reach_of_play [∀ s i, Decidable (A s i)] {moves : List ι}
    (h : play step A s moves = some t) : Reach step A s t := by
  induction moves generalizing s with
  | nil =>
      cases h
      exact .start
  | cons i moves ih =>
      rw [play] at h
      split at h
      · rename_i ha
        split at h
        · rename_i u hu
          exact (Reach.start.next ha hu).trans (ih h)
        · cases h
      · cases h

/-- A concrete run that ends in a state with a property that can be tested. -/
theorem exists_reach_of_play (step : σ → ι → Option σ) (A : σ → ι → Prop)
    [∀ s i, Decidable (A s i)] (s₀ : σ) (moves : List ι) (test : σ → Bool)
    (h : (play step A s₀ moves).any test = true) : ∃ t, Reach step A s₀ t ∧ test t = true := by
  obtain ⟨t, ht, htest⟩ := Option.any_eq_true .. |>.mp h
  exact ⟨t, reach_of_play ht, htest⟩

end

/-! ### Lists of moves -/

/-- Make the moves one after the other. -/
def run (step : σ → ι → Option σ) : σ → List ι → Option σ
  | s, [] => some s
  | s, i :: moves => (step s i).bind fun t => run step t moves

/-- Each move is one that `A` allows. -/
def Meets (step : σ → ι → Option σ) (A : σ → ι → Prop) : σ → List ι → Prop
  | _, [] => True
  | s, i :: moves => A s i ∧ ∀ t ∈ step s i, Meets step A t moves

/-- `G` holds of each state that the moves pass. -/
def Along (step : σ → ι → Option σ) (G : σ → Prop) : σ → List ι → Prop
  | s, [] => G s
  | s, i :: moves => G s ∧ ∀ t ∈ step s i, Along step G t moves

section

variable {step : σ → ι → Option σ} {A : σ → ι → Prop} {I G : σ → Prop} {s t : σ}
variable {moves : List ι}

instance Meets.decidable [∀ s i, Decidable (A s i)] (moves : List ι) :
    ∀ s, Decidable (Meets step A s moves) :=
  match moves with
  | [] => fun _ => .isTrue trivial
  | i :: moves => fun s =>
      match h : step s i with
      | none => decidable_of_iff (A s i) (by simp [Meets, h])
      | some t =>
          have := Meets.decidable moves t
          decidable_of_iff (A s i ∧ Meets step A t moves) (by simp [Meets, h])

/-- Where a step leads from `G` to `G` if and only if `A` allows it, a run stays in `G` if and only
if `A` allows each of its moves. -/
theorem along_iff (hstep : ∀ s i t, I s → G s → step s i = some t → I t ∧ (G t ↔ A s i))
    (hinit : I s) (hgood : G s) (hrun : run step s moves = some t) :
    Along step G s moves ↔ Meets step A s moves := by
  induction moves generalizing s with
  | nil => exact iff_of_true hgood trivial
  | cons i moves ih =>
      obtain ⟨u, hu, hrest⟩ := Option.bind_eq_some_iff.mp hrun
      obtain ⟨hinv, hiff⟩ := hstep s i u hinit hgood hu
      rw [Along, Meets]
      simp only [hu, Option.mem_some_iff, forall_eq']
      constructor
      · rintro ⟨-, halong⟩
        have hnext : G u := by
          cases moves with
          | nil => exact halong
          | cons => exact halong.1
        exact ⟨hiff.mp hnext, (ih hinv hnext hrest).mp halong⟩
      · rintro ⟨hallowed, hmeets⟩
        exact ⟨hgood, (ih hinv (hiff.mpr hallowed) hrest).mpr hmeets⟩

end

/-! ### Runs that come to an end -/

/-- No move can come. -/
def Stuck (step : σ → ι → Option σ) (s : σ) : Prop := ∀ i, step s i = none

/-- Whatever the moves, every run from here comes to an end, and where it ends is `good`. -/
inductive Ends (step : σ → ι → Option σ) (good : σ → Prop) : σ → Prop
  | stop {s : σ} : Stuck step s → good s → Ends step good s
  | next {s : σ} : ¬ Stuck step s → (∀ i t, step s i = some t → Ends step good t) →
      Ends step good s

section

variable {step : σ → ι → Option σ} {good bad : σ → Prop} {s t : σ} {i : ι}

theorem not_stuck (hstep : step s i = some t) : ¬ Stuck step s := by
  intro hstuck
  rw [hstuck i] at hstep
  cases hstep

theorem Ends.of_step (h : Ends step good s) (hstep : step s i = some t) : Ends step good t := by
  cases h with
  | stop hstuck _ => exact absurd hstuck (not_stuck hstep)
  | next _ hall => exact hall i t hstep

theorem Ends.of_run (h : Ends step good s) {moves : List ι} (hrun : run step s moves = some t) :
    Ends step good t := by
  induction moves generalizing s with
  | nil =>
      cases hrun
      exact h
  | cons i moves ih =>
      obtain ⟨u, hu, hrest⟩ := Option.bind_eq_some_iff.mp hrun
      exact ih (h.of_step hu) hrest

/-- What holds of a state and is kept holds at an end that is good. -/
theorem Ends.exists_end (h : Ends step good s) (hbad : bad s)
    (hkeeps : ∀ s i t, bad s → step s i = some t → bad t) :
    ∃ t, bad t ∧ Stuck step t ∧ good t := by
  induction h with
  | @stop s hstuck hgood => exact ⟨s, hbad, hstuck, hgood⟩
  | @next s hmoves _ ih =>
      obtain ⟨i, hi⟩ := not_forall.mp hmoves
      obtain ⟨t, hstep⟩ := Option.ne_none_iff_exists'.mp hi
      exact ih i t hstep (hkeeps s i t hbad hstep)

theorem ends_iff_of_stuck (h : Stuck step s) : Ends step good s ↔ good s := by
  refine ⟨fun hends => ?_, .stop h⟩
  cases hends with
  | stop _ hgood => exact hgood
  | next hmoves _ => exact absurd h hmoves

/-- Where there is but one next state, it decides. -/
theorem ends_iff_of_only (hstep : step s i = some t)
    (honly : ∀ j u, step s j = some u → u = t) : Ends step good s ↔ Ends step good t :=
  ⟨fun hends => hends.of_step hstep,
    fun hends => .next (not_stuck hstep) fun j u hu => honly j u hu ▸ hends⟩

end

end Runs

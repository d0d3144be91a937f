import Mathlib.Tactic.Common

/-!
# `IotJs.Lib.Reentrant.Prog`: code that hands control away and is called back

A library function of an event-driven program runs without interruption until it hands
control to code it does not know (a listener, an overridden method). That code may call the
library again before it returns, to any depth. `Prog σ υ κ α` is the syntax of one such
function over a state `σ`:

* `read` / `write` access the state;
* `yield u` hands control to outside code, and `u : υ` says which;
* `ask q` calls a primitive outside the program that answers with a number and calls nothing
  back;
* `throw` leaves the function with an exception.

`Prog.exec` runs a program up to its next `yield`. A `Machine` gives a program to every call
that the surroundings can make, and a `Config` is a state with the stack of the functions
that have yielded and wait for outside code to return. `Machine.step` is the whole
interleaving semantics: whenever outside code has control it may call the machine again,
return to the function on top of the stack, or throw past it. `Reach` collects the
configurations of all runs, under an `Env` that says which calls, answers and throws the
surroundings may use.
-/

set_option autoImplicit false

namespace Reentrant

/-- A program over the state `σ`. It yields to the outside code named by `υ`, and asks the
primitives named by `κ`. -/
inductive Prog (σ υ κ α : Type) : Type where
  | ret (a : α)
  | read (k : σ → Prog σ υ κ α)
  | write (s : σ) (k : Prog σ υ κ α)
  | yield (u : υ) (k : Prog σ υ κ α)
  | ask (q : κ) (k : Int → Prog σ υ κ α)
  | throw (e : String)

namespace Prog

variable {σ υ κ α β : Type}

/-- Sequencing: the continuation `f` runs where the program returns. -/
protected def bind : Prog σ υ κ α → (α → Prog σ υ κ β) → Prog σ υ κ β
  | .ret a, f => f a
  | .read k, f => .read fun s => (k s).bind f
  | .write s k, f => .write s (k.bind f)
  | .yield u k, f => .yield u (k.bind f)
  | .ask q k, f => .ask q fun r => (k r).bind f
  | .throw e, _ => .throw e

instance : Monad (Prog σ υ κ) where
  pure := .ret
  bind := Prog.bind

instance : MonadStateOf σ (Prog σ υ κ) where
  get := .read .ret
  set s := .write s (.ret ())
  modifyGet f := .read fun s => .write (f s).2 (.ret (f s).1)

/-- Hand control to the outside code `u` and go on when it returns. -/
def yieldTo (u : υ) : Prog σ υ κ Unit := .yield u (.ret ())

/-- The answer of the primitive `q`. -/
def askFor (q : κ) : Prog σ υ κ Int := .ask q .ret

/-- Leave with the exception `e`. -/
def fail (e : String) : Prog σ υ κ α := .throw e

end Prog

/-- Where a program stands when it gives control back. -/
inductive Outcome (σ υ κ α : Type) : Type where
  | done (a : α) (s : σ)
  | thrown (e : String) (s : σ)
  | yielded (u : υ) (k : Prog σ υ κ α) (s : σ)

namespace Prog

variable {σ υ κ α : Type}

/-- Run up to the next `yield`. The list holds the answers of the primitives, in order; a
primitive past its end answers `0`. -/
def exec : Prog σ υ κ α → List Int → σ → Outcome σ υ κ α
  | .ret a, _, s => .done a s
  | .read k, rs, s => (k s).exec rs s
  | .write s k, rs, _ => k.exec rs s
  | .yield u k, _, s => .yielded u k s
  | .ask _ k, rs, s => (k (rs.headD 0)).exec rs.tail s
  | .throw e, _, s => .thrown e s

/-- Every answer that `exec` uses is one that `A` allows in the state where it is given. -/
def AnswersOk (A : κ → σ → Int → Prop) : Prog σ υ κ α → List Int → σ → Prop
  | .ret _, _, _ => True
  | .read k, rs, s => (k s).AnswersOk A rs s
  | .write s k, rs, _ => k.AnswersOk A rs s
  | .yield _ _, _, _ => True
  | .ask q k, rs, s => A q s (rs.headD 0) ∧ (k (rs.headD 0)).AnswersOk A rs.tail s
  | .throw _, _, _ => True

end Prog

/-- The calls `ι` that outside code can make. `enabled i atRest s` says whether the call `i`
can come in the state `s`; `atRest` is `true` when no function waits on the stack. -/
structure Machine (σ υ κ ι : Type) where
  body : ι → Prog σ υ κ Unit
  enabled : ι → Bool → σ → Bool

/-- A state, and the functions that wait for outside code to return, innermost first. -/
structure Config (σ υ κ : Type) where
  heap : σ
  stack : List (υ × Prog σ υ κ Unit)

/-- What outside code does when it has control. The list holds the primitives' answers. -/
inductive Move (ι : Type) : Type where
  | call (i : ι) (answers : List Int)
  | ret (answers : List Int)
  | throw

namespace Config

variable {σ υ κ : Type}

/-- The configuration after a function gave control back. A finished function and one that
threw leave nothing behind: the exception is an ordinary result of the call for the outside
code that made it. -/
def settle (stack : List (υ × Prog σ υ κ Unit)) : Outcome σ υ κ Unit → Config σ υ κ
  | .done _ s => ⟨s, stack⟩
  | .thrown _ s => ⟨s, stack⟩
  | .yielded u k s => ⟨s, (u, k) :: stack⟩

end Config

/-- What the surroundings may do: which calls in which states, which answers of a primitive,
and which outside code may return, or throw, in which states. -/
structure Env (σ υ κ ι : Type) where
  call : ι → σ → Prop
  answer : κ → σ → Int → Prop
  returns : υ → σ → Prop
  throws : υ → σ → Prop

/-- The surroundings without any restriction. -/
def Env.free {σ υ κ ι : Type} : Env σ υ κ ι :=
  ⟨fun _ _ => True, fun _ _ _ => True, fun _ _ => True, fun _ _ => True⟩

namespace Machine

variable {σ υ κ ι : Type}

/-- One move. An exception of outside code drops the function that waits for it, up to the
outside code that called that function. -/
def step (M : Machine σ υ κ ι) (c : Config σ υ κ) : Move ι → Option (Config σ υ κ)
  | .call i rs =>
      if M.enabled i c.stack.isEmpty c.heap then
        some (.settle c.stack ((M.body i).exec rs c.heap))
      else none
  | .ret rs =>
      match c.stack with
      | [] => none
      | (_, k) :: st => some (.settle st (k.exec rs c.heap))
  | .throw =>
      match c.stack with
      | [] => none
      | _ :: st => some ⟨c.heap, st⟩

/-- The moves that the environment allows. -/
def Allows (M : Machine σ υ κ ι) (E : Env σ υ κ ι) (c : Config σ υ κ) : Move ι → Prop
  | .call i rs => E.call i c.heap ∧ (M.body i).AnswersOk E.answer rs c.heap
  | .ret rs =>
      match c.stack with
      | [] => True
      | (u, k) :: _ => E.returns u c.heap ∧ k.AnswersOk E.answer rs c.heap
  | .throw =>
      match c.stack with
      | [] => True
      | (u, _) :: _ => E.throws u c.heap

section step

variable {M : Machine σ υ κ ι} {c c' : Config σ υ κ} {rs : List Int}

/-- A call that is made is enabled, and runs its body. -/
theorem step_call {i : ι} (hstep : M.step c (.call i rs) = some c') :
    M.enabled i c.stack.isEmpty c.heap = true ∧
      c' = .settle c.stack ((M.body i).exec rs c.heap) := by
  simp only [step] at hstep
  split at hstep
  · rename_i hen
    exact ⟨hen, (Option.some.inj hstep).symm⟩
  · cases hstep

/-- Outside code returns to the function that waits for it. -/
theorem step_ret (hstep : M.step c (.ret rs) = some c') :
    ∃ u k st, c.stack = (u, k) :: st ∧ c' = .settle st (k.exec rs c.heap) := by
  obtain ⟨s, stack⟩ := c
  cases stack with
  | nil => cases hstep
  | cons f st => exact ⟨f.1, f.2, st, rfl, (Option.some.inj hstep).symm⟩

/-- Outside code throws past the function that waits for it. -/
theorem step_throw (hstep : M.step c .throw = some c') :
    ∃ f st, c.stack = f :: st ∧ c' = ⟨c.heap, st⟩ := by
  obtain ⟨s, stack⟩ := c
  cases stack with
  | nil => cases hstep
  | cons f st => exact ⟨f, st, rfl, (Option.some.inj hstep).symm⟩

end step

/-- The configurations that runs from the state `s₀` reach when every move is allowed. -/
inductive Reach (M : Machine σ υ κ ι) (E : Env σ υ κ ι) (s₀ : σ) : Config σ υ κ → Prop
  | start : Reach M E s₀ ⟨s₀, []⟩
  | next {c c' : Config σ υ κ} {m : Move ι} :
      Reach M E s₀ c → M.Allows E c m → M.step c m = some c' → Reach M E s₀ c'

end Machine

theorem Prog.answersOk_free {σ υ κ α : Type} (p : Prog σ υ κ α) (rs : List Int) (s : σ) :
    p.AnswersOk (fun _ _ _ => True) rs s := by
  induction p generalizing rs s with
  | ret a => trivial
  | read k ih => exact ih s rs s
  | write t k ih => exact ih rs t
  | yield u k => trivial
  | ask q k ih => exact ⟨trivial, ih _ rs.tail s⟩
  | throw e => trivial

/-- In free surroundings every step belongs to a run. -/
theorem Machine.Reach.step {σ υ κ ι : Type} {M : Machine σ υ κ ι} {s₀ : σ}
    {c c' : Config σ υ κ} {m : Move ι} (hc : M.Reach .free s₀ c) (hstep : M.step c m = some c') :
    M.Reach .free s₀ c' := by
  refine hc.next ?_ hstep
  cases m with
  | call i rs => exact ⟨trivial, Prog.answersOk_free ..⟩
  | ret rs =>
      obtain ⟨s, stack⟩ := c
      cases stack with
      | nil => trivial
      | cons f st => exact ⟨trivial, Prog.answersOk_free ..⟩
  | throw =>
      obtain ⟨s, stack⟩ := c
      cases stack with
      | nil => trivial
      | cons f st => trivial

/-! ### Evaluating a concrete run -/

/-- Surroundings that can be tested, one move after the other. -/
class Env.Testable {σ υ κ ι : Type} (E : Env σ υ κ ι) where
  call : ∀ i s, Decidable (E.call i s)
  answer : ∀ q s r, Decidable (E.answer q s r)
  returns : ∀ u s, Decidable (E.returns u s)
  throws : ∀ u s, Decidable (E.throws u s)

instance {σ υ κ ι : Type} : (Env.free : Env σ υ κ ι).Testable where
  call _ _ := .isTrue trivial
  answer _ _ _ := .isTrue trivial
  returns _ _ := .isTrue trivial
  throws _ _ := .isTrue trivial

/-- The answers of a finite run can be tested. -/
def Prog.decidableAnswersOk {σ υ κ α : Type} {A : κ → σ → Int → Prop}
    (dec : ∀ q s r, Decidable (A q s r)) :
    ∀ (p : Prog σ υ κ α) (rs : List Int) (s : σ), Decidable (p.AnswersOk A rs s)
  | .ret _, _, _ => .isTrue trivial
  | .read k, rs, s => decidableAnswersOk dec (k s) rs s
  | .write s k, rs, _ => decidableAnswersOk dec k rs s
  | .yield _ _, _, _ => .isTrue trivial
  | .ask q k, rs, s =>
      @instDecidableAnd _ _ (dec q s (rs.headD 0))
        (decidableAnswersOk dec (k (rs.headD 0)) rs.tail s)
  | .throw _, _, _ => .isTrue trivial

namespace Machine

variable {σ υ κ ι : Type}

instance {M : Machine σ υ κ ι} {E : Env σ υ κ ι} [dec : E.Testable] :
    ∀ (c : Config σ υ κ) (m : Move ι), Decidable (M.Allows E c m)
  | c, .call i rs =>
      @instDecidableAnd _ _ (dec.call i c.heap)
        (Prog.decidableAnswersOk dec.answer (M.body i) rs c.heap)
  | ⟨_, []⟩, .ret _ => .isTrue trivial
  | ⟨s, (u, k) :: _⟩, .ret rs =>
      @instDecidableAnd _ _ (dec.returns u s) (Prog.decidableAnswersOk dec.answer k rs s)
  | ⟨_, []⟩, .throw => .isTrue trivial
  | ⟨s, (u, _) :: _⟩, .throw => dec.throws u s

/-- A list of moves, each tested before it is made. -/
def run (M : Machine σ υ κ ι) (E : Env σ υ κ ι) [E.Testable] :
    Config σ υ κ → List (Move ι) → Option (Config σ υ κ)
  | c, [] => some c
  | c, m :: ms => if M.Allows E c m then (M.step c m).bind fun c' => M.run E c' ms else none

/-- A run from a reachable configuration stays reachable. -/
theorem Reach.run {M : Machine σ υ κ ι} {E : Env σ υ κ ι} [E.Testable] {s₀ : σ}
    {c c' : Config σ υ κ} {ms : List (Move ι)} (h : M.Reach E s₀ c)
    (hr : M.run E c ms = some c') : M.Reach E s₀ c' := by
  induction ms generalizing c with
  | nil =>
      cases hr
      exact h
  | cons m ms ih =>
      rw [Machine.run] at hr
      split at hr
      · rename_i hallow
        obtain ⟨d, hd, hr⟩ := Option.bind_eq_some_iff.mp hr
        exact ih (h.next hallow hd) hr
      · cases hr

/-- To exhibit a reachable configuration with a decidable property, give its moves. -/
theorem exists_reach_of_run (M : Machine σ υ κ ι) (E : Env σ υ κ ι) [E.Testable] (s₀ : σ)
    (ms : List (Move ι)) (p : Config σ υ κ → Bool) (h : (M.run E ⟨s₀, []⟩ ms).any p = true) :
    ∃ c, M.Reach E s₀ c ∧ p c = true := by
  cases hr : M.run E ⟨s₀, []⟩ ms with
  | none => simp [hr] at h
  | some c => exact ⟨c, Reach.run .start hr, by simpa [hr] using h⟩

end Machine

end Reentrant

import IotJs.Proofs.EventLoopSteps
import Mathlib.Data.List.Nodup
import Mathlib.Data.List.Perm.Basic

/-!
# `IotJs.Proofs.EventLoopTicks`: no callback of `process.nextTick` is lost

A registered callback stands in one of three places: it was started, it is in the queue, or it is
in the private copy of a drain that has not come to it yet. The tags of the functions that wait
show these copies, however deep the drains are nested, so that the three places together hold
every registration once (`Account`). What handles an exception touches none of them: it goes on,
or it ends the process.

The main loop is at the bottom of the stack. It leaves when `uv_run` found nothing alive, the
drain left the queue empty, and nothing is alive after the drain either. No function waits then,
so every registered callback was started.
-/

set_option autoImplicit false

namespace IotJs.Process

open Reentrant

/-! ### The invariant -/

/-- The callbacks of a private copy that the drain has not come to. -/
def Next.waiting : Next → List Nat
  | .drain rest _ => rest
  | _ => []

def Tag.waiting : Tag → List Nat
  | .outside _ next => next.waiting
  | _ => []

/-- The callbacks that wait in the private copies of all drains. -/
def waiting (tags : List Tag) : List Nat :=
  tags.flatMap Tag.waiting

def Caller.isBottom : Caller → Bool
  | .callback => false
  | _ => true

/-- What follows is at the bottom of the stack: `iotjs_run` or the main loop. -/
def Next.isBottom : Next → Bool
  | .drain _ caller => caller.isBottom
  | .onNextTick caller => caller.isBottom
  | .enterLoop => true
  | .return => false

def Tag.isBottom : Tag → Bool
  | .outside _ next => next.isBottom
  | _ => true

/-- The main loop waits under all others. -/
def BottomLast : List Tag → Prop
  | [] => True
  | tag :: tags => (tag.isBottom = true → tags = []) ∧ BottomLast tags

/-- Every registration was started, or waits in a private copy, or is in the queue. -/
def Account (s : Process) (copies : List Nat) : Prop :=
  (s.started ++ copies ++ s.nextTickQueue).Perm (List.range s.registrations)

/-- No callback is lost, and the loop is left with nothing to do. -/
structure TicksInv (s : Process) (tags : List Tag) : Prop where
  account : Account s (waiting tags)
  bottom : BottomLast tags
  left : s.phase = .left → tags = [] ∧ s.nextTickQueue = [] ∧ s.alive = false

/-- What holds when `next` is about to go on, over the functions that wait. -/
structure Ready (s : Process) (next : Next) (tags : List Tag) : Prop where
  account : Account s (next.waiting ++ waiting tags)
  bottom : next.isBottom = true → tags = []
  below : BottomLast tags
  phase : s.phase ≠ .left

section inv

variable {s s' : Process} {next : Next} {tags tags' : List Tag} {caller : Caller}

/-- Outside code gets control, and `next` waits for it. -/
theorem Ready.yield (h : Ready s next tags) (point : Point) (isExiting hasExited : Bool) :
    TicksInv { s with _exiting := isExiting, exited := hasExited } (.outside point next :: tags) :=
  ⟨h.account, ⟨h.bottom, h.below⟩, fun hleft => absurd hleft h.phase⟩

/-- The queue becomes the private copy of a drain. -/
theorem Ready.copy (h : Ready s (.onNextTick caller) tags) :
    Ready { s with nextTickQueue := [] } (.drain s.nextTickQueue caller) tags := by
  refine ⟨?_, h.bottom, h.below, h.phase⟩
  have hperm : (s.started ++ waiting tags ++ s.nextTickQueue).Perm (List.range s.registrations) :=
    h.account
  show (s.started ++ (s.nextTickQueue ++ waiting tags) ++ []).Perm (List.range s.registrations)
  refine List.Perm.trans ?_ hperm
  rw [List.append_nil, List.append_assoc]
  exact List.perm_append_comm.append_left s.started

/-- A drain starts the callbacks of its copy, one after the other, and its answer reaches its
caller. -/
theorem Ready.drained {rest : List Nat} (h : Ready s (.drain rest caller) tags) :
    TicksInv (drained s caller rest).1 ((drained s caller rest).2 ++ tags) := by
  cases rest with
  | nil =>
      refine ⟨h.account, h.below, fun hleft => ?_⟩
      change answered s caller = .left at hleft
      cases caller with
      | callback => exact absurd hleft h.phase
      | runMain => cases hleft
      | loop more =>
          rw [answered] at hleft
          split at hleft
          · exact absurd hleft h.phase
          · rename_i hdone
            -- the queue is empty, and nothing is alive after the drain either
            simp only [Bool.or_eq_true, Bool.not_eq_true', List.isEmpty_eq_false_iff, not_or,
              not_not, Bool.not_eq_true] at hdone
            exact ⟨h.bottom rfl, hdone.1.2, hdone.2⟩
  | cons callback rest =>
      refine ⟨?_, ⟨h.bottom, h.below⟩, fun hleft => absurd hleft h.phase⟩
      have hperm : (s.started ++ (callback :: rest ++ waiting tags) ++ s.nextTickQueue).Perm
          (List.range s.registrations) := h.account
      show (s.started ++ [callback] ++ (rest ++ waiting tags) ++ s.nextTickQueue).Perm
        (List.range s.registrations)
      rw [List.append_assoc s.started]
      exact hperm

theorem Ready.proceeded (h : Ready s next tags) :
    TicksInv (proceeded s next).1 ((proceeded s next).2 ++ tags) := by
  cases next with
  | drain rest caller => exact h.drained
  | onNextTick caller => exact h.copy.drained
  | enterLoop => exact ⟨h.account, h.below, nofun⟩
  | «return» => exact ⟨h.account, h.below, fun hleft => absurd hleft h.phase⟩

/-- The loop is not left while a function waits. -/
theorem TicksInv.phase {tag : Tag} (h : TicksInv s (tag :: tags)) : s.phase ≠ .left := by
  intro hleft
  cases (h.left hleft).1

/-- Outside code that has control calls something new. -/
theorem TicksInv.called {tag : Tag} (h : TicksInv s (tag :: tags)) (next : Next)
    (hwaiting : next.waiting = []) (hbottom : next.isBottom = false) :
    Ready s next (tag :: tags) := by
  refine ⟨?_, ?_, h.bottom, h.phase⟩
  · rw [hwaiting]
    exact h.account
  · rw [hbottom]
    exact nofun

/-- The outside code of a tag is finished with. -/
theorem TicksInv.popped {tag : Tag} (h : TicksInv s (tag :: tags))
    (hwaiting : next.waiting = tag.waiting) (hbottom : next.isBottom = true → tag.isBottom = true) :
    Ready s next tags := by
  refine ⟨?_, fun hb => h.bottom.1 (hbottom hb), h.bottom.2, h.phase⟩
  rw [hwaiting]
  exact h.account

/-- Every step keeps the account. -/
theorem TicksInv.step {m : Move Call} (h : TicksInv s tags) (hstep : Stepped s tags m s' tags') :
    TicksInv s' tags' := by
  cases hstep with
  | run hphase =>
      refine ⟨h.account, ⟨fun _ => rfl, h.bottom⟩, fun hleft => ?_⟩
      rw [hphase] at hleft
      cases hleft
  | iterate hphase =>
      refine ⟨h.account, ⟨fun _ => rfl, h.bottom⟩, fun hleft => ?_⟩
      rw [hphase] at hleft
      cases hleft
  | @nextTick _ tag tags =>
      refine ⟨?_, h.bottom, fun hleft => absurd hleft h.phase⟩
      show (s.started ++ waiting (tag :: tags) ++ (s.nextTickQueue ++ [s.registrations])).Perm
        (List.range (s.registrations + 1))
      rw [List.range_succ, ← List.append_assoc]
      exact List.Perm.append_right [s.registrations] h.account
  | onNextTick =>
      have hready := h.called (.onNextTick .callback) rfl rfl
      exact hready.proceeded
  | makeCallback =>
      have hready := h.called (.onNextTick .callback) rfl rfl
      exact hready.yield .function s._exiting s.exited
  | exit =>
      have hready := h.called .return rfl rfl
      exact hready.yield _ _ _
  | listen => exact ⟨h.account, h.bottom, h.left⟩
  | activate => exact ⟨h.account, h.bottom, fun hleft => absurd hleft h.phase⟩
  | @handle _ tag tags =>
      have hready : Ready s tag.handled tags := by
        cases tag with
        | main => exact h.popped rfl fun _ => rfl
        | uvRun => exact h.popped rfl fun _ => rfl
        | outside point next => exact h.popped rfl id
      exact hready.yield _ _ _
  | @proceed _ tag tags =>
      have hready : Ready s (tag.next s) tags := by
        cases tag with
        | main => exact h.popped rfl fun _ => rfl
        | uvRun => exact h.popped rfl fun _ => rfl
        | outside point next => exact h.popped rfl id
      exact hready.proceeded

end inv

/-! ### Runs -/

/-- Each registered callback was started once, or waits once in a drain that is going on, or is
once in the queue. Where the loop was left, each was started, and nothing is left to do. -/
structure TicksKept (c : Config Process Tag Ask) : Prop where
  accounted : ∀ i < c.heap.registrations,
    c.heap.started.count i + (waiting c.tags).count i + c.heap.nextTickQueue.count i = 1
  left : c.heap.phase = .left →
    c.heap.nextTickQueue = [] ∧ c.heap.alive = false ∧
      ∀ i < c.heap.registrations, c.heap.started.count i = 1

/-- When the program returns, its answer says whether the queue is non-empty, whatever outside
code did meanwhile. -/
def AnswersQueue (m : Method Bool) : Prop :=
  ∀ s, m.wp (Env.free : Env Process Tag Ask Call) .nil .nil (fun _ => True)
    (fun more t => more = true ↔ t.nextTickQueue ≠ []) s

theorem drain_answers (caller : Caller) (rest : List Nat) : AnswersQueue (drain caller rest) := by
  induction rest with
  | nil =>
      intro s
      show (!s.nextTickQueue.isEmpty) = true ↔ s.nextTickQueue ≠ []
      rw [Bool.not_eq_true', List.isEmpty_eq_false_iff]
  | cons callback rest ih =>
      intro s
      rw [drain, Prog.wp_bind, Prog.wp_modify, Prog.wp_bind]
      refine ⟨trivial, fun t _ _ => ⟨fun _ => ?_, fun _ => trivial⟩⟩
      refine (Prog.wp_bind ..).mpr ?_
      exact Prog.wp_mono (fun _ => id) (fun _ u _ => ih u) _ (Prog.wp_trivial _ t)

/-- In every run each registered callback is started exactly once or still waits, `_onNextTick`
answers whether the queue is non-empty, and the main loop is left with an empty queue and nothing
alive, when every callback was started. -/
theorem no_tick_lost {ms : List (Move Call)} {c : Config Process Tag Ask}
    (hmeets : machine.Meets running ⟨start, []⟩ ms)
    (hplay : machine.play ⟨start, []⟩ ms = some c) :
    TicksKept c ∧ ∀ caller, AnswersQueue (_onNextTick caller) := by
  have hinit : TicksInv start [] := ⟨List.Perm.refl [], trivial, nofun⟩
  have hinv : TicksInv c.heap c.tags := by
    refine machine_tagged.play ?_ hinit hmeets hplay
    intro c m s' tags' ha h hstep
    refine h.step (stepped_of_tagStep ?_ hstep)
    rintro rfl
    cases ha
  have hcount : ∀ i < c.heap.registrations,
      c.heap.started.count i + (waiting c.tags).count i + c.heap.nextTickQueue.count i = 1 := by
    intro i hi
    have hperm := hinv.account.count_eq i
    rw [List.count_append, List.count_append] at hperm
    rw [hperm]
    exact List.count_eq_one_of_mem (List.nodup_range) (List.mem_range.mpr hi)
  refine ⟨⟨hcount, fun hleft => ?_⟩, fun caller s => drain_answers caller s.nextTickQueue _⟩
  obtain ⟨htags, hqueue, halive⟩ := hinv.left hleft
  refine ⟨hqueue, halive, fun i hi => ?_⟩
  have h := hcount i hi
  rw [htags, hqueue] at h
  simpa [waiting] using h

/-- The main script and a callback register one callback each; the second one runs in the first
round of the loop, which is the last. -/
theorem no_tick_lost_left :
    ∃ c : Config Process Tag Ask, c.heap.phase = .left ∧ c.heap.started = [0, 1] ∧
      TicksKept c ∧ ∀ caller, AnswersQueue (_onNextTick caller) :=
  ⟨_, rfl, rfl, @no_tick_lost
    [.call .run [], .call .nextTick [], .ret [0], .call .nextTick [], .ret [0], .call .iterate [],
      .ret [], .ret [0]] _ (by decide) rfl⟩

end IotJs.Process

import IotJs.Proofs.EventLoopOrder

/-!
# `IotJs.Proofs.EventLoopDispatch`: what waits when `uv_run` calls JavaScript

`uv_run` has control where its tag stands alone on the stack, and from there it dispatches I/O,
timer and close callbacks. The queue is drained before it gets there: after the main script,
after every function that native code calls, and between two rounds of the loop. But each drain
takes one copy and leaves what its own callbacks register. Such a callback waits until the next
drain, and `uv_run` may dispatch before that.

A registration is `covered` while some function waits that drains after it: the main script, or
a function called through `iotjs_make_callback`. If every registration is, and the main script
does not skip its drain by an exception, the queue is empty whenever nothing on the stack drains.
-/

set_option autoImplicit false

namespace IotJs.Process

open Reentrant

/-- A drain follows when the outside code of the tag returns. -/
def Tag.drainsLater : Tag → Bool
  | .main => true
  | .uvRun => false
  | .outside _ next => next.isDrain

/-- Some function on the stack drains later. -/
def covered (tags : List Tag) : Bool := tags.any Tag.drainsLater

/-- A callback is registered where a drain follows, and the main script leaves no callback by an
exception, which skips its drain. -/
def Covered (c : Config Process Tag Ask) : Move Call → Prop
  | .call i _ => i = .nextTick → covered c.tags = true
  | .ret rs => c.tags.head? = some .main → rs.headD 0 ≠ 0 → c.heap.nextTickQueue = []
  | .throw => True

instance (c : Config Process Tag Ask) : ∀ m : Move Call, Decidable (Covered c m)
  | .call _ _ => inferInstanceAs (Decidable (_ → _))
  | .ret _ => inferInstanceAs (Decidable (_ → _))
  | .throw => .isTrue trivial

/-- Every callback registered so far was started, and none waits in the queue. -/
structure AllStarted (s : Process) : Prop where
  queue : s.nextTickQueue = []
  started : ∀ i < s.registrations, i ∈ s.started

/-- Where no function drains later, nothing is queued. -/
def QueueCovered (s : Process) (tags : List Tag) : Prop :=
  covered tags = false → s.nextTickQueue = []

section dispatch

variable {s s' : Process} {tags tags' : List Tag} {c : Config Process Tag Ask} {m : Move Call}

theorem covered_cons (tag : Tag) (tags : List Tag) :
    covered (tag :: tags) = (tag.drainsLater || covered tags) := rfl

/-- A drain that goes on queues nothing. -/
theorem queue_drained (caller : Caller) (rest : List Nat) :
    (drained s caller rest).1.nextTickQueue = s.nextTickQueue := by
  cases rest <;> rfl

/-- What goes on leaves the queue empty, or leaves it as it is and was not a drain. -/
theorem queue_proceeded (next : Next) :
    (proceeded s next).1.nextTickQueue = [] ∨
      (next.isDrain = false ∧ (proceeded s next).1.nextTickQueue = s.nextTickQueue) := by
  cases next with
  | drain rest caller => exact .inr ⟨rfl, queue_drained caller rest⟩
  | onNextTick caller => exact .inl (queue_drained caller s.nextTickQueue)
  | enterLoop => exact .inr ⟨rfl, rfl⟩
  | «return» => exact .inr ⟨rfl, rfl⟩

/-- Every step that meets the condition leaves nothing in the queue that no drain follows. -/
theorem QueueCovered.step (h : QueueCovered c.heap c.tags) (hcovered : Covered c m)
    (hstep : Stepped c.heap c.tags m s' tags') : QueueCovered s' tags' := by
  generalize htags : c.tags = tags at h hstep
  cases hstep with
  | run | iterate => exact fun _ => h rfl
  | listen | activate => exact h
  | nextTick =>
      intro hnone
      rw [← htags, hcovered rfl] at hnone
      cases hnone
  | onNextTick =>
      intro hnone
      rcases queue_proceeded (s := c.heap) (.onNextTick .callback) with hempty | ⟨hdrain, -⟩
      · exact hempty
      · cases hdrain
  | makeCallback => exact nofun
  | exit =>
      intro hnone
      rw [covered_cons] at hnone
      exact h (Bool.or_eq_false_iff.mp hnone).2
  | @handle rs tag tags point ex ed hthrew =>
      intro hnone
      rw [covered_cons, Bool.or_eq_false_iff] at hnone
      -- only the main script is followed by a drain that its exception skips
      cases tag with
      | main =>
          refine hcovered ?_ (of_decide_eq_false hthrew)
          rw [htags]
          rfl
      | uvRun => cases hthrew
      | outside point next => exact h (Bool.or_eq_false_iff.mpr hnone)
  | @proceed rs tag tags hreturned =>
      intro hnone
      rcases queue_proceeded (s := c.heap) (tag.next c.heap) with hempty | ⟨hdrain, hsame⟩
      · exact hempty
      · rw [hsame]
        refine h ?_
        rw [covered_cons, Bool.or_eq_false_iff]
        constructor
        · cases tag with
          | main => cases hdrain
          | uvRun => rfl
          | outside point next => exact hdrain
        · have htail : covered ((proceeded c.heap (tag.next c.heap)).2 ++ tags) = false := hnone
          rw [covered, List.any_append, Bool.or_eq_false_iff] at htail
          exact htail.2

/-- Where `uv_run` has control, every registered callback was started. -/
theorem allStarted_of_dispatch (hticks : TicksInv c.heap c.tags)
    (hqueue : QueueCovered c.heap c.tags) (htags : c.tags = [.uvRun]) : AllStarted c.heap := by
  rw [htags] at hticks hqueue
  have hempty : c.heap.nextTickQueue = [] := hqueue rfl
  refine ⟨hempty, fun i hi => ?_⟩
  have hperm : (c.heap.started ++ [] ++ c.heap.nextTickQueue).Perm
      (List.range c.heap.registrations) := hticks.account
  rw [hempty, List.append_nil, List.append_nil] at hperm
  exact hperm.mem_iff.mpr (List.mem_range.mpr hi)

end dispatch

/-! ### Runs -/

/-- In every run in which a drain follows each registration, `uv_run` dispatches to JavaScript
only where every registered callback was started. -/
theorem ticks_before_dispatch {ms : List (Move Call)} {c : Config Process Tag Ask}
    (hmeets : machine.Meets (fun c m => running c m ∧ Covered c m) ⟨start, []⟩ ms)
    (hplay : machine.play ⟨start, []⟩ ms = some c) (hdispatch : c.tags = [.uvRun]) :
    AllStarted c.heap := by
  have hinit : TicksInv start [] := ⟨List.Perm.refl [], trivial, nofun⟩
  have hinv : TicksInv c.heap c.tags ∧ QueueCovered c.heap c.tags := by
    refine machine_tagged.play (I := fun s tags => TicksInv s tags ∧ QueueCovered s tags) ?_
      ⟨hinit, fun _ => rfl⟩ hmeets hplay
    rintro c m s' tags' ⟨hrunning, hcovered⟩ ⟨hticks, hqueue⟩ hstep
    have hstepped : Stepped c.heap c.tags m s' tags' := by
      refine stepped_of_tagStep ?_ hstep
      rintro rfl
      cases hrunning
    exact ⟨hticks.step hstepped, hqueue.step hcovered hstepped⟩
  exact allStarted_of_dispatch hinv.1 hinv.2 hdispatch

/-- A function that native code calls registers a callback, and `uv_run` dispatches again. -/
theorem ticks_before_dispatch_twice :
    ∃ c : Config Process Tag Ask, c.heap.started = [0] ∧ AllStarted c.heap :=
  ⟨_, rfl, @ticks_before_dispatch
    [.call .run [], .call (.activate true) [], .ret [0], .call .iterate [],
      .call .makeCallback [], .call .nextTick [], .ret [0], .ret [0]] _ (by decide) rfl rfl⟩

/-- A callback of `process.nextTick` that the main script registers registers another one, which
still waits when `uv_run` dispatches. -/
theorem dispatch_before_tick :
    ∃ ms c, machine.Meets running ⟨start, []⟩ ms ∧ machine.play ⟨start, []⟩ ms = some c ∧
      c.tags = [.uvRun] ∧ c.heap.nextTickQueue = [1] ∧ ¬ AllStarted c.heap := by
  refine ⟨[.call .run [], .call .nextTick [], .ret [0], .call .nextTick [], .ret [0],
    .call .iterate []], _, by decide, rfl, rfl, rfl, fun h => ?_⟩
  have hmem : 1 ∈ [0] := h.started 1 (by decide)
  exact absurd hmem (by decide)

end IotJs.Process

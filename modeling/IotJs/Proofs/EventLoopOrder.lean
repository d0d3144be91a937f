import IotJs.Proofs.EventLoopTicks

/-!
# `IotJs.Proofs.EventLoopOrder`: in which order callbacks of `process.nextTick` start

A drain calls its private copy in the order of the queue, and the queue is in the order of the
registrations. But a callback of the copy may cause a drain of its own: native code that fails at
once calls back through `iotjs_make_callback` (`FS_ASYNC`, the lookup of NuttX), and that drains
what was registered meanwhile while older callbacks wait in the copy.

So the order is kept exactly as long as no drain finds callbacks in the queue while a copy waits
(`Unnested`). Then what was started, what waits and what is queued stand one after the other in
the order of registration (`Ordered`). Where such a drain happens, it starts a callback at once,
and an older one has not been started.
-/

set_option autoImplicit false

namespace IotJs.Process

open Reentrant

/-- Whenever a callback is started, all that were registered before it have been started. -/
def InOrder (s : Process) : Prop :=
  ∀ i b, s.started[i]? = some b → ∀ a < b, a ∈ s.started.take i

def Next.isDrain : Next → Bool
  | .onNextTick _ => true
  | _ => false

/-- The move begins a drain. -/
def drains (s : Process) (tags : List Tag) : Move Call → Bool
  | .call .onNextTick _ => true
  | .ret rs => tags.head?.any fun tag => tag.returned rs && (tag.next s).isDrain
  | _ => false

/-- A drain that begins while a private copy waits finds an empty queue. -/
def Unnested (c : Config Process Tag Ask) (m : Move Call) : Prop :=
  drains c.heap c.tags m = true → waiting c.tags = [] ∨ c.heap.nextTickQueue = []

instance (c : Config Process Tag Ask) (m : Move Call) : Decidable (Unnested c m) :=
  inferInstanceAs (Decidable (_ → _))

/-- What was started, what waits and what is queued, in the order of the registrations. -/
def Ordered (s : Process) (copies : List Nat) : Prop :=
  s.started ++ copies ++ s.nextTickQueue = List.range s.registrations

section order

variable {s s' : Process} {tags tags' : List Tag} {m : Move Call}

theorem Ordered.inOrder {copies : List Nat} (h : Ordered s copies) : InOrder s := by
  intro i b hb a ha
  obtain ⟨hi, hget⟩ := List.getElem?_eq_some_iff.mp hb
  have hlength := congrArg List.length h
  simp only [List.length_append, List.length_range] at hlength
  -- the callback at a place is the one with the number of the place
  have hat : ∀ j (hj : j < s.started.length), s.started[j] = j := by
    intro j hj
    have hall : (s.started ++ copies ++ s.nextTickQueue)[j]? = (List.range s.registrations)[j]? := by
      rw [h]
    rw [List.append_assoc, List.getElem?_append_left hj, List.getElem?_range (by omega),
      List.getElem?_eq_getElem hj] at hall
    exact Option.some.inj hall
  have hbi : b = i := by rw [← hget, hat i hi]
  have haj : a < s.started.length := by omega
  rw [List.mem_take_iff_getElem]
  exact ⟨a, by omega, hat a haj⟩

/-- What follows a copy of the queue, where no older copy waits or there is nothing to copy. -/
theorem Ordered.copy {copies : List Nat} (h : Ordered s copies)
    (hunnested : copies = [] ∨ s.nextTickQueue = []) :
    Ordered { s with nextTickQueue := [] } (s.nextTickQueue ++ copies) := by
  show s.started ++ (s.nextTickQueue ++ copies) ++ [] = List.range s.registrations
  rw [← h]
  rcases hunnested with hcopies | hqueue
  · simp [hcopies]
  · simp [hqueue]

/-- A drain goes on with its copy. -/
theorem Ordered.drained {caller : Caller} {rest : List Nat} (h : Ordered s (rest ++ waiting tags)) :
    Ordered (drained s caller rest).1 (waiting ((drained s caller rest).2 ++ tags)) := by
  cases rest with
  | nil => exact h
  | cons callback rest =>
      have hall : s.started ++ (callback :: rest ++ waiting tags) ++ s.nextTickQueue =
          List.range s.registrations := h
      show s.started ++ [callback] ++ (rest ++ waiting tags) ++ s.nextTickQueue =
        List.range s.registrations
      rw [← hall]
      simp

theorem Ordered.proceeded (next : Next) (h : Ordered s (next.waiting ++ waiting tags))
    (hunnested : next.isDrain = true → waiting tags = [] ∨ s.nextTickQueue = []) :
    Ordered (proceeded s next).1 (waiting ((proceeded s next).2 ++ tags)) := by
  cases next with
  | drain rest caller => exact h.drained
  | onNextTick caller => exact (Ordered.copy h (hunnested rfl)).drained
  | enterLoop => exact h
  | «return» => exact h

theorem waiting_handled (tag : Tag) : tag.handled.waiting = tag.waiting := by
  cases tag <;> rfl

theorem waiting_next (tag : Tag) : (tag.next s).waiting = tag.waiting := by
  cases tag <;> rfl

/-- The tag of a function that drains when its outside code returns holds no copy. -/
theorem waiting_of_isDrain {tag : Tag} (h : (tag.next s).isDrain = true) : tag.waiting = [] := by
  rw [← waiting_next (s := s)]
  cases hnext : tag.next s with
  | onNextTick => rfl
  | drain | enterLoop | «return» =>
      rw [hnext] at h
      cases h

/-- Every step that nests no drain in another one keeps the order. -/
theorem Ordered.step (h : Ordered s (waiting tags)) (hstep : Stepped s tags m s' tags')
    (hunnested : drains s tags m = true → waiting tags = [] ∨ s.nextTickQueue = []) :
    Ordered s' (waiting tags') := by
  cases hstep with
  | run | iterate | makeCallback | exit | listen | activate => exact h
  | @nextTick _ tag tags =>
      show s.started ++ waiting (tag :: tags) ++ (s.nextTickQueue ++ [s.registrations]) =
        List.range (s.registrations + 1)
      rw [List.range_succ, ← List.append_assoc]
      exact congrArg (· ++ [s.registrations]) h
  | onNextTick => exact h.proceeded (.onNextTick .callback) fun _ => hunnested rfl
  | @handle _ tag tags =>
      show Ordered _ (tag.handled.waiting ++ waiting tags)
      rw [waiting_handled]
      exact h
  | @proceed rs tag tags hreturned =>
      refine Ordered.proceeded _ ?_ fun hdrain => ?_
      · rw [waiting_next]
        exact h
      · have hcopies : waiting (tag :: tags) = waiting tags := by
          show tag.waiting ++ waiting tags = waiting tags
          rw [waiting_of_isDrain hdrain, List.nil_append]
        rw [← hcopies]
        refine hunnested ?_
        simp [drains, hreturned, hdrain]

/-- A drain that is nested in another one starts a callback before an older one. -/
theorem not_inOrder_of_nested (h : Ordered s (waiting tags)) (hstep : Stepped s tags m s' tags')
    (hdrains : drains s tags m = true) (hcopies : waiting tags ≠ [])
    (hqueue : s.nextTickQueue ≠ []) : ¬ InOrder s' := by
  obtain ⟨a, copies, hcopies⟩ := List.exists_cons_of_ne_nil hcopies
  obtain ⟨b, queue, hqueue⟩ := List.exists_cons_of_ne_nil hqueue
  have hstarted : s'.started = s.started ++ [b] := by
    have hnext : ∀ caller, (proceeded s (.onNextTick caller)).1.started = s.started ++ [b] := by
      intro caller
      rw [proceeded, hqueue]
      rfl
    cases hstep with
    | onNextTick => exact hnext _
    | handle hthrew => simp [drains, hthrew] at hdrains
    | @proceed rs tag tags hreturned =>
        simp only [drains, hreturned, List.head?_cons, Option.any_some, Bool.true_and] at hdrains
        cases hn : tag.next s with
        | onNextTick caller => exact hnext caller
        | drain | enterLoop | «return» => simp [hn, Next.isDrain] at hdrains
    | run | iterate | nextTick | makeCallback | exit | listen | activate => cases hdrains
  have hall : s.started ++ (a :: copies ++ b :: queue) = List.range s.registrations := by
    rw [← h, hcopies, hqueue, List.append_assoc]
  have hsorted : (s.started ++ (a :: copies ++ b :: queue)).Pairwise (· < ·) := by
    rw [hall]
    exact List.pairwise_lt_range
  obtain ⟨-, hrest, hbefore⟩ := List.pairwise_append.mp hsorted
  have hab : a < b := (List.pairwise_cons.mp hrest).1 b (by simp)
  intro horder
  have hlast : s'.started[s.started.length]? = some b := by
    rw [hstarted]
    exact List.getElem?_concat_length
  have hmem := horder s.started.length b hlast a hab
  rw [hstarted, List.take_left] at hmem
  -- `a` still waits, so it was not started
  have hlt : a < a := hbefore a hmem a (by simp)
  exact absurd hlt (Nat.lt_irrefl a)

/-- What was started stays started. -/
theorem started_grows (hstep : Stepped s tags m s' tags') : s.started <+: s'.started := by
  have hdrained : ∀ t caller rest, t.started = s.started →
      s.started <+: (drained t caller rest).1.started := by
    intro t caller rest ht
    cases rest with
    | nil =>
        show s.started <+: t.started
        exact ht ▸ List.prefix_rfl
    | cons callback rest =>
        show s.started <+: t.started ++ [callback]
        rw [ht]
        exact List.prefix_append _ _
  have hproceeded : ∀ next, s.started <+: (proceeded s next).1.started := by
    intro next
    cases next with
    | drain rest caller => exact hdrained s caller rest rfl
    | onNextTick caller => exact hdrained _ caller _ rfl
    | enterLoop => exact List.prefix_rfl
    | «return» => exact List.prefix_rfl
  cases hstep with
  | onNextTick => exact hproceeded _
  | proceed => exact hproceeded _
  | run | iterate | nextTick | makeCallback | exit | listen | activate | handle =>
      exact List.prefix_rfl

theorem InOrder.of_grows (h : InOrder s') (hgrows : s.started <+: s'.started) : InOrder s := by
  intro i b hb a ha
  obtain ⟨new, hnew⟩ := hgrows
  have hi : i < s.started.length := (List.getElem?_eq_some_iff.mp hb).1
  have hmem := h i b (by rw [← hnew, List.getElem?_append_left hi, hb]) a ha
  rwa [← hnew, List.take_append_of_le_length (by omega)] at hmem

end order

/-! ### Runs -/

/-- One step of a run. -/
theorem stepped_of_step {c c' : Config Process Tag Ask} {m : Move Call} (hc : c.Tagged resume)
    (hrunning : running c m) (hstep : machine.step c m = some c') :
    c'.Tagged resume ∧ Stepped c.heap c.tags m c'.heap c'.tags := by
  obtain ⟨hc', htag⟩ := machine_tagged.step hc hstep
  refine ⟨hc', stepped_of_tagStep ?_ htag⟩
  rintro rfl
  cases hrunning

theorem started_grows_play {ms : List (Move Call)} :
    ∀ {c d : Config Process Tag Ask}, c.Tagged resume → machine.Meets running c ms →
      machine.play c ms = some d → c.heap.started <+: d.heap.started := by
  induction ms with
  | nil =>
      intro c d _ _ hplay
      cases hplay
      exact List.prefix_rfl
  | cons m ms ih =>
      intro c d hc hmeets hplay
      obtain ⟨c', hc', hrest⟩ := Option.bind_eq_some_iff.mp hplay
      obtain ⟨htagged, hstepped⟩ := stepped_of_step hc hmeets.1 hc'
      exact (started_grows hstepped).trans (ih htagged (hmeets.2 c' hc') hrest)

/-- From a configuration in order. The induction is on the moves: up to the first nested drain
the order is kept, and after it the order stays lost. -/
theorem inOrder_iff_of_ordered {ms : List (Move Call)} :
    ∀ {c d : Config Process Tag Ask}, c.Tagged resume → Ordered c.heap (waiting c.tags) →
      machine.Meets running c ms → machine.play c ms = some d →
      (InOrder d.heap ↔ machine.Meets Unnested c ms) := by
  induction ms with
  | nil =>
      intro c d _ hordered _ hplay
      cases hplay
      exact ⟨fun _ => trivial, fun _ => hordered.inOrder⟩
  | cons m ms ih =>
      intro c d hc hordered hmeets hplay
      obtain ⟨c', hc', hrest⟩ := Option.bind_eq_some_iff.mp hplay
      obtain ⟨htagged, hstepped⟩ := stepped_of_step hc hmeets.1 hc'
      have hmeets' := hmeets.2 c' hc'
      by_cases hm : Unnested c m
      · have hiff := ih htagged (hordered.step hstepped hm) hmeets' hrest
        constructor
        · intro hd
          refine ⟨hm, fun e he => ?_⟩
          obtain rfl : c' = e := Option.some.inj (hc'.symm.trans he)
          exact hiff.mp hd
        · intro hall
          exact hiff.mpr (hall.2 c' hc')
      · obtain ⟨hdrains, hnone⟩ := Classical.not_imp.mp hm
        obtain ⟨hcopies, hqueue⟩ := not_or.mp hnone
        have hlost := not_inOrder_of_nested hordered hstepped hdrains hcopies hqueue
        constructor
        · intro hd
          exact absurd (hd.of_grows (started_grows_play htagged hmeets' hrest)) hlost
        · intro hall
          exact absurd hall.1 hm

/-- In every run, callbacks start in the order of their registration if and only if no drain
that finds a callback in the queue begins while older callbacks wait in the copy of another. -/
theorem ticks_in_order_iff {ms : List (Move Call)} {c : Config Process Tag Ask}
    (hmeets : machine.Meets running ⟨start, []⟩ ms)
    (hplay : machine.play ⟨start, []⟩ ms = some c) :
    InOrder c.heap ↔ machine.Meets Unnested ⟨start, []⟩ ms := by
  refine inOrder_iff_of_ordered ?_ rfl hmeets hplay
  intro f hf
  cases hf

/-- A callback registers another one and calls native code that calls back at once; no older
callback waits. -/
theorem ticks_in_order_iff_nested :
    ∃ c : Config Process Tag Ask, c.heap.started = [0, 1] ∧ InOrder c.heap :=
  ⟨_, rfl, (@ticks_in_order_iff
    [.call .run [], .call .nextTick [], .ret [0], .call .nextTick [], .call .makeCallback [],
      .ret [0]] _ (by decide) rfl).mpr (by decide)⟩

/-- The main script registers two callbacks. The first one registers a third, and native code
that it calls calls back at once: the third starts before the second. -/
theorem ticks_out_of_order :
    ∃ ms c, machine.Meets running ⟨start, []⟩ ms ∧ machine.play ⟨start, []⟩ ms = some c ∧
      c.heap.started = [0, 2] ∧ ¬ InOrder c.heap := by
  refine ⟨[.call .run [], .call .nextTick [], .call .nextTick [], .ret [0], .call .nextTick [],
    .call .makeCallback [], .ret [0]], _, by decide, rfl, rfl, fun h => ?_⟩
  have hmem : 1 ∈ [0] := h 1 2 rfl 1 (by decide)
  exact absurd hmem (by decide)

end IotJs.Process

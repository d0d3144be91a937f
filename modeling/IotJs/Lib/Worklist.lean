import Mathlib.Data.Finset.Basic
import Mathlib.Data.Finset.Card
import Mathlib.Data.Finset.Filter

/-!
# `IotJs.Lib.Worklist`: a worklist that is emptied in any order

A vertex that waits is taken, and those of its successors that were not taken before wait then.
Which of the waiting vertices is taken is open, so `Runs` is a relation: it holds of every order
in which they can be taken. The successors of a vertex may be missing (`none`); then the run fails.

`Required` is what a state still has to take, and it does not speak about an order. One vertex less
is required behind each step (`required_iff_take`), so a run that ends takes what is required, each
vertex once (`mem_order_iff`, `Runs.nodup`), and a run that fails has come to a required vertex
without successors (`Runs.missing`). Where the vertices with successors are finitely many, every
run comes to its end (`exists_runs`).
-/

set_option autoImplicit false

namespace Worklist

variable {α : Type} [DecidableEq α]

/-- The vertices that wait, and those that do not have to wait any more. -/
structure State (α : Type) where
  waiting : Finset α
  taken : Finset α

/-- The vertex `a` is taken. -/
def State.take (s : State α) (a : α) (successors : List α) : State α :=
  ⟨s.waiting.erase a ∪ successors.toFinset.filter (· ∉ insert a s.taken), insert a s.taken⟩

/-- The vertices of the list are taken in this order, and then nothing waits, or the last of them
has no successors. -/
inductive Runs (next : α → Option (List α)) : List α → State α → Option (Finset α) → Prop
  | done {s : State α} (hs : s.waiting = ∅) : Runs next [] s (some s.taken)
  | fail {s : State α} {a : α} (ha : a ∈ s.waiting) (hnext : next a = none) : Runs next [a] s none
  | take {s : State α} {a : α} {successors order : List α} {r : Option (Finset α)}
      (ha : a ∈ s.waiting) (hnext : next a = some successors)
      (hrun : Runs next order (s.take a successors) r) : Runs next (a :: order) s r

/-- What waits, and what comes to wait because of it. -/
inductive Required (next : α → Option (List α)) (s : State α) : α → Prop
  | waiting {a : α} (ha : a ∈ s.waiting) : Required next s a
  | successor {a b : α} {successors : List α} (ha : Required next s a)
      (hnext : next a = some successors) (hb : b ∈ successors) (hnew : b ∉ s.taken) :
      Required next s b

variable {next : α → Option (List α)} {s s' : State α} {a b : α} {successors order : List α}
  {r : Option (Finset α)}

theorem mem_waiting_take : b ∈ (s.take a successors).waiting ↔
    b ≠ a ∧ (b ∈ s.waiting ∨ b ∈ successors ∧ b ∉ s.taken) := by
  simp only [State.take, Finset.mem_union, Finset.mem_erase, Finset.mem_filter,
    List.mem_toFinset, Finset.mem_insert, not_or]
  constructor
  · rintro (⟨hne, hb⟩ | ⟨hb, hne, hnew⟩)
    · exact ⟨hne, .inl hb⟩
    · exact ⟨hne, .inr ⟨hb, hnew⟩⟩
  · rintro ⟨hne, hb | ⟨hb, hnew⟩⟩
    · exact .inl ⟨hne, hb⟩
    · exact .inr ⟨hb, hne, hnew⟩

theorem mem_taken_take : b ∈ (s.take a successors).taken ↔ b = a ∨ b ∈ s.taken :=
  Finset.mem_insert

omit [DecidableEq α] in
/-- A vertex that was taken and does not wait again is not required. -/
theorem Required.fresh (h : Required next s b) : b ∈ s.waiting ∨ b ∉ s.taken := by
  cases h with
  | waiting hb => exact .inl hb
  | successor _ _ _ hnew => exact .inr hnew

omit [DecidableEq α] in
/-- More vertices wait, and fewer were taken. -/
theorem Required.mono (h : Required next s b) (hwaiting : s.waiting ⊆ s'.waiting)
    (htaken : s'.taken ⊆ s.taken) : Required next s' b := by
  induction h with
  | waiting hb => exact .waiting (hwaiting hb)
  | successor _ hnext hb hnew ih => exact .successor ih hnext hb fun h => hnew (htaken h)

/-- One step: of what was required, the vertex that was taken is gone, and nothing else. -/
theorem required_iff_take (ha : a ∈ s.waiting) (hnext : next a = some successors) :
    Required next s b ↔ b = a ∨ Required next (s.take a successors) b := by
  constructor
  · intro h
    induction h with
    | @waiting b hb =>
        by_cases hba : b = a
        · exact .inl hba
        · exact .inr (.waiting (mem_waiting_take.mpr ⟨hba, .inl hb⟩))
    | @successor c b _ hc hc' hb hnew ih =>
        by_cases hba : b = a
        · exact .inl hba
        rcases ih with hca | hc
        · -- the successors of the vertex itself wait behind the step
          rw [hca, hnext] at hc'
          obtain rfl := Option.some.inj hc'
          exact .inr (.waiting (mem_waiting_take.mpr ⟨hba, .inr ⟨hb, hnew⟩⟩))
        · refine .inr (.successor hc hc' hb fun hold => ?_)
          exact (mem_taken_take.mp hold).elim hba hnew
  · rintro (rfl | h)
    · exact .waiting ha
    · induction h with
      | @waiting b hb =>
          obtain ⟨-, hb | ⟨hb, hnew⟩⟩ := mem_waiting_take.mp hb
          · exact .waiting hb
          · exact .successor (.waiting ha) hnext hb hnew
      | successor _ hc' hb hnew ih =>
          exact .successor ih hc' hb fun hold => hnew (mem_taken_take.mpr (.inr hold))

/-- The vertex that a step took is not required behind it. -/
theorem not_required_take : ¬ Required next (s.take a successors) a := by
  intro h
  rcases h.fresh with hwaits | hnew
  · exact (mem_waiting_take.mp hwaits).1 rfl
  · exact hnew (mem_taken_take.mpr (.inl rfl))

/-! ### Runs -/

namespace Runs

/-- A run takes required vertices. -/
theorem required (h : Runs next order s r) (hb : b ∈ order) : Required next s b := by
  induction h with
  | done => cases hb
  | fail ha _ =>
      rw [List.mem_singleton.mp hb]
      exact .waiting ha
  | take ha hnext _ ih =>
      rcases List.mem_cons.mp hb with rfl | hb
      · exact .waiting ha
      · exact (required_iff_take ha hnext).mpr (.inr (ih hb))

/-- No vertex is taken twice. -/
theorem nodup (h : Runs next order s r) : order.Nodup := by
  induction h with
  | done => exact List.nodup_nil
  | fail => exact List.nodup_singleton _
  | take _ _ hrun ih =>
      exact List.nodup_cons.mpr ⟨fun ha => not_required_take (hrun.required ha), ih⟩

/-- A run that fails has come to a required vertex without successors. -/
theorem missing (h : Runs next order s none) : ∃ a, Required next s a ∧ next a = none := by
  generalize hr : (none : Option (Finset α)) = r at h
  induction h with
  | done => cases hr
  | fail ha hnext => exact ⟨_, .waiting ha, hnext⟩
  | take ha hnext _ ih =>
      obtain ⟨b, hb, hmissing⟩ := ih hr
      exact ⟨b, (required_iff_take ha hnext).mpr (.inr hb), hmissing⟩

variable {t : Finset α}

/-- A run that ends takes what is required. -/
theorem mem_order_iff (h : Runs next order s (some t)) : b ∈ order ↔ Required next s b := by
  generalize hr : some t = r at h
  induction h with
  | @done s hs =>
      constructor
      · intro hb
        cases hb
      · intro hb
        induction hb with
        | waiting hb =>
            rw [hs] at hb
            exact absurd hb (Finset.notMem_empty _)
        | successor _ _ _ _ ih => cases ih
  | fail => cases hr
  | take ha hnext _ ih => rw [List.mem_cons, ih hr, required_iff_take ha hnext]

/-- Whatever the order is, what was taken at the end is the same. -/
theorem mem_taken_iff (h : Runs next order s (some t)) :
    b ∈ t ↔ b ∈ s.taken ∨ Required next s b := by
  have hmem := h.mem_order_iff (b := b)
  rw [← hmem]
  clear hmem
  generalize hr : some t = r at h
  induction h with
  | done =>
      obtain rfl := Option.some.inj hr
      exact (or_iff_left List.not_mem_nil).symm
  | fail => cases hr
  | take _ _ _ ih =>
      refine (ih hr).trans ?_
      rw [mem_taken_take, List.mem_cons]
      exact or_assoc.trans or_left_comm

/-- All of what a run that ends takes has successors. -/
theorem next_ne_none (h : Runs next order s (some t)) (hb : Required next s b) :
    next b ≠ none := by
  rw [← h.mem_order_iff] at hb
  generalize hr : some t = r at h
  induction h with
  | done => cases hb
  | fail => cases hr
  | take _ hnext _ ih =>
      rcases List.mem_cons.mp hb with rfl | hb
      · rw [hnext]
        exact Option.some_ne_none _
      · exact ih hb hr

/-- A run is not longer than the number of vertices with successors, and one more. -/
theorem length_le (h : Runs next order s r) (vertices : Finset α)
    (hfinite : ∀ a, next a ≠ none → a ∈ vertices) : order.length ≤ vertices.card + 1 := by
  have hall : ∀ a ∈ order.dropLast, a ∈ vertices := by
    induction h with
    | done => exact fun _ hb => by cases hb
    | fail => exact fun _ hb => by cases hb
    | @take _ a _ order _ _ hnext _ ih =>
        intro b hb
        have ha : a ∈ vertices := hfinite a (by rw [hnext]; exact Option.some_ne_none _)
        cases order with
        | nil => cases hb
        | cons c order =>
            rcases List.mem_cons.mp hb with rfl | hb
            · exact ha
            · exact ih b hb
  have hcard : order.dropLast.toFinset.card = order.dropLast.length :=
    List.toFinset_card_of_nodup (h.nodup.sublist (List.dropLast_sublist order))
  have hle : order.dropLast.toFinset.card ≤ vertices.card :=
    Finset.card_le_card fun b hb => hall b (List.mem_toFinset.mp hb)
  rw [hcard, List.length_dropLast] at hle
  omega

end Runs

/-- Wherever a run has come to, it can be brought to its end. -/
theorem exists_runs (vertices : Finset α) (hfinite : ∀ a, next a ≠ none → a ∈ vertices)
    (s : State α) : ∃ order r, Runs next order s r := by
  classical
  -- with each step one of the required vertices is gone
  induction hcard : (vertices.filter (Required next s)).card using Nat.strong_induction_on
      generalizing s with
  | h n ih =>
      rcases s.waiting.eq_empty_or_nonempty with hempty | ⟨a, ha⟩
      · exact ⟨[], _, .done hempty⟩
      cases hnext : next a with
      | none => exact ⟨[a], none, .fail ha hnext⟩
      | some successors =>
          have hmem : a ∈ vertices := hfinite a (by rw [hnext]; exact Option.some_ne_none _)
          have hless : (vertices.filter (Required next (s.take a successors))).card < n := by
            rw [← hcard]
            refine Finset.card_lt_card (Finset.ssubset_iff_of_subset (fun b hb => ?_) |>.mpr ?_)
            · obtain ⟨hb, hreq⟩ := Finset.mem_filter.mp hb
              exact Finset.mem_filter.mpr ⟨hb, (required_iff_take ha hnext).mpr (.inr hreq)⟩
            · refine ⟨a, Finset.mem_filter.mpr ⟨hmem, .waiting ha⟩, fun h => ?_⟩
              exact not_required_take (Finset.mem_filter.mp h).2
          obtain ⟨order, r, hrun⟩ := ih _ hless _ rfl
          exact ⟨a :: order, r, .take ha hnext hrun⟩

end Worklist

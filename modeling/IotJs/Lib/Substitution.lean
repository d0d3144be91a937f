import IotJs.Lib.Delimited
import Mathlib.Data.List.TakeWhile

/-!
# `IotJs.Lib.Substitution`: every match of an expression replaced

A `Matcher` is an expression with what comes in the place of its matches: at the start of a list it
finds a number of elements and the list that replaces them, or nothing. `sub` goes through a list
from the left, replaces each match, and goes on behind it. Where nothing is found, an element is
copied (`sub_append_of_passes`).

`dropAfter` takes an element out wherever it stands behind a mark, with others of its kind at most
between them. This is what two kinds of substitution do (`sub_blanks` and `sub_repeats`).
-/

set_option autoImplicit false

namespace Substitution

variable {α : Type}

/-- The number of elements of a match at the start of a list, and what comes in their place. -/
abbrev Matcher (α : Type) := List α → Option (Nat × List α)

/-- Go on behind the next `n` elements. -/
def subFrom (m : Matcher α) : Nat → List α → List α
  | _, [] => []
  | n + 1, _ :: list => subFrom m n list
  | 0, x :: list =>
      match m (x :: list) with
      | none => x :: subFrom m 0 list
      | some found => found.2 ++ subFrom m (found.1 - 1) list

/-- `re.sub` -/
def sub (m : Matcher α) (list : List α) : List α := subFrom m 0 list

variable {m : Matcher α} {x : α} {list part rest replacement : List α} {n : Nat}

@[simp]
theorem sub_nil (m : Matcher α) : sub m [] = [] := rfl

theorem subFrom_eq (m : Matcher α) (n : Nat) (list : List α) :
    subFrom m n list = sub m (list.drop n) := by
  induction n generalizing list with
  | zero => rfl
  | succ n ih =>
      cases list with
      | nil => rfl
      | cons x list => exact ih list

theorem sub_cons_of_none (h : m (x :: list) = none) : sub m (x :: list) = x :: sub m list := by
  rw [sub, subFrom, h]
  rfl

theorem sub_cons_of_some (h : m (x :: list) = some (n + 1, replacement)) :
    sub m (x :: list) = replacement ++ sub m (list.drop n) := by
  rw [sub, subFrom, h]
  exact congrArg (replacement ++ ·) (subFrom_eq m n list)

/-- A match of `part`. -/
theorem sub_append_of_some (hne : part ≠ [])
    (h : m (part ++ rest) = some (part.length, replacement)) :
    sub m (part ++ rest) = replacement ++ sub m rest := by
  cases part with
  | nil => exact absurd rfl hne
  | cons x part =>
      rw [List.cons_append] at h ⊢
      rw [sub_cons_of_some h, List.drop_left]

/-- No match begins in `part`, with `rest` behind it. -/
def Passes (m : Matcher α) : (part rest : List α) → Prop
  | [], _ => True
  | x :: part, rest => m (x :: (part ++ rest)) = none ∧ Passes m part rest

instance decidablePasses [DecidableEq α] (m : Matcher α) :
    (part rest : List α) → Decidable (Passes m part rest)
  | [], _ => isTrue trivial
  | _ :: part, rest =>
      have := decidablePasses m part rest
      inferInstanceAs (Decidable (_ ∧ _))

theorem sub_append_of_passes (h : Passes m part rest) :
    sub m (part ++ rest) = part ++ sub m rest := by
  induction part with
  | nil => rfl
  | cons x part ih =>
      rw [List.cons_append, sub_cons_of_none h.1, ih h.2]
      rfl

/-- Elements at which no match begins. -/
theorem passes_of_forall (h : ∀ x ∈ part, ∀ list, m (x :: list) = none) : Passes m part rest := by
  induction part with
  | nil => exact trivial
  | cons x part ih =>
      exact ⟨h x List.mem_cons_self _, ih fun y hy => h y (List.mem_cons_of_mem x hy)⟩

/-- Where each match is replaced by elements of it, nothing is added. -/
theorem sub_sublist (hm : ∀ list n replacement, m list = some (n, replacement) →
    0 < n ∧ replacement.Sublist (list.take n)) (list : List α) : (sub m list).Sublist list := by
  induction hlength : list.length using Nat.strong_induction_on generalizing list with
  | h n ih =>
      cases list with
      | nil => exact List.Sublist.refl []
      | cons x list =>
          rw [List.length_cons] at hlength
          cases hfound : m (x :: list) with
          | none =>
              rw [sub_cons_of_none hfound]
              exact (ih list.length (by omega) list rfl).cons_cons x
          | some found =>
              obtain ⟨k, replacement⟩ := found
              obtain ⟨hk, hsub⟩ := hm (x :: list) k replacement hfound
              obtain ⟨k, rfl⟩ := Nat.exists_eq_add_of_lt hk
              rw [Nat.zero_add] at hfound hsub
              rw [sub_cons_of_some hfound]
              have hdrop : (list.drop k).length < n := by
                rw [List.length_drop]
                omega
              have hrest := hsub.append (ih _ hdrop (list.drop k) rfl)
              rwa [List.take_succ_cons, List.cons_append, List.take_append_drop] at hrest

theorem drop_length_takeWhile (p : α → Bool) (list : List α) :
    list.drop (list.takeWhile p).length = list.dropWhile p := by
  have hdrop : (list.takeWhile p ++ list.dropWhile p).drop (list.takeWhile p).length =
      list.dropWhile p := List.drop_left
  rwa [List.takeWhile_append_dropWhile] at hdrop

/-! ### Elements behind a mark -/

section

variable [DecidableEq α]

/-- The elements `x` are taken out behind a `mark`. `after` says that one stands in front. -/
def dropAfter (mark x : α) (after : Bool) : List α → List α
  | [] => []
  | y :: list =>
      if after && decide (y = x) then dropAfter mark x true list
      else y :: dropAfter mark x (decide (y = mark)) list

/-- The expression that finds a mark with one `x` or more behind it. -/
def blanks (mark x : α) : Matcher α
  | [] => none
  | y :: list =>
      let found := list.takeWhile (· = x)
      if y = mark ∧ found ≠ [] then some (found.length + 1, [mark]) else none

/-- The expression that finds one mark or more. -/
def repeats (mark : α) : Matcher α
  | [] => none
  | y :: list =>
      if y = mark then some ((list.takeWhile (· = mark)).length + 1, [mark]) else none

variable {mark : α} {after : Bool}

theorem dropAfter_append_of_all (h : ∀ y ∈ part, y = x) :
    dropAfter mark x true (part ++ rest) = dropAfter mark x true rest := by
  induction part with
  | nil => rfl
  | cons y part ih =>
      have hy : y = x := h y List.mem_cons_self
      rw [List.cons_append, dropAfter, hy]
      simp only [Bool.true_and, decide_true, if_true]
      exact ih fun z hz => h z (List.mem_cons_of_mem y hz)

theorem dropAfter_true_of_head (h : list.head? ≠ some x) :
    dropAfter mark x true list = dropAfter mark x false list := by
  cases list with
  | nil => rfl
  | cons y list =>
      have hy : y ≠ x := fun hsame => h (congrArg some hsame)
      rw [dropAfter, dropAfter, decide_eq_false hy]
      rfl

theorem head?_dropWhile_ne (list : List α) : (list.dropWhile (· = x)).head? ≠ some x := by
  intro hhead
  have hne := List.head?_dropWhile_not (fun y => decide (y = x)) list
  rw [hhead] at hne
  simp at hne

/-- What stands behind a mark begins with the first other element. -/
theorem dropAfter_mark (mark x : α) (list : List α) :
    dropAfter mark x false (mark :: list) =
      mark :: dropAfter mark x false (list.dropWhile (· = x)) := by
  have hall : ∀ y ∈ list.takeWhile (· = x), y = x :=
    fun y hy => of_decide_eq_true (List.mem_takeWhile_imp (p := fun y => decide (y = x)) hy)
  have hkeep : dropAfter mark x false (mark :: list) = mark :: dropAfter mark x true list := by
    rw [dropAfter, decide_eq_true rfl]
    rfl
  have hrest : dropAfter mark x true (list.takeWhile (· = x) ++ list.dropWhile (· = x)) =
      dropAfter mark x true (list.dropWhile (· = x)) := dropAfter_append_of_all hall
  rw [List.takeWhile_append_dropWhile] at hrest
  rw [hkeep, hrest, dropAfter_true_of_head (head?_dropWhile_ne list)]

theorem dropAfter_of_ne {y : α} (hy : y ≠ mark) (list : List α) :
    dropAfter mark x false (y :: list) = y :: dropAfter mark x false list := by
  rw [dropAfter, decide_eq_false hy]
  rfl

/-- Where a matcher takes up a mark and what stands behind it, and nothing else, it drops. -/
theorem sub_eq_dropAfter (hother : ∀ y list, y ≠ mark → m (y :: list) = none)
    (hmark : ∀ list, sub m (mark :: list) = mark :: sub m (list.dropWhile (· = x)))
    (list : List α) : sub m list = dropAfter mark x false list := by
  induction hlength : list.length using Nat.strong_induction_on generalizing list with
  | h n ih =>
      cases list with
      | nil => rfl
      | cons y list =>
          rw [List.length_cons] at hlength
          by_cases hy : y = mark
          · -- the induction is on the length, since all of the `x` behind the mark go at once
            have hshort : (list.dropWhile (· = x)).length ≤ list.length :=
              (List.dropWhile_suffix _).length_le
            rw [hy, hmark, dropAfter_mark, ih _ (by omega) _ rfl]
          · rw [sub_cons_of_none (hother y list hy), dropAfter_of_ne hy,
              ih list.length (by omega) list rfl]

theorem sub_blanks (mark x : α) (list : List α) :
    sub (blanks mark x) list = dropAfter mark x false list := by
  refine sub_eq_dropAfter (fun y list hy => if_neg fun hboth => hy hboth.1) (fun list => ?_) list
  by_cases hnil : list.takeWhile (· = x) = []
  · have hnone : blanks mark x (mark :: list) = none := if_neg fun hboth => hboth.2 hnil
    have hsame := drop_length_takeWhile (· = x) list
    rw [hnil] at hsame
    rw [sub_cons_of_none hnone, ← hsame]
    rfl
  · have hsome : blanks mark x (mark :: list) =
        some ((list.takeWhile (· = x)).length + 1, [mark]) := if_pos ⟨rfl, hnil⟩
    rw [sub_cons_of_some hsome, drop_length_takeWhile]
    rfl

theorem sub_repeats (mark : α) (list : List α) :
    sub (repeats mark) list = dropAfter mark mark false list := by
  refine sub_eq_dropAfter (fun y list hy => if_neg hy) (fun list => ?_) list
  have hsome : repeats mark (mark :: list) =
      some ((list.takeWhile (· = mark)).length + 1, [mark]) := if_pos rfl
  rw [sub_cons_of_some hsome, drop_length_takeWhile]
  rfl

/-- A part without a mark in front of an `x` stays, but for an `x` that it begins with. -/
theorem dropAfter_append (hne : part ≠ []) (hfree : Delimited.Free mark x part)
    (hhead : after = true → part.head? ≠ some x) :
    dropAfter mark x after (part ++ rest) =
      part ++ dropAfter mark x (decide (part.getLast? = some mark)) rest := by
  induction part generalizing after with
  | nil => exact absurd rfl hne
  | cons y part ih =>
      obtain ⟨hpair, hfree⟩ := (Delimited.free_cons_iff y part).mp hfree
      have hkeep : ¬ (after && decide (y = x)) = true := by
        intro hboth
        obtain ⟨hafter, hy⟩ := Bool.and_eq_true_iff.mp hboth
        exact hhead hafter (congrArg some (of_decide_eq_true hy))
      rw [List.cons_append, dropAfter, if_neg hkeep]
      cases part with
      | nil =>
          rw [List.getLast?_singleton]
          simp only [Option.some.injEq]
          rfl
      | cons z part =>
          rw [ih (List.cons_ne_nil _ _) hfree fun hmark hx =>
            hpair ⟨of_decide_eq_true hmark, hx⟩, List.getLast?_cons_cons]
          rfl

/-- No `x` is left behind a mark. -/
theorem free_dropAfter (mark x : α) (after : Bool) (list : List α) :
    Delimited.Free mark x (dropAfter mark x after list) ∧
      (after = true → (dropAfter mark x after list).head? ≠ some x) := by
  induction list generalizing after with
  | nil => exact ⟨Delimited.free_nil, fun _ hnone => by cases hnone⟩
  | cons y list ih =>
      rw [dropAfter]
      split
      · obtain ⟨hfree, hhead⟩ := ih true
        exact ⟨hfree, fun _ => hhead rfl⟩
      · rename_i hkeep
        obtain ⟨hfree, hhead⟩ := ih (decide (y = mark))
        refine ⟨(Delimited.free_cons_iff y _).mpr ⟨?_, hfree⟩, fun hafter hsome => hkeep ?_⟩
        · exact fun hpair => hhead (decide_eq_true hpair.1) hpair.2
        · rw [hafter, decide_eq_true (Option.some.inj hsome)]
          rfl

/-- Fewer marks do not bring a mark in front of an `x`. -/
theorem free_dropAfter_mark (h : Delimited.Free mark x list)
    (hhead : after = true → list.head? ≠ some x) :
    Delimited.Free mark x (dropAfter mark mark after list) ∧
      (after = true → (dropAfter mark mark after list).head? ≠ some x) := by
  induction list generalizing after with
  | nil => exact ⟨Delimited.free_nil, fun _ hnone => by cases hnone⟩
  | cons y list ih =>
      obtain ⟨hpair, hfree⟩ := (Delimited.free_cons_iff y list).mp h
      rw [dropAfter]
      split
      · rename_i hdrop
        obtain ⟨-, hy⟩ := Bool.and_eq_true_iff.mp hdrop
        obtain ⟨hfree, hhead⟩ := @ih true hfree fun _ hx =>
          hpair ⟨of_decide_eq_true hy, hx⟩
        exact ⟨hfree, fun _ => hhead rfl⟩
      · obtain ⟨hrest, hnext⟩ := @ih (decide (y = mark)) hfree fun hy hx =>
          hpair ⟨of_decide_eq_true hy, hx⟩
        refine ⟨(Delimited.free_cons_iff y _).mpr ⟨?_, hrest⟩, hhead⟩
        exact fun hboth => hnext (decide_eq_true hboth.1) hboth.2

end

end Substitution

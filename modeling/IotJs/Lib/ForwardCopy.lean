import Mathlib.Tactic.Common

/-!
# `IotJs.Lib.ForwardCopy`: cells that are copied one after another

`copy n i j l` copies the `n` cells of `l` that begin at `i` to the place `j` of the same list, the
lowest first. Where `j` is above `i` and the two ranges overlap, the later cells of the source have
been overwritten when their turn comes: each cell of the target holds what the cell `j - i` below it
holds at the end (`getElem?_copy_up`).

`copy_faithful_iff` says when the target holds the source as it was.
-/

set_option autoImplicit false

namespace ForwardCopy

variable {α : Type} {l : List α} {i j k n : Nat}

/-- The cell `j` gets what the cell `i` holds. -/
def copyCell (i j : Nat) (l : List α) : List α := (l[i]?).elim l fun x => l.set j x

def copy : (n i j : Nat) → List α → List α
  | 0, _, _, l => l
  | n + 1, i, j, l => copy n (i + 1) (j + 1) (copyCell i j l)

@[simp]
theorem length_copyCell (i j : Nat) (l : List α) : (copyCell i j l).length = l.length := by
  unfold copyCell
  cases l[i]? with
  | none => rfl
  | some x => exact List.length_set

theorem getElem?_copyCell_self (hi : i < l.length) (hj : j < l.length) :
    (copyCell i j l)[j]? = l[i]? := by
  rw [copyCell, List.getElem?_eq_getElem hi]
  exact List.getElem?_set_self hj

theorem getElem?_copyCell_ne (h : k ≠ j) : (copyCell i j l)[k]? = l[k]? := by
  unfold copyCell
  cases l[i]? with
  | none => rfl
  | some x => exact List.getElem?_set_ne (Ne.symm h)

@[simp]
theorem length_copy (n i j : Nat) (l : List α) : (copy n i j l).length = l.length := by
  induction n generalizing i j l with
  | zero => rfl
  | succ n ih => rw [copy, ih, length_copyCell]

/-- The cells outside of the target stay as they are. -/
theorem getElem?_copy_outside (h : k < j ∨ j + n ≤ k) : (copy n i j l)[k]? = l[k]? := by
  induction n generalizing i j l with
  | zero => rfl
  | succ n ih =>
      rw [copy, ih (by omega)]
      exact getElem?_copyCell_ne (by omega)

/-- To a place that is not above the source, the cells arrive as they were. -/
theorem getElem?_copy_down (hji : j ≤ i) (hsource : i + n ≤ l.length) (hk : k < n) :
    (copy n i j l)[j + k]? = l[i + k]? := by
  induction n generalizing i j k l with
  | zero => omega
  | succ n ih =>
      rw [copy]
      cases k with
      | zero =>
          rw [getElem?_copy_outside (by omega)]
          exact getElem?_copyCell_self (by omega) (by omega)
      | succ k =>
          have hlength := length_copyCell i j l
          have hrest := ih (i := i + 1) (j := j + 1) (l := copyCell i j l) (by omega) (by omega)
            (Nat.lt_of_succ_lt_succ hk)
          -- the cells that are read later are above `j`
          rw [getElem?_copyCell_ne (by omega)] at hrest
          rw [Nat.add_comm k 1, ← Nat.add_assoc, ← Nat.add_assoc]
          exact hrest

/-- To a place above the source, a cell arrives as its source is at the end. -/
theorem getElem?_copy_up (hij : i < j) (htarget : j + n ≤ l.length) (hk : k < n) :
    (copy n i j l)[j + k]? = (copy n i j l)[i + k]? := by
  induction n generalizing i j k l with
  | zero => omega
  | succ n ih =>
      rw [copy]
      cases k with
      | zero =>
          rw [getElem?_copy_outside (by omega), getElem?_copy_outside (by omega),
            Nat.add_zero, Nat.add_zero, getElem?_copyCell_ne (Nat.ne_of_lt hij)]
          exact getElem?_copyCell_self (by omega) (by omega)
      | succ k =>
          have hlength := length_copyCell i j l
          have hrest := ih (i := i + 1) (j := j + 1) (l := copyCell i j l) (by omega) (by omega)
            (Nat.lt_of_succ_lt_succ hk)
          rw [Nat.add_comm k 1, ← Nat.add_assoc, ← Nat.add_assoc]
          exact hrest

/-- The target holds the source as it was. -/
def Faithful (n i j : Nat) (l : List α) : Prop :=
  ∀ k < n, (copy n i j l)[j + k]? = l[i + k]?

/-- The source repeats itself after `j - i` cells. -/
def Periodic (n i j : Nat) (l : List α) : Prop :=
  ∀ k, k + (j - i) < n → l[i + k]? = l[j + k]?

/-- A copy upwards is faithful where the ranges do not overlap, or where the source repeats itself
with the distance. -/
theorem copy_up_faithful_iff (hij : i < j) (htarget : j + n ≤ l.length) :
    Faithful n i j l ↔ Periodic n i j l := by
  constructor
  · intro hfaithful k hk
    have hshift : j + k = i + (k + (j - i)) := by omega
    have hhere := hfaithful k (by omega)
    have hthere := hfaithful (k + (j - i)) hk
    rw [getElem?_copy_up hij htarget hk, ← hshift, hhere] at hthere
    exact hthere
  · intro hperiodic k
    induction k using Nat.strongRecOn with
    | ind k ih =>
        intro hk
        rw [getElem?_copy_up hij htarget hk]
        rcases Nat.lt_or_ge k (j - i) with hbelow | habove
        · exact getElem?_copy_outside (.inl (by omega))
        · -- the cell was copied from the one before in the period
          obtain ⟨m, rfl⟩ := Nat.exists_eq_add_of_le' habove
          have hshift : i + (m + (j - i)) = j + m := by omega
          rw [hshift, ih m (by omega) (by omega)]
          exact hperiodic m hk

theorem copy_faithful_iff (hsource : i + n ≤ l.length) (htarget : j + n ≤ l.length) :
    Faithful n i j l ↔ j ≤ i ∨ Periodic n i j l := by
  rcases Nat.lt_or_ge i j with hij | hji
  · rw [copy_up_faithful_iff hij htarget, or_iff_right (Nat.not_le.mpr hij)]
  · exact iff_of_true (fun k hk => getElem?_copy_down hji hsource hk) (.inl hji)

end ForwardCopy

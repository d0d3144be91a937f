import Mathlib.Data.Nat.Find
import Mathlib.Order.WellFounded

/-!
# `IotJs.Lib.Progress`: loops that end because they make progress

A loop goes on while a predicate of the round holds. Where each such round makes a count grow, and
the count stays below a bound, one round is the first at which the predicate fails.
-/

set_option autoImplicit false

namespace Progress

variable {goesOn : Nat → Prop}

/-- What does not hold of every round fails first at one. -/
theorem exists_first (h : ¬ ∀ k, goesOn k) : ∃ k, (∀ j < k, goesOn j) ∧ ¬ goesOn k := by
  classical
  have hex := not_forall.mp h
  exact ⟨Nat.find hex, fun j hj => not_not.mp (Nat.find_min hex hj), Nat.find_spec hex⟩

/-- A bounded count does not grow for ever. -/
theorem exists_first_of_lt_succ (count : Nat → Nat) {bound : Nat}
    (hgrows : ∀ j, goesOn j → count j < count (j + 1)) (hbound : ∀ j, goesOn j → count j < bound) :
    ∃ k, (∀ j < k, goesOn j) ∧ ¬ goesOn k := by
  apply exists_first
  intro hall
  have hmono : StrictMono count := strictMono_nat_of_lt_succ fun j => hgrows j (hall j)
  exact absurd (hbound bound (hall bound)) (Nat.not_lt.mpr hmono.le_apply)

end Progress

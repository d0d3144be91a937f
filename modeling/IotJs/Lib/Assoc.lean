import Mathlib.Data.List.Nodup
import Mathlib.Logic.Function.Basic

/-!
# `IotJs.Lib.Assoc`: lists of entries as finite maps

An object of the program is a list of its keys with their values, in the order of the keys.
`toMap` is the map that such a list stands for, `set` and `remove` act on it as updates, and they
keep its keys apart (`Distinct`). A list with distinct keys has exactly one entry for each value of
its map (`filter_eq`).
-/

set_option autoImplicit false

namespace Assoc

variable {α β : Type} [DecidableEq α]

/-- `object[key] = value` -/
def set (entries : List (α × β)) (key : α) (value : β) : List (α × β) :=
  if entries.any (·.1 == key) then
    entries.map fun entry => if entry.1 == key then (key, value) else entry
  else entries ++ [(key, value)]

/-- `delete object[key]` -/
def remove (entries : List (α × β)) (key : α) : List (α × β) :=
  entries.filter (·.1 != key)

/-- The map that the list stands for. -/
def toMap (entries : List (α × β)) : α → Option β := fun key => entries.lookup key

def Distinct (entries : List (α × β)) : Prop := (entries.map Prod.fst).Nodup

variable {entries : List (α × β)} {key : α} {value : β}

@[simp] theorem toMap_nil : toMap ([] : List (α × β)) = fun _ => none := rfl

theorem toMap_cons (entry : α × β) (entries : List (α × β)) (key : α) :
    toMap (entry :: entries) key = if key = entry.1 then some entry.2 else toMap entries key := by
  unfold toMap
  rw [List.lookup_cons]
  by_cases hkey : key = entry.1
  · simp [hkey]
  · rw [beq_eq_false_iff_ne.mpr hkey, if_neg hkey]

theorem toMap_append (entries more : List (α × β)) (key : α) :
    toMap (entries ++ more) key = (toMap entries key).or (toMap more key) :=
  List.lookup_append

/-- A key is bound by the map if an entry has it. -/
theorem toMap_eq_none_iff : toMap entries key = none ↔ key ∉ entries.map Prod.fst := by
  induction entries with
  | nil => simp
  | cons entry entries ih =>
      rw [toMap_cons, List.map_cons, List.mem_cons, not_or, ← ih]
      by_cases hkey : key = entry.1
      · simp [hkey]
      · simp [hkey]

theorem any_eq_true_iff : entries.any (·.1 == key) = true ↔ key ∈ entries.map Prod.fst := by
  rw [List.any_eq_true, List.mem_map]
  simp only [beq_iff_eq]

/-! ### Setting and removing -/

theorem toMap_replace (entries : List (α × β)) (key : α) (value : β) (other : α) :
    toMap (entries.map fun entry => if entry.1 == key then (key, value) else entry) other =
      if other = key then (toMap entries key).map fun _ => value else toMap entries other := by
  induction entries with
  | nil => simp
  | cons entry entries ih =>
      rw [List.map_cons, toMap_cons, ih, toMap_cons, toMap_cons]
      by_cases hentry : entry.1 = key
      · by_cases hother : other = key
        · simp [hentry, hother]
        · simp [hentry, hother]
      · by_cases hother : other = key
        · have hkey : key ≠ entry.1 := fun heq => hentry heq.symm
          simp [hentry, hother, hkey]
        · simp [hentry, hother]

theorem toMap_set (entries : List (α × β)) (key : α) (value : β) :
    toMap (set entries key value) = Function.update (toMap entries) key (some value) := by
  funext other
  rw [Function.update_apply, set]
  by_cases hany : entries.any (·.1 == key) = true
  · have hbound : toMap entries key ≠ none := fun hnone =>
      toMap_eq_none_iff.mp hnone (any_eq_true_iff.mp hany)
    obtain ⟨old, hold⟩ := Option.ne_none_iff_exists'.mp hbound
    rw [if_pos hany, toMap_replace, hold]
    rfl
  · have hfree : toMap entries key = none := toMap_eq_none_iff.mpr fun hmem =>
      hany (any_eq_true_iff.mpr hmem)
    rw [if_neg hany, toMap_append, toMap_cons]
    by_cases hother : other = key
    · rw [if_pos hother, if_pos hother, hother, hfree, Option.none_or]
    · rw [if_neg hother, if_neg hother, toMap_nil, Option.or_none]

theorem toMap_remove (entries : List (α × β)) (key : α) :
    toMap (remove entries key) = Function.update (toMap entries) key none := by
  funext other
  rw [Function.update_apply]
  induction entries with
  | nil => simp [remove]
  | cons entry entries ih =>
      unfold remove at ih ⊢
      rw [List.filter_cons, toMap_cons]
      by_cases hentry : entry.1 = key
      · rw [if_neg (by simp [hentry]), ih, hentry]
        by_cases hother : other = key
        · rw [if_pos hother, if_pos hother]
        · rw [if_neg hother, if_neg hother, if_neg hother]
      · rw [if_pos (by simp [hentry]), toMap_cons, ih]
        by_cases hother : other = key
        · rw [if_pos hother, if_pos hother, if_neg fun heq => hentry (heq.symm.trans hother)]
        · rw [if_neg hother, if_neg hother]

/-! ### Distinct keys -/

omit [DecidableEq α] in
theorem distinct_nil : Distinct ([] : List (α × β)) := List.nodup_nil

theorem Distinct.set (h : Distinct entries) (key : α) (value : β) :
    Distinct (set entries key value) := by
  unfold Distinct Assoc.set
  by_cases hany : entries.any (·.1 == key) = true
  · have hkeys : (entries.map fun entry => if entry.1 == key then (key, value) else entry).map
        Prod.fst = entries.map Prod.fst := by
      rw [List.map_map]
      apply List.map_congr_left
      intro entry _
      by_cases hentry : entry.1 = key
      · simp [hentry]
      · simp [hentry]
    rw [if_pos hany, hkeys]
    exact h
  · rw [if_neg hany, List.map_append]
    refine List.nodup_append.mpr ⟨h, List.nodup_singleton _, fun old hold new hnew heq => ?_⟩
    rw [List.map_singleton, List.mem_singleton] at hnew
    rw [heq, hnew] at hold
    exact hany (any_eq_true_iff.mpr hold)

theorem Distinct.remove (h : Distinct entries) (key : α) : Distinct (remove entries key) :=
  h.sublist (List.filter_sublist.map Prod.fst)

/-- A list with distinct keys has one entry for each value of its map, and no other. -/
theorem Distinct.filter_eq (h : Distinct entries) (key : α) :
    entries.filter (·.1 == key) = ((toMap entries key).map fun value => (key, value)).toList := by
  induction entries with
  | nil => rfl
  | cons entry entries ih =>
      obtain ⟨hfresh, hrest⟩ := List.nodup_cons.mp h
      rw [List.filter_cons, toMap_cons, ih hrest]
      by_cases hentry : entry.1 = key
      · have hnone : toMap entries key = none := toMap_eq_none_iff.mpr (hentry ▸ hfresh)
        rw [if_pos (beq_iff_eq.mpr hentry), if_pos hentry.symm, hnone, ← hentry]
        rfl
      · rw [if_neg fun hbeq => hentry (beq_iff_eq.mp hbeq), if_neg fun heq => hentry heq.symm]

end Assoc

import Mathlib.Data.List.Induction

/-!
# `IotJs.Lib.LastMatch`: taking the last match out of a list

`eraseLast p list` is the list without its last element that satisfies `p`. It is `List.eraseP`
seen from the other end, so its rules go from the end of the list: what the last element decides
(`eraseLast_concat`), and how the last matches of a list and of its image agree (`map_eraseLast`).
-/

set_option autoImplicit false

namespace LastMatch

variable {α β : Type}

/-- The list without its last element that satisfies `p`. -/
def eraseLast (p : α → Bool) (list : List α) : List α :=
  (list.reverse.eraseP p).reverse

/-- `eraseLast` takes the last match out, and leaves the order of the others. -/
theorem eraseLast_append_of_not (p : α → Bool) (pre post : List α) (a : α) (ha : p a = true)
    (hpost : ∀ b ∈ post, p b = false) : eraseLast p (pre ++ a :: post) = pre ++ post := by
  have hrev : (pre ++ a :: post).reverse = post.reverse ++ a :: pre.reverse := by simp
  rw [eraseLast, hrev, List.eraseP_append_right, List.eraseP_cons_of_pos ha]
  · simp
  · intro b hb
    simpa using hpost b (List.mem_reverse.mp hb)

theorem eraseLast_concat (p : α → Bool) (list : List α) (a : α) :
    eraseLast p (list ++ [a]) = if p a then list else eraseLast p list ++ [a] := by
  by_cases ha : p a = true
  · rw [if_pos ha]
    have h := eraseLast_append_of_not p list [] a ha (by simp)
    rwa [List.append_nil] at h
  · rw [if_neg ha, eraseLast, List.reverse_append, List.reverse_singleton, List.singleton_append,
      List.eraseP_cons_of_neg ha, List.reverse_cons]
    rfl

theorem eraseLast_sublist (p : α → Bool) (list : List α) : (eraseLast p list).Sublist list := by
  have h : (list.reverse.eraseP p).Sublist list.reverse := List.eraseP_sublist
  rw [eraseLast, ← List.reverse_sublist, List.reverse_reverse]
  exact h

/-- Of at most one match none is left. -/
theorem eraseLast_of_countP_le_one {p : α → Bool} {list : List α} (h : list.countP p ≤ 1) :
    ∀ a ∈ eraseLast p list, p a = false := by
  induction list using List.reverseRecOn with
  | nil =>
      intro a ha
      cases ha
  | append_singleton list a ih =>
      rw [List.countP_append, List.countP_singleton] at h
      rw [eraseLast_concat]
      by_cases ha : p a = true
      · rw [if_pos ha] at h ⊢
        have hnone : list.countP p = 0 := by omega
        intro b hb
        simpa using List.countP_eq_zero.mp hnone b hb
      · rw [if_neg ha] at h ⊢
        intro b hb
        rcases List.mem_append.mp hb with hold | hnew
        · exact ih h b hold
        · rw [List.mem_singleton.mp hnew]
          simpa using ha

/-- The last match for `p` is taken out of the image as well, if it is one for `q`, and `q` has no
other matches. -/
theorem map_eraseLast {f : α → β} {p : α → Bool} {q : β → Bool} {list : List α}
    (hq : ∀ a, q (f a) = true → p a = true)
    (hlast : (list.reverse.find? p).all fun a => q (f a)) :
    (eraseLast p list).map f = eraseLast q (list.map f) := by
  induction list using List.reverseRecOn with
  | nil => rfl
  | append_singleton list a ih =>
      rw [List.reverse_append, List.reverse_singleton, List.singleton_append,
        List.find?_cons] at hlast
      rw [eraseLast_concat, List.map_append, List.map_singleton, eraseLast_concat]
      by_cases ha : p a = true
      · rw [ha] at hlast
        rw [if_pos ha, if_pos (by simpa using hlast)]
      · have hqa : ¬ q (f a) = true := fun h => ha (hq a h)
        have hfalse : p a = false := by simpa using ha
        rw [hfalse] at hlast
        rw [if_neg ha, if_neg hqa, List.map_append, ih hlast, List.map_singleton]

end LastMatch

import Mathlib.Tactic.Common

/-!
# `IotJs.Lib.History`: properties of a growing log

A log that only grows at its end records what a system did. `Always P log` says that each
entry satisfies `P` with the entries before it. `Owed p q log` says that an entry of kind `p`
has had no entry of kind `q` after it yet. Both are computed over `++` and `::`, which is all
that an invariant about a log needs when a step appends a few known entries.
-/

set_option autoImplicit false

namespace History

variable {α : Type}

/-- Each entry `a` of the log satisfies `P pre a`, where `pre` are the entries before it. -/
def Always (P : List α → α → Prop) (log : List α) : Prop :=
  ∀ pre a post, log = pre ++ a :: post → P pre a

@[simp] theorem always_nil (P : List α → α → Prop) : Always P [] := by
  intro pre a post h
  simp at h

@[simp] theorem always_cons (P : List α → α → Prop) (x : α) (log : List α) :
    Always P (x :: log) ↔ P [] x ∧ Always (fun pre a => P (x :: pre) a) log := by
  constructor
  · intro h
    exact ⟨h [] x log rfl, fun pre a post hp => h (x :: pre) a post (by simp [hp])⟩
  · rintro ⟨hx, h⟩ pre a post hp
    cases pre with
    | nil =>
        cases hp
        exact hx
    | cons y pre =>
        cases hp
        exact h pre a post rfl

/-- The entries appended to a log are judged with the whole log before them. -/
@[simp] theorem always_append (P : List α → α → Prop) (log new : List α) :
    Always P (log ++ new) ↔ Always P log ∧ Always (fun pre a => P (log ++ pre) a) new := by
  induction log generalizing P with
  | nil => simp
  | cons x log ih => simp [ih, and_assoc]

/-- The entry at an index, with the entries before it. -/
theorem Always.getElem {P : List α → α → Prop} {log : List α} (h : Always P log) {i : Nat} {a : α}
    (hi : log[i]? = some a) : P (log.take i) a := by
  obtain ⟨hlt, rfl⟩ := List.getElem?_eq_some_iff.mp hi
  refine h (log.take i) log[i] (log.drop (i + 1)) ?_
  rw [List.getElem_cons_drop, List.take_append_drop]

/-- Some entry satisfies `p`, and no entry after it satisfies `q`: what `p` asked for has not
been answered by `q` yet. -/
def Owed (p q : α → Prop) (log : List α) : Prop :=
  ∃ pre a post, log = pre ++ a :: post ∧ p a ∧ ∀ b ∈ post, ¬ q b

@[simp] theorem not_owed_nil (p q : α → Prop) : ¬ Owed p q [] := by
  rintro ⟨pre, a, post, h, -⟩
  simp at h

@[simp] theorem owed_cons (p q : α → Prop) (x : α) (log : List α) :
    Owed p q (x :: log) ↔ (p x ∧ ∀ b ∈ log, ¬ q b) ∨ Owed p q log := by
  constructor
  · rintro ⟨pre, a, post, h, ha, hq⟩
    cases pre with
    | nil =>
        cases h
        exact .inl ⟨ha, hq⟩
    | cons y pre =>
        cases h
        exact .inr ⟨pre, a, post, rfl, ha, hq⟩
  · rintro (⟨hx, hq⟩ | ⟨pre, a, post, rfl, ha, hq⟩)
    · exact ⟨[], x, log, rfl, hx, hq⟩
    · exact ⟨x :: pre, a, post, rfl, ha, hq⟩

/-- Appended entries raise a debt of their own, or leave the old one, or pay it. -/
@[simp] theorem owed_append (p q : α → Prop) (log new : List α) :
    Owed p q (log ++ new) ↔ Owed p q new ∨ (Owed p q log ∧ ∀ b ∈ new, ¬ q b) := by
  induction log with
  | nil => simp
  | cons x log ih =>
      simp only [List.cons_append, owed_cons, ih, List.mem_append, or_imp, forall_and]
      tauto

/-- Where no entry is of kind `p`, nothing is owed. -/
theorem not_owed_of_forall {p q : α → Prop} {log : List α} (h : ∀ a ∈ log, ¬ p a) :
    ¬ Owed p q log := by
  rintro ⟨pre, a, post, rfl, ha, -⟩
  exact h a (by simp) ha

/-- Where no entry is of kind `q`, every entry of kind `p` is owed one. -/
theorem not_owed_iff_of_forall {p q : α → Prop} {log : List α} (h : ∀ a ∈ log, ¬ q a) :
    ¬ Owed p q log ↔ ∀ a ∈ log, ¬ p a := by
  refine ⟨fun howed a ha hp => howed ?_, not_owed_of_forall⟩
  obtain ⟨pre, post, rfl⟩ := List.append_of_mem ha
  exact ⟨pre, a, post, rfl, hp, fun b hb => h b (by simp [hb])⟩

end History

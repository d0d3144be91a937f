import Mathlib.Data.List.Basic

/-!
# `IotJs.Lib.Fallible`: steps that can fail, one after the other

A computation in `Except` gives a result if each of its steps does, and `List.mapM` gives one if the
function does on every member of the list.
-/

set_option autoImplicit false

namespace Fallible

variable {ε α β : Type}

theorem bind_eq_ok_iff {x : Except ε α} {f : α → Except ε β} {b : β} :
    x >>= f = .ok b ↔ ∃ a, x = .ok a ∧ f a = .ok b := by
  cases x with
  | error e =>
      refine iff_of_false (fun h => by cases h) ?_
      rintro ⟨a, ha, -⟩
      cases ha
  | ok a =>
      constructor
      · exact fun h => ⟨a, rfl, h⟩
      · rintro ⟨a', ha, h⟩
        cases ha
        exact h

/-- What the results of a whole list have in them comes from one of its members. -/
theorem mem_flatten_mapM {f : α → Except ε (List β)} {l : List α} {out : List (List β)}
    (h : l.mapM f = .ok out) {b : β} :
    b ∈ out.flatten ↔ ∃ a ∈ l, ∃ bs, f a = .ok bs ∧ b ∈ bs := by
  induction l generalizing out with
  | nil =>
      rw [List.mapM_nil] at h
      cases h
      simp
  | cons a l ih =>
      rw [List.mapM_cons] at h
      obtain ⟨bs, hbs, h⟩ := bind_eq_ok_iff.mp h
      obtain ⟨rest, hrest, h⟩ := bind_eq_ok_iff.mp h
      cases h
      simp only [List.flatten_cons, List.mem_append, ih hrest, List.mem_cons, exists_eq_or_imp, hbs,
        Except.ok.injEq, exists_eq_left']

theorem mapM_of_forall {f : α → Option β} {g : α → β} {l : List α} (h : ∀ a ∈ l, f a = some (g a)) :
    l.mapM f = some (l.map g) := by
  induction l with
  | nil => rfl
  | cons a l ih =>
      rw [List.mapM_cons, h a List.mem_cons_self, ih fun b hb => h b (List.mem_cons_of_mem a hb)]
      rfl

/-- The function gives a result on every member, and together these are the result. -/
theorem mapM_eq_some_iff {f : α → Option β} {l : List α} {out : List β} :
    l.mapM f = some out ↔ (∀ a ∈ l, (f a).isSome) ∧ out.map some = l.map f := by
  induction l generalizing out with
  | nil =>
      rw [List.mapM_nil]
      refine ⟨fun h => ?_, fun h => ?_⟩
      · obtain rfl := Option.some.inj h
        exact ⟨fun a ha => absurd ha List.not_mem_nil, rfl⟩
      · rw [List.map_eq_nil_iff.mp h.2]
        rfl
  | cons a l ih =>
      rw [List.mapM_cons]
      constructor
      · intro h
        obtain ⟨b, hb, h⟩ := Option.bind_eq_some_iff.mp h
        obtain ⟨rest, hrest, h⟩ := Option.bind_eq_some_iff.mp h
        obtain rfl := Option.some.inj h
        obtain ⟨hall, hmap⟩ := ih.mp hrest
        rw [List.forall_mem_cons, List.map_cons, List.map_cons, hb, hmap]
        exact ⟨⟨rfl, hall⟩, rfl⟩
      · rintro ⟨hall, hmap⟩
        rw [List.forall_mem_cons] at hall
        cases out with
        | nil => cases hmap
        | cons b out =>
            rw [List.map_cons, List.map_cons, List.cons.injEq] at hmap
            rw [← hmap.1, ih.mpr ⟨hall.2, hmap.2⟩]
            rfl

theorem isSome_mapM_iff {f : α → Option β} {l : List α} :
    (l.mapM f).isSome ↔ ∀ a ∈ l, (f a).isSome := by
  constructor
  · intro h
    obtain ⟨out, hout⟩ := Option.isSome_iff_exists.mp h
    exact (mapM_eq_some_iff.mp hout).1
  · intro h
    have hget : ∀ a ∈ l.attach, f a.1 = some ((f a.1).get (h a.1 a.2)) := fun a _ =>
      (Option.some_get _).symm
    have hmap := mapM_of_forall (f := fun a : {a // a ∈ l} => f a.1) hget
    rw [List.mapM_subtype fun _ _ => rfl, List.unattach_attach] at hmap
    rw [hmap]
    rfl

/-- A search that can only find one thing finds it. -/
theorem findSome?_eq {f : α → Option β} {l : List α} {a : α} {b : β} (ha : a ∈ l)
    (hb : f a = some b) (hall : ∀ a' ∈ l, ∀ b', f a' = some b' → b' = b) :
    l.findSome? f = some b := by
  cases hfound : l.findSome? f with
  | none =>
      rw [List.findSome?_eq_none_iff] at hfound
      rw [hfound a ha] at hb
      cases hb
  | some b' =>
      obtain ⟨a', ha', hb'⟩ := List.exists_of_findSome?_eq_some hfound
      rw [hall a' ha' b' hb']

end Fallible

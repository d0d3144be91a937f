import Mathlib.Data.List.Nodup

/-!
# `IotJs.Lib.Ledger`: what is taken has to be given back

A ledger lists all that was ever taken, in order, and how often each of it was given back. The
number of an entry is its place in the list, so that no number is used twice. `Owns` says that what
is in a list was taken, was not given back yet, and is in the list once: who owns it is the one that
has to give it back, and nobody else may.
-/

set_option autoImplicit false

namespace Ledger

variable {ρ : Type}

structure Entry (ρ : Type) where
  kind : ρ
  released : Nat
deriving DecidableEq, Repr

def Entry.isLive (e : Entry ρ) : Bool := e.released == 0

/-- How much was not given back. -/
def live (l : List (Entry ρ)) : Nat := l.countP Entry.isLive

def isLive (l : List (Entry ρ)) (i : Nat) : Bool := l[i]?.any Entry.isLive

def take (l : List (Entry ρ)) (k : ρ) : List (Entry ρ) := l ++ [⟨k, 0⟩]

def release (l : List (Entry ρ)) (i : Nat) : List (Entry ρ) :=
  l.modify i fun e => { e with released := e.released + 1 }

def update (l : List (Entry ρ)) (i : Nat) (k : ρ) : List (Entry ρ) :=
  l.modify i fun e => { e with kind := k }

/-- The entry was taken as `k`, and was not given back. -/
def Holds (l : List (Entry ρ)) (i : Nat) (k : ρ) : Prop := l[i]? = some ⟨k, 0⟩

/-- Nothing was given back twice. -/
def Once (l : List (Entry ρ)) : Prop := ∀ e ∈ l, e.released ≤ 1

section entries

variable {l : List (Entry ρ)} {i j : Nat} {k k' : ρ}

theorem Holds.lt_length (h : Holds l i k) : i < l.length :=
  (List.getElem?_eq_some_iff.mp h).1

theorem Holds.isLive (h : Holds l i k) : isLive l i = true := by
  rw [Ledger.isLive, h]
  rfl

theorem holds_take_self (l : List (Entry ρ)) (k : ρ) : Holds (take l k) l.length k := by
  rw [Holds, take, List.getElem?_append_right (Nat.le_refl _), Nat.sub_self]
  rfl

theorem Holds.take (h : Holds l i k) (k' : ρ) : Holds (take l k') i k := by
  rw [Holds, Ledger.take, List.getElem?_append_left h.lt_length]
  exact h

theorem holds_release_ne_iff (hne : j ≠ i) : Holds (release l j) i k ↔ Holds l i k := by
  rw [Holds, release, List.getElem?_modify_ne _ _ hne, Holds]

theorem holds_update_ne_iff (hne : j ≠ i) : Holds (update l j k') i k ↔ Holds l i k := by
  rw [Holds, update, List.getElem?_modify_ne _ _ hne, Holds]

theorem Holds.update (h : Holds l i k) (k' : ρ) : Holds (update l i k') i k' := by
  rw [Holds, Ledger.update, List.getElem?_modify_eq, h]
  rfl

theorem length_take (l : List (Entry ρ)) (k : ρ) : (take l k).length = l.length + 1 := by
  rw [take, List.length_append, List.length_singleton]

theorem length_release (l : List (Entry ρ)) (i : Nat) : (release l i).length = l.length :=
  List.length_modify ..

theorem length_update (l : List (Entry ρ)) (i : Nat) (k : ρ) : (update l i k).length = l.length :=
  List.length_modify ..

theorem live_take (l : List (Entry ρ)) (k : ρ) : live (take l k) = live l + 1 := by
  rw [live, take, List.countP_append]
  rfl

theorem live_release (h : Holds l i k) : live (release l i) + 1 = live l := by
  induction l generalizing i with
  | nil => cases h
  | cons e l ih =>
      cases i with
      | zero =>
          obtain rfl := Option.some.inj h
          rw [live, release, List.modify_zero_cons, List.countP_cons, live, List.countP_cons]
          rfl
      | succ i =>
          rw [live, release, List.modify_succ_cons, List.countP_cons, live, List.countP_cons,
            Nat.add_right_comm]
          exact congrArg (· + _) (ih h)

theorem live_update (l : List (Entry ρ)) (i : Nat) (k : ρ) : live (update l i k) = live l := by
  induction l generalizing i with
  | nil => rw [update, List.modify_nil]
  | cons e l ih =>
      cases i with
      | zero => rfl
      | succ i =>
          rw [live, update, List.modify_succ_cons, List.countP_cons, live, List.countP_cons]
          exact congrArg (· + _) (ih i)

theorem once_nil : Once ([] : List (Entry ρ)) := fun _ h => absurd h List.not_mem_nil

theorem Once.take (h : Once l) (k : ρ) : Once (take l k) := by
  intro e he
  rcases List.mem_append.mp he with he | he
  · exact h e he
  · rw [List.mem_singleton.mp he]
    exact Nat.zero_le 1

theorem Once.release (h : Once l) (hi : Holds l i k) : Once (release l i) := by
  intro e he
  obtain ⟨n, hn⟩ := List.mem_iff_getElem?.mp he
  rw [Ledger.release, List.getElem?_modify] at hn
  obtain ⟨e', he', rfl⟩ := Option.map_eq_some_iff.mp hn
  split
  · rename_i heq
    rw [← heq, hi] at he'
    obtain rfl := Option.some.inj he'
    exact Nat.le_refl 1
  · exact h e' (List.mem_of_getElem? he')

theorem Once.update (h : Once l) (i : Nat) (k : ρ) : Once (update l i k) := by
  intro e he
  obtain ⟨n, hn⟩ := List.mem_iff_getElem?.mp he
  rw [Ledger.update, List.getElem?_modify] at hn
  obtain ⟨e', he', rfl⟩ := Option.map_eq_some_iff.mp hn
  split
  · exact h e' (List.mem_of_getElem? he')
  · exact h e' (List.mem_of_getElem? he')

end entries

/-! ### Owners -/

/-- The entries are held, and each of them is in the list once. -/
structure Owns (l : List (Entry ρ)) (own : List (Nat × ρ)) : Prop where
  nodup : (own.map Prod.fst).Nodup
  holds : ∀ p ∈ own, Holds l p.1 p.2

section owners

variable {l : List (Entry ρ)} {own pre post : List (Nat × ρ)} {i : Nat} {k : ρ}

theorem owns_nil (l : List (Entry ρ)) : Owns l [] where
  nodup := List.nodup_nil
  holds _ h := absurd h List.not_mem_nil

theorem Owns.perm {own' : List (Nat × ρ)} (h : Owns l own) (hperm : own.Perm own') :
    Owns l own' where
  nodup := (hperm.map Prod.fst).nodup_iff.mp h.nodup
  holds p hp := h.holds p (hperm.mem_iff.mpr hp)

theorem Owns.sublist {own' : List (Nat × ρ)} (h : Owns l own) (hsub : own'.Sublist own) :
    Owns l own' where
  nodup := (hsub.map Prod.fst).nodup h.nodup
  holds p hp := h.holds p (hsub.subset hp)

theorem Owns.at (h : Owns l (pre ++ (i, k) :: post)) : Holds l i k :=
  h.holds (i, k) (List.mem_append_right _ List.mem_cons_self)

/-- The number of the entry in the middle is not used around it. -/
theorem Owns.ne (h : Owns l (pre ++ (i, k) :: post)) : ∀ p ∈ pre ++ post, i ≠ p.1 := by
  have hnodup := h.nodup
  rw [List.map_append, List.map_cons, List.nodup_middle, List.nodup_cons,
    ← List.map_append] at hnodup
  intro p hp heq
  exact hnodup.1 (List.mem_map.mpr ⟨p, hp, heq.symm⟩)

theorem Owns.take (h : Owns l own) (k : ρ) : Owns (take l k) ((l.length, k) :: own) where
  nodup := by
    rw [List.map_cons, List.nodup_cons]
    refine ⟨fun hmem => ?_, h.nodup⟩
    obtain ⟨p, hp, heq⟩ := List.mem_map.mp hmem
    have hlt := (h.holds p hp).lt_length
    omega
  holds p hp := by
    rcases List.mem_cons.mp hp with rfl | hp
    · exact holds_take_self l k
    · exact (h.holds p hp).take k

theorem Owns.release (h : Owns l (pre ++ (i, k) :: post)) : Owns (release l i) (pre ++ post) where
  nodup := ((List.Sublist.refl pre).append (List.sublist_cons_self (i, k) post)).map Prod.fst
    |>.nodup h.nodup
  holds p hp := by
    rw [holds_release_ne_iff (h.ne p hp)]
    refine h.holds p ?_
    rcases List.mem_append.mp hp with hp | hp
    · exact List.mem_append_left _ hp
    · exact List.mem_append_right _ (List.mem_cons_of_mem _ hp)

theorem Owns.update (h : Owns l (pre ++ (i, k) :: post)) (k' : ρ) :
    Owns (update l i k') (pre ++ (i, k') :: post) where
  nodup := by
    have hnodup := h.nodup
    rw [List.map_append, List.map_cons] at hnodup ⊢
    exact hnodup
  holds p hp := by
    rw [List.mem_append, List.mem_cons] at hp
    have hother : p ∈ pre ++ post → Holds (Ledger.update l i k') p.1 p.2 := by
      intro hmem
      rw [holds_update_ne_iff (h.ne p hmem)]
      refine h.holds p ?_
      rcases List.mem_append.mp hmem with hmem | hmem
      · exact List.mem_append_left _ hmem
      · exact List.mem_append_right _ (List.mem_cons_of_mem _ hmem)
    rcases hp with hp | rfl | hp
    · exact hother (List.mem_append_left _ hp)
    · exact h.at.update k'
    · exact hother (List.mem_append_right _ hp)

end owners

end Ledger

import Mathlib.Data.List.Basic

/-!
# `IotJs.Lib.Delimited`: lists split at a separator of two elements

`cut` splits a list at the first separator, and `pieces` at every one of them, from the left. What
they take off is free of separators (`cut_eq_some`, `pieces_free`). A list of lists that is written
with a separator behind each comes back from `pieces` exactly if each is free of separators
(`pieces_join_iff`). The two elements of the separator have to differ: then what stands in front
of a separator cannot make another one with its first element.
-/

set_option autoImplicit false

namespace Delimited

variable {α : Type} [DecidableEq α] (a b : α)

/-- The separator does not occur. -/
def Free (list : List α) : Prop := ¬ [a, b] <:+: list

instance (list : List α) : Decidable (Free a b list) :=
  inferInstanceAs (Decidable (¬ [a, b] <:+: list))

/-- What stands before the first separator, and what stands behind it. -/
def cut : List α → Option (List α × List α)
  | [] => none
  | x :: list =>
    if x = a ∧ list.head? = some b then some ([], list.tail)
    else (cut list).map fun parts => (x :: parts.1, parts.2)

/-- An element in front of the first piece, or of the rest if there is no piece. -/
def push (x : α) : List (List α) × List α → List (List α) × List α
  | ([], rest) => ([], x :: rest)
  | (piece :: pieces, rest) => ((x :: piece) :: pieces, rest)

/-- The pieces that end in a separator, and what stands behind the last one. -/
def pieces : List α → List (List α) × List α
  | [] => ([], [])
  | [x] => ([], [x])
  | x :: y :: list =>
    if x = a ∧ y = b then ([] :: (pieces list).1, (pieces list).2)
    else push x (pieces (y :: list))

/-- Pieces with a separator behind each. -/
def join (pieces : List (List α)) : List α := pieces.flatMap fun piece => piece ++ [a, b]

variable {a b}

/-! ### `Free` -/

omit [DecidableEq α] in
theorem free_nil : Free a b [] :=
  fun h => absurd (List.eq_nil_of_infix_nil h) (List.cons_ne_nil _ _)

omit [DecidableEq α] in
theorem Free.of_isInfix {list part : List α} (h : Free a b list) (hpart : part <:+: list) :
    Free a b part := fun hsep => h (hsep.trans hpart)

omit [DecidableEq α] in
/-- A list is free if no separator starts it and the rest is free. -/
theorem free_cons_iff (x : α) (list : List α) :
    Free a b (x :: list) ↔ ¬ (x = a ∧ list.head? = some b) ∧ Free a b list := by
  unfold Free
  rw [List.infix_cons_iff, not_or, List.cons_prefix_cons]
  have hhead : [b] <+: list ↔ list.head? = some b := by
    cases list with
    | nil => simp
    | cons y list => simp [List.cons_prefix_cons, eq_comm]
  rw [hhead, eq_comm]

omit [DecidableEq α] in
/-- The first element alone makes no separator. -/
theorem free_of_not_mem {list : List α} (h : a ∉ list) : Free a b list :=
  fun hsep => h (hsep.subset List.mem_cons_self)

omit [DecidableEq α] in
theorem Free.concat {list : List α} {x : α} (h : Free a b list) (hx : x ≠ b) :
    Free a b (list ++ [x]) := by
  induction list with
  | nil =>
      refine (free_cons_iff x []).mpr ⟨fun hpair => ?_, free_nil⟩
      exact Option.some_ne_none b hpair.2.symm
  | cons y list ih =>
      obtain ⟨hpair, hfree⟩ := (free_cons_iff y list).mp h
      refine (free_cons_iff y _).mpr ⟨fun hboth => ?_, ih hfree⟩
      cases list with
      | nil => exact hx (Option.some.inj hboth.2)
      | cons z list => exact hpair hboth

/-! ### `cut` -/

/-- What is taken off is free, and with the separator and the rest it is the list. -/
theorem cut_eq_some {list front rest : List α} (h : cut a b list = some (front, rest)) :
    list = front ++ a :: b :: rest ∧ Free a b front := by
  induction list generalizing front with
  | nil => exact absurd h.symm (Option.some_ne_none _)
  | cons x list ih =>
      rw [cut] at h
      by_cases hsep : x = a ∧ list.head? = some b
      · rw [if_pos hsep] at h
        obtain ⟨rfl, rfl⟩ := Prod.mk.inj (Option.some.inj h)
        obtain ⟨tail, rfl⟩ := List.head?_eq_some_iff.mp hsep.2
        exact ⟨by rw [hsep.1]; rfl, free_nil⟩
      · rw [if_neg hsep] at h
        obtain ⟨⟨front', rest'⟩, hcut, heq⟩ := Option.map_eq_some_iff.mp h
        obtain ⟨rfl, rfl⟩ := Prod.mk.inj heq
        obtain ⟨hlist, hfree⟩ := ih hcut
        refine ⟨by rw [hlist]; rfl, (free_cons_iff _ _).mpr ⟨?_, hfree⟩⟩
        rintro ⟨hx, hhead⟩
        apply hsep
        refine ⟨hx, ?_⟩
        rw [hlist, List.head?_append, hhead]
        rfl

/-- A list that is free and followed by a separator comes back. -/
theorem cut_append (hne : a ≠ b) {front : List α} (hfree : Free a b front) (rest : List α) :
    cut a b (front ++ a :: b :: rest) = some (front, rest) := by
  induction front with
  | nil =>
      show cut a b (a :: b :: rest) = _
      rw [cut, if_pos ⟨rfl, rfl⟩]
      rfl
  | cons x front ih =>
      obtain ⟨hsep, hfront⟩ := (free_cons_iff x front).mp hfree
      have hno : ¬ (x = a ∧ (front ++ a :: b :: rest).head? = some b) := by
        rintro ⟨hx, hhead⟩
        cases front with
        | nil => exact hne (Option.some.inj hhead)
        | cons y front => exact hsep ⟨hx, hhead⟩
      rw [List.cons_append, cut, if_neg hno, ih hfront]
      rfl

/-! ### `pieces` -/

omit [DecidableEq α] in
theorem join_push (x : α) (parts : List (List α) × List α) :
    join a b (push x parts).1 ++ (push x parts).2 = x :: (join a b parts.1 ++ parts.2) := by
  obtain ⟨pieces, rest⟩ := parts
  cases pieces with
  | nil => rfl
  | cons piece pieces => rfl

/-- Every list is the join of its pieces, and the rest. -/
theorem join_pieces (list : List α) :
    join a b (pieces a b list).1 ++ (pieces a b list).2 = list := by
  induction list using pieces.induct (a := a) (b := b) with
  | case1 => rfl
  | case2 x => rfl
  | case3 x y list hsep ih =>
      rw [pieces, if_pos hsep, hsep.1, hsep.2]
      show a :: b :: (join a b (pieces a b list).1 ++ (pieces a b list).2) = _
      rw [ih]
  | case4 x y list hsep ih => rw [pieces, if_neg hsep, join_push, ih]

/-- The pieces are free of separators. -/
theorem pieces_free (list : List α) : ∀ piece ∈ (pieces a b list).1, Free a b piece := by
  induction list using pieces.induct (a := a) (b := b) with
  | case1 => exact fun piece hmem => absurd hmem List.not_mem_nil
  | case2 x => exact fun piece hmem => absurd hmem List.not_mem_nil
  | case3 x y list hsep ih =>
      rw [pieces, if_pos hsep]
      intro piece hmem
      rcases List.mem_cons.mp hmem with rfl | hmem
      · exact free_nil
      · exact ih piece hmem
  | case4 x y list hsep ih =>
      have hlist := join_pieces (a := a) (b := b) (y :: list)
      rw [pieces, if_neg hsep]
      cases hparts : pieces a b (y :: list) with
      | mk parts rest =>
          rw [hparts] at ih hlist
          cases parts with
          | nil => exact fun piece hmem => absurd hmem List.not_mem_nil
          | cons first others =>
              intro piece hmem
              rcases List.mem_cons.mp hmem with rfl | hmem
              · refine (free_cons_iff x first).mpr ⟨?_, ih first List.mem_cons_self⟩
                rintro ⟨hx, hhead⟩
                apply hsep
                refine ⟨hx, ?_⟩
                -- the first piece begins where the list behind `x` begins
                obtain ⟨tail, rfl⟩ := List.head?_eq_some_iff.mp hhead
                exact (List.cons.inj hlist).1.symm
              · exact ih piece (List.mem_cons_of_mem first hmem)

/-- A piece that is free comes off whole. -/
theorem pieces_append (hne : a ≠ b) {front : List α} (hfree : Free a b front) (rest : List α) :
    pieces a b (front ++ a :: b :: rest) = (front :: (pieces a b rest).1, (pieces a b rest).2) := by
  induction front with
  | nil =>
      show pieces a b (a :: b :: rest) = _
      rw [pieces, if_pos ⟨rfl, rfl⟩]
  | cons x front ih =>
      obtain ⟨hsep, hfront⟩ := (free_cons_iff x front).mp hfree
      cases front with
      | nil =>
          have hno : ¬ (x = a ∧ a = b) := fun h => hne h.2
          show pieces a b (x :: a :: b :: rest) = _
          rw [pieces, if_neg hno]
          show push x (pieces a b ([] ++ a :: b :: rest)) = _
          rw [ih hfront]
          rfl
      | cons y front =>
          have hno : ¬ (x = a ∧ y = b) := fun h => hsep ⟨h.1, congrArg some h.2⟩
          show pieces a b (x :: y :: (front ++ a :: b :: rest)) = _
          rw [pieces, if_neg hno]
          show push x (pieces a b (y :: front ++ a :: b :: rest)) = _
          rw [ih hfront]
          rfl

/-- A list of pieces comes back from its join exactly if each piece is free. -/
theorem pieces_join_iff (hne : a ≠ b) (parts : List (List α)) :
    pieces a b (join a b parts) = (parts, []) ↔ ∀ part ∈ parts, Free a b part := by
  constructor
  · intro h part hmem
    have hfree := pieces_free (a := a) (b := b) (join a b parts)
    rw [h] at hfree
    exact hfree part hmem
  · intro hfree
    induction parts with
    | nil => rfl
    | cons part parts ih =>
        have hrest := ih fun other hmem => hfree other (List.mem_cons_of_mem part hmem)
        have hjoin : join a b (part :: parts) = part ++ a :: b :: join a b parts := by
          show part ++ [a, b] ++ join a b parts = _
          rw [List.append_assoc]
          rfl
        rw [hjoin, pieces_append hne (hfree part List.mem_cons_self), hrest]

end Delimited

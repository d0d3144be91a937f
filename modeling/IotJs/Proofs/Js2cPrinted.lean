import IotJs.Proofs.Js2cTokens

/-!
# `IotJs.Proofs.Js2cPrinted`: the array of a minimized module

`printJSContents` minimizes a text with a NUL behind it, and counts the NUL off. Where the
expression finds the elements with the NUL behind them, the array holds the minimized text
(`printJSContents_eq`), and `tokens_printed_iff` says when it has the tokens of the module. This is
not so where the module ends in a line comment: the comment takes the NUL with it.
-/

set_option autoImplicit false

namespace IotJs

open MaximalMunch Substitution LexicalGrammar
open MaximalMunch.Automaton (lexed_iff lex_eq_some_iff)
open Delimited (Free)

namespace Js2c

/-- What `printJSContents` puts behind a text. -/
def nul : Element := ⟨.bad, ['\x00']⟩

section

variable {e : Element} {es : List Element}

/-- A NUL ends every element but a line comment. -/
theorem step_nul {s : LexState} (hfinal : final s = true) (hs : s ≠ .lineComment) :
    step s '\x00' = none := by
  cases s with
  | lineComment => exact absurd rfl hs
  | punctuator list =>
      have hall : ∀ p ∈ punctuators, '\x00' ∉ p := by decide
      refine if_neg fun hmem => hall _ hmem ?_
      exact List.mem_append_right list List.mem_cons_self
  | _ => first
    | rfl
    | cases hfinal

theorem isRemoved_congr (hs : e.state ≠ .lineComment) (next next' : Option Char) :
    isRemoved e next = isRemoved e next' := by
  obtain ⟨s, list⟩ := e
  cases s with
  | lineComment => exact absurd rfl hs
  | _ => rfl

/-- A line comment goes over the NUL. -/
theorem not_found_lineComment (hshape : Shape e) (hstate : e.state = .lineComment) :
    ¬ Found e ['\x00'] := by
  intro hfound
  obtain ⟨body, htext, hbody⟩ := hshape.of_lineComment hstate
  have hline : ∀ c ∈ body ++ ['\x00'], isLineTerminator c = false := by
    intro c hc
    rcases List.mem_append.mp hc with hc | hc
    · exact hbody c hc
    · rw [List.mem_singleton.mp hc]
      decide
  have hsome : commentPattern (('/' :: '/' :: (body ++ ['\x00'])) ++ []) = some _ :=
    commentPattern_line hline (Or.inl rfl)
  rw [List.append_nil] at hsome
  rcases hfound.lineComment hstate with hremoved | hpasses
  · rw [isRemoved, hstate] at hremoved
    cases hremoved
  · rw [htext] at hpasses
    have hnone : commentPattern ('/' :: '/' :: (body ++ ['\x00'])) = none := hpasses.1
    rw [hnone] at hsome
    cases hsome

end

section

variable {goal : List (Bool × Element) → Bool} {k : Context} {e : Element} {es : List Element}

/-- Only the last element has the NUL behind it. -/
theorem head?_concat_nul (hlexed : (automaton goal).Lexed k es) :
    (text (es ++ [nul])).head? = (text es).head? ∨ es = [] := by
  cases hlexed with
  | nil => exact Or.inr rfl
  | @cons _ e es haccepts =>
      have hne := haccepts.text_ne_nil
      left
      rw [List.cons_append, text_cons, text_cons, List.head?_append_of_ne_nil _ hne,
        List.head?_append_of_ne_nil _ hne]

/-- With the NUL, the last element leaves alone what is behind it. -/
theorem followed_concat_nul (hlexed : (automaton goal).Lexed k es)
    (hfound : AllFound (es ++ [nul])) : Followed (Ends step) (es ++ [nul]) := by
  induction hlexed with
  | nil => exact ⟨fun c hc => (by cases hc), trivial⟩
  | @cons k e es haccepts hends hrest ih =>
      rw [List.cons_append]
      refine ⟨?_, ih hfound.2⟩
      rcases head?_concat_nul hrest with hhead | rfl
      · rw [hhead]
        exact hends
      · intro c hc
        obtain rfl := Option.some.inj hc
        exact step_nul haccepts.final fun hstate =>
          not_found_lineComment (shape_of_accepts haccepts) hstate hfound.1

theorem leave_concat_nul (hlexed : (automaton goal).Lexed k es)
    (hfound : AllFound (es ++ [nul])) : leave (es ++ [nul]) = leave es ++ [nul] := by
  induction hlexed with
  | nil => rfl
  | @cons k e es haccepts hends hrest ih =>
      have hremoved : isRemoved e (text (es ++ [nul])).head? = isRemoved e (text es).head? := by
        rcases head?_concat_nul hrest with hhead | rfl
        · rw [hhead]
        · exact isRemoved_congr (fun hstate =>
            not_found_lineComment (shape_of_accepts haccepts) hstate hfound.1) _ _
      rw [List.cons_append, leave, leave, hremoved, ih hfound.2]
      split
      · rfl
      · rfl

theorem thin_concat_nul {x : Char} (hx : x ≠ '\x00') (after : Bool) (es : List Element) :
    thin x after (es ++ [nul]) = thin x after es ++ [nul] := by
  induction es generalizing after with
  | nil =>
      have hkeep : ¬ (after && decide (nul.text = [x])) = true := by
        intro hdrop
        have hsame := of_decide_eq_true (Bool.and_eq_true_iff.mp hdrop).2
        exact hx (List.cons.inj hsame).1.symm
      exact if_neg hkeep
  | cons e es ih =>
      rw [List.cons_append, thin, thin, ih, ih]
      split
      · rfl
      · rfl

theorem shape_nul : Shape nul :=
  .ordinary rfl (List.forall_mem_singleton.mpr (by decide))

theorem settled_nul : Settled nul :=
  settled_of_shape shape_nul (by decide) (by decide) (by decide)

/-- What is printed is the minimized text and the NUL. -/
theorem printJSContents_eq (hlexed : (automaton goal).Lexed k es)
    (hfound : AllFound (es ++ [nul])) (hsettled : ∀ e ∈ leave es, Settled e) :
    printJSContents false (text es) =
      (text (minimal es) ++ ['\x00'], (text (minimal es)).length) := by
  have hshapes : ∀ e ∈ es ++ [nul], Shape e := by
    intro e he
    rcases List.mem_append.mp he with he | he
    · exact shape_of_lexed hlexed e he
    · rw [List.mem_singleton.mp he]
      exact shape_nul
  have hsettled : ∀ e ∈ leave (es ++ [nul]), Settled e := by
    rw [leave_concat_nul hlexed hfound]
    intro e he
    rcases List.mem_append.mp he with he | he
    · exact hsettled e he
    · rw [List.mem_singleton.mp he]
      exact settled_nul
  have hprinted : minimize (text es ++ ['\x00']) = text (minimal es) ++ ['\x00'] := by
    have htext := minimize_text hshapes (followed_concat_nul hlexed hfound) hfound hsettled
    rw [minimal, leave_concat_nul hlexed hfound, thin_concat_nul (by decide),
      thin_concat_nul (by decide), text_append, text_append] at htext
    exact htext
  rw [printJSContents, if_neg Bool.false_ne_true, hprinted, List.length_append,
    List.length_singleton, Nat.add_sub_cancel]

/-- The characters of the array that count. -/
def printed (js : List Char) : List Char :=
  (printJSContents false js).1.take (printJSContents false js).2

theorem tokens_printed_iff {js : List Char} (helements : elements goal js = some es)
    (hfound : AllFound (es ++ [nul])) (hlines : LinesKept false false es) :
    tokens goal (printed js) = tokens goal js ↔ Intact es := by
  obtain ⟨hlexed, rfl⟩ := lex_eq_some_iff.mp helements
  refine tokens_minimal_iff helements hlines ?_ fun hsettled => ?_
  · exact (free_minimize _).of_isInfix (List.take_prefix _ _).isInfix
  · rw [printed, printJSContents_eq hlexed hfound hsettled]
    exact List.take_left

/-- The NUL goes with the comment, and the last character of the module is counted off. -/
example : printJSContents false ['a', ';', '/', '/', 'b'] = (['a', ';'], 1) := by decide +kernel

end

end Js2c

end IotJs

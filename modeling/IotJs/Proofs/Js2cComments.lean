import IotJs.Core.Js2c
import IotJs.Proofs.LexicalElements

/-!
# `IotJs.Proofs.Js2cComments`: the comments of a module taken out

`removeComments` has one expression for strings and comments, and knows nothing of regular
expressions. Where it finds the elements of a text nevertheless (`Found`), it leaves all of them but
the comments that it takes out (`removeComments_text`).
-/

set_option autoImplicit false

namespace IotJs

open MaximalMunch Substitution LexicalGrammar
open Delimited (Free free_nil free_cons_iff cut_append)

namespace Js2c

/-- `removeComments` takes the element out, where this character comes behind it. -/
def isRemoved (e : Element) (next : Option Char) : Bool :=
  match e.state with
  | .blockEnd => true
  | .lineComment => decide (next = none) || decide (next = some '\n')
  | _ => false

/-- The expression finds where the element begins and ends, with these characters behind it. -/
structure Found (e : Element) (rest : List Char) : Prop where
  string : e.state = .stringEnd → e.text.head? ∉ e.text.tail.dropLast.map some
  regex : e.state = .regexEnd → Passes commentPattern e.text rest
  lineComment : e.state = .lineComment →
    isRemoved e rest.head? = true ∨ Passes commentPattern e.text rest

instance (e : Element) (rest : List Char) : Decidable (Found e rest) :=
  decidable_of_iff ((e.state = .stringEnd → e.text.head? ∉ e.text.tail.dropLast.map some) ∧
      (e.state = .regexEnd → Passes commentPattern e.text rest) ∧
      (e.state = .lineComment → isRemoved e rest.head? = true ∨ Passes commentPattern e.text rest))
    ⟨fun h => ⟨h.1, h.2.1, h.2.2⟩, fun h => ⟨h.string, h.regex, h.lineComment⟩⟩

/-- The expression finds all of the elements. -/
def AllFound : List Element → Prop
  | [] => True
  | e :: es => Found e (text es) ∧ AllFound es

instance decidableAllFound : (es : List Element) → Decidable (AllFound es)
  | [] => isTrue trivial
  | _ :: es =>
      have := decidableAllFound es
      inferInstanceAs (Decidable (_ ∧ _))

/-- The elements that `removeComments` leaves. -/
def leave : List Element → List Element
  | [] => []
  | e :: es => if isRemoved e (text es).head? then leave es else e :: leave es

/-! ### The expression -/

section

variable {rest body : List Char} {c q : Char}

theorem commentPattern_of_other (hslash : c ≠ '/') (hquote : isQuote c = false)
    (list : List Char) : commentPattern (c :: list) = none := by
  rw [isQuote, Bool.or_eq_false_iff, decide_eq_false_iff_not, decide_eq_false_iff_not] at hquote
  rw [commentPattern, if_neg (not_or.mpr hquote), if_neg hslash]

/-- A slash with neither a slash nor a star behind it. -/
theorem commentPattern_slash (hslash : rest.head? ≠ some '/') (hstar : rest.head? ≠ some '*') :
    commentPattern ('/' :: rest) = none := by
  rw [commentPattern, if_neg (by decide), if_pos rfl]
  unfold comment
  split
  · exact absurd rfl hstar
  · exact absurd rfl hslash
  · rfl

theorem findIdx?_quote (hbody : q ∉ body) (rest : List Char) :
    (body ++ q :: rest).findIdx? (· = q) = some body.length := by
  induction body with
  | nil => rw [List.nil_append, List.findIdx?_cons, decide_eq_true rfl]; rfl
  | cons c body ih =>
      rw [List.mem_cons, not_or] at hbody
      rw [List.cons_append, List.findIdx?_cons, decide_eq_false (Ne.symm hbody.1), ih hbody.2]
      rfl

/-- A string is found as it is, and stays. -/
theorem commentPattern_string (hq : isQuote q = true) (hbody : q ∉ body) (rest : List Char) :
    commentPattern ((q :: (body ++ [q])) ++ rest) =
      some ((q :: (body ++ [q])).length, q :: (body ++ [q])) := by
  rw [isQuote, Bool.or_eq_true, decide_eq_true_iff, decide_eq_true_iff] at hq
  rw [List.cons_append, commentPattern, if_pos hq, quoted, List.append_assoc, List.singleton_append,
    findIdx?_quote hbody, Option.map_some]
  have htake : (body ++ q :: rest).take (body.length + 1) = body ++ [q] := by
    rw [List.take_append, List.take_of_length_le (by omega), Nat.add_sub_cancel_left]
    rfl
  rw [htake, List.length_cons, List.length_append, List.length_singleton]

/-- A comment is found up to its end, and taken out. -/
theorem commentPattern_block (hfree : Free '*' '/' body) (rest : List Char) :
    commentPattern (('/' :: '*' :: (body ++ ['*', '/'])) ++ rest) =
      some (('/' :: '*' :: (body ++ ['*', '/'])).length, []) := by
  have hcut : Delimited.cut '*' '/' (body ++ ['*', '/'] ++ rest) = some (body, rest) := by
    rw [List.append_assoc]
    exact cut_append (by decide) hfree rest
  rw [List.cons_append, List.cons_append, commentPattern, if_neg (by decide), if_pos rfl, comment,
    hcut]
  simp

theorem takeWhile_line (hbody : ∀ c ∈ body, isLineTerminator c = false)
    (hrest : rest.head? = none ∨ rest.head? = some '\n') :
    (body ++ rest).takeWhile (fun c => c ≠ '\r' && c ≠ '\n') = body := by
  rw [List.takeWhile_append_of_pos]
  · cases rest with
    | nil => simp
    | cons c rest =>
        rcases hrest with hnone | hsome
        · cases hnone
        · obtain rfl := Option.some.inj hsome
          simp
  · intro c hc
    have hne : ∀ d, isLineTerminator d = true → c ≠ d := by
      rintro d hd rfl
      rw [hbody c hc] at hd
      cases hd
    simp [hne '\r' (by decide), hne '\n' (by decide)]

theorem commentPattern_line (hbody : ∀ c ∈ body, isLineTerminator c = false)
    (hrest : rest.head? = none ∨ rest.head? = some '\n') :
    commentPattern (('/' :: '/' :: body) ++ rest) =
      some (('/' :: '/' :: body).length, []) := by
  have hline := takeWhile_line hbody hrest
  rw [List.cons_append, List.cons_append, commentPattern, if_neg (by decide), if_pos rfl, comment,
    hline, List.drop_left]
  exact if_pos hrest

end

/-! ### The elements that are left -/

section

variable {e : Element} {rest : List Char}

theorem isRemoved_of_plain (h : isPlain e.state = true) (next : Option Char) :
    isRemoved e next = false := by
  obtain ⟨s, list⟩ := e
  cases s with
  | blockEnd | lineComment => cases h
  | _ => rfl

/-- The expression copies an element of ordinary characters, a blank or a slash. -/
theorem passes_of_shape (hshape : Shape e) (hends : ∀ c ∈ rest.head?, step e.state c = none)
    (hfound : Found e rest) (hremoved : isRemoved e rest.head? = false)
    (hstring : e.state ≠ .stringEnd) : Passes commentPattern e.text rest := by
  have hslash : step .slash '/' ≠ none ∧ step .slash '*' ≠ none := by decide
  have hwhite : isWhiteSpace '/' = false ∧ isWhiteSpace '\x22' = false ∧
      isWhiteSpace '\x27' = false := by decide
  have hline : isLineTerminator '/' = false ∧ isLineTerminator '\x22' = false ∧
      isLineTerminator '\x27' = false := by decide
  cases hshape with
  | ordinary hs hall =>
      refine passes_of_forall fun c hc list => ?_
      exact commentPattern_of_other (hall c hc).slash (hall c hc).quote list
  | @whiteSpace c hc =>
      refine ⟨commentPattern_of_other ?_ ?_ _, trivial⟩
      all_goals grind [isQuote]
  | @lineTerminator c hc =>
      refine ⟨commentPattern_of_other ?_ ?_ _, trivial⟩
      all_goals grind [isQuote]
  | slash =>
      refine ⟨commentPattern_slash ?_ ?_, trivial⟩
      · exact fun hnext => hslash.1 (hends _ hnext)
      · exact fun hnext => hslash.2 (hends _ hnext)
  | slashAssign =>
      refine ⟨commentPattern_slash ?_ ?_, commentPattern_of_other ?_ ?_ _, trivial⟩
      · exact fun hnext => absurd (Option.some.inj hnext) (by decide)
      · exact fun hnext => absurd (Option.some.inj hnext) (by decide)
      all_goals decide
  | string => exact absurd rfl hstring
  | regex => exact hfound.regex rfl
  | lineComment =>
      rcases hfound.lineComment rfl with hyes | hpasses
      · rw [hremoved] at hyes
        cases hyes
      · exact hpasses
  | blockComment => cases hremoved

/-- An element that the expression finds is taken out or left as it is. -/
theorem sub_element (hshape : Shape e) (hends : ∀ c ∈ rest.head?, step e.state c = none)
    (hfound : Found e rest) :
    sub commentPattern (e.text ++ rest) =
      (if isRemoved e rest.head? then [] else e.text) ++ sub commentPattern rest := by
  by_cases hremoved : isRemoved e rest.head? = true
  · -- a comment is found, and nothing comes in its place
    rw [if_pos hremoved]
    cases hshape with
    | blockComment hfree =>
        exact sub_append_of_some (List.cons_ne_nil _ _) (commentPattern_block hfree rest)
    | lineComment hbody =>
        refine sub_append_of_some (List.cons_ne_nil _ _) (commentPattern_line hbody ?_)
        exact (Bool.or_eq_true_iff.mp hremoved).imp of_decide_eq_true of_decide_eq_true
    | ordinary hs =>
        rw [isRemoved_of_plain hs] at hremoved
        cases hremoved
    | _ => cases hremoved
  · rw [if_neg hremoved]
    by_cases hstring : e.state = .stringEnd
    · -- a string is found, and comes in its own place
      obtain ⟨q, body, htext, hq⟩ := hshape.of_stringEnd hstring
      have hown := hfound.string hstring
      rw [htext, List.tail_cons, List.dropLast_concat] at hown
      have hbody : q ∉ body := fun hmem => hown (List.mem_map_of_mem hmem)
      rw [htext]
      exact sub_append_of_some (List.cons_ne_nil _ _) (commentPattern_string hq hbody rest)
    · have hkeep := passes_of_shape hshape hends hfound (Bool.eq_false_iff.mpr hremoved) hstring
      exact sub_append_of_passes hkeep

end

theorem removeComments_text {es : List Element} (hshapes : ∀ e ∈ es, Shape e)
    (hends : Followed (Ends step) es) (hfound : AllFound es) :
    removeComments (text es) = text (leave es) := by
  induction es with
  | nil => rfl
  | cons e es ih =>
      obtain ⟨hshape, hshapes⟩ := List.forall_mem_cons.mp hshapes
      have hrest : sub commentPattern (text es) = text (leave es) := ih hshapes hends.2 hfound.2
      rw [removeComments, text_cons, sub_element hshape hends.1 hfound.1, hrest, leave]
      by_cases hremoved : isRemoved e (text es).head? = true
      · rw [if_pos hremoved, if_pos hremoved]
        rfl
      · rw [if_neg hremoved, if_neg hremoved, text_cons]

end Js2c

end IotJs

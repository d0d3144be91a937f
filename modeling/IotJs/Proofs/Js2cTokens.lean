import IotJs.Proofs.Js2cComments

/-!
# `IotJs.Proofs.Js2cTokens`: the tokens of a minimized module

Where the expression of `removeComments` finds the elements of a text (`AllFound`), and the ends of
the lines between its tokens stay (`LinesKept`), the minimized text has the same tokens if and only
if it is `Intact` (`tokens_minimize_iff`): no string has a line that is continued and begins with a
blank, and no token goes on where a comment behind it is taken out. `minimize_changes_tokens` has a
text for each way to fail: two that the expression misreads, and two that are not intact.

The text that is left is made of some of the elements (`minimal`). They are lexemes of their own,
since a slash is read as before, and they are the elements of it or two of them are joined.
-/

set_option autoImplicit false

namespace IotJs

open MaximalMunch Substitution LexicalGrammar
open MaximalMunch.Automaton (Thinned Joined lexed_iff lex_eq_some_iff run_backward)
open Delimited (Free free_nil free_cons_iff free_of_not_mem)

namespace Js2c

/-- A line ends between two tokens in what is left if it does in the text. `line` and `line'` say
of both whether one has ended since the last token. -/
def LinesKept : (line line' : Bool) → List Element → Prop
  | _, _, [] => True
  | line, line', e :: es =>
      if isToken e then line = line' ∧ LinesKept false false es
      else LinesKept (line || endsLine e)
        (if isRemoved e (text es).head? then line' else line' || endsLine e) es

instance decidableLinesKept : (line line' : Bool) → (es : List Element) →
    Decidable (LinesKept line line' es)
  | _, _, [] => isTrue trivial
  | line, line', e :: es =>
      have := fun line line' => decidableLinesKept line line' es
      inferInstanceAs (Decidable (if isToken e then line = line' ∧ LinesKept false false es
        else LinesKept (line || endsLine e)
          (if isRemoved e (text es).head? then line' else line' || endsLine e) es))

/-- No token has a blank at the beginning of a line, and no element that is left takes up what
follows it then. -/
structure Intact (es : List Element) : Prop where
  blanks : ∀ e ∈ es, isToken e = true → Free '\n' ' ' e.text
  apart : Followed (Ends step) (leave es)

instance (es : List Element) : Decidable (Intact es) :=
  decidable_of_iff ((∀ e ∈ es, isToken e = true → Free '\n' ' ' e.text) ∧
      Followed (Ends step) (leave es))
    ⟨fun h => ⟨h.1, h.2⟩, fun h => ⟨h.blanks, h.apart⟩⟩

/-! ### Elements without blanks -/

/-- The elements but for those that are `x`, behind one that ends with a `\n`. -/
def thin (x : Char) (after : Bool) : List Element → List Element
  | [] => []
  | e :: es =>
      if after && decide (e.text = [x]) then thin x true es
      else e :: thin x (decide (e.text.getLast? = some '\n')) es

/-- The blanks are elements of their own, and so are the ends of the lines. -/
structure Settled (e : Element) : Prop where
  text_ne_nil : e.text ≠ []
  free : ∀ x ∈ [' ', '\n'], Free '\n' x e.text
  blank : ∀ x ∈ [' ', '\n'], e.text.head? = some x →
    e.text = [x] ∧ (e.state = .whiteSpace ∨ e.state = .lineTerminator)
  last : e.text.getLast? = some '\n' → e.state = .lineTerminator

section

variable {e : Element}

/-- An element in which no line ends. -/
theorem settled_of_not_mem (hne : e.text ≠ []) (hline : '\n' ∉ e.text)
    (hblank : e.text.head? = some ' ' → e.text = [' '] ∧ e.state = .whiteSpace) : Settled e where
  text_ne_nil := hne
  free x _ := free_of_not_mem hline
  blank x hx hhead := by
    rcases List.mem_cons.mp hx with rfl | hx
    · exact ⟨(hblank hhead).1, Or.inl (hblank hhead).2⟩
    · obtain rfl := List.mem_singleton.mp hx
      exact absurd (List.mem_of_head? hhead) hline
  last hlast := absurd (List.mem_of_getLast? hlast) hline

theorem settled_of_shape (hshape : Shape e) (hne : e.text ≠ []) (hblock : e.state ≠ .blockEnd)
    (hblanks : isToken e = true → Free '\n' ' ' e.text) : Settled e := by
  cases hshape with
  | ordinary _ hall =>
      refine settled_of_not_mem hne (fun hline => (hall _ hline).line rfl) fun hhead => ?_
      exact absurd rfl (hall _ (List.mem_of_head? hhead)).space
  | @whiteSpace c hc =>
      refine settled_of_not_mem hne (fun hline => ?_) fun hhead => ?_
      · obtain rfl := List.mem_singleton.mp hline
        cases hc
      · exact ⟨congrArg (fun c => [c]) (Option.some.inj hhead), rfl⟩
  | @lineTerminator c =>
      refine ⟨hne, fun x _ => ?_, fun x _ hhead => ?_, fun _ => rfl⟩
      · exact (free_cons_iff c []).mpr ⟨fun hpair => Option.some_ne_none x hpair.2.symm, free_nil⟩
      · exact ⟨congrArg (fun c => [c]) (Option.some.inj hhead), Or.inr rfl⟩
  | slash => exact settled_of_not_mem hne (by decide) (by decide)
  | slashAssign => exact settled_of_not_mem hne (by decide) (by decide)
  | @string q body hq hlines =>
      have hquote : ∀ x ∈ [' ', '\n'], q ≠ x := by
        rintro x hx rfl
        rcases List.mem_pair.mp hx with rfl | rfl
        all_goals cases hq
      have hq := hquote '\n' (by decide)
      refine ⟨hne, fun x hx => ?_, fun x hx hhead => ?_, fun hlast => ?_⟩
      · rcases List.mem_pair.mp hx with rfl | rfl
        · exact hblanks rfl
        · exact (free_cons_iff q _).mpr ⟨fun hpair => hq hpair.1, hlines.concat hq⟩
      · exact absurd (Option.some.inj hhead) (hquote x hx)
      · rw [← List.cons_append, List.getLast?_concat] at hlast
        exact absurd (Option.some.inj hlast) hq
  | regex hline =>
      refine settled_of_not_mem hne ?_ fun hhead => absurd (Option.some.inj hhead) (by decide)
      exact List.not_mem_cons_of_ne_of_not_mem (by decide) hline
  | lineComment hline =>
      refine settled_of_not_mem hne ?_ fun hhead => absurd (Option.some.inj hhead) (by decide)
      have hbody : '\n' ∉ _ := fun hmem => absurd (hline '\n' hmem) (by decide)
      exact List.not_mem_cons_of_ne_of_not_mem (by decide)
        (List.not_mem_cons_of_ne_of_not_mem (by decide) hbody)
  | blockComment => exact absurd rfl hblock

/-- White space and the end of a line. -/
theorem isToken_of_blank (h : e.state = .whiteSpace ∨ e.state = .lineTerminator) :
    isToken e = false := by
  obtain ⟨s, list⟩ := e
  rcases h with rfl | rfl
  all_goals rfl

theorem step_of_blank (h : e.state = .whiteSpace ∨ e.state = .lineTerminator) (c : Char) :
    step e.state c = none := by
  rcases h with h | h
  all_goals
    rw [h]
    rfl

/-- What `thin` takes out. -/
theorem Settled.of_dropped (he : Settled e) {x : Char} {after : Bool} (hx : x ∈ [' ', '\n'])
    (hdrop : (after && decide (e.text = [x])) = true) :
    after = true ∧ (e.state = .whiteSpace ∨ e.state = .lineTerminator) := by
  obtain ⟨hafter, htext⟩ := Bool.and_eq_true_iff.mp hdrop
  have hhead : e.text.head? = some x := by
    rw [of_decide_eq_true htext]
    rfl
  exact ⟨hafter, (he.blank x hx hhead).2⟩

end

/-! ### The blanks -/

section

variable {x : Char} {after : Bool} {es : List Element}

theorem mem_of_mem_thin {e : Element} (h : e ∈ thin x after es) : e ∈ es := by
  induction es generalizing after with
  | nil => exact h
  | cons e' es ih =>
      rw [thin] at h
      split at h
      · exact List.mem_cons_of_mem e' (ih h)
      · rcases List.mem_cons.mp h with rfl | h
        · exact List.mem_cons_self
        · exact List.mem_cons_of_mem e' (ih h)

theorem dropAfter_text (hx : x ∈ [' ', '\n']) (hsettled : ∀ e ∈ es, Settled e) :
    dropAfter '\n' x after (text es) = text (thin x after es) := by
  induction es generalizing after with
  | nil => rfl
  | cons e es ih =>
      obtain ⟨he, hes⟩ := List.forall_mem_cons.mp hsettled
      rw [thin, text_cons]
      by_cases hdrop : (after && decide (e.text = [x])) = true
      · obtain ⟨rfl, htext⟩ := Bool.and_eq_true_iff.mp hdrop
        rw [if_pos hdrop, of_decide_eq_true htext, List.singleton_append, dropAfter]
        rw [decide_eq_true rfl, Bool.and_true, if_pos rfl]
        exact ih hes
      · rw [if_neg hdrop, text_cons, ← ih hes]
        refine dropAfter_append he.text_ne_nil (he.free x hx) fun hafter hhead => hdrop ?_
        rw [hafter, decide_eq_true (he.blank x hx hhead).1]
        rfl

theorem filter_thin (hx : x ∈ [' ', '\n']) (hsettled : ∀ e ∈ es, Settled e) :
    (thin x after es).filter (fun e => isToken e) = es.filter fun e => isToken e := by
  induction es generalizing after with
  | nil => rfl
  | cons e es ih =>
      obtain ⟨he, hes⟩ := List.forall_mem_cons.mp hsettled
      rw [thin]
      split
      · rename_i hdrop
        rw [List.filter_cons, isToken_of_blank (he.of_dropped hx hdrop).2, ih hes]
        rfl
      · rw [List.filter_cons, List.filter_cons, ih hes]

/-- What follows an element that takes up something is as before. -/
theorem followed_thin {P : Element → Option Char → Prop} (hx : x ∈ [' ', '\n'])
    (hblank : ∀ e next, (e.state = .whiteSpace ∨ e.state = .lineTerminator) → P e next)
    (hsettled : ∀ e ∈ es, Settled e) : Followed P (thin x after es) ↔ Followed P es := by
  induction es generalizing after with
  | nil => exact Iff.rfl
  | cons e es ih =>
      obtain ⟨he, hes⟩ := List.forall_mem_cons.mp hsettled
      rw [thin]
      split
      · rename_i hdrop
        have hkept := hblank e (text es).head? (he.of_dropped hx hdrop).2
        exact (ih hes).trans ⟨fun hrest => ⟨hkept, hrest⟩, And.right⟩
      · refine and_congr ?_ (ih hes)
        by_cases hline : e.text.getLast? = some '\n'
        · have hkept := fun next => hblank e next (Or.inr (he.last hline))
          exact iff_of_true (hkept _) (hkept _)
        · have hsame : (text (thin x false es)).head? = (text es).head? := by
            cases es with
            | nil => rfl
            | cons e' es =>
                have hne := (hes e' List.mem_cons_self).text_ne_nil
                rw [thin, Bool.false_and, if_neg Bool.false_ne_true, text_cons, text_cons,
                  List.head?_append_of_ne_nil _ hne, List.head?_append_of_ne_nil _ hne]
          rw [decide_eq_false hline, hsame]

variable {goal : List (Bool × Element) → Bool} {k : Context}

/-- An end of a line that is taken out has another one in front of it. -/
theorem thinned_thin (hx : x ∈ [' ', '\n']) (hsettled : ∀ e ∈ es, Settled e)
    (hafter : after = true → k.line = true) :
    Thinned (automaton goal) k k es (thin x after es) := by
  induction es generalizing after k with
  | nil => exact .nil k k
  | cons e es ih =>
      obtain ⟨he, hes⟩ := List.forall_mem_cons.mp hsettled
      rw [thin]
      split
      · rename_i hdrop
        obtain ⟨hyes, hblank⟩ := he.of_dropped hx hdrop
        -- the context knows already that a line has ended
        have hnext : (automaton goal).next k e = k := by
          show k.next e = k
          rw [Context.next, isToken_of_blank hblank, if_neg Bool.false_ne_true, hafter hyes,
            Bool.true_or, ← hafter hyes]
        refine .drop ?_
        rw [hnext]
        exact ih hes fun _ => hafter hyes
      · refine .keep rfl (ih hes fun hlast => ?_)
        have hstate := he.last (of_decide_eq_true hlast)
        show (k.next e).line = true
        rw [Context.next, isToken_of_blank (Or.inr hstate), if_neg Bool.false_ne_true, endsLine,
          hstate]
        exact Bool.or_true k.line

end

/-! ### The comments -/

section

variable {goal : List (Bool × Element) → Bool} {k k' : Context} {e : Element} {es : List Element}

theorem isToken_of_isRemoved {next : Option Char} (h : isRemoved e next = true) :
    isToken e = false := by
  obtain ⟨s, list⟩ := e
  cases s with
  | blockEnd | lineComment => rfl
  | _ => cases h

theorem mem_of_mem_leave (h : e ∈ leave es) : e ∈ es ∧ e.state ≠ .blockEnd := by
  induction es with
  | nil => exact absurd h List.not_mem_nil
  | cons e' es ih =>
      rw [leave] at h
      split at h
      · exact ⟨List.mem_cons_of_mem e' (ih h).1, (ih h).2⟩
      · rename_i hkept
        rcases List.mem_cons.mp h with rfl | h
        · refine ⟨List.mem_cons_self, fun hblock => hkept ?_⟩
          rw [isRemoved, hblock]
        · exact ⟨List.mem_cons_of_mem e' (ih h).1, (ih h).2⟩

theorem shape_of_lexed (hlexed : (automaton goal).Lexed k es) : ∀ e ∈ es, Shape e := by
  intro e he
  obtain ⟨k, haccepts⟩ := hlexed.exists_accepts e he
  exact shape_of_accepts haccepts

theorem settled_leave (hlexed : (automaton goal).Lexed k es)
    (hblanks : ∀ e ∈ es, isToken e = true → Free '\n' ' ' e.text) : ∀ e ∈ leave es, Settled e := by
  intro e he
  obtain ⟨hmem, hblock⟩ := mem_of_mem_leave he
  obtain ⟨k, haccepts⟩ := hlexed.exists_accepts e hmem
  exact settled_of_shape (shape_of_accepts haccepts) haccepts.text_ne_nil hblock (hblanks e hmem)

theorem filter_leave (es : List Element) :
    (leave es).filter (fun e => isToken e) = es.filter fun e => isToken e := by
  induction es with
  | nil => rfl
  | cons e es ih =>
      rw [leave]
      split
      · rename_i hremoved
        rw [List.filter_cons, isToken_of_isRemoved hremoved, ih]
        rfl
      · rw [List.filter_cons, List.filter_cons, ih]

/-- The tokens begin as before, for the same lines end in front of them. -/
theorem thinned_leave (htokens : k.tokens = k'.tokens) (hlines : LinesKept k.line k'.line es) :
    Thinned (automaton goal) k k' es (leave es) := by
  induction es generalizing k k' with
  | nil => exact .nil k k'
  | cons e es ih =>
      rw [LinesKept] at hlines
      have hstart : (automaton goal).start k = (automaton goal).start k' := by
        show start (goal k.tokens) = start (goal k'.tokens)
        rw [htokens]
      rw [leave]
      by_cases htoken : isToken e = true
      · rw [if_pos htoken] at hlines
        have hkept : ¬ isRemoved e (text es).head? = true := by
          intro hremoved
          rw [isToken_of_isRemoved hremoved] at htoken
          cases htoken
        have hnext : k.next e = k'.next e := by
          rw [Context.next, Context.next, if_pos htoken, if_pos htoken, htokens, hlines.1]
        rw [if_neg hkept]
        refine .keep hstart ?_
        show Thinned (automaton goal) (k.next e) (k'.next e) es (leave es)
        refine ih (by rw [hnext]) ?_
        rw [← hnext, Context.next, if_pos htoken]
        exact hlines.2
      · rw [if_neg htoken] at hlines
        have hnext : ∀ k : Context, k.next e = { k with line := k.line || endsLine e } :=
          fun k => if_neg htoken
        by_cases hremoved : isRemoved e (text es).head? = true
        · -- a comment with the end of a line: the contexts differ up to the next token at most
          rw [if_pos hremoved] at hlines ⊢
          refine .drop ?_
          show Thinned (automaton goal) (k.next e) k' es (leave es)
          rw [hnext]
          exact ih htokens hlines
        · rw [if_neg hremoved] at hlines ⊢
          refine .keep hstart ?_
          show Thinned (automaton goal) (k.next e) (k'.next e) es (leave es)
          rw [hnext, hnext]
          exact ih htokens hlines

/-! ### The text that is left -/

/-- The elements of a minimized text. -/
def minimal (es : List Element) : List Element := thin '\n' false (thin ' ' false (leave es))

theorem minimize_text (hshapes : ∀ e ∈ es, Shape e) (hends : Followed (Ends step) es)
    (hfound : AllFound es) (hsettled : ∀ e ∈ leave es, Settled e) :
    minimize (text es) = text (minimal es) := by
  rw [minimize, removeWhitespaces, removeComments_text hshapes hends hfound, sub_blanks,
    dropAfter_text (by decide) hsettled, sub_repeats,
    dropAfter_text (by decide) fun e he => hsettled e (mem_of_mem_thin he)]
  rfl

theorem filter_minimal (hsettled : ∀ e ∈ leave es, Settled e) :
    (minimal es).filter (fun e => isToken e) = es.filter fun e => isToken e := by
  rw [minimal, filter_thin (by decide) fun e he => hsettled e (mem_of_mem_thin he),
    filter_thin (by decide) hsettled, filter_leave]

theorem chained_minimal (hlexed : (automaton goal).Lexed {} es)
    (hsettled : ∀ e ∈ leave es, Settled e) (hlines : LinesKept false false es) :
    (automaton goal).Chained {} (minimal es) := by
  have hafter : false = true → ({} : Context).line = true := fun hno => by cases hno
  have hleave := (lexed_iff.mp hlexed).1.thinned (thinned_leave rfl hlines)
  have hblanks := hleave.thinned (thinned_thin (x := ' ') (by decide) hsettled hafter)
  have hmem : ∀ e ∈ thin ' ' false (leave es), Settled e := fun e he =>
    hsettled e (mem_of_mem_thin he)
  exact hblanks.thinned (thinned_thin (by decide) hmem hafter)

theorem followed_minimal {P : Element → Option Char → Prop}
    (hblank : ∀ e next, (e.state = .whiteSpace ∨ e.state = .lineTerminator) → P e next)
    (hsettled : ∀ e ∈ leave es, Settled e) : Followed P (minimal es) ↔ Followed P (leave es) :=
  (followed_thin (by decide) hblank fun e he => hsettled e (mem_of_mem_thin he)).trans
    (followed_thin (by decide) hblank hsettled)

/-- Behind the beginning of a line no blanks are left anywhere. -/
theorem free_minimize (code : List Char) : Free '\n' ' ' (minimize code) := by
  rw [minimize, removeWhitespaces, sub_blanks, sub_repeats]
  have hblanks := (free_dropAfter '\n' ' ' false (removeComments code)).1
  exact (free_dropAfter_mark hblanks fun hafter => by cases hafter).1

/-! ### Elements that are joined -/

/-- The element leaves what follows alone, or a comment followed it. -/
def Guarded (e : Element) (next : Option Char) : Prop :=
  Ends step e next ∨ step e.state '/' = none

theorem head?_of_isRemoved {next : Option Char} (hshape : Shape e) (h : isRemoved e next = true) :
    e.text.head? = some '/' := by
  cases hshape with
  | lineComment | blockComment => rfl
  | ordinary hs =>
      rw [isRemoved_of_plain hs] at h
      cases h
  | _ => cases h

theorem head?_leave (hlexed : (automaton goal).Lexed k es) (hhead : (text es).head? ≠ some '/') :
    (text (leave es)).head? = (text es).head? := by
  cases hlexed with
  | nil => rfl
  | @cons _ e es haccepts =>
      have hne := haccepts.text_ne_nil
      rw [text_cons, List.head?_append_of_ne_nil _ hne] at hhead ⊢
      have hkept : ¬ isRemoved e (text es).head? = true := fun hremoved =>
        hhead (head?_of_isRemoved (shape_of_accepts haccepts) hremoved)
      rw [leave, if_neg hkept, text_cons, List.head?_append_of_ne_nil _ hne]

theorem guarded_leave (hlexed : (automaton goal).Lexed k es) : Followed Guarded (leave es) := by
  induction hlexed with
  | nil => exact trivial
  | @cons k e es haccepts hends hrest ih =>
      rw [leave]
      split
      · exact ih
      · refine ⟨?_, ih⟩
        by_cases hslash : (text es).head? = some '/'
        · exact Or.inr (hends '/' hslash)
        · rw [head?_leave hrest hslash]
          exact Or.inl hends

/-- The states of the tokens that can go on behind a comment. -/
def isOpen (s : LexState) : Bool := isPlain s || decide (s = .regexEnd)

theorem isToken_of_isOpen (h : isOpen e.state = true) : isToken e = true := by
  obtain ⟨s, list⟩ := e
  cases s with
  | whiteSpace | lineTerminator | lineComment | blockEnd => cases h
  | _ => rfl

theorem step_isOpen {s t : LexState} {c : Char} (h : step s c = some t) (hs : isOpen s = true) :
    isOpen t = true := by
  cases s
  all_goals grind [step, isOpen, isPlain, decimal, endOfNumber]

theorem isOpen_of_step {s t : LexState} {c : Char} (hslash : step s '/' = none)
    (hfinal : final s = true) (h : step s c = some t) : isOpen s = true := by
  cases s with
  | slash | lineComment => cases hslash
  | whiteSpace | lineTerminator | slashAssign | stringEnd | blockEnd => cases h
  | _ => first
    | rfl
    | cases hfinal

theorem run_isOpen {s t : LexState} {list : List Char} (hs : isOpen s = true)
    (h : (automaton goal).run s list = some t) : isOpen t = true := by
  by_contra ht
  have hback : ∀ u c v, step u c = some v → ¬ isOpen v = true → ¬ isOpen u = true ∧ True :=
    fun u c v hstep hv => ⟨fun hu => hv (step_isOpen hstep hu), trivial⟩
  exact (run_backward (A := automaton goal) hback h ht).1 hs

/-- A token that takes up what follows it is another token. -/
theorem filter_ne_of_joined {es' : List Element} (h : Joined (automaton goal) es es')
    (hguarded : Followed Guarded es) :
    es'.filter (fun e => isToken e) ≠ es.filter fun e => isToken e := by
  induction h with
  | @here e e' es es' x more hhead htext hrun hfinal _ =>
      obtain ⟨u, hstep, -⟩ := run_cons_some hrun
      rcases hguarded.1 with hends | hslash
      · rw [hends x hhead] at hstep
        cases hstep
      · have hopen := isOpen_of_step hslash hfinal hstep
        rw [List.filter_cons, List.filter_cons, isToken_of_isOpen hopen,
          isToken_of_isOpen (run_isOpen hopen hrun), if_pos rfl, if_pos rfl]
        intro heq
        rw [(List.cons.inj heq).1] at htext
        exact List.cons_ne_nil x more (List.append_right_eq_self.mp htext.symm)
  | @there e es es' _ ih =>
      rw [List.filter_cons, List.filter_cons]
      split
      · exact fun heq => ih hguarded.2 (List.cons.inj heq).2
      · exact ih hguarded.2

end

/-! ### The tokens -/

/-- A text without blanks behind the beginning of a line, which is that of the elements that are
left where the blanks stand between the tokens. -/
theorem tokens_minimal_iff {goal : List (Bool × Element) → Bool} {code code' : List Char}
    {es : List Element} (helements : elements goal code = some es)
    (hlines : LinesKept false false es) (hfree : Free '\n' ' ' code')
    (htext : (∀ e ∈ leave es, Settled e) → code' = text (minimal es)) :
    tokens goal code' = tokens goal code ↔ Intact es := by
  obtain ⟨hlexed, rfl⟩ := lex_eq_some_iff.mp helements
  have htokens : tokens goal (text es) = some (es.filter fun e => isToken e) := by
    rw [tokens, helements]
    rfl
  rw [htokens]
  have hblank : ∀ (e : Element) (next : Option Char),
      (e.state = .whiteSpace ∨ e.state = .lineTerminator) → Ends step e next :=
    fun e next hstate c _ => step_of_blank hstate c
  constructor
  · intro heq
    obtain ⟨es', helements', hfilter⟩ := Option.map_eq_some_iff.mp heq
    obtain ⟨hlexed', rfl⟩ := lex_eq_some_iff.mp helements'
    -- a token of the text is a token of `code'`, which has no blanks there
    have hblanks : ∀ e ∈ es, isToken e = true → Free '\n' ' ' e.text := by
      intro e he htoken
      have hmem : e ∈ es'.filter fun e => isToken e := by
        rw [hfilter]
        exact List.mem_filter.mpr ⟨he, htoken⟩
      exact hfree.of_isInfix (text_isInfix (List.mem_filter.mp hmem).1)
    -- the elements that are left are those of the text, unless two of them are joined
    have hsettled := settled_leave hlexed hblanks
    have hchained := chained_minimal hlexed hsettled hlines
    refine ⟨hblanks, (followed_minimal hblank hsettled).mp ?_⟩
    rcases hchained.eq_or_joined hlexed' (htext hsettled) with rfl | hjoined
    · exact (lexed_iff.mp hlexed').2
    · have hguarded := (followed_minimal (fun e next hstate => Or.inl (hblank e next hstate))
        hsettled).mpr (guarded_leave hlexed)
      exact absurd (hfilter.trans (filter_minimal hsettled).symm)
        (filter_ne_of_joined hjoined hguarded)
  · intro hintact
    have hsettled := settled_leave hlexed hintact.blanks
    have hends := (followed_minimal hblank hsettled).mpr hintact.apart
    have hminimal := lexed_iff.mpr ⟨chained_minimal hlexed hsettled hlines, hends⟩
    have helements' : elements goal code' = some (minimal es) :=
      lex_eq_some_iff.mpr ⟨hminimal, (htext hsettled).symm⟩
    rw [tokens, helements', Option.map_some, filter_minimal hsettled]

theorem tokens_minimize_iff (goal : List (Bool × Element) → Bool) {code : List Char}
    {es : List Element} (helements : elements goal code = some es) (hfound : AllFound es)
    (hlines : LinesKept false false es) :
    tokens goal (minimize code) = tokens goal code ↔ Intact es := by
  obtain ⟨hlexed, rfl⟩ := lex_eq_some_iff.mp helements
  exact tokens_minimal_iff helements hlines (free_minimize (text es))
    (minimize_text (shape_of_lexed hlexed) (lexed_iff.mp hlexed).2 hfound)

theorem tokens_minimize_lines :
    tokens (fun _ => false)
        (minimize ['x', '/', '/', '\x27', '\n', ' ', '\x22', '\x27', '\x22']) =
      tokens (fun _ => false) ['x', '/', '/', '\x27', '\n', ' ', '\x22', '\x27', '\x22'] := by
  have helements : elements (fun _ => false)
      ['x', '/', '/', '\x27', '\n', ' ', '\x22', '\x27', '\x22'] =
        some [⟨.identifier, ['x']⟩, ⟨.lineComment, ['/', '/', '\x27']⟩, ⟨.lineTerminator, ['\n']⟩,
          ⟨.whiteSpace, [' ']⟩, ⟨.stringEnd, ['\x22', '\x27', '\x22']⟩] := by decide +kernel
  exact (tokens_minimize_iff _ helements (by decide +kernel) (by decide +kernel)).mpr
    (by decide +kernel)

/-- A string that is misread stays as it is where nothing follows. -/
example : tokens (fun _ => false) (minimize ['\x27', '\x5c', '\x27', '\x27']) =
      tokens (fun _ => false) ['\x27', '\x5c', '\x27', '\x27'] ∧
    ¬ AllFound [⟨.stringEnd, ['\x27', '\x5c', '\x27', '\x27']⟩] := by decide +kernel

/-- `'\'/*'+'*/'` becomes `'\''`, `/"/+"/*"+"*/"` becomes `/"/+""`, a string loses a blank in its
second line, and `a/**/b` becomes `ab`. -/
theorem minimize_changes_tokens :
    tokens (fun _ => false) (minimize
        ['\x27', '\x5c', '\x27', '/', '*', '\x27', '+', '\x27', '*', '/', '\x27']) ≠
      tokens (fun _ => false)
        ['\x27', '\x5c', '\x27', '/', '*', '\x27', '+', '\x27', '*', '/', '\x27'] ∧
    tokens (fun before => before = []) (minimize
        ['/', '\x22', '/', '+', '\x22', '/', '*', '\x22', '+', '\x22', '*', '/', '\x22']) ≠
      tokens (fun before => before = [])
        ['/', '\x22', '/', '+', '\x22', '/', '*', '\x22', '+', '\x22', '*', '/', '\x22'] ∧
    tokens (fun _ => false) (minimize ['\x27', '\x5c', '\n', ' ', 'a', '\x27']) ≠
      tokens (fun _ => false) ['\x27', '\x5c', '\n', ' ', 'a', '\x27'] ∧
    tokens (fun _ => false) (minimize ['a', '/', '*', '*', '/', 'b']) ≠
      tokens (fun _ => false) ['a', '/', '*', '*', '/', 'b'] := by
  refine ⟨?_, ?_, ?_, ?_⟩
  all_goals decide +kernel

end Js2c

end IotJs

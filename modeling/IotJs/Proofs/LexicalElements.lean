import IotJs.Lib.Delimited
import IotJs.Spec.LexicalGrammar

/-!
# `IotJs.Proofs.LexicalElements`: the characters of an element

The automaton says of every element what characters it has. Identifiers, numbers and punctuators are
made of `Ordinary` characters, a string stands between two quotation marks of its own, a regular
expression and a line comment go over no end of a line, and a block comment ends with the first
`*/` (`Shape`, `shape_of_accepts`). A step says what state it came from, and a run is followed back
from its end.
-/

set_option autoImplicit false

namespace IotJs

open MaximalMunch
open Delimited (Free free_nil free_cons_iff)

namespace LexicalGrammar

open LexState

/-! ### Characters -/

/-- A character of an identifier, a number or a punctuator. -/
structure Ordinary (c : Char) : Prop where
  slash : c ≠ '/'
  quote : isQuote c = false
  space : c ≠ ' '
  line : c ≠ '\n'

instance (c : Char) : Decidable (Ordinary c) :=
  decidable_of_iff (c ≠ '/' ∧ isQuote c = false ∧ c ≠ ' ' ∧ c ≠ '\n')
    ⟨fun h => ⟨h.1, h.2.1, h.2.2.1, h.2.2.2⟩, fun h => ⟨h.slash, h.quote, h.space, h.line⟩⟩

/-- A test that the four characters and the quotation marks do not pass. -/
theorem ordinary_of_test {test : Char → Bool} {c : Char} (h : test c = true)
    (htest : ['/', '\x22', '\x27', ' ', '\n'].any test = false) : Ordinary c := by
  have hne : ∀ d ∈ ['/', '\x22', '\x27', ' ', '\n'], c ≠ d := by
    rintro d hd rfl
    rw [List.any_eq_true.mpr ⟨c, hd, h⟩] at htest
    cases htest
  refine ⟨hne _ (by decide), ?_, hne _ (by decide), hne _ (by decide)⟩
  rw [isQuote, decide_eq_false (hne '\x22' (by decide)), decide_eq_false (hne '\x27' (by decide))]
  rfl

theorem Ordinary.of_identifierPart {c : Char} (h : isIdentifierPart c = true) : Ordinary c :=
  ordinary_of_test h (by decide)

theorem Ordinary.of_digit {c : Char} (h : c.isDigit = true) : Ordinary c :=
  ordinary_of_test h (by decide)

theorem Ordinary.of_hexDigit {c : Char} (h : isHexDigit c = true) : Ordinary c :=
  ordinary_of_test h (by decide)

theorem Ordinary.of_punctuator (text : List Char) {c : Char} (h : text ++ [c] ∈ punctuators) :
    Ordinary c := by
  have hall : punctuators.all (fun p => p.all fun d => decide (Ordinary d)) = true := by decide
  have hp := List.all_eq_true.mp (List.all_eq_true.mp hall _ h)
  exact of_decide_eq_true (hp c (List.mem_append_right _ List.mem_cons_self))

/-! ### Identifiers, numbers and punctuators -/

/-- States in which no quotation mark, no slash and no end of a line has been read. -/
def isPlain : LexState → Bool
  | identifier | zero | int | frac | exponent | hex | exponentMark | exponentSign | hexMark | bad
  | dot | punctuator _ => true
  | _ => false

theorem step_plain {s t : LexState} {c : Char} (h : step s c = some t) (ht : isPlain t = true) :
    isPlain s = true ∧ Ordinary c := by
  -- the characters that numbers ask for by name
  have hx : Ordinary 'x' ∧ Ordinary 'X' := by decide
  have he : Ordinary 'e' ∧ Ordinary 'E' := by decide
  have hsign : Ordinary '+' ∧ Ordinary '-' ∧ Ordinary '.' := by decide
  cases s
  all_goals grind [step, isPlain, decimal, endOfNumber, stringChar, regexChar,
    Ordinary.of_identifierPart, Ordinary.of_digit, Ordinary.of_hexDigit, Ordinary.of_punctuator]

theorem start_plain {regex : Bool} {t : LexState} {c : Char} (h : start regex c = some t)
    (ht : isPlain t = true) : Ordinary c := by
  have hmarks : Ordinary '0' ∧ Ordinary '.' := by decide
  have hpunctuator : [c] ∈ punctuators → Ordinary c := Ordinary.of_punctuator []
  unfold start at h
  grind [isPlain, Ordinary.of_identifierPart, Ordinary.of_digit]

/-! ### The states of the other elements -/

/-- No step leads to these states. -/
theorem step_ne_start {s t : LexState} {c : Char} (h : step s c = some t) :
    t ≠ whiteSpace ∧ t ≠ lineTerminator ∧ t ≠ slash ∧ t ≠ regexStart := by
  cases s
  all_goals grind [step, decimal, endOfNumber, stringChar, regexChar]

theorem step_eq_lineComment {s : LexState} {c : Char} (h : step s c = some lineComment) :
    (s = lineComment ∧ isLineTerminator c = false) ∨ ((s = slash ∨ s = regexStart) ∧ c = '/') := by
  cases s
  all_goals grind [step, decimal, endOfNumber, stringChar, regexChar]

theorem step_eq_slashAssign {s : LexState} {c : Char} (h : step s c = some slashAssign) :
    s = slash ∧ c = '=' := by
  cases s
  all_goals grind [step, decimal, endOfNumber, stringChar, regexChar]

theorem step_eq_blockComment {s : LexState} {c : Char} (h : step s c = some blockComment) :
    ((s = blockComment ∨ s = blockStar) ∧ c ≠ '*' ∧ (s = blockStar → c ≠ '/')) ∨
      ((s = slash ∨ s = regexStart) ∧ c = '*') := by
  cases s
  all_goals grind [step, decimal, endOfNumber, stringChar, regexChar]

theorem step_eq_blockStar {s : LexState} {c : Char} (h : step s c = some blockStar) :
    (s = blockComment ∨ s = blockStar) ∧ c = '*' := by
  cases s
  all_goals grind [step, decimal, endOfNumber, stringChar, regexChar]

theorem step_eq_blockEnd {s : LexState} {c : Char} (h : step s c = some blockEnd) :
    s = blockStar ∧ c = '/' := by
  cases s
  all_goals grind [step, decimal, endOfNumber, stringChar, regexChar]

/-- Inside of a string with this quotation mark. -/
def InString (quote : Char) (s : LexState) : Prop :=
  s = string quote ∨ s = stringEscape quote ∨ s = stringReturn quote

theorem step_inString {s t : LexState} {c q : Char} (h : step s c = some t) (ht : InString q t) :
    InString q s ∧ (s = string q → c ≠ '\n') ∧ (c = '\n' → t = string q) := by
  have hline : isLineTerminator '\n' = true ∧ '\n' ≠ '\x5c' ∧ '\n' ≠ '\r' := by decide
  unfold InString at ht ⊢
  cases s
  all_goals grind [step, decimal, endOfNumber, stringChar, regexChar]

theorem step_eq_stringEnd {s : LexState} {c : Char} (h : step s c = some stringEnd) :
    InString c s := by
  unfold InString
  cases s
  all_goals grind [step, decimal, endOfNumber, stringChar, regexChar]

theorem step_of_inString {s t : LexState} {c q : Char} (hs : InString q s)
    (h : step s c = some t) : InString q t ∨ (t = stringEnd ∧ c = q) := by
  unfold InString at hs ⊢
  rcases hs with rfl | rfl | rfl
  all_goals grind [step, stringChar]

/-- Inside of a regular expression, or behind it. -/
def InRegex (s : LexState) : Prop :=
  s = regexStart ∨ s = regexBody ∨ s = regexEscape ∨ s = regexClass ∨ s = regexClassEscape ∨
    s = regexEnd

theorem step_inRegex {s t : LexState} {c : Char} (h : step s c = some t) (ht : InRegex t) :
    InRegex s ∧ c ≠ '\n' := by
  have hline : isLineTerminator '\n' = true ∧ isIdentifierPart '\n' = false := by decide
  unfold InRegex at ht ⊢
  cases s
  all_goals
    simp only [step, decimal, endOfNumber, stringChar, regexChar] at h
    grind

/-! ### Runs -/

section

variable {goal : List (Bool × Element) → Bool} {s t : LexState} {rest : List Char}

theorem run_cons_some {c : Char} (h : (automaton goal).run s (c :: rest) = some t) :
    ∃ u, step s c = some u ∧ (automaton goal).run u rest = some t :=
  Option.bind_eq_some_iff.mp h

/-- These states are left, or never reached. -/
theorem run_eq_start (ht : t = whiteSpace ∨ t = lineTerminator ∨ t = slash ∨ t = regexStart)
    (h : (automaton goal).run s rest = some t) : rest = [] ∧ s = t := by
  have hback : ∀ u c v, step u c = some v → v = t → u = t ∧ False := by
    rintro u c v hstep rfl
    obtain ⟨hwhite, hline, hslash, hregex⟩ := step_ne_start hstep
    rcases ht with ht | ht | ht | ht
    · exact absurd ht hwhite
    · exact absurd ht hline
    · exact absurd ht hslash
    · exact absurd ht hregex
  obtain ⟨hs, hnone⟩ := Automaton.run_backward (A := automaton goal) hback h rfl
  exact ⟨List.eq_nil_iff_forall_not_mem.mpr hnone, hs⟩

theorem run_lineComment (h : (automaton goal).run s rest = some lineComment) :
    (s = lineComment ∧ ∀ c ∈ rest, isLineTerminator c = false) ∨
      ((s = slash ∨ s = regexStart) ∧
        ∃ body, rest = '/' :: body ∧ ∀ c ∈ body, isLineTerminator c = false) := by
  induction rest generalizing s with
  | nil => exact Or.inl ⟨Option.some.inj h, fun c hc => absurd hc List.not_mem_nil⟩
  | cons c rest ih =>
      obtain ⟨u, hstep, hrest⟩ := run_cons_some h
      obtain ⟨-, -, hslash, hregex⟩ := step_ne_start hstep
      rcases ih hrest with ⟨rfl, hbody⟩ | ⟨hu, -⟩
      · rcases step_eq_lineComment hstep with ⟨rfl, hc⟩ | ⟨hs, rfl⟩
        · exact Or.inl ⟨rfl, List.forall_mem_cons.mpr ⟨hc, hbody⟩⟩
        · exact Or.inr ⟨hs, rest, rfl, hbody⟩
      · exact absurd hu (not_or.mpr ⟨hslash, hregex⟩)

theorem run_slashAssign (h : (automaton goal).run s rest = some slashAssign) :
    (s = slashAssign ∧ rest = []) ∨ (s = slash ∧ rest = ['=']) := by
  induction rest generalizing s with
  | nil => exact Or.inl ⟨Option.some.inj h, rfl⟩
  | cons c rest ih =>
      obtain ⟨u, hstep, hrest⟩ := run_cons_some h
      rcases ih hrest with ⟨rfl, rfl⟩ | ⟨rfl, -⟩
      · obtain ⟨rfl, rfl⟩ := step_eq_slashAssign hstep
        exact Or.inr ⟨rfl, rfl⟩
      · exact absurd rfl (step_ne_start hstep).2.2.1

/-- A comment ends with the first `*/` behind its beginning. -/
theorem run_blockEnd (h : (automaton goal).run s rest = some blockEnd) :
    (s = blockEnd ∧ rest = []) ∨
      (∃ body, Free '*' '/' body ∧
        ((s = blockComment ∧ rest = body ++ ['*', '/']) ∨
          (s = blockStar ∧ '*' :: rest = body ++ ['*', '/']) ∨
          ((s = slash ∨ s = regexStart) ∧ rest = '*' :: (body ++ ['*', '/'])))) := by
  induction rest generalizing s with
  | nil => exact Or.inl ⟨Option.some.inj h, rfl⟩
  | cons c rest ih =>
      obtain ⟨u, hstep, hrest⟩ := run_cons_some h
      obtain ⟨-, -, hslash, hregex⟩ := step_ne_start hstep
      refine Or.inr ?_
      rcases ih hrest with ⟨rfl, rfl⟩ | ⟨body, hfree, ⟨rfl, rfl⟩ | ⟨rfl, hbody⟩ | ⟨hu, -⟩⟩
      · obtain ⟨rfl, rfl⟩ := step_eq_blockEnd hstep
        exact ⟨[], free_nil, Or.inr (Or.inl ⟨rfl, rfl⟩)⟩
      · rcases step_eq_blockComment hstep with ⟨hs, hstar, hclose⟩ | ⟨hs, rfl⟩
        · have hfree' : Free '*' '/' (c :: body) :=
            (free_cons_iff c body).mpr ⟨fun hpair => hstar hpair.1, hfree⟩
          rcases hs with rfl | rfl
          · exact ⟨c :: body, hfree', Or.inl ⟨rfl, rfl⟩⟩
          · refine ⟨'*' :: c :: body, ?_, Or.inr (Or.inl ⟨rfl, rfl⟩)⟩
            refine (free_cons_iff '*' _).mpr ⟨fun hpair => ?_, hfree'⟩
            exact hclose rfl (Option.some.inj hpair.2)
        · exact ⟨body, hfree, Or.inr (Or.inr ⟨hs, rfl⟩)⟩
      · obtain ⟨hs, rfl⟩ := step_eq_blockStar hstep
        rcases hs with rfl | rfl
        · exact ⟨body, hfree, Or.inl ⟨rfl, hbody⟩⟩
        · refine ⟨'*' :: body, ?_, Or.inr (Or.inl ⟨rfl, congrArg ('*' :: ·) hbody⟩)⟩
          refine (free_cons_iff '*' body).mpr ⟨fun hpair => ?_, hfree⟩
          -- what follows is the star that has been read
          cases body with
          | nil => cases hpair.2
          | cons d body =>
              obtain rfl := (List.cons.inj hbody).1
              exact absurd (Option.some.inj hpair.2) (by decide)
      · exact absurd hu (not_or.mpr ⟨hslash, hregex⟩)

/-- A string ends with its quotation mark, and has no two ends of a line `\n` one after the
other. -/
theorem run_stringEnd {q : Char} (hs : InString q s)
    (h : (automaton goal).run s rest = some stringEnd) :
    ∃ body, rest = body ++ [q] ∧ Free '\n' '\n' body ∧
      (s = string q → body.head? ≠ some '\n') := by
  induction rest generalizing s with
  | nil =>
      obtain rfl := Option.some.inj h
      exact absurd hs (by unfold InString; simp)
  | cons c rest ih =>
      obtain ⟨u, hstep, hrest⟩ := run_cons_some h
      rcases step_of_inString hs hstep with hu | ⟨rfl, rfl⟩
      · obtain ⟨-, hfirst, hnext⟩ := step_inString hstep hu
        obtain ⟨body, rfl, hfree, hhead⟩ := ih hu hrest
        refine ⟨c :: body, rfl, (free_cons_iff c body).mpr ⟨?_, hfree⟩, fun hstring => ?_⟩
        · exact fun hpair => hhead (hnext hpair.1) hpair.2
        · exact fun hline => hfirst hstring (Option.some.inj hline)
      · obtain ⟨rfl, -⟩ := Automaton.run_of_stuck (A := automaton goal) (fun _ => rfl) hrest
        exact ⟨[], rfl, free_nil, fun _ hnone => by cases hnone⟩

end

/-! ### Elements -/

section

variable {goal : List (Bool × Element) → Bool} {before : Context} {e : Element}

/-- What an element begins with. -/
theorem start_eq_some {regex : Bool} {s : LexState} {c : Char} (h : start regex c = some s) :
    (isPlain s = true ∧ Ordinary c) ∨ (s = whiteSpace ∧ isWhiteSpace c = true) ∨
      (s = lineTerminator ∧ isLineTerminator c = true) ∨ (s = string c ∧ isQuote c = true) ∨
      ((s = slash ∨ s = regexStart) ∧ c = '/') := by
  by_cases hplain : isPlain s = true
  · exact Or.inl ⟨hplain, start_plain h hplain⟩
  · unfold start at h
    grind [isPlain]

/-- The characters of an element. -/
inductive Shape : Element → Prop
  | ordinary {s : LexState} {text : List Char} (hs : isPlain s = true)
      (hall : ∀ c ∈ text, Ordinary c) : Shape ⟨s, text⟩
  | whiteSpace {c : Char} (hc : isWhiteSpace c = true) : Shape ⟨.whiteSpace, [c]⟩
  | lineTerminator {c : Char} (hc : isLineTerminator c = true) : Shape ⟨.lineTerminator, [c]⟩
  | slash : Shape ⟨.slash, ['/']⟩
  | slashAssign : Shape ⟨.slashAssign, ['/', '=']⟩
  | string {q : Char} {body : List Char} (hq : isQuote q = true) (hlines : Free '\n' '\n' body) :
      Shape ⟨stringEnd, q :: (body ++ [q])⟩
  | regex {text : List Char} (hline : '\n' ∉ text) : Shape ⟨regexEnd, '/' :: text⟩
  | lineComment {body : List Char} (hline : ∀ c ∈ body, isLineTerminator c = false) :
      Shape ⟨.lineComment, '/' :: '/' :: body⟩
  | blockComment {body : List Char} (hfree : Free '*' '/' body) :
      Shape ⟨blockEnd, '/' :: '*' :: (body ++ ['*', '/'])⟩

theorem Shape.of_stringEnd (h : Shape e) (hs : e.state = stringEnd) :
    ∃ q body, e.text = q :: (body ++ [q]) ∧ isQuote q = true := by
  cases h with
  | @string q body hq => exact ⟨q, body, rfl, hq⟩
  | @ordinary s text hplain =>
      obtain rfl : s = stringEnd := hs
      cases hplain
  | _ => cases hs

theorem Shape.of_lineComment (h : Shape e) (hs : e.state = .lineComment) :
    ∃ body, e.text = '/' :: '/' :: body ∧ ∀ c ∈ body, isLineTerminator c = false := by
  cases h with
  | @lineComment body hline => exact ⟨body, rfl, hline⟩
  | @ordinary s text hplain =>
      obtain rfl : s = .lineComment := hs
      cases hplain
  | _ => cases hs

/-- A string begins with its quotation mark. -/
theorem start_of_stringEnd {s : LexState} {c : Char} {rest : List Char}
    (hstart : (isPlain s = true ∧ Ordinary c) ∨ (s = whiteSpace ∧ isWhiteSpace c = true) ∨
      (s = lineTerminator ∧ isLineTerminator c = true) ∨ (s = string c ∧ isQuote c = true) ∨
      ((s = slash ∨ s = regexStart) ∧ c = '/'))
    (hrun : (automaton goal).run s rest = some stringEnd) : s = string c ∧ isQuote c = true := by
  have hback : ∀ u d v, step u d = some v → (v = stringEnd ∨ ∃ q, InString q v) →
      (u = stringEnd ∨ ∃ q, InString q u) ∧ True := by
    rintro u d v hstep (rfl | ⟨q, hv⟩)
    · exact ⟨Or.inr ⟨d, step_eq_stringEnd hstep⟩, trivial⟩
    · exact ⟨Or.inr ⟨q, (step_inString hstep hv).1⟩, trivial⟩
  have hs := (Automaton.run_backward (A := automaton goal) hback hrun (Or.inl rfl)).1
  unfold InString at hs
  grind [isPlain]

theorem shape_of_accepts (h : (automaton goal).Accepts before e) : Shape e := by
  cases h with
  | @intro x rest s t hstart hrun hfinal =>
      have hstart := start_eq_some hstart
      by_cases hplain : isPlain t = true
      · obtain ⟨hs, hrest⟩ := Automaton.run_backward (A := automaton goal)
          (P := fun s => isPlain s = true) (fun s c t hstep ht => step_plain hstep ht) hrun hplain
        refine .ordinary hplain (List.forall_mem_cons.mpr ⟨?_, hrest⟩)
        grind [isPlain]
      cases t with
      | whiteSpace =>
          obtain ⟨rfl, rfl⟩ := run_eq_start (by simp) hrun
          exact .whiteSpace (by grind [isPlain])
      | lineTerminator =>
          obtain ⟨rfl, rfl⟩ := run_eq_start (by simp) hrun
          exact .lineTerminator (by grind [isPlain])
      | slash =>
          obtain ⟨rfl, rfl⟩ := run_eq_start (by simp) hrun
          obtain rfl : x = '/' := by grind [isPlain]
          exact .slash
      | slashAssign =>
          obtain ⟨rfl, rfl⟩ : s = slash ∧ rest = ['='] := by
            rcases run_slashAssign hrun with ⟨rfl, -⟩ | hslash
            · grind [isPlain]
            · exact hslash
          obtain rfl : x = '/' := by grind [isPlain]
          exact .slashAssign
      | stringEnd =>
          obtain ⟨rfl, hq⟩ := start_of_stringEnd hstart hrun
          obtain ⟨body, rfl, hlines, -⟩ := run_stringEnd (Or.inl rfl) hrun
          exact .string hq hlines
      | regexEnd =>
          obtain ⟨hs, hrest⟩ := Automaton.run_backward (A := automaton goal)
            (fun s c t hstep ht => step_inRegex hstep ht) hrun (by simp [InRegex])
          obtain rfl : x = '/' := by
            unfold InRegex at hs
            grind [isPlain]
          exact .regex fun hline => hrest _ hline rfl
      | lineComment =>
          rcases run_lineComment hrun with ⟨rfl, -⟩ | ⟨hs, body, rfl, hbody⟩
          · grind [isPlain]
          · obtain rfl : x = '/' := by grind [isPlain]
            exact .lineComment hbody
      | blockEnd =>
          rcases run_blockEnd hrun with ⟨rfl, -⟩ | ⟨body, hfree, ⟨rfl, -⟩ | ⟨rfl, -⟩ | ⟨hs, rfl⟩⟩
          · grind [isPlain]
          · grind [isPlain]
          · grind [isPlain]
          · obtain rfl : x = '/' := by grind [isPlain]
            exact .blockComment hfree
      | _ => first
        | exact absurd rfl hplain
        | cases hfinal

end

end LexicalGrammar

end IotJs

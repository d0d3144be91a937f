import Mathlib.Tactic.Common

/-!
# `IotJs.Lib.MaximalMunch`: texts cut into lexemes

An automaton reads a lexeme character by character and takes every character that it can. Where it
cannot take one, the lexeme ends, and it has to end in a final state: there is no way back. The next
lexeme begins in a context (`κ`), which is made of the lexemes before.

`lex` cuts a text, and `Lexed` says of a list of lexemes that they are cut so (`lex_eq_some_iff`).
When some of them are taken out and the others begin as before, these are lexemes of their own still
(`Chained.thinned`): they are cut the same way, or one of them goes on in the text of the next
(`Chained.eq_or_joined`).
-/

set_option autoImplicit false

namespace MaximalMunch

variable {α σ κ : Type}

/-- A piece of a text, with the state that it ends in. -/
structure Lexeme (α σ : Type) where
  state : σ
  text : List α
deriving DecidableEq, Repr

structure Automaton (α σ κ : Type) where
  /-- the first character of a lexeme -/
  start : κ → α → Option σ
  step : σ → α → Option σ
  final : σ → Bool
  /-- the context behind a lexeme -/
  next : κ → Lexeme α σ → κ

/-- The text of some lexemes. -/
def text (es : List (Lexeme α σ)) : List α := es.flatMap Lexeme.text

namespace Automaton

variable (A : Automaton α σ κ)

/-- The lexemes of a text inside of the first one, which has taken these characters. -/
def lexIn (k : κ) (s : σ) (taken : List α) : List α → Option (List (Lexeme α σ))
  | [] => if A.final s then some [⟨s, taken⟩] else none
  | x :: rest =>
      match A.step s x with
      | some t => lexIn k t (taken ++ [x]) rest
      | none =>
          -- the lexeme ends here, and `x` is the first character of the next one
          if A.final s then
            (A.start (A.next k ⟨s, taken⟩) x).bind fun t =>
              (lexIn (A.next k ⟨s, taken⟩) t [x] rest).map fun es => ⟨s, taken⟩ :: es
          else none

/-- The lexemes of a text. -/
def lex (k : κ) : List α → Option (List (Lexeme α σ))
  | [] => some []
  | x :: rest => (A.start k x).bind fun s => A.lexIn k s [x] rest

/-- The state behind some characters. -/
def run (s : σ) (list : List α) : Option σ := list.foldlM A.step s

/-- A lexeme on its own. -/
inductive Accepts (k : κ) : Lexeme α σ → Prop
  | intro {x : α} {rest : List α} {s t : σ} (hstart : A.start k x = some s)
      (hrun : A.run s rest = some t) (hfinal : A.final t = true) : Accepts k ⟨t, x :: rest⟩

/-- The lexemes of their text, from a context on. -/
inductive Lexed : κ → List (Lexeme α σ) → Prop
  | nil (k : κ) : Lexed k []
  | cons {k : κ} {e : Lexeme α σ} {es : List (Lexeme α σ)} (haccepts : A.Accepts k e)
      (hends : ∀ x ∈ (text es).head?, A.step e.state x = none) (hrest : Lexed (A.next k e) es) :
      Lexed k (e :: es)

end Automaton

@[simp]
theorem text_nil : text ([] : List (Lexeme α σ)) = [] := rfl

@[simp]
theorem text_cons (e : Lexeme α σ) (es : List (Lexeme α σ)) : text (e :: es) = e.text ++ text es :=
  List.flatMap_cons

theorem text_append (es es' : List (Lexeme α σ)) : text (es ++ es') = text es ++ text es' :=
  List.flatMap_append

theorem text_isInfix {e : Lexeme α σ} {es : List (Lexeme α σ)} (h : e ∈ es) :
    e.text <:+: text es := by
  obtain ⟨front, rest, rfl⟩ := List.append_of_mem h
  refine ⟨text front, text rest, ?_⟩
  rw [text_append, text_cons, List.append_assoc]

/-- Each lexeme with the character that follows it. -/
def Followed (P : Lexeme α σ → Option α → Prop) : List (Lexeme α σ) → Prop
  | [] => True
  | e :: es => P e (text es).head? ∧ Followed P es

instance decidableFollowed {P : Lexeme α σ → Option α → Prop} [∀ e next, Decidable (P e next)] :
    (es : List (Lexeme α σ)) → Decidable (Followed P es)
  | [] => isTrue trivial
  | _ :: es =>
      have := decidableFollowed (P := P) es
      inferInstanceAs (Decidable (_ ∧ _))

/-- The lexeme does not take up the character behind it. -/
def Ends (step : σ → α → Option σ) (e : Lexeme α σ) (next : Option α) : Prop :=
  ∀ x ∈ next, step e.state x = none

instance [DecidableEq σ] (step : σ → α → Option σ) (e : Lexeme α σ) (next : Option α) :
    Decidable (Ends step e next) :=
  inferInstanceAs (Decidable (∀ x ∈ next, step e.state x = none))

namespace Automaton

variable {A : Automaton α σ κ} {k : κ} {s t u : σ} {taken list : List α}
variable {e : Lexeme α σ} {es es' : List (Lexeme α σ)}

@[simp]
theorem run_nil : A.run s [] = some s := rfl

theorem run_cons (x : α) (list : List α) :
    A.run s (x :: list) = (A.step s x).bind fun t => A.run t list := rfl

theorem run_append (list list' : List α) :
    A.run s (list ++ list') = (A.run s list).bind fun t => A.run t list' :=
  List.foldlM_append

/-- A property of states that leads back along the steps, with what the steps say of their
characters. -/
theorem run_backward {P : σ → Prop} {Q : α → Prop}
    (hback : ∀ s x t, A.step s x = some t → P t → P s ∧ Q x) (hrun : A.run s list = some t)
    (ht : P t) : P s ∧ ∀ x ∈ list, Q x := by
  induction list generalizing s with
  | nil =>
      obtain rfl := Option.some.inj hrun
      exact ⟨ht, fun x hx => absurd hx List.not_mem_nil⟩
  | cons x list ih =>
      rw [run_cons] at hrun
      obtain ⟨u, hstep, hrest⟩ := Option.bind_eq_some_iff.mp hrun
      obtain ⟨hu, hlist⟩ := ih hrest
      obtain ⟨hs, hx⟩ := hback s x u hstep hu
      exact ⟨hs, List.forall_mem_cons.mpr ⟨hx, hlist⟩⟩

/-- A state without a step behind it is reached at the end. -/
theorem run_of_stuck (hstuck : ∀ x, A.step s x = none) (hrun : A.run s list = some t) :
    list = [] ∧ t = s := by
  cases list with
  | nil => exact ⟨rfl, (Option.some.inj hrun).symm⟩
  | cons x list =>
      rw [run_cons, hstuck] at hrun
      cases hrun

theorem Accepts.text_ne_nil (h : A.Accepts k e) : e.text ≠ [] := by
  cases h with
  | intro => exact List.cons_ne_nil _ _

theorem Accepts.final (h : A.Accepts k e) : A.final e.state = true := by
  cases h with
  | intro hstart hrun hfinal => exact hfinal

/-! ### The lexemes of a text -/

/-- Inside of a lexeme that has taken some characters already. -/
theorem lexed_of_lexIn (hlex : A.lexIn k s taken list = some es) {x : α} {rest : List α} {s₀ : σ}
    (htaken : taken = x :: rest) (hstart : A.start k x = some s₀)
    (hrun : A.run s₀ rest = some s) : A.Lexed k es ∧ text es = taken ++ list := by
  induction list generalizing k s taken es x rest s₀ with
  | nil =>
      rw [lexIn] at hlex
      split at hlex
      · rename_i hfinal
        obtain rfl := Option.some.inj hlex
        subst htaken
        refine ⟨.cons (.intro hstart hrun hfinal) (fun y hy => ?_) (.nil _), rfl⟩
        cases hy
      · cases hlex
  | cons y list ih =>
      rw [lexIn] at hlex
      split at hlex
      · rename_i t hstep
        have hrun' : A.run s₀ (rest ++ [y]) = some t := by
          rw [run_append, hrun]
          exact (run_cons y []).trans (by rw [hstep]; rfl)
        obtain ⟨hlexed, htext⟩ := ih hlex (by rw [htaken]; rfl) hstart hrun'
        exact ⟨hlexed, by rw [htext, List.append_assoc]; rfl⟩
      · rename_i hstep
        split at hlex
        · rename_i hfinal
          obtain ⟨t, hnext, hmap⟩ := Option.bind_eq_some_iff.mp hlex
          obtain ⟨es', hin, rfl⟩ := Option.map_eq_some_iff.mp hmap
          obtain ⟨hlexed, htext⟩ := ih hin rfl hnext run_nil
          subst htaken
          refine ⟨.cons (.intro hstart hrun hfinal) (fun z hz => ?_) hlexed, ?_⟩
          · rw [htext] at hz
            obtain rfl := Option.some.inj hz
            exact hstep
          · rw [text_cons, htext]
            rfl
        · cases hlex

/-- The rest of the first lexeme, and the lexemes behind it. -/
theorem lexIn_append {more : List α} (hrun : A.run s more = some t) (hfinal : A.final t = true)
    (hends : ∀ x ∈ list.head?, A.step t x = none)
    (hlex : A.lex (A.next k ⟨t, taken ++ more⟩) list = some es) :
    A.lexIn k s taken (more ++ list) = some (⟨t, taken ++ more⟩ :: es) := by
  induction more generalizing s taken with
  | nil =>
      obtain rfl := Option.some.inj hrun
      rw [List.append_nil] at hlex ⊢
      cases list with
      | nil =>
          obtain rfl := Option.some.inj hlex
          rw [List.append_nil, lexIn, if_pos hfinal]
      | cons x list =>
          obtain ⟨u, hstart, hin⟩ := Option.bind_eq_some_iff.mp hlex
          rw [List.nil_append, lexIn, hends x rfl]
          dsimp only
          rw [if_pos hfinal, hstart, Option.bind_some, hin]
          rfl
  | cons x more ih =>
      rw [run_cons] at hrun
      obtain ⟨u, hstep, hmore⟩ := Option.bind_eq_some_iff.mp hrun
      have happend : taken ++ x :: more = (taken ++ [x]) ++ more := by
        rw [List.append_assoc]
        rfl
      rw [happend] at hlex ⊢
      rw [List.cons_append, lexIn, hstep]
      exact ih hmore hlex

theorem Lexed.lex (h : A.Lexed k es) : A.lex k (text es) = some es := by
  induction h with
  | nil k => rfl
  | cons haccepts hends hrest ih =>
      cases haccepts with
      | intro hstart hrun hfinal =>
          rw [text_cons, List.cons_append, Automaton.lex, hstart]
          exact lexIn_append hrun hfinal hends ih

/-- A text has these lexemes if and only if they are its own, one after the other. -/
theorem lex_eq_some_iff : A.lex k list = some es ↔ A.Lexed k es ∧ text es = list := by
  constructor
  · intro hlex
    cases list with
    | nil =>
        obtain rfl := Option.some.inj hlex
        exact ⟨.nil k, rfl⟩
    | cons x list =>
        obtain ⟨s, hstart, hin⟩ := Option.bind_eq_some_iff.mp hlex
        exact lexed_of_lexIn hin rfl hstart run_nil
  · rintro ⟨hlexed, rfl⟩
    exact hlexed.lex

theorem Lexed.exists_accepts (h : A.Lexed k es) : ∀ e ∈ es, ∃ k, A.Accepts k e := by
  induction h with
  | nil => exact fun e he => absurd he List.not_mem_nil
  | cons haccepts _ _ ih => exact List.forall_mem_cons.mpr ⟨⟨_, haccepts⟩, ih⟩

/-! ### Lexemes next to each other -/

/-- Lexemes of their own, whatever follows them. -/
inductive Chained (A : Automaton α σ κ) : κ → List (Lexeme α σ) → Prop
  | nil (k : κ) : Chained A k []
  | cons {k : κ} {e : Lexeme α σ} {es : List (Lexeme α σ)} (haccepts : A.Accepts k e)
      (hrest : Chained A (A.next k e) es) : Chained A k (e :: es)

theorem lexed_iff : A.Lexed k es ↔ A.Chained k es ∧ Followed (Ends A.step) es := by
  constructor
  · intro h
    induction h with
    | nil k => exact ⟨.nil k, trivial⟩
    | cons haccepts hends _ ih => exact ⟨.cons haccepts ih.1, hends, ih.2⟩
  · rintro ⟨hchained, hfollowed⟩
    induction hchained with
    | nil k => exact .nil k
    | cons haccepts _ ih => exact .cons haccepts hfollowed.1 (ih hfollowed.2)

/-- Lexemes are taken out, and the others begin as before. -/
inductive Thinned (A : Automaton α σ κ) : κ → κ → List (Lexeme α σ) → List (Lexeme α σ) → Prop
  | nil (k k' : κ) : Thinned A k k' [] []
  | keep {k k' : κ} {e : Lexeme α σ} {es es' : List (Lexeme α σ)} (hstart : A.start k = A.start k')
      (hrest : Thinned A (A.next k e) (A.next k' e) es es') : Thinned A k k' (e :: es) (e :: es')
  | drop {k k' : κ} {e : Lexeme α σ} {es es' : List (Lexeme α σ)}
      (hrest : Thinned A (A.next k e) k' es es') : Thinned A k k' (e :: es) es'

theorem Accepts.congr {k' : κ} (h : A.Accepts k e) (hstart : A.start k = A.start k') :
    A.Accepts k' e := by
  cases h with
  | intro hbegin hrun hfinal =>
      rw [hstart] at hbegin
      exact .intro hbegin hrun hfinal

theorem Chained.thinned {k' : κ} (h : A.Chained k es) (hthinned : A.Thinned k k' es es') :
    A.Chained k' es' := by
  induction hthinned with
  | nil k k' => exact .nil k'
  | keep hstart _ ih =>
      cases h with
      | cons haccepts hrest => exact .cons (haccepts.congr hstart) (ih hrest)
  | drop _ ih =>
      cases h with
      | cons _ hrest => exact ih hrest

/-! ### Lexemes that are joined -/

/-- The second list has a longer lexeme where the lists differ first. -/
inductive Joined (A : Automaton α σ κ) : List (Lexeme α σ) → List (Lexeme α σ) → Prop
  | here {e e' : Lexeme α σ} {es es' : List (Lexeme α σ)} {x : α} {more : List α}
      (hhead : (text es).head? = some x) (htext : e'.text = e.text ++ x :: more)
      (hrun : A.run e.state (x :: more) = some e'.state) (hfinal : A.final e.state = true)
      (hfinal' : A.final e'.state = true) : Joined A (e :: es) (e' :: es')
  | there {e : Lexeme α σ} {es es' : List (Lexeme α σ)} (hrest : Joined A es es') :
      Joined A (e :: es) (e :: es')

/-- One of two lexemes at the beginning of a text goes on where the other one ends. -/
theorem Accepts.eq_or_longer {e' : Lexeme α σ} {list list' : List α} (h : A.Accepts k e)
    (h' : A.Accepts k e') (htext : e'.text ++ list' = e.text ++ list)
    (hends : Ends A.step e' list'.head?) :
    e' = e ∨ ∃ x more, list = x :: more ++ list' ∧ e'.text = e.text ++ x :: more ∧
      A.run e.state (x :: more) = some e'.state := by
  cases h with
  | @intro y rest s t hstart hrun hfinal =>
  cases h' with
  | @intro y' rest' s' t' hstart' hrun' hfinal' =>
  obtain ⟨rfl, hrest⟩ := List.cons.inj htext
  obtain rfl : s' = s := Option.some.inj (hstart'.symm.trans hstart)
  rcases List.append_eq_append_iff.mp hrest with ⟨more, rfl, hlist⟩ | ⟨more, rfl, hlist⟩
  · -- `e'` is no shorter than `e`, as it would have taken the next character of `e`
    cases more with
    | nil =>
        rw [List.append_nil] at hrun ⊢
        exact Or.inl (by rw [Option.some.inj (hrun'.symm.trans hrun)])
    | cons x more =>
        rw [run_append, hrun', Option.bind_some, run_cons, hends x (by rw [hlist]; rfl)] at hrun
        cases hrun
  · cases more with
    | nil =>
        rw [List.append_nil] at hrun' ⊢
        exact Or.inl (by rw [Option.some.inj (hrun'.symm.trans hrun)])
    | cons x more =>
        rw [run_append, hrun, Option.bind_some] at hrun'
        exact Or.inr ⟨x, more, hlist, rfl, hrun'⟩

/-- Lexemes of their own are the lexemes of their text, or some of them are joined. -/
theorem Chained.eq_or_joined (h : A.Chained k es) (h' : A.Lexed k es')
    (htext : text es' = text es) : es' = es ∨ A.Joined es es' := by
  induction h generalizing es' with
  | nil k =>
      cases h' with
      | nil => exact Or.inl rfl
      | cons haccepts =>
          rw [text_cons, text_nil] at htext
          exact absurd (List.append_eq_nil_iff.mp htext).1 haccepts.text_ne_nil
  | cons haccepts _ ih =>
      cases h' with
      | nil =>
          rw [text_cons, text_nil] at htext
          exact absurd (List.append_eq_nil_iff.mp htext.symm).1 haccepts.text_ne_nil
      | cons haccepts' hends hrest' =>
          rw [text_cons, text_cons] at htext
          obtain rfl | ⟨x, more, hlist, hlonger, hrun⟩ :=
            haccepts.eq_or_longer haccepts' htext hends
          · rcases ih hrest' (List.append_cancel_left htext) with rfl | hjoined
            · exact Or.inl rfl
            · exact Or.inr (.there hjoined)
          · refine Or.inr (.here ?_ hlonger hrun haccepts.final haccepts'.final)
            rw [hlist]
            rfl

end Automaton

end MaximalMunch

import IotJs.Core.UtilFormat

/-!
# `IotJs.Proofs.UtilFormat`: what `format` renders

`render` says what a format string is to become: each `%s`, `%d` and `%j` takes the next argument
as long as there is one, and the arguments that are left come behind it. The code goes wrong in
three places: `%j` does not take its argument, `%d` throws what the object throws, and an argument
that is left is asked for its `toString`, which `null` and `undefined` do not have. `formats_iff`
says that it renders as it should in all other cases.
-/

set_option autoImplicit false

namespace IotJs.Util

/-! ### What is to be rendered -/

section

variable (numberOf : String → String)

/-- An argument in place of a match. -/
def directiveText (arg : Value) : Directive → String
  | .d => (arg.toNumber numberOf).toOption.getD ""
  | .j => "[JSON object]"
  | _ => arg.text

/-- The arguments that are left, each behind a space. -/
def renderRest : List Value → String
  | [] => ""
  | arg :: rest => " " ++ arg.text ++ renderRest rest

def render : List Piece → List Value → String
  | [], rest => renderRest rest
  | .literal c :: ps, rest => c.toString ++ render ps rest
  | .directive .percent :: ps, rest => "%" ++ render ps rest
  | .directive m :: ps, [] => m.text ++ render ps []
  | .directive m :: ps, arg :: rest => directiveText numberOf arg m ++ render ps rest

/-- What `format` is to return. -/
def rendered : List Value → String
  | .string s :: rest => render numberOf (pieces s.toList) rest
  | args => " ".intercalate (args.map Value.text)

/-- Each `%s`, `%d` and `%j` takes one argument, as long as there is one. -/
def Consumes (args : List Value) (ps : List Piece) (i : Nat) : Prop :=
  ∀ before m behind, ps = before ++ .directive m :: behind → m ≠ .percent →
    ∀ str k, replace numberOf args before i = .ok (str, k) →
      ∀ text k', replacement numberOf args m k = .ok (text, k') → k' = min args.length (k + 1)

/-- `format` returns the text, and the directives take their arguments one by one. -/
structure Formats (args : List Value) : Prop where
  returns : format numberOf args = .ok (rendered numberOf args)
  consumes : ∀ s rest, args = .string s :: rest → Consumes numberOf args (pieces s.toList) 1

/-- No `%j` finds an argument, no `%d` an object that has no number, and neither `null` nor
`undefined` is left. -/
def Renderable : List Piece → List Value → Prop
  | [], rest => ∀ arg ∈ rest, arg.toString.isOk = true
  | .literal _ :: ps, rest | .directive .percent :: ps, rest => Renderable ps rest
  | .directive _ :: ps, [] => Renderable ps []
  | .directive .s :: ps, _ :: rest => Renderable ps rest
  | .directive .d :: ps, arg :: rest =>
      (arg.toNumber numberOf).isOk = true ∧ Renderable ps rest
  | .directive .j :: _, _ :: _ => False

end

variable {numberOf : String → String} {args : List Value}

/-! ### The arguments that are left -/

theorem toString_eq {arg : Value} (hok : arg.toString.isOk = true) :
    arg.toString = .ok arg.text := by
  cases arg with
  | undefined | null => cases hok
  | boolean b | number text | string text | object text asNumber => rfl

theorem appendRest_ok {rest : List Value} (hok : ∀ arg ∈ rest, arg.toString.isOk = true)
    (str : String) : appendRest rest str = .ok (str ++ renderRest rest) := by
  induction rest generalizing str with
  | nil => rw [appendRest, renderRest, String.append_empty]
  | cons arg rest ih =>
      obtain ⟨harg, hrest⟩ := List.forall_mem_cons.mp hok
      rw [appendRest, toString_eq harg]
      show appendRest rest (str ++ (" " ++ arg.text)) = _
      rw [ih hrest, renderRest, String.append_assoc]

theorem appendRest_throws {rest : List Value} (hno : ¬ ∀ arg ∈ rest, arg.toString.isOk = true)
    (str : String) : ∃ message, appendRest rest str = .error message := by
  induction rest generalizing str with
  | nil => exact absurd (fun _ harg => nomatch harg) hno
  | cons arg rest ih =>
      rw [appendRest]
      cases harg : arg.toString with
      | error message => exact ⟨message, rfl⟩
      | ok text =>
          refine ih (fun hrest => hno ?_) _
          exact List.forall_mem_cons.mpr ⟨by rw [harg]; rfl, hrest⟩

theorem appendRest_append (rest : List Value) (front str : String) :
    appendRest rest (front ++ str) = (appendRest rest str).map (front ++ ·) := by
  induction rest generalizing str with
  | nil => rfl
  | cons arg rest ih =>
      rw [appendRest, appendRest]
      cases arg.toString with
      | error message => rfl
      | ok text =>
          show appendRest rest (front ++ str ++ (" " ++ text)) = _
          rw [String.append_assoc, ih]
          rfl

theorem map_append_eq_iff {call : Except String String} {front str : String} :
    call.map (front ++ ·) = .ok (front ++ str) ↔ call = .ok str := by
  cases call with
  | error message => exact iff_of_false (nomatch ·) (nomatch ·)
  | ok text =>
      show Except.ok (front ++ text) = Except.ok (front ++ str) ↔ _
      rw [Except.ok.injEq, Except.ok.injEq, String.append_right_inj]

/-! ### The pieces, one after the other -/

/-- What `format` does from a piece on. -/
def formatFrom (numberOf : String → String) (args : List Value) (ps : List Piece) (i : Nat) :
    Except String String :=
  replace numberOf args ps i >>= fun result => appendRest (args.drop result.2) result.1

section steps

variable {c : Char} {m : Directive} {ps : List Piece} {i k : Nat} {text : String}

theorem formatFrom_literal : formatFrom numberOf args (.literal c :: ps) i =
    (formatFrom numberOf args ps i).map (c.toString ++ ·) := by
  rw [formatFrom, formatFrom, replace]
  cases replace numberOf args ps i with
  | error message => rfl
  | ok result => exact appendRest_append ..

theorem formatFrom_directive (hm : replacement numberOf args m i = .ok (text, k)) :
    formatFrom numberOf args (.directive m :: ps) i =
      (formatFrom numberOf args ps k).map (text ++ ·) := by
  rw [formatFrom, formatFrom, replace, hm]
  show (replace numberOf args ps k >>= _) >>= _ = _
  cases replace numberOf args ps k with
  | error message => rfl
  | ok result => exact appendRest_append ..

theorem replace_literal : replace numberOf args (.literal c :: ps) i =
    (replace numberOf args ps i).map fun result => (c.toString ++ result.1, result.2) := by
  rw [replace]
  cases replace numberOf args ps i with
  | error message => rfl
  | ok result => rfl

theorem replace_directive (hm : replacement numberOf args m i = .ok (text, k)) :
    replace numberOf args (.directive m :: ps) i =
      (replace numberOf args ps k).map fun result => (text ++ result.1, result.2) := by
  rw [replace, hm]
  show (replace numberOf args ps k >>= _) = _
  cases replace numberOf args ps k with
  | error message => rfl
  | ok result => rfl

theorem map_snd_eq {call : Except String (String × Nat)} {front str : String}
    (hmap : call.map (fun result => (front ++ result.1, result.2)) = .ok (str, k)) :
    ∃ str', call = .ok (str', k) := by
  cases call with
  | error message => cases hmap
  | ok result =>
      cases hmap
      exact ⟨result.1, rfl⟩

theorem consumes_nil : Consumes numberOf args [] i := by
  intro before m behind heq
  exact absurd heq (by simp)

theorem consumes_literal :
    Consumes numberOf args (.literal c :: ps) i ↔ Consumes numberOf args ps i := by
  constructor
  · intro hconsumes before m behind heq hm str k hbefore
    refine hconsumes (.literal c :: before) m behind (by rw [heq]; rfl) hm (c.toString ++ str) k ?_
    rw [replace_literal, hbefore]
    rfl
  · intro hconsumes before m behind heq hm str k hbefore
    cases before with
    | nil => cases heq
    | cons p before =>
        obtain ⟨rfl, htail⟩ := List.cons.inj heq
        rw [replace_literal] at hbefore
        obtain ⟨str', hbefore⟩ := map_snd_eq hbefore
        exact hconsumes before m behind htail hm str' k hbefore

theorem consumes_directive (hm : replacement numberOf args m i = .ok (text, k)) :
    Consumes numberOf args (.directive m :: ps) i ↔
      (m ≠ .percent → k = min args.length (i + 1)) ∧ Consumes numberOf args ps k := by
  constructor
  · intro hconsumes
    refine ⟨fun hne => hconsumes [] m ps rfl hne "" i rfl text k hm, ?_⟩
    intro before m' behind heq hm' str k' hbefore
    refine hconsumes (.directive m :: before) m' behind (by rw [heq]; rfl) hm' (text ++ str) k' ?_
    rw [replace_directive hm, hbefore]
    rfl
  · rintro ⟨hhere, hconsumes⟩ before m' behind heq hm' str k' hbefore
    cases before with
    | nil =>
        cases heq
        cases hbefore
        intro text' k' htext
        rw [hm] at htext
        cases htext
        exact hhere hm'
    | cons p before =>
        obtain ⟨rfl, htail⟩ := List.cons.inj heq
        rw [replace_directive hm] at hbefore
        obtain ⟨str', hbefore⟩ := map_snd_eq hbefore
        exact hconsumes before m' behind htail hm' str' k' hbefore

end steps

/-- A match that takes what it should, and then the rest. -/
theorem formatFrom_directive_iff {m : Directive} {ps : List Piece} {i k : Nat} {text str : String}
    (hm : replacement numberOf args m i = .ok (text, k))
    (hk : m ≠ .percent → k = min args.length (i + 1)) {P : Prop}
    (ih : formatFrom numberOf args ps k = .ok str ∧ Consumes numberOf args ps k ↔ P) :
    formatFrom numberOf args (.directive m :: ps) i = .ok (text ++ str) ∧
      Consumes numberOf args (.directive m :: ps) i ↔ P := by
  rw [formatFrom_directive hm, map_append_eq_iff, consumes_directive hm, and_iff_right hk, ih]

theorem formatFrom_nil_iff {i : Nat} :
    formatFrom numberOf args [] i = .ok (renderRest (args.drop i)) ↔
      ∀ arg ∈ args.drop i, arg.toString.isOk = true := by
  show appendRest (args.drop i) "" = _ ↔ _
  by_cases hok : ∀ arg ∈ args.drop i, arg.toString.isOk = true
  · exact iff_of_true (appendRest_ok hok "") hok
  · obtain ⟨message, hthrown⟩ := appendRest_throws hok ""
    refine iff_of_false (fun heq => ?_) hok
    cases hthrown.symm.trans heq

section argument

variable {ps : List Piece} {i : Nat} {arg : Value}

theorem lt_of_argument (harg : args[i]? = some arg) : i < args.length :=
  (List.getElem?_eq_some_iff.mp harg).1

/-- `%d` throws what its argument throws. -/
theorem formatFrom_d_iff (harg : args[i]? = some arg) {str : String} {P : Prop}
    (ih : formatFrom numberOf args ps (i + 1) = .ok str ∧ Consumes numberOf args ps (i + 1) ↔ P) :
    formatFrom numberOf args (.directive .d :: ps) i =
        .ok (directiveText numberOf arg .d ++ str) ∧
      Consumes numberOf args (.directive .d :: ps) i ↔
      (arg.toNumber numberOf).isOk = true ∧ P := by
  have hd : replacement numberOf args .d i =
      (arg.toNumber numberOf).map fun number => (number, i + 1) := by
    rw [replacement, if_neg (by decide), harg]
  cases hnumber : arg.toNumber numberOf with
  | error message =>
      rw [hnumber] at hd
      have hthrown : formatFrom numberOf args (.directive .d :: ps) i = .error message := by
        rw [formatFrom, replace, hd]
        rfl
      refine iff_of_false (fun hformats => ?_) fun hok => Bool.noConfusion hok.1
      cases hthrown.symm.trans hformats.1
  | ok number =>
      rw [hnumber] at hd
      have hsame : directiveText numberOf arg .d = number := by
        rw [directiveText, hnumber]
        rfl
      have hok : (Except.ok number : Except String String).isOk = true := rfl
      have hlt := lt_of_argument harg
      rw [hsame, and_iff_right hok]
      exact formatFrom_directive_iff hd (fun _ => by omega) ih

/-- `%j` leaves its argument to the next directive. -/
theorem not_consumes_j (harg : args[i]? = some arg) :
    ¬ Consumes numberOf args (.directive .j :: ps) i := by
  have hj : replacement numberOf args .j i = .ok ("[JSON object]", i) := by
    rw [replacement, if_neg (by decide), harg]
  intro hconsumes
  -- the counter is the same behind it, and it was not the last argument
  have hstays := ((consumes_directive hj).mp hconsumes).1 (by decide)
  have hlt := lt_of_argument harg
  omega

end argument

theorem formatFrom_iff (ps : List Piece) {i : Nat} (hi : i ≤ args.length) :
    formatFrom numberOf args ps i = .ok (render numberOf ps (args.drop i)) ∧
      Consumes numberOf args ps i ↔ Renderable numberOf ps (args.drop i) := by
  induction ps generalizing i with
  | nil =>
      rw [and_iff_left consumes_nil, Renderable, render]
      exact formatFrom_nil_iff
  | cons p ps ih =>
      cases p with
      | literal c =>
          rw [formatFrom_literal, render, map_append_eq_iff, consumes_literal, Renderable]
          exact ih hi
      | directive m =>
          by_cases hm : m = .percent
          · subst hm
            have hpercent : replacement numberOf args .percent i = .ok ("%", i) := rfl
            rw [render, Renderable]
            exact formatFrom_directive_iff hpercent (fun hne => absurd rfl hne) (ih hi)
          · cases hrest : args.drop i with
            | nil =>
                -- no argument is left, and the match stays as it is
                have hend : i = args.length :=
                  Nat.le_antisymm hi (List.drop_eq_nil_iff.mp hrest)
                have hnone : replacement numberOf args m i = .ok (m.text, i) := by
                  rw [replacement, if_neg hm, List.getElem?_eq_none (Nat.le_of_eq hend.symm)]
                have hnext := ih hi
                rw [hrest] at hnext
                have hdirective := formatFrom_directive_iff hnone (fun _ => by omega) hnext
                cases m with
                | percent => exact absurd rfl hm
                | s | d | j => exact hdirective
            | cons arg rest =>
                have harg : args[i]? = some arg := by
                  rw [← List.head?_drop, hrest]
                  rfl
                have hlt := lt_of_argument harg
                have hnext := ih (Nat.succ_le_of_lt hlt)
                have htail : args.drop (i + 1) = rest := by
                  rw [← List.drop_drop, hrest]
                  rfl
                rw [Nat.succ_eq_add_one, htail] at hnext
                cases m with
                | percent => exact absurd rfl hm
                | s =>
                    have htext : replacement numberOf args .s i = .ok (arg.text, i + 1) := by
                      rw [replacement, if_neg hm, harg]
                    exact formatFrom_directive_iff htext (fun _ => by omega) hnext
                | d => exact formatFrom_d_iff harg hnext
                | j => exact iff_of_false (fun hformats => not_consumes_j harg hformats.2) id

/-! ### `format` -/

theorem formatValue_eq (arg : Value) : formatValue arg = .ok arg.text := by
  cases arg <;> rfl

theorem mapM_formatValue (args : List Value) :
    args.mapM formatValue = .ok (args.map Value.text) := by
  induction args with
  | nil => rfl
  | cons arg args ih =>
      rw [List.mapM_cons, ih, formatValue_eq]
      rfl

/-- Where there is no format string, each argument is rendered. -/
theorem format_values (hno : ∀ s rest, args ≠ .string s :: rest) :
    format numberOf args = .ok (rendered numberOf args) := by
  have hvalues : format numberOf args = (do
      let arrs ← args.mapM formatValue
      return " ".intercalate arrs) := by
    unfold format
    split
    · rename_i s rest
      exact absurd rfl (hno s rest)
    · rfl
  have hrendered : rendered numberOf args = " ".intercalate (args.map Value.text) := by
    unfold rendered
    split
    · rename_i s rest
      exact absurd rfl (hno s rest)
    · rfl
  rw [hvalues, hrendered, mapM_formatValue]
  rfl

/-- For every format string and all arguments, and for arguments without a format string. -/
theorem formats_iff (numberOf : String → String) (args : List Value) :
    Formats numberOf args ↔
      ∀ s rest, args = .string s :: rest → Renderable numberOf (pieces s.toList) rest := by
  by_cases hstring : ∃ s rest, args = .string s :: rest
  · obtain ⟨s, rest, rfl⟩ := hstring
    have hiff := @formatFrom_iff numberOf (.string s :: rest) (pieces s.toList) 1 (by simp)
    rw [List.drop_one, List.tail_cons] at hiff
    constructor
    · rintro ⟨hreturns, hconsumes⟩ s' rest' heq
      cases heq
      exact hiff.mp ⟨hreturns, hconsumes s rest rfl⟩
    · intro hrenderable
      obtain ⟨hreturns, hconsumes⟩ := hiff.mpr (hrenderable s rest rfl)
      refine ⟨hreturns, fun s' rest' heq => ?_⟩
      cases heq
      exact hconsumes
  · have hno : ∀ s rest, args ≠ .string s :: rest := fun s rest heq => hstring ⟨s, rest, heq⟩
    exact iff_of_true ⟨format_values hno, fun s rest heq => absurd heq (hno s rest)⟩
      fun s rest heq => absurd heq (hno s rest)

/-- `format('%s', 'a', null)`: the argument that is left has no `toString`. -/
theorem format_null_throws :
    ¬ Formats id [.string "%s", .string "a", .null] ∧
      format id [.string "%s", .string "a", .null] = .error "TypeError" ∧
        rendered id [.string "%s", .string "a", .null] = "a null" := by
  have hthrows : format id [.string "%s", .string "a", .null] = .error "TypeError" := by
    decide
  refine ⟨fun hformats => ?_, hthrows, by decide⟩
  have hreturns := hformats.returns
  rw [hthrows] at hreturns
  cases hreturns

end IotJs.Util

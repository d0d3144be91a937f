import Mathlib.Data.Bool.AllAny
import IotJs.Core.MagicStrings
import IotJs.Lib.Fallible
import Mathlib.Data.List.Chain
import Mathlib.Data.List.Sort

/-!
# `IotJs.Proofs.MagicStrings`: from the literals of a snapshot to the engine

`literal_reprBody_iff` compares two languages: the tool writes a string as Python's `repr` does, and
the C compiler reads it. A double quote ends the string too early. An escape `\x..` has two digits
in Python and as many as there are in C, so that a digit behind it is lost.

`registerMagicStrings_iff` goes on from there: whether the file can be compiled, and whether the
engine gets the strings that the snapshots have.
-/

set_option autoImplicit false

namespace IotJs

namespace Js2c

open CSource Fallible

/-! ### What a character is written as -/

/-- The character is written with `\x`. -/
def hexEscaped (c : Char) : Bool :=
  (c != '\t' && c != '\n' && c != '\r') && (decide (c < ' ') || decide ('\x7f' ≤ c))

/-- The bytes behind what has been read, with those that may still get a digit. -/
def flush : List Nat × Escape → List Nat
  | (bytes, .hex (some n)) => bytes ++ [n % 256]
  | (bytes, _) => bytes

/-- Where the reader is behind a character that is read as it was meant. -/
def behindChar (bytes : List Nat) (c : Char) : List Nat × Escape :=
  if hexEscaped c then (bytes, .hex (some c.toNat)) else (bytes ++ [c.toNat], .plain)

/-- What has been read before does not matter. -/
theorem literalStep_append (pre bytes : List Nat) (place : Escape) (c : Char) :
    literalStep (pre ++ bytes, place) c =
      (literalStep (bytes, place) c).map fun read => (pre ++ read.1, read.2) := by
  have hplain : ∀ bytes : List Nat, plainStep (pre ++ bytes) c =
      (plainStep bytes c).map fun read => (pre ++ read.1, read.2) := by
    intro bytes
    rw [plainStep, plainStep]
    split
    · rfl
    · split
      · rfl
      · rw [Option.map_some, List.append_assoc]
  cases place with
  | plain => exact hplain bytes
  | backslash =>
      rw [literalStep, literalStep]
      split
      · rw [Option.map_some, List.append_assoc]
      · split
        · rfl
        · rw [Option.map_map]
          rfl
  | octal count n =>
      rw [literalStep, literalStep]
      split
      · rfl
      · rw [List.append_assoc]
        exact hplain _
  | hex n =>
      rw [literalStep, literalStep]
      split
      · rfl
      · cases n with
        | none => rfl
        | some n =>
            rw [Option.bind_some, Option.bind_some, List.append_assoc]
            exact hplain _

theorem foldlM_literalStep_append (pre bytes : List Nat) (place : Escape) (text : List Char) :
    text.foldlM literalStep (pre ++ bytes, place) =
      (text.foldlM literalStep (bytes, place)).map fun read => (pre ++ read.1, read.2) := by
  induction text generalizing bytes place with
  | nil => rfl
  | cons c text ih =>
      rw [List.foldlM_cons, List.foldlM_cons, literalStep_append]
      cases literalStep (bytes, place) c with
      | none => rfl
      | some read => exact ih read.1 read.2

/-- The quotes that `repr` can take. -/
theorem reprQuote_mem (s : List Char) : reprQuote s ∈ ['\x27', '\x22'] := by
  rw [reprQuote]
  split <;> decide

/-- A character is read as it was meant. -/
theorem foldlM_reprChar {quote c : Char} (hquote : quote ∈ ['\x27', '\x22']) (hc : c.toNat < 256)
    (hne : c ≠ '\x22') :
    (reprChar quote c).foldlM literalStep ([], .plain) = some (behindChar [] c) := by
  have hall : ∀ n < 256, (Char.ofNat n == '\x22' || (reprChar quote (Char.ofNat n)).foldlM
      literalStep ([], .plain) == some (behindChar [] (Char.ofNat n))) = true := by
    simp only [List.mem_cons, List.not_mem_nil, or_false] at hquote
    rcases hquote with rfl | rfl <;> decide +kernel
  have h := hall c.toNat hc
  rw [Char.ofNat_toNat, Bool.or_eq_true, beq_iff_eq, beq_iff_eq] at h
  exact h.resolve_left hne

/-- A digit is written as it is, and everything else begins with something that is no digit. -/
theorem reprChar_digit {quote c : Char} (hquote : quote ∈ ['\x27', '\x22']) (hc : c.toNat < 256) :
    if (digit 16 c).isSome then reprChar quote c = [c]
    else ∃ d text, reprChar quote c = d :: text ∧ digit 16 d = none := by
  have hall : ∀ n < 256, (if (digit 16 (Char.ofNat n)).isSome then
      reprChar quote (Char.ofNat n) == [Char.ofNat n]
      else (reprChar quote (Char.ofNat n)).head?.any fun d => (digit 16 d).isNone) = true := by
    simp only [List.mem_cons, List.not_mem_nil, or_false] at hquote
    rcases hquote with rfl | rfl <;> decide +kernel
  have h := hall c.toNat hc
  rw [Char.ofNat_toNat] at h
  split at h <;> rename_i hdigit
  · rw [if_pos hdigit]
    exact beq_iff_eq.mp h
  · rw [if_neg hdigit]
    obtain ⟨d, hhead, hd⟩ := (Option.any_eq_true ..).mp h
    obtain ⟨text, htext⟩ := List.head?_eq_some_iff.mp hhead
    exact ⟨d, text, htext, Option.isNone_iff_eq_none.mp hd⟩

/-! ### A whole string -/

/-- The reader is between two characters, and may be inside an escape that takes more digits. -/
inductive Between : Bool → Escape → Prop where
  | plain : Between false .plain
  | hex (n : Nat) : Between true (.hex (some n))

/-- How many characters become digits of the escape before them. -/
def absorbed : Bool → List Char → Nat
  | _, [] => 0
  | within, c :: s =>
      if within && (digit 16 c).isSome then absorbed true s + 1 else absorbed (hexEscaped c) s

variable {bytes : List Nat} {place : Escape} {within : Bool} {quote c : Char} {s : List Char}

theorem literalEnd_flush (h : Between within place) :
    literalEnd (bytes, place) = some (flush (bytes, place)) := by
  cases h <;> rfl

theorem between_behindChar (bytes : List Nat) (c : Char) :
    Between (hexEscaped c) (behindChar bytes c).2 := by
  rw [behindChar]
  split <;> rename_i h
  · rw [h]
    exact Between.hex _
  · rw [eq_false_of_ne_true h]
    exact Between.plain

theorem flush_behindChar (hc : c.toNat < 256) :
    flush (behindChar bytes c) = bytes ++ [c.toNat] := by
  rw [behindChar]
  split
  · exact congrArg (fun n => bytes ++ [n]) (Nat.mod_eq_of_lt hc)
  · rfl

theorem foldlM_plain (hquote : quote ∈ ['\x27', '\x22']) (hc : c.toNat < 256) (hne : c ≠ '\x22') :
    (reprChar quote c).foldlM literalStep (bytes, .plain) = some (behindChar bytes c) := by
  have happend := foldlM_literalStep_append bytes [] .plain (reprChar quote c)
  rw [List.append_nil, foldlM_reprChar hquote hc hne, Option.map_some] at happend
  rw [happend, behindChar, behindChar]
  split
  · exact congrArg (fun l => some (l, Escape.hex (some c.toNat))) (List.append_nil bytes)
  · rfl

/-- Where no digit follows, an escape has come to its end. -/
theorem foldlM_of_no_digit {d : Char} {text : List Char} (h : Between within place)
    (hd : digit 16 d = none) :
    (d :: text).foldlM literalStep (bytes, place) =
      (d :: text).foldlM literalStep (flush (bytes, place), .plain) := by
  cases h with
  | plain => rfl
  | hex n =>
      rw [List.foldlM_cons, List.foldlM_cons]
      have hstep : literalStep (bytes, .hex (some n)) d = plainStep (bytes ++ [n % 256]) d := by
        rw [literalStep, hd]
        rfl
      rw [hstep]
      rfl

/-- A character is read, or becomes a digit. -/
theorem foldlM_between (bytes : List Nat) (h : Between within place) (hquote : quote ∈ ['\x27', '\x22'])
    (hc : c.toNat < 256) (hne : c ≠ '\x22') :
    ∃ read, (reprChar quote c).foldlM literalStep (bytes, place) = some read ∧
      if within && (digit 16 c).isSome then
        Between true read.2 ∧ (flush read).length = (flush (bytes, place)).length
      else Between (hexEscaped c) read.2 ∧ flush read = flush (bytes, place) ++ [c.toNat] := by
  have hdigit := reprChar_digit hquote hc
  cases h with
  | plain =>
      exact ⟨_, foldlM_plain hquote hc hne, between_behindChar bytes c, flush_behindChar hc⟩
  | hex n =>
      rw [Bool.true_and]
      split at hdigit <;> rename_i hsome
      · obtain ⟨d, hd⟩ := Option.isSome_iff_exists.mp hsome
        have hstep : literalStep (bytes, .hex (some n)) c =
            some (bytes, .hex (some (16 * n + d))) := by
          rw [literalStep, hd]
          rfl
        simp only [if_pos hsome, hdigit, List.foldlM_cons, hstep]
        refine ⟨_, rfl, Between.hex _, ?_⟩
        show (bytes ++ [_]).length = (bytes ++ [_]).length
        rw [List.length_append, List.length_append, List.length_singleton, List.length_singleton]
      · obtain ⟨d, text, htext, hd⟩ := hdigit
        simp only [if_neg hsome]
        rw [htext, foldlM_of_no_digit (Between.hex n) hd, ← htext]
        exact ⟨_, foldlM_plain hquote hc hne, between_behindChar _ c, flush_behindChar hc⟩

/-- A string is read with a byte for each character that is not absorbed. -/
theorem foldlM_flatMap (bytes : List Nat) (hquote : quote ∈ ['\x27', '\x22'])
    (hbytes : ∀ c ∈ s, c.toNat < 256)
    (hne : '\x22' ∉ s) (h : Between within place) :
    ∃ read, (s.flatMap (reprChar quote)).foldlM literalStep (bytes, place) = some read ∧
      (∃ within', Between within' read.2) ∧
      (flush read).length + absorbed within s = (flush (bytes, place)).length + s.length ∧
      (absorbed within s = 0 → flush read = flush (bytes, place) ++ s.map Char.toNat) := by
  induction s generalizing bytes place within with
  | nil =>
      refine ⟨(bytes, place), rfl, ⟨within, h⟩, rfl, fun _ => ?_⟩
      rw [List.map_nil, List.append_nil]
  | cons c s ih =>
      have hnec : c ≠ '\x22' := fun heq => hne (heq ▸ List.mem_cons_self)
      obtain ⟨⟨bytes', place'⟩, hread, hplace⟩ :=
        foldlM_between bytes h hquote (hbytes c List.mem_cons_self) hnec
      rw [List.flatMap_cons, List.foldlM_append, hread, absorbed]
      split at hplace <;> rename_i hdigit
      · rw [if_pos hdigit]
        obtain ⟨read, hfold, hbetween, hlength, -⟩ :=
          ih bytes' (fun c hc => hbytes c (List.mem_cons_of_mem _ hc))
            (fun hmem => hne (List.mem_cons_of_mem _ hmem)) hplace.1
        refine ⟨read, hfold, hbetween, ?_, fun hzero => absurd hzero (Nat.succ_ne_zero _)⟩
        rw [hplace.2] at hlength
        rw [List.length_cons]
        omega
      · rw [if_neg hdigit]
        obtain ⟨read, hfold, hbetween, hlength, heq⟩ :=
          ih bytes' (fun c hc => hbytes c (List.mem_cons_of_mem _ hc))
            (fun hmem => hne (List.mem_cons_of_mem _ hmem)) hplace.1
        refine ⟨read, hfold, hbetween, ?_, fun hzero => ?_⟩
        · rw [hplace.2, List.length_append, List.length_singleton] at hlength
          rw [List.length_cons]
          omega
        · rw [heq hzero, hplace.2, List.map_cons, List.append_assoc, List.singleton_append]

/-- A double quote ends the string. -/
theorem foldlM_quote (bytes : List Nat) (h : Between within place) {text : List Char} :
    ('\x22' :: text).foldlM literalStep (bytes, place) = none := by
  rw [foldlM_of_no_digit h (by decide)]
  rfl

theorem literal_reprBody_eq_none_iff (hbytes : ∀ c ∈ s, c.toNat < 256) :
    literal (reprBody s) = none ↔ '\x22' ∈ s := by
  constructor
  · intro hnone
    by_contra hne
    obtain ⟨read, hfold, ⟨within, hbetween⟩, -, -⟩ :=
      foldlM_flatMap [] (reprQuote_mem s) hbytes hne Between.plain
    rw [literal, reprBody, hfold, Option.bind_some, literalEnd_flush hbetween] at hnone
    cases hnone
  · intro hmem
    obtain ⟨front, rest, rfl, hfront⟩ := List.eq_append_cons_of_mem hmem
    have hquote : reprQuote (front ++ '\x22' :: rest) = '\x27' := if_neg fun hboth => hboth.2 hmem
    obtain ⟨read, hfold, ⟨within, hbetween⟩, -, -⟩ :=
      foldlM_flatMap [] (show '\x27' ∈ ['\x27', '\x22'] by decide)
        (fun c hc => hbytes c (List.mem_append_left _ hc)) hfront Between.plain
    rw [literal, reprBody, hquote, List.flatMap_append, List.foldlM_append, hfold]
    exact congrArg (·.bind literalEnd) (foldlM_quote read.1 hbetween)

/-- No character that is written with `\x` stands before a digit. -/
def Apart (s : List Char) : Prop := s.IsChain fun c d => hexEscaped c = true → digit 16 d = none

instance : DecidablePred Apart := fun s =>
  inferInstanceAs (Decidable (s.IsChain fun c d => hexEscaped c = true → digit 16 d = none))

theorem absorbed_eq_zero_iff :
    absorbed within s = 0 ↔ (within = true → ∀ c ∈ s.head?, digit 16 c = none) ∧ Apart s := by
  induction s generalizing within with
  | nil => simp [absorbed, Apart]
  | cons c s ih =>
      rw [absorbed]
      have hchain : Apart (c :: s) ↔
          (hexEscaped c = true → ∀ d ∈ s.head?, digit 16 d = none) ∧ Apart s := by
        rw [Apart, List.isChain_cons]
        exact and_congr_left' ⟨fun h hc d hd => h d hd hc, fun h d hd hc => h hc d hd⟩
      rw [hchain, ← ih]
      cases within with
      | false => simp
      | true =>
          cases hdigit : digit 16 c with
          | none => simp [hdigit]
          | some d => simp [hdigit]

/-- A string is read as it was meant exactly if it has no double quote and no lost digits. -/
theorem literal_reprBody_iff (hbytes : ∀ c ∈ s, c.toNat < 256) :
    literal (reprBody s) = some (s.map Char.toNat) ↔ '\x22' ∉ s ∧ Apart s := by
  by_cases hmem : '\x22' ∈ s
  · rw [(literal_reprBody_eq_none_iff hbytes).mpr hmem]
    exact iff_of_false (fun h => by cases h) fun h => h.1 hmem
  · obtain ⟨read, hfold, ⟨within, hbetween⟩, hlength, heq⟩ :=
      foldlM_flatMap [] (reprQuote_mem s) hbytes hmem Between.plain
    have hliteral : literal (reprBody s) = some (flush read) := by
      rw [literal, reprBody, hfold, Option.bind_some, literalEnd_flush hbetween]
    have happart : absorbed false s = 0 ↔ Apart s := by
      rw [absorbed_eq_zero_iff]
      exact and_iff_right fun hfalse => absurd hfalse Bool.false_ne_true
    rw [hliteral, Option.some_inj, ← happart, and_iff_right hmem]
    constructor
    · intro hflush
      rw [hflush, List.length_map] at hlength
      have hzero : (flush (([] : List Nat), Escape.plain)).length = 0 := rfl
      omega
    · exact fun hzero => (heq hzero).trans (List.nil_append _)

/-! ### The table of literals -/

/-- The rows of a table, and the literals that are collected from it. -/
inductive Rows : List Char → List (List Char) → Prop where
  | nil : Rows [] []
  | empty {rest : List Char} {literals : List (List Char)} :
      Rows rest literals → Rows ('\x00' :: '\x00' :: rest) literals
  /-- A byte that is no part of the literal makes the length even. It may be missing at the end. -/
  | short {low high : Char} {item padding rest : List Char} {literals : List (List Char)} :
      littleEndian [low, high] = item.length → item ≠ [] → item.length < 32 →
      padding.length = item.length % 2 ∨ padding = [] ∧ rest = [] → Rows rest literals →
      Rows (low :: high :: (item ++ padding ++ rest)) (item :: literals)
  /-- The end of a long literal may be missing too. -/
  | long {low high : Char} {item rest : List Char} {literals : List (List Char)} :
      32 ≤ littleEndian [low, high] →
      item.length = littleEndian [low, high] + littleEndian [low, high] % 2 ∨
        item.length ≤ littleEndian [low, high] + littleEndian [low, high] % 2 ∧ rest = [] →
      Rows rest literals → Rows (low :: high :: (item ++ rest)) literals

theorem littleEndian_pair_eq_zero_iff {low high : Char} :
    littleEndian [low, high] = 0 ↔ low = '\x00' ∧ high = '\x00' := by
  have hnul : ∀ c : Char, c.toNat = 0 ↔ c = '\x00' := by
    intro c
    rw [show (0 : Nat) = '\x00'.toNat from rfl, Char.toNat_inj]
  rw [← hnul, ← hnul]
  simp only [littleEndian]
  omega

/-- The end of what is dropped is not there. -/
theorem take_append_drop_min {rest : List Char} {n : Nat} :
    (rest.take n).length = n ∨ (rest.take n).length ≤ n ∧ rest.drop n = [] := by
  rcases Nat.le_total n rest.length with h | h
  · exact .inl (List.length_take_of_le h)
  · exact .inr ⟨List.length_take_le n rest, List.drop_eq_nil_of_le h⟩

theorem literalsFrom_rows {code : List Char} {literals : List (List Char)}
    (h : Rows code literals) : literalsFrom code = .ok literals := by
  induction h with
  | nil => rw [literalsFrom]
  | empty _ ih =>
      rw [literalsFrom]
      exact ih
  | @short low high item padding rest literals hlength hne hshort hpadding _ ih =>
      have hpos : item.length ≠ 0 := fun h => hne (List.length_eq_zero_iff.mp h)
      have hdrop : (item ++ padding ++ rest).drop (item.length + item.length % 2) = rest := by
        rcases hpadding with hpadding | ⟨rfl, rfl⟩
        · exact List.drop_left' (by rw [List.length_append, hpadding])
        · rw [List.append_nil, List.append_nil]
          exact List.drop_eq_nil_of_le (Nat.le_add_right _ _)
      have htake : (item ++ padding ++ rest).take item.length = item := by
        rw [List.append_assoc]
        exact List.take_left' rfl
      rw [literalsFrom]
      simp only [hlength, if_neg hpos, if_pos hshort, hdrop, htake, ih, unpack, if_true]
      rfl
  | @long low high item rest literals hlong hlength _ ih =>
      have hdrop : (item ++ rest).drop (littleEndian [low, high] + littleEndian [low, high] % 2) =
          rest := by
        rcases hlength with hlength | ⟨hlength, rfl⟩
        · exact List.drop_left' hlength
        · rw [List.append_nil]
          exact List.drop_eq_nil_of_le hlength
      rw [literalsFrom]
      simp only [if_neg (show ¬ littleEndian [low, high] = 0 by omega),
        if_neg (show ¬ littleEndian [low, high] < 32 by omega), hdrop, ih]

theorem unpack_eq_ok_iff {n : Nat} {bytes found : List Char} :
    unpack n bytes = .ok found ↔ bytes.length = n ∧ found = bytes := by
  rw [unpack]
  split <;> rename_i h
  · exact ⟨fun heq => ⟨h, (Except.ok.inj heq).symm⟩, fun heq => congrArg Except.ok heq.2.symm⟩
  · exact iff_of_false (fun heq => by cases heq) fun heq => h heq.1

theorem rows_of_literalsFrom {code : List Char} {literals : List (List Char)}
    (h : literalsFrom code = .ok literals) : Rows code literals := by
  induction code using literalsFrom.induct generalizing literals with
  | case1 =>
      rw [literalsFrom] at h
      cases h
      exact Rows.nil
  | case2 c =>
      rw [literalsFrom] at h
      cases h
  | case3 low high rest length hzero =>
      rename_i ih
      obtain ⟨rfl, rfl⟩ := littleEndian_pair_eq_zero_iff.mp hzero
      rw [literalsFrom] at h
      exact Rows.empty (ih h)
  | case4 low high rest length hzero following hshort =>
      rename_i ih
      rw [literalsFrom] at h
      simp only [if_neg (show ¬ littleEndian [low, high] = 0 from hzero),
        if_pos (show littleEndian [low, high] < 32 from hshort)] at h
      obtain ⟨item, hitem, h⟩ := bind_eq_ok_iff.mp h
      obtain ⟨found, hfound, h⟩ := bind_eq_ok_iff.mp h
      cases h
      obtain ⟨hlength, rfl⟩ := unpack_eq_ok_iff.mp hitem
      have hfollowing : following = (rest.drop length).drop (length % 2) := List.drop_drop.symm
      have hrest :
          rest = rest.take length ++ (rest.drop length).take (length % 2) ++ following := by
        rw [hfollowing, List.append_assoc, List.take_append_drop, List.take_append_drop]
      have hne : rest.take length ≠ [] := by
        intro hnil
        rw [show rest.take (littleEndian [low, high]) = rest.take length from rfl, hnil] at hlength
        exact hzero hlength.symm
      have hpadding : ((rest.drop length).take (length % 2)).length = length % 2 ∨
          (rest.drop length).take (length % 2) = [] ∧ following = [] := by
        rcases Nat.lt_or_ge length rest.length with hlt | hge
        · refine .inl (List.length_take_of_le ?_)
          rw [List.length_drop]
          omega
        · have hnil := List.drop_eq_nil_of_le hge
          exact .inr ⟨by rw [hnil, List.take_nil], by rw [hfollowing, hnil, List.drop_nil]⟩
      have hrow := @Rows.short low high (rest.take length) ((rest.drop length).take (length % 2))
        following found hlength.symm hne (hlength.trans_lt hshort) (hlength.symm ▸ hpadding)
        (ih hfound)
      rw [← hrest] at hrow
      exact hrow
  | case5 low high rest length hzero following hlong =>
      rename_i ih
      rw [literalsFrom] at h
      simp only [if_neg (show ¬ littleEndian [low, high] = 0 from hzero),
        if_neg (show ¬ littleEndian [low, high] < 32 from hlong)] at h
      rw [← List.take_append_drop (length + length % 2) rest]
      exact Rows.long (Nat.le_of_not_lt hlong) take_append_drop_min (ih h)

/-- What is collected comes from the bytes of the table. -/
theorem Rows.mem {code : List Char} {literals : List (List Char)} (h : Rows code literals) :
    ∀ s ∈ literals, ∀ c ∈ s, c ∈ code := by
  induction h with
  | nil => exact fun s hs => absurd hs List.not_mem_nil
  | empty _ ih =>
      exact fun s hs c hc => List.mem_cons_of_mem _ (List.mem_cons_of_mem _ (ih s hs c hc))
  | short _ _ _ _ _ ih =>
      intro s hs c hc
      refine List.mem_cons_of_mem _ (List.mem_cons_of_mem _ ?_)
      rcases List.mem_cons.mp hs with rfl | hs
      · exact List.mem_append_left _ (List.mem_append_left _ hc)
      · exact List.mem_append_right _ (ih s hs c hc)
  | long _ _ _ ih =>
      exact fun s hs c hc => List.mem_cons_of_mem _ (List.mem_cons_of_mem _
        (List.mem_append_right _ (ih s hs c hc)))

theorem slice_slice {code : List Char} {start : Nat} (hstart : start + 4 ≤ 16) :
    slice (slice code 0 16) start 4 = slice code start 4 := by
  rw [slice, slice, slice, List.drop_zero, List.drop_take, List.take_take,
    Nat.min_eq_left (by omega)]

/-- A snapshot that is taken has the version, and a table of whole rows. -/
theorem rows_of_parseLiterals {code : List Char} {literals : List (List Char)}
    (h : parseLiterals code = .ok literals) :
    16 ≤ code.length ∧ littleEndian (slice code 0 4) = JERRY_SNAPSHOT_VERSION ∧
      Rows (code.drop (littleEndian (slice code 4 4) + 8)) literals := by
  obtain ⟨header, hheader, h⟩ := bind_eq_ok_iff.mp h
  obtain ⟨hlength, rfl⟩ := unpack_eq_ok_iff.mp hheader
  rw [slice_slice (by decide), slice_slice (by decide)] at h
  rw [slice, List.drop_zero, List.length_take] at hlength
  split at h <;> rename_i hversion
  · cases h
  · exact ⟨by omega, not_not.mp hversion, rows_of_literalsFrom h⟩

theorem parseLiterals_of_rows {code : List Char} {literals : List (List Char)}
    (hlength : 16 ≤ code.length)
    (hversion : littleEndian (slice code 0 4) = JERRY_SNAPSHOT_VERSION)
    (h : Rows (code.drop (littleEndian (slice code 4 4) + 8)) literals) :
    parseLiterals code = .ok literals := by
  have hheader : unpack 16 (slice code 0 16) = .ok (slice code 0 16) :=
    unpack_eq_ok_iff.mpr ⟨List.length_take_of_le hlength, rfl⟩
  refine bind_eq_ok_iff.mpr ⟨_, hheader, ?_⟩
  rw [slice_slice (by decide), slice_slice (by decide), if_neg (not_not.mpr hversion)]
  exact literalsFrom_rows h

/-- A snapshot is taken exactly if it has the version and a table of whole rows. -/
theorem parseLiterals_ok_iff {code : List Char} {literals : List (List Char)} :
    parseLiterals code = .ok literals ↔
      16 ≤ code.length ∧ littleEndian (slice code 0 4) = JERRY_SNAPSHOT_VERSION ∧
        Rows (code.drop (littleEndian (slice code 4 4) + 8)) literals :=
  ⟨rows_of_parseLiterals, fun ⟨hlength, hversion, h⟩ =>
    parseLiterals_of_rows hlength hversion h⟩

/-! ### The engine -/

/-- A string that the tool writes to the file. -/
def Collected (snapshots : List (List Char)) (s : List Char) : Prop :=
  s = "process".toList ∨
    ∃ snapshot ∈ snapshots, ∃ literals, parseLiterals snapshot = .ok literals ∧ s ∈ literals

variable {snapshots strings : List (List Char)}

theorem mem_magicStringSet (h : magicStringSet snapshots = .ok strings) :
    s ∈ strings ↔ Collected snapshots s := by
  obtain ⟨literals, hliterals, h⟩ := bind_eq_ok_iff.mp h
  cases h
  rw [List.mem_mergeSort, List.mem_dedup, List.mem_cons, mem_flatten_mapM hliterals, Collected]

theorem sorted_magicStringSet (h : magicStringSet snapshots = .ok strings) :
    strings.Pairwise (· < ·) := by
  obtain ⟨literals, -, h⟩ := bind_eq_ok_iff.mp h
  cases h
  have hsorted : (("process".toList :: literals.flatten).dedup.mergeSort before).Pairwise
      fun s t => before s t = true :=
    List.pairwise_mergeSort
      (fun a b c hab hbc => decide_eq_true
        (le_trans (of_decide_eq_true (p := a ≤ b) hab) (of_decide_eq_true (p := b ≤ c) hbc)))
      (fun a b => by rw [Bool.or_eq_true]; exact (le_total a b).imp decide_eq_true decide_eq_true) _
  have hnodup : (("process".toList :: literals.flatten).dedup.mergeSort before).Nodup :=
    List.nodup_mergeSort.mpr (List.nodup_dedup _)
  exact (hsorted.and hnodup).imp fun h => lt_of_le_of_ne (of_decide_eq_true h.1) h.2

/-- The bytes of a string that is collected. -/
theorem Collected.toNat_lt (hbytes : ∀ snapshot ∈ snapshots, ∀ c ∈ snapshot, c.toNat < 256)
    (h : Collected snapshots s) : ∀ c ∈ s, c.toNat < 256 := by
  rcases h with rfl | ⟨snapshot, hsnapshot, literals, hliterals, hs⟩
  · exact List.all_iff_forall_prop.mp (by decide)
  · obtain ⟨-, -, hrows⟩ := rows_of_parseLiterals hliterals
    exact fun c hc => hbytes snapshot hsnapshot c (List.mem_of_mem_drop (hrows.mem s hs c hc))

theorem magicString_isSome_iff {text : List Char} :
    (magicString text).isSome ↔ literal text ≠ none := by
  rw [magicString, Option.isSome_map, Option.isSome_iff_ne_none]

theorem magicString_eq_some_iff {text : List Char} {bytes : List Nat} :
    magicString text = some ⟨bytes, bytes.length⟩ ↔ literal text = some bytes := by
  rw [magicString, Option.map_eq_some_iff]
  constructor
  · rintro ⟨found, hfound, heq⟩
    rw [hfound, (MagicString.mk.inj heq).1]
  · intro h
    exact ⟨bytes, h, by rw [List.length_append, List.length_singleton, Nat.add_sub_cancel]⟩

/-- A snapshot with two literals, the second of which has to be escaped. -/
def twoLiterals : List Char :=
  "\x06\x00\x00\x00\x08\x00\x00\x00".toList ++ List.replicate 8 'c' ++
    "\x03\x00abc\x00\x02\x00\x01\x7f".toList

theorem parseLiterals_twoLiterals :
    parseLiterals twoLiterals = .ok ["abc".toList, "\x01\x7f".toList] := by
  refine parseLiterals_of_rows (by decide) (by decide) ?_
  have hsecond : Rows "\x02\x00\x01\x7f".toList ["\x01\x7f".toList] :=
    @Rows.short _ _ ['\x01', '\x7f'] [] [] [] rfl (by decide) (by decide) (.inl rfl) Rows.nil
  exact @Rows.short _ _ ['a', 'b', 'c'] ['\x00'] _ _ rfl (by decide) (by decide) (.inl rfl) hsecond

end Js2c

end IotJs

import Mathlib.Data.Bool.AllAny
import IotJs.Core.Js2cFiles
import Mathlib.Data.List.Basic
import Mathlib.Data.List.TakeWhile

/-!
# `IotJs.Proofs.Js2cArrays`: the printed arrays are read back

`printSource` prints ten elements in a line, and it leaves out the comma behind a NUL, which it
takes for the end. So a NUL at the end of another line runs two constants together.
`initializers_printSource_iff` says that the compiler reads back what was printed exactly if there
is no such line. `printSnapshot` always writes the comma, and `initializers_printSnapshot` has no
condition.

A line is read from a place where a constant has to come (`foldlM_join`). `readLines` puts the
lines together, and fails where a line follows one without a comma.
-/

set_option autoImplicit false

namespace IotJs

namespace Js2c

open CSource

/-! ### `regroup` -/

section regroup

variable {α : Type} {l : List α} {n : Nat}

theorem flatten_chunks (l : List α) (n k : Nat) :
    ((List.range k).map fun i => (l.drop (i * n)).take n).flatten = l.take (k * n) := by
  induction k with
  | zero => simp
  | succ k ih =>
      rw [List.range_succ, List.map_append, List.flatten_append, ih, List.map_singleton,
        List.flatten_singleton, Nat.succ_mul, List.take_add]

theorem le_ceil_mul (hn : 0 < n) (m : Nat) : m ≤ (m + n - 1) / n * n := by
  have hdiv := Nat.div_add_mod (m + n - 1) n
  have hmod := Nat.mod_lt (m + n - 1) hn
  rw [Nat.mul_comm] at hdiv
  omega

theorem flatten_regroup (hn : 0 < n) (l : List α) : (regroup l n).flatten = l := by
  rw [regroup, flatten_chunks]
  exact List.take_of_length_le (le_ceil_mul hn l.length)

theorem ne_nil_of_mem_regroup (hn : 0 < n) {line : List α} (h : line ∈ regroup l n) :
    line ≠ [] := by
  obtain ⟨i, hi, rfl⟩ := List.mem_map.mp h
  have hlt : (i + 1) * n ≤ l.length + n - 1 :=
    (Nat.le_div_iff_mul_le hn).mp (List.mem_range.mp hi)
  rw [Nat.succ_mul] at hlt
  intro hnil
  have hlength := congrArg List.length hnil
  rw [List.length_take, List.length_drop, List.length_nil] at hlength
  omega

theorem regroup_eq_nil_iff (hn : 0 < n) : regroup l n = [] ↔ l = [] := by
  constructor
  · intro h
    rw [← flatten_regroup hn l, h]
    rfl
  · rintro rfl
    rw [regroup, List.length_nil, Nat.zero_add, Nat.div_eq_of_lt (by omega)]
    rfl

end regroup

/-! ### One line -/

variable {p : Char → List Char} {line code rest word : List Char} {values : List Nat} {c : Char}

/-- The text of an element is a constant with its value, without blanks and commas. -/
structure Prints (p : Char → List Char) (c : Char) : Prop where
  value : constant (p c) = some c.toNat
  ne_nil : p c ≠ []
  solid : ∀ d ∈ p c, blank d = false ∧ d ≠ ','

theorem foldlM_inside (h : ∀ d ∈ word, blank d = false ∧ d ≠ ',') (read : List Char) :
    (word ++ rest).foldlM initStep (values, .inside read) =
      rest.foldlM initStep (values, .inside (read ++ word)) := by
  induction word generalizing read with
  | nil => rw [List.append_nil, List.nil_append]
  | cons d word ih =>
      obtain ⟨hblank, hcomma⟩ := h d List.mem_cons_self
      have hsolid : ¬ blank d = true := by
        rw [hblank]
        exact Bool.false_ne_true
      rw [List.cons_append, List.foldlM_cons, initStep, if_neg hsolid, if_neg hcomma, Option.bind_eq_bind, Option.bind_some,
        ih fun e he => h e (List.mem_cons_of_mem d he), List.append_assoc, List.singleton_append]

/-- A word where a constant has to come. -/
theorem foldlM_word (hne : word ≠ []) (h : ∀ d ∈ word, blank d = false ∧ d ≠ ',') :
    (word ++ rest).foldlM initStep (values, .start) =
      rest.foldlM initStep (values, .inside word) := by
  cases word with
  | nil => exact absurd rfl hne
  | cons d word =>
      obtain ⟨hblank, hcomma⟩ := h d List.mem_cons_self
      have hsolid : ¬ blank d = true := by
        rw [hblank]
        exact Bool.false_ne_true
      rw [List.cons_append, List.foldlM_cons, initStep, if_neg hsolid, if_neg hcomma, Option.bind_eq_bind, Option.bind_some,
        foldlM_inside fun e he => h e (List.mem_cons_of_mem d he)]
      rfl

theorem initStep_comma (h : constant word = some c.toNat) :
    initStep (values, .inside word) ',' = some (values ++ [c.toNat], .start) := by
  show (leave values word .start) = _
  rw [leave, h]
  rfl

theorem initStep_newline (h : constant word = some c.toNat) :
    initStep (values, .inside word) '\n' = some (values ++ [c.toNat], .behind) := by
  show (leave values word .behind) = _
  rw [leave, h]
  rfl

/-- The elements of a line, of which the last one is not over yet. -/
theorem foldlM_join (hline : ∀ d ∈ line ++ [c], Prints p d) :
    (join ((line ++ [c]).map p) ++ rest).foldlM initStep (values, .start) =
      rest.foldlM initStep (values ++ line.map Char.toNat, .inside (p c)) := by
  induction line generalizing values with
  | nil =>
      have hc := hline c List.mem_cons_self
      show ((p c ++ []) ++ rest).foldlM initStep _ = _
      rw [List.append_nil, foldlM_word hc.ne_nil hc.solid, List.map_nil, List.append_nil]
  | cons d line ih =>
      have hd := hline d List.mem_cons_self
      have hjoin : join ((d :: line ++ [c]).map p) =
          p d ++ ([',', ' '] ++ join ((line ++ [c]).map p)) := by
        cases line with
        | nil => simp [join, List.intercalate]
        | cons e line => simp [join, List.intercalate]
      rw [hjoin, List.append_assoc, foldlM_word hd.ne_nil hd.solid, List.append_assoc,
        List.cons_append, List.foldlM_cons, initStep_comma hd.value]
      refine (ih fun e he => hline e (List.mem_cons_of_mem d he)).trans ?_
      rw [List.append_assoc]
      rfl

theorem foldlM_indent {place : Place} (hplace : place = .start ∨ place = .behind) (n : Nat) :
    (List.replicate n ' ' ++ rest).foldlM initStep (values, place) =
      rest.foldlM initStep (values, place) := by
  induction n with
  | zero => rfl
  | succ n ih =>
      have hblank : initStep (values, place) ' ' = some (values, place) := by
        rcases hplace with rfl | rfl
        · rfl
        · rfl
      rw [List.replicate_succ, List.cons_append, List.foldlM_cons, hblank]
      exact ih

/-- A line with a comma behind its last element. -/
theorem foldlM_line (hne : line ≠ []) (hline : ∀ d ∈ line, Prints p d) :
    (writeLine (join (line.map p) ++ [',']) 1 ++ rest).foldlM initStep (values, .start) =
      rest.foldlM initStep (values ++ line.map Char.toNat, .start) := by
  obtain ⟨front, c, rfl⟩ := List.eq_nil_or_concat' line |>.resolve_left hne
  have hc := hline c (List.mem_append_right front List.mem_cons_self)
  rw [writeLine, List.append_assoc, List.append_assoc, foldlM_indent (.inl rfl), List.append_assoc,
    foldlM_join hline, List.singleton_append, List.foldlM_cons, initStep_comma hc.value,
    List.append_assoc, List.map_append]
  rfl

/-- A line without it. -/
theorem foldlM_lastLine (hne : line ≠ []) (hline : ∀ d ∈ line, Prints p d) :
    (writeLine (join (line.map p) ++ []) 1 ++ rest).foldlM initStep (values, .start) =
      rest.foldlM initStep (values ++ line.map Char.toNat, .behind) := by
  obtain ⟨front, c, rfl⟩ := List.eq_nil_or_concat' line |>.resolve_left hne
  have hc := hline c (List.mem_append_right front List.mem_cons_self)
  rw [writeLine, List.append_nil, List.append_assoc, List.append_assoc, foldlM_indent (.inl rfl),
    foldlM_join hline, List.singleton_append, List.foldlM_cons, initStep_newline hc.value,
    List.append_assoc, List.map_append]
  rfl

/-- No constant may come behind a line without a comma. -/
theorem foldlM_behind (hne : line ≠ []) (hline : ∀ d ∈ line, Prints p d) (tail : List Char) :
    (writeLine (join (line.map p) ++ tail) 1 ++ rest).foldlM initStep (values, .behind) = none := by
  cases line with
  | nil => exact absurd rfl hne
  | cons d line =>
      have hd := hline d List.mem_cons_self
      obtain ⟨e, word, hword⟩ := List.exists_cons_of_ne_nil hd.ne_nil
      obtain ⟨hblank, hcomma⟩ := hd.solid e (hword ▸ List.mem_cons_self)
      have hjoin : ∃ more, join ((d :: line).map p) = e :: more := by
        cases line with
        | nil => exact ⟨word, by simp [join, List.intercalate, hword]⟩
        | cons d' line =>
            exact ⟨word ++ ([',', ' '] ++ join ((d' :: line).map p)),
              by simp [join, List.intercalate, hword]⟩
      obtain ⟨more, hmore⟩ := hjoin
      rw [writeLine, List.append_assoc, List.append_assoc, foldlM_indent (.inr rfl), hmore,
        List.cons_append, List.cons_append, List.foldlM_cons, initStep,
        if_neg (by rw [hblank]; exact Bool.false_ne_true), if_neg hcomma]
      rfl

/-! ### All lines -/

/-- The line that is printed for some elements, with or without a comma at its end. -/
def lineText (p : Char → List Char) (comma : List Char → Bool) (line : List Char) : List Char :=
  writeLine (join (line.map p) ++ if comma line then [','] else []) 1

variable {comma : List Char → Bool} {lines : List (List Char)}

/-- Where the reader is behind the lines. -/
def placeAfter (comma : List Char → Bool) (lines : List (List Char)) : Place :=
  if lines.getLast?.all comma then .start else .behind

theorem foldlM_lineText (hne : line ≠ []) (hline : ∀ d ∈ line, Prints p d) :
    (lineText p comma line ++ rest).foldlM initStep (values, .start) =
      rest.foldlM initStep (values ++ line.map Char.toNat, placeAfter comma [line]) := by
  rw [lineText]
  cases hcomma : comma line with
  | true =>
      rw [if_pos rfl, foldlM_line hne hline, placeAfter, List.getLast?_singleton, Option.all_some,
        hcomma]
      rfl
  | false =>
      rw [if_neg Bool.false_ne_true, foldlM_lastLine hne hline, placeAfter, List.getLast?_singleton,
        Option.all_some, hcomma]
      rfl

/-- The lines can be read if each of them but the last ends in a comma. -/
theorem readLines (hne : ∀ line ∈ lines, line ≠ [])
    (hall : ∀ line ∈ lines, ∀ d ∈ line, Prints p d) :
    (lines.flatMap (lineText p comma)).foldlM initStep (values, .start) =
      if lines.dropLast.all comma then
        some (values ++ lines.flatten.map Char.toNat, placeAfter comma lines)
      else none := by
  induction lines generalizing values with
  | nil => simp [placeAfter]
  | cons line lines ih =>
      have hfirst := hne line List.mem_cons_self
      have hline := hall line List.mem_cons_self
      rw [List.flatMap_cons, foldlM_lineText hfirst hline]
      cases lines with
      | nil => simp [placeAfter]
      | cons line' lines =>
          cases hcomma : comma line with
          | true =>
              have hplace : placeAfter comma [line] = .start := by
                rw [placeAfter, List.getLast?_singleton, Option.all_some, hcomma]
                rfl
              rw [hplace, ih (fun l hl => hne l (List.mem_cons_of_mem line hl))
                fun l hl => hall l (List.mem_cons_of_mem line hl), List.dropLast_cons_cons,
                List.all_cons, hcomma, Bool.true_and, placeAfter, placeAfter,
                List.getLast?_cons_cons, List.flatten_cons (L := line' :: lines), List.map_append, List.append_assoc]
          | false =>
              have hplace : placeAfter comma [line] = .behind := by
                rw [placeAfter, List.getLast?_singleton, Option.all_some, hcomma]
                rfl
              have hnext := List.mem_cons_of_mem line (List.mem_cons_self (a := line') (l := lines))
              rw [hplace, List.flatMap_cons, lineText,
                foldlM_behind (hne line' hnext) (hall line' hnext), List.dropLast_cons_cons,
                List.all_cons, hcomma]
              rfl

theorem initializers_lines (hne : ∀ line ∈ lines, line ≠ [])
    (hall : ∀ line ∈ lines, ∀ d ∈ line, Prints p d) :
    initializers (lines.flatMap (lineText p comma)) =
      if lines.dropLast.all comma ∧ lines ≠ [] then some (lines.flatten.map Char.toNat)
      else none := by
  rw [initializers, readLines hne hall, List.nil_append]
  by_cases hcomma : lines.dropLast.all comma = true
  · rw [if_pos hcomma, Option.bind_some]
    cases lines with
    | nil => rfl
    | cons line lines =>
        have hfirst := hne line List.mem_cons_self
        have hvalues : (line :: lines).flatten.map Char.toNat ≠ [] := by
          intro hnil
          exact hfirst (List.append_eq_nil_iff.mp (List.map_eq_nil_iff.mp hnil)).1
        rw [if_pos ⟨hcomma, List.cons_ne_nil line lines⟩, placeAfter]
        split
        · exact if_neg hvalues
        · rfl
  · rw [if_neg hcomma, if_neg fun hboth => hcomma hboth.1]
    rfl

/-! ### Sources and snapshots -/

theorem prints_decimal (hc : c.toNat < 256) : Prints decimalText c := by
  have hall : ∀ n < 256, constant (Nat.toDigits 10 n) = some n ∧ Nat.toDigits 10 n ≠ [] ∧
      (Nat.toDigits 10 n).all (fun d => blank d = false ∧ d ≠ ',') = true := by
    decide +kernel
  obtain ⟨hvalue, hne, hsolid⟩ := hall c.toNat hc
  exact ⟨hvalue, hne, List.all_iff_forall_prop.mp hsolid⟩

theorem prints_hexadecimal (hc : c.toNat < 256) : Prints hexadecimalText c := by
  have hall : ∀ n < 256,
      let text := ['0', 'x'] ++ (if n < 16 then ['0'] else []) ++ Nat.toDigits 16 n
      constant text = some n ∧ text ≠ [] ∧
        text.all (fun d => blank d = false ∧ d ≠ ',') = true := by
    decide +kernel
  obtain ⟨hvalue, hne, hsolid⟩ := hall c.toNat hc
  exact ⟨hvalue, hne, List.all_iff_forall_prop.mp hsolid⟩

/-- The array of a source cannot be read if a line but the last ends in a NUL. -/
theorem initializers_printSource (hbytes : ∀ c ∈ code, c.toNat < 256) :
    initializers (printSource code) =
      if code ≠ [] ∧ ∀ line ∈ (regroup code 10).dropLast, line.getLast? ≠ some '\x00' then
        some (code.map Char.toNat)
      else none := by
  have hprints : ∀ line ∈ regroup code 10, ∀ d ∈ line, Prints decimalText d := by
    intro line hline d hd
    refine prints_decimal (hbytes d ?_)
    rw [← flatten_regroup (by decide : 0 < 10) code]
    exact List.mem_flatten.mpr ⟨line, hline, hd⟩
  have htext : printSource code = (regroup code 10).flatMap
      (lineText decimalText fun line => decide (line.getLast? ≠ some '\x00')) := by
    refine List.flatMap_congr fun line _ => ?_
    rw [sourceLine, lineText]
    simp only [decide_eq_true_eq]
  rw [htext, initializers_lines (fun line => ne_nil_of_mem_regroup (by decide)) hprints,
    flatten_regroup (by decide)]
  refine if_congr (and_comm.trans (and_congr ?_ ?_)) rfl rfl
  · exact not_congr (regroup_eq_nil_iff (by decide))
  · simp only [List.all_eq_true, decide_eq_true_eq]

/-- The array of a source is read back exactly if no line but the last ends in a NUL. -/
theorem initializers_printSource_iff (hbytes : ∀ c ∈ code, c.toNat < 256) :
    initializers (printSource code) = some (code.map Char.toNat) ↔
      code ≠ [] ∧ ∀ line ∈ (regroup code 10).dropLast, line.getLast? ≠ some '\x00' := by
  rw [initializers_printSource hbytes]
  split <;> rename_i h
  · exact iff_of_true rfl h
  · exact iff_of_false (fun hnone => by cases hnone) h

/-- A NUL that does not end a line is read back, with the one that ends the array. -/
theorem initializers_printSource_of_nul :
    initializers (printSource "a\x00b = 3;\n\n\x00".toList) =
      some ("a\x00b = 3;\n\n\x00".toList.map Char.toNat) :=
  (initializers_printSource_iff (List.all_iff_forall_prop.mp (by decide))).mpr
    ⟨by decide, by decide⟩

/-- The array of a snapshot is read back. -/
theorem initializers_printSnapshot (hbytes : ∀ c ∈ code, c.toNat < 256) (hne : code ≠ []) :
    initializers (printSnapshot code) = some (code.map Char.toNat) := by
  have hprints : ∀ line ∈ regroup code 8, ∀ d ∈ line, Prints hexadecimalText d := by
    intro line hline d hd
    refine prints_hexadecimal (hbytes d ?_)
    rw [← flatten_regroup (by decide : 0 < 8) code]
    exact List.mem_flatten.mpr ⟨line, hline, hd⟩
  have htext : printSnapshot code =
      (regroup code 8).flatMap (lineText hexadecimalText fun _ => true) := by
    refine List.flatMap_congr fun line _ => ?_
    rw [snapshotLine, lineText, if_pos rfl]
  rw [htext, initializers_lines (fun line => ne_nil_of_mem_regroup (by decide)) hprints,
    flatten_regroup (by decide)]
  refine if_pos ⟨List.all_eq_true.mpr fun _ _ => rfl, ?_⟩
  rw [ne_eq, regroup_eq_nil_iff (by decide)]
  exact hne

end Js2c

end IotJs

import IotJs.Core.HttpParser
import IotJs.Lib.Delimited
import IotJs.Proofs.HttpResponseHeaders

/-!
# `IotJs.Proofs.HttpHeaderSplitting`: the header lines read back

`_storeHeader` puts the names and the values of the fields into lines as they are: nothing is
escaped, and nothing is refused. A reader splits the lines at each CRLF, and a line at its first
`: `. `readAs_iff` says that it finds the fields exactly if no name and no value has a CRLF in it
and no name has a `: `. Then there is no empty line, which would end the block early, and
`addHeaders` enters each value under its own name.
-/

set_option autoImplicit false

namespace IotJs.OutgoingMessage

open Delimited

/-! ### Reading -/

/-- A line at its first `: `. -/
def readLine (line : List Char) : Option (String × String) :=
  (cut ':' ' ' line).map fun parts => (String.ofList parts.1, String.ofList parts.2)

def readLines : List (List Char) → Option (List (String × String))
  | [] => some []
  | line :: lines =>
    match readLine line, readLines lines with
    | some entry, some entries => some (entry :: entries)
    | _, _ => none

/-- The lines of a text. -/
def textLines (text : String) : List (List Char) := (pieces '\r' '\n' text.toList).1

/-- The fields of header lines. What stands behind the last CRLF is no line. -/
def decode (text : String) : Option (List (String × String)) :=
  if (pieces '\r' '\n' text.toList).2 = [] then readLines (textLines text) else none

/-- Fields that stay whole: no CRLF in a name or a value, and no `: ` in a name. -/
def Clean (entries : List (String × String)) : Prop :=
  ∀ entry ∈ entries, Free '\r' '\n' entry.1.toList ∧ Free '\r' '\n' entry.2.toList ∧
    Free ':' ' ' entry.1.toList

/-! ### Lines and characters -/

/-- The characters of a line, without its CRLF. -/
def lineChars (entry : String × String) : List Char :=
  entry.1.toList ++ ':' :: ' ' :: entry.2.toList

theorem lines_append (entries : List (String × String)) (text : String) :
    (entries.foldl (fun str entry => str ++ entry.1 ++ ": " ++ entry.2 ++ "\r\n") text).toList =
      text.toList ++ join '\r' '\n' (entries.map lineChars) := by
  induction entries generalizing text with
  | nil => exact (List.append_nil _).symm
  | cons entry entries ih =>
      rw [List.foldl_cons, ih]
      simp [join, lineChars, String.toList_append]

theorem toList_lines (entries : List (String × String)) :
    (lines entries).toList = join '\r' '\n' (entries.map lineChars) :=
  lines_append entries ""

/-- A CRLF in a line is one in its name or its value: what stands between has none of its
characters. -/
theorem free_lineChars_iff (entry : String × String) :
    Free '\r' '\n' (lineChars entry) ↔
      Free '\r' '\n' entry.1.toList ∧ Free '\r' '\n' entry.2.toList := by
  unfold lineChars
  generalize entry.1.toList = name
  constructor
  · intro hfree
    -- both are parts of the line
    have hvalue : entry.2.toList <:+: name ++ ':' :: ' ' :: entry.2.toList :=
      ((List.suffix_cons _ _).trans ((List.suffix_cons _ _).trans
        (List.suffix_append name _))).isInfix
    exact ⟨hfree.of_isInfix (List.prefix_append name _).isInfix, hfree.of_isInfix hvalue⟩
  · rintro ⟨hname, hvalue⟩
    induction name with
    | nil =>
        -- neither the colon nor the blank is a CR
        refine (free_cons_iff _ _).mpr ⟨fun h => absurd h.1 (by decide), ?_⟩
        exact (free_cons_iff _ _).mpr ⟨fun h => absurd h.1 (by decide), hvalue⟩
    | cons c name ih =>
        obtain ⟨hsep, hrest⟩ := (free_cons_iff c name).mp hname
        refine (free_cons_iff _ _).mpr ⟨?_, ih hrest⟩
        rintro ⟨hc, hhead⟩
        cases name with
        -- behind the last character of the name stands the colon
        | nil => exact absurd (Option.some.inj hhead) (by decide)
        | cons d name => exact hsep ⟨hc, hhead⟩

/-! ### What is read -/

/-- A line gives its field back if its name has no separator. -/
theorem readLine_lineChars {entry : String × String} (hfree : Free ':' ' ' entry.1.toList) :
    readLine (lineChars entry) = some entry := by
  unfold readLine lineChars
  rw [cut_append (by decide) hfree]
  show some (String.ofList entry.1.toList, String.ofList entry.2.toList) = _
  rw [String.ofList_toList, String.ofList_toList]

theorem readLine_eq_some {line : List Char} {entry : String × String}
    (h : readLine line = some entry) :
    line = lineChars entry ∧ Free ':' ' ' entry.1.toList := by
  obtain ⟨⟨name, value⟩, hcut, rfl⟩ := Option.map_eq_some_iff.mp h
  obtain ⟨hline, hfree⟩ := cut_eq_some hcut
  unfold lineChars
  rw [String.toList_ofList, String.toList_ofList]
  exact ⟨hline, hfree⟩

theorem readLines_eq_some_iff (read : List (List Char)) (entries : List (String × String)) :
    readLines read = some entries ↔
      read = entries.map lineChars ∧ ∀ entry ∈ entries, Free ':' ' ' entry.1.toList := by
  induction read generalizing entries with
  | nil =>
      cases entries with
      | nil => simp [readLines]
      | cons entry entries => simp [readLines]
  | cons line read ih =>
      constructor
      · intro h
        rw [readLines] at h
        cases hline : readLine line with
        | none => simp [hline] at h
        | some first =>
            cases hrest : readLines read with
            | none => simp [hline, hrest] at h
            | some others =>
                simp only [hline, hrest, Option.some.injEq] at h
                obtain ⟨hlines, hfrees⟩ := (ih others).mp hrest
                obtain ⟨hfirst, hfree⟩ := readLine_eq_some hline
                rw [← h, List.map_cons, ← hfirst, ← hlines]
                exact ⟨rfl, List.forall_mem_cons.mpr ⟨hfree, hfrees⟩⟩
      · rintro ⟨hlines, hfrees⟩
        cases entries with
        | nil => exact absurd hlines (List.cons_ne_nil _ _)
        | cons entry entries =>
            obtain ⟨hline, hread⟩ := List.cons.inj hlines
            obtain ⟨hfree, hothers⟩ := List.forall_mem_cons.mp hfrees
            have hrest := (ih entries).mpr ⟨hread, hothers⟩
            rw [readLines, hline, readLine_lineChars hfree, hrest]

/-- The lines of entries are these lines if none of them has a CRLF. -/
theorem pieces_lines_iff (entries : List (String × String)) :
    pieces '\r' '\n' (lines entries).toList = (entries.map lineChars, []) ↔
      ∀ entry ∈ entries, Free '\r' '\n' entry.1.toList ∧ Free '\r' '\n' entry.2.toList := by
  rw [toList_lines, pieces_join_iff (by decide), List.forall_mem_map]
  exact forall₂_congr fun entry _ => free_lineChars_iff entry

theorem decode_lines_iff (entries : List (String × String)) :
    decode (lines entries) = some entries ↔ Clean entries := by
  have hpieces := pieces_lines_iff entries
  unfold decode textLines
  constructor
  · intro h
    by_cases hrest : (pieces '\r' '\n' (lines entries).toList).2 = []
    · rw [if_pos hrest] at h
      obtain ⟨hlines, hnames⟩ := (readLines_eq_some_iff _ _).mp h
      have hfree := hpieces.mp (Prod.ext hlines hrest)
      exact fun entry hmem => ⟨(hfree entry hmem).1, (hfree entry hmem).2, hnames entry hmem⟩
    · rw [if_neg hrest] at h
      exact absurd h.symm (Option.some_ne_none _)
  · intro hclean
    rw [hpieces.mpr fun entry hmem => ⟨(hclean entry hmem).1, (hclean entry hmem).2.1⟩,
      if_pos rfl]
    exact (readLines_eq_some_iff _ _).mpr ⟨rfl, fun entry hmem => (hclean entry hmem).2.2⟩

theorem addHeaders_pairs (entries : List (String × String)) :
    IncomingMessage.addHeaders (entries.flatMap fun entry => [entry.1, entry.2]) =
      entries.map fun entry => (entry.1, some entry.2) := by
  induction entries with
  | nil => rfl
  | cons entry entries ih =>
      rw [List.flatMap_cons, List.map_cons, ← ih]
      rfl

/-- The text is read as the entries: no line ends the block before its end, and `addHeaders` enters
the entries. -/
structure ReadAs (text : String) (entries : List (String × String)) : Prop where
  decoded : decode text = some entries
  noEmpty : ∀ line ∈ textLines text, line ≠ []
  entered : (decode text).map (fun read =>
      IncomingMessage.addHeaders (read.flatMap fun entry => [entry.1, entry.2])) =
    some (entries.map fun entry => (entry.1, some entry.2))

/-- What `_storeHeader` puts behind the status line is read as the fields exactly if they are
clean. -/
theorem readAs_iff (s : OutgoingMessage) (statusLine : String) :
    ∃ text, (s._storeHeader statusLine)._header = some (statusLine ++ text) ∧
      (ReadAs text s._headers ↔ Clean s._headers) := by
  refine ⟨lines s._headers, rfl, fun hread => (decode_lines_iff _).mp hread.decoded,
    fun hclean => ?_⟩
  have hdecode := (decode_lines_iff s._headers).mpr hclean
  have hpieces := (pieces_lines_iff s._headers).mpr fun entry hmem =>
    ⟨(hclean entry hmem).1, (hclean entry hmem).2.1⟩
  refine ⟨hdecode, fun line hmem => ?_, ?_⟩
  · unfold textLines at hmem
    rw [hpieces] at hmem
    obtain ⟨entry, -, rfl⟩ := List.mem_map.mp hmem
    exact List.append_ne_nil_of_right_ne_nil _ (List.cons_ne_nil _ _)
  · rw [hdecode]
    exact congrArg some (addHeaders_pairs s._headers)

/-- A value that makes a field, and ends the block early, and a name that is read as another. -/
theorem fields_split :
    (∃ text, (((new .serverResponse).setHeader "a" "x\r\nb: y\r\n")._storeHeader "")._header =
        some ("" ++ text) ∧
      textLines text = ["a: x".toList, "b: y".toList, []] ∧
      decode text ≠ some ((new .serverResponse).setHeader "a" "x\r\nb: y\r\n")._headers) ∧
    ∃ text, (((new .serverResponse).setHeader "a: b" "x")._storeHeader "")._header =
        some ("" ++ text) ∧
      decode text = some [("a", "b: x")] ∧
      decode text ≠ some ((new .serverResponse).setHeader "a: b" "x")._headers :=
  ⟨⟨"a: x\r\nb: y\r\n\r\n", by decide, by decide, by decide⟩,
    "a: b: x\r\n", by decide, by decide, by decide⟩

end IotJs.OutgoingMessage

import IotJs.Core.HttpParser
import Mathlib.Data.List.TakeWhile

/-!
# `IotJs.Proofs.HttpParserHeaders`: header lines and urls are put together again

A header line reaches the wrapper in pieces. It is in one of three places while the message is
read: part of it in the arrays of the wrapper, then all of it, then (after a flush) in `_headers`
of the JavaScript object. `Gathered` says what stands where between two calls: `sent` lines in
`_headers`, the names and values after them in the arrays. The fields are asked for names before
they are asked for values, so the names are at most one ahead.

One lemma says what each callback does to `Gathered`; the flush in the middle of a name moves the
lines from the arrays to `_headers`, and the list of all lines stays the same. The url takes a way
of its own, and `takenUrl` is where it ends: `_url` as it is after the next flush. `Keeps` says
that the header callbacks leave the url's end, the status text and the messages built so far as
they were.
-/

set_option autoImplicit false

namespace IotJs

namespace HttpParser

variable {P : Platform}

/-- A header line, put together: its name and its value. -/
abbrev Line := Bytes × Bytes

/-- The lines as `makeHeader` writes them. -/
def flat (P : Platform) (lines : List Line) : List String :=
  lines.flatMap fun line => [P.bytesToString line.1, P.bytesToString line.2]

theorem flat_append (lines more : List Line) :
    flat P (lines ++ more) = flat P lines ++ flat P more := by
  unfold flat
  rw [List.flatMap_append]

theorem length_flat (lines : List Line) : (flat P lines).length = 2 * lines.length := by
  induction lines with
  | nil => rfl
  | cons line lines ih =>
      have hcons : flat P (line :: lines)
          = [P.bytesToString line.1, P.bytesToString line.2] ++ flat P lines := by
        unfold flat
        rw [List.flatMap_cons]
      rw [hcons, List.length_append, ih, List.length_cons, List.length_cons, List.length_nil,
        List.length_cons]
      omega

/-! ### Pieces -/

/-- A copy of data without a NUL is the data. -/
theorem stringAppend_clean (str data : Bytes) (clean : (0 : UInt8) ∉ data) :
    stringAppend str data = str ++ data := by
  have hcopied : data.takeWhile (· != 0) = data := by
    rw [List.takeWhile_eq_self_iff]
    intro byte hbyte
    have hne : byte ≠ 0 := fun hzero => clean (hzero ▸ hbyte)
    simp [hne]
  unfold stringAppend
  rw [hcopied]
  simp

@[simp] theorem run_nil (s : HttpParser) : run P s [] = .ok s := rfl

theorem run_cons (s : HttpParser) (event : Event) (events : List Event) :
    run P s (event :: events) = (step P s event).bind fun s' => run P s' events := by
  unfold run
  rw [List.foldlM_cons]
  rfl

theorem run_append (s : HttpParser) (first second : List Event) :
    run P s (first ++ second) = (run P s first).bind fun s' => run P s' second := by
  unfold run
  rw [List.foldlM_append]
  rfl

/-- The place `n - 1` is in the arrays when the names before it are. -/
theorem modifyLast_append (strings rest : List Bytes) (last : Bytes) (f : Bytes → Bytes) :
    modifyLast (strings ++ last :: rest) (strings.length + 1) f
      = .ok (strings ++ f last :: rest) := by
  have hroom : strings.length < (strings ++ last :: rest).length := by
    rw [List.length_append, List.length_cons]
    omega
  show (if strings.length < (strings ++ last :: rest).length
    then pure ((strings ++ last :: rest).modify strings.length f) else throw Fault.index) = _
  have hmodify : (strings ++ last :: rest).modify strings.length f = strings ++ f last :: rest := by
    rw [List.modify_eq_take_cons_drop hroom]
    simp
  rw [if_pos hroom, hmodify]
  rfl

/-! ### What the arrays hold -/

/-- The arrays hold the `names` and the `values`, and `_headers` holds the lines `sent`. -/
structure Gathered (P : Platform) (s : HttpParser) (sent : List Line)
    (names values : List Bytes) : Prop where
  fields_length : s.fields.length = headerMax
  values_length : s.values.length = headerMax
  n_fields : s.n_fields = names.length
  n_values : s.n_values = values.length
  room : names.length < headerMax
  ahead : values.length ≤ names.length
  fields : names <+: s.fields
  values : values <+: s.values
  headers : s._headers = flat P sent
  flushed : sent ≠ [] → s.flushed = true

/-- `_url` as it is after a flush. -/
def takenUrl (P : Platform) (s : HttpParser) : Option String :=
  if s.type = .request ∧ s.url ≠ [] then
    if P.bytesToString s.url = "" then s._url
    else some (s._url.getD "undefined" ++ P.bytesToString s.url)
  else s._url

/-- What the header callbacks leave as it was. The url itself may have gone to `_url`, with a
flush. -/
structure Keeps (P : Platform) (s s' : HttpParser) : Prop where
  type : s'.type = s.type
  status_msg : s'.status_msg = s.status_msg
  received : s'.received = s.received
  takenUrl : s'.takenUrl P = s.takenUrl P
  unflushed : s'.flushed = false → s.flushed = false ∧ s'.url = s.url ∧ s'._url = s._url

theorem Keeps.refl (s : HttpParser) : Keeps P s s :=
  ⟨rfl, rfl, rfl, rfl, fun h => ⟨h, rfl, rfl⟩⟩

theorem Keeps.trans {s s' s'' : HttpParser} (first : Keeps P s s') (second : Keeps P s' s'') :
    Keeps P s s'' where
  type := by rw [second.type, first.type]
  status_msg := by rw [second.status_msg, first.status_msg]
  received := by rw [second.received, first.received]
  takenUrl := by rw [second.takenUrl, first.takenUrl]
  unflushed := by
    intro hnot
    obtain ⟨hmid, hurl, h_url⟩ := second.unflushed hnot
    obtain ⟨hfirst, hurl', h_url'⟩ := first.unflushed hmid
    exact ⟨hfirst, by rw [hurl, hurl'], by rw [h_url, h_url']⟩

/-! ### The flush -/

/-- The header that is made of whole lines in the arrays. -/
theorem makeHeader_ok {s : HttpParser} {kept : List Line}
    (count : s.n_values = kept.length) (fields : kept.map Prod.fst <+: s.fields)
    (values : kept.map Prod.snd <+: s.values) :
    makeHeader P s = .ok (flat P kept) := by
  obtain ⟨names, hnames⟩ := fields
  obtain ⟨rest, hrest⟩ := values
  have hfields : s.n_values ≤ s.fields.length := by
    rw [count, ← hnames, List.length_append, List.length_map]
    omega
  have hvalues : s.n_values ≤ s.values.length := by
    rw [count, ← hrest, List.length_append, List.length_map]
    omega
  have hlines : (s.fields.zip s.values).take s.n_values = kept := by
    have hlength : (kept.map Prod.fst).length = (kept.map Prod.snd).length := by
      rw [List.length_map, List.length_map]
    have hzip : kept = (kept.map Prod.fst).zip (kept.map Prod.snd) := List.zip_of_prod rfl rfl
    rw [← hnames, ← hrest, List.zip_append hlength, ← hzip, count]
    exact List.take_left' rfl
  unfold makeHeader
  rw [hlines]
  simp only [hfields, hvalues]
  rfl

theorem flush_ok {s : HttpParser} {kept : List Line}
    (count : s.n_values = kept.length) (fields : kept.map Prod.fst <+: s.fields)
    (values : kept.map Prod.snd <+: s.values) :
    flush P s = .ok { s with
      _headers := s._headers ++ flat P kept
      _url := s.takenUrl P
      url := []
      flushed := true } := by
  unfold flush
  rw [makeHeader_ok count fields values]
  unfold takenUrl
  by_cases hurl : s.type = .request ∧ s.url ≠ []
  · simp only [if_pos hurl]
    -- `parserOnHeaders` tests the url, as a string, once more
    by_cases hempty : P.bytesToString s.url = ""
    · simp only [if_pos hempty]
      show Except.ok _ = _
      simp [parserOnHeaders, hempty]
    · simp only [if_neg hempty]
      show Except.ok _ = _
      simp [parserOnHeaders, hempty]
  · simp only [if_neg hurl]
    rfl

/-! ### The header callbacks -/

/-- A place of the arrays that is still free. -/
theorem exists_free {strings taken : List Bytes} (stands : taken <+: strings)
    (free : taken.length < strings.length) : ∃ last rest, strings = taken ++ last :: rest := by
  obtain ⟨rest, rfl⟩ := stands
  cases rest with
  | nil =>
      rw [List.append_nil] at free
      omega
  | cons last rest => exact ⟨last, rest, rfl⟩

/-- The place that was taken last. -/
theorem exists_last {strings taken : List Bytes} {last : Bytes}
    (stands : taken ++ [last] <+: strings) : ∃ rest, strings = taken ++ last :: rest := by
  obtain ⟨rest, rfl⟩ := stands
  exact ⟨rest, by rw [List.append_assoc]; rfl⟩

/-- Another string in one place: the array keeps its length, and the strings stand at its front. -/
theorem replaced {strings taken rest : List Bytes} {last : Bytes}
    (hstrings : strings = taken ++ last :: rest) (hlength : strings.length = headerMax)
    (str : Bytes) :
    (taken ++ str :: rest).length = headerMax ∧ taken ++ [str] <+: taken ++ str :: rest := by
  refine ⟨?_, rest, by rw [List.append_assoc]; rfl⟩
  rw [← hlength, hstrings, List.length_append, List.length_append, List.length_cons,
    List.length_cons]

/-- The first piece of a name. It takes the next place, after a flush when the arrays are full. -/
theorem openField_gathered {s : HttpParser} {sent kept : List Line}
    (between : Gathered P s sent (kept.map Prod.fst) (kept.map Prod.snd)) :
    ∃ s' sent' kept', openField P s = .ok s' ∧
      Gathered P s' sent' (kept'.map Prod.fst ++ [[]]) (kept'.map Prod.snd) ∧
      sent' ++ kept' = sent ++ kept ∧ Keeps P s s' ∧
      (s'.flushed = true → s.flushed = true ∨ headerMax ≤ kept.length + 1) := by
  have hcount : s.n_fields = kept.length := by
    rw [between.n_fields, List.length_map]
  have hroom : kept.length < headerMax := by
    have h := between.room
    rwa [List.length_map] at h
  by_cases hfull : kept.length + 1 = headerMax
  · -- the lines of the arrays are flushed, and the name takes the first place
    have hflush := @flush_ok P { s with n_fields := s.n_fields + 1 } kept
      (by rw [← List.length_map (f := Prod.snd)]; exact between.n_values)
      between.fields between.values
    obtain ⟨last, rest, hfields⟩ := exists_free (List.nil_prefix (l := s.fields))
      (by rw [between.fields_length]; decide)
    have hopen : modifyLast s.fields 1 (fun _ => []) = .ok ([] :: rest) := by
      rw [hfields]
      exact modifyLast_append [] rest last _
    refine ⟨{ s with
        fields := [] :: rest, n_fields := 1, n_values := 0, url := [], flushed := true,
        _headers := s._headers ++ flat P kept, _url := s.takenUrl P }, sent ++ kept, [], ?_, ?_,
      List.append_nil _, ?_, fun _ => Or.inr (by omega)⟩
    · unfold openField
      simp only [hcount, hfull, if_true] at hflush ⊢
      rw [hflush]
      show (modifyLast s.fields 1 fun _ => []).bind _ = _
      rw [hopen]
      rfl
    · have hreplaced := replaced hfields between.fields_length []
      refine ⟨hreplaced.1, between.values_length, rfl, rfl, ?_, Nat.zero_le _, hreplaced.2,
        List.nil_prefix, ?_, fun _ => rfl⟩
      · decide
      · show s._headers ++ flat P kept = flat P (sent ++ kept)
        rw [between.headers, flat_append]
    · refine ⟨rfl, rfl, rfl, ?_, fun h => nomatch (show true = false from h)⟩
      show (if s.type = .request ∧ ([] : Bytes) ≠ [] then _ else s.takenUrl P) = _
      rw [if_neg fun h => h.2 rfl]
  · -- there is a place left
    have hfree : (kept.map Prod.fst).length < s.fields.length := by
      rw [List.length_map, between.fields_length]
      exact hroom
    obtain ⟨last, rest, hfields⟩ := exists_free between.fields hfree
    have hopen : modifyLast s.fields (kept.length + 1) (fun _ => [])
        = .ok (kept.map Prod.fst ++ [] :: rest) := by
      have h := modifyLast_append (kept.map Prod.fst) rest last fun _ => []
      rwa [← hfields, List.length_map] at h
    refine ⟨{ s with
        fields := kept.map Prod.fst ++ [] :: rest, n_fields := kept.length + 1 },
      sent, kept, ?_, ?_, rfl, ⟨rfl, rfl, rfl, rfl, fun h => ⟨h, rfl, rfl⟩⟩, Or.inl⟩
    · unfold openField
      simp only [hcount, hfull, if_false]
      show (modifyLast s.fields (kept.length + 1) fun _ => []).bind _ = _
      rw [hopen]
      rfl
    · have hreplaced := replaced hfields between.fields_length []
      refine ⟨hreplaced.1, between.values_length, ?_, between.n_values, ?_, ?_, hreplaced.2,
        between.values, between.headers, between.flushed⟩
      · show kept.length + 1 = _
        rw [List.length_append, List.length_map, List.length_singleton]
      · rw [List.length_append, List.length_map, List.length_singleton]
        omega
      · rw [List.length_append, List.length_map, List.length_map, List.length_singleton]
        omega

/-- A piece of a name whose place is taken. -/
theorem appendField_gathered {s : HttpParser} {sent : List Line} {names values : List Bytes}
    {name data : Bytes} (gathered : Gathered P s sent (names ++ [name]) values)
    (naming : values.length = names.length) (clean : (0 : UInt8) ∉ data) :
    ∃ s', on_header_field P s data = .ok s' ∧
      Gathered P s' sent (names ++ [name ++ data]) values ∧ Keeps P s s' ∧
      s'.flushed = s.flushed := by
  obtain ⟨rest, hfields⟩ := exists_last gathered.fields
  have hlength : (names ++ [name]).length = names.length + 1 := List.length_append
  have hcount : s.n_fields = names.length + 1 := by
    rw [gathered.n_fields, hlength]
  have hvalues : s.n_values = names.length := by
    rw [gathered.n_values, naming]
  have happend : modifyLast s.fields (names.length + 1) (stringAppend · data)
      = .ok (names ++ (name ++ data) :: rest) := by
    rw [hfields, modifyLast_append names rest name _, stringAppend_clean name data clean]
  refine ⟨{ s with fields := names ++ (name ++ data) :: rest }, ?_, ?_,
    ⟨rfl, rfl, rfl, rfl, fun h => ⟨h, rfl, rfl⟩⟩, rfl⟩
  · -- a name is being read, so the piece is no first one
    have hopen : ¬ names.length + 1 = names.length := by omega
    unfold on_header_field
    simp only [hcount, hvalues, hopen, if_false, pure_bind, if_true]
    rw [happend]
    rfl
  · have hreplaced := replaced hfields gathered.fields_length (name ++ data)
    refine ⟨hreplaced.1, gathered.values_length, ?_, gathered.n_values, ?_, ?_, hreplaced.2,
      gathered.values, gathered.headers, gathered.flushed⟩
    · rw [List.length_append, List.length_singleton]
      exact hcount
    · have h := gathered.room
      rw [hlength] at h
      rw [List.length_append, List.length_singleton]
      exact h
    · rw [List.length_append, naming]
      omega

/-- After the place is taken, the first piece is treated as any other. -/
theorem on_header_field_open {s s' : HttpParser} {data : Bytes} (between : s.n_fields = s.n_values)
    (opened : openField P s = .ok s') (naming : s'.n_fields = s'.n_values + 1) :
    on_header_field P s data = on_header_field P s' data := by
  -- in `s'` the counts differ already, so no further place is taken
  have hnot : ¬ s'.n_fields = s'.n_values := by omega
  unfold on_header_field
  simp only [between, if_true, opened, hnot, if_false]
  rfl

/-- The first piece of a name. -/
theorem firstField_gathered {s : HttpParser} {sent kept : List Line} {data : Bytes}
    (between : Gathered P s sent (kept.map Prod.fst) (kept.map Prod.snd))
    (clean : (0 : UInt8) ∉ data) :
    ∃ s' sent' kept', on_header_field P s data = .ok s' ∧
      Gathered P s' sent' (kept'.map Prod.fst ++ [data]) (kept'.map Prod.snd) ∧
      sent' ++ kept' = sent ++ kept ∧ Keeps P s s' ∧
      (s'.flushed = true → s.flushed = true ∨ headerMax ≤ kept.length + 1) := by
  obtain ⟨s₁, sent', kept', hopen, hgathered, hlines, hkeeps, hflushed⟩ :=
    openField_gathered between
  have heven : (kept'.map Prod.snd).length = (kept'.map Prod.fst).length := by
    rw [List.length_map, List.length_map]
  obtain ⟨s₂, happend, hgathered₂, hkeeps₂, hflushed₂⟩ :=
    appendField_gathered hgathered heven clean
  have hcount : s.n_fields = s.n_values := by
    rw [between.n_fields, between.n_values, List.length_map, List.length_map]
  have hnaming : s₁.n_fields = s₁.n_values + 1 := by
    rw [hgathered.n_fields, hgathered.n_values, List.length_append, List.length_map,
      List.length_map, List.length_singleton]
  refine ⟨s₂, sent', kept', ?_, hgathered₂, hlines, hkeeps.trans hkeeps₂, ?_⟩
  · rw [on_header_field_open hcount hopen hnaming, happend]
  · rw [hflushed₂]
    exact hflushed

/-- The first piece of a value takes the next place. -/
theorem openValue_gathered {s : HttpParser} {sent : List Line} {names values : List Bytes}
    (gathered : Gathered P s sent names values) (naming : names.length = values.length + 1) :
    ∃ s', openValue s = .ok s' ∧ Gathered P s' sent names (values ++ [[]]) ∧ Keeps P s s' ∧
      s'.flushed = s.flushed := by
  have hfree : values.length < s.values.length := by
    have h := gathered.room
    rw [gathered.values_length]
    omega
  obtain ⟨last, rest, hvalues⟩ := exists_free gathered.values hfree
  have hopen : modifyLast s.values (values.length + 1) (fun _ => [])
      = .ok (values ++ [] :: rest) := by
    rw [hvalues]
    exact modifyLast_append values rest last _
  refine ⟨{ s with values := values ++ [] :: rest, n_values := values.length + 1 }, ?_, ?_,
    ⟨rfl, rfl, rfl, rfl, fun h => ⟨h, rfl, rfl⟩⟩, rfl⟩
  · unfold openValue
    simp only [gathered.n_values]
    rw [hopen]
    rfl
  · have hreplaced := replaced hvalues gathered.values_length []
    refine ⟨gathered.fields_length, hreplaced.1, gathered.n_fields, ?_, gathered.room, ?_,
      gathered.fields, hreplaced.2, gathered.headers, gathered.flushed⟩
    · rw [List.length_append, List.length_singleton]
    · rw [List.length_append, List.length_singleton]
      omega

/-- A further piece of a value. -/
theorem appendValue_gathered {s : HttpParser} {sent : List Line} {names values : List Bytes}
    {value data : Bytes} (gathered : Gathered P s sent names (values ++ [value]))
    (between : names.length = values.length + 1) (clean : (0 : UInt8) ∉ data) :
    ∃ s', on_header_value s data = .ok s' ∧
      Gathered P s' sent names (values ++ [value ++ data]) ∧ Keeps P s s' ∧
      s'.flushed = s.flushed := by
  obtain ⟨rest, hvalues⟩ := exists_last gathered.values
  have hlength : (values ++ [value]).length = values.length + 1 := List.length_append
  have hcount : s.n_values = values.length + 1 := by
    rw [gathered.n_values, hlength]
  have happend : modifyLast s.values (values.length + 1) (stringAppend · data)
      = .ok (values ++ (value ++ data) :: rest) := by
    rw [hvalues, modifyLast_append values rest value _, stringAppend_clean value data clean]
  refine ⟨{ s with values := values ++ (value ++ data) :: rest }, ?_, ?_,
    ⟨rfl, rfl, rfl, rfl, fun h => ⟨h, rfl, rfl⟩⟩, rfl⟩
  · have heven : s.n_fields = values.length + 1 := by
      rw [gathered.n_fields, between]
    unfold on_header_value
    simp only [heven, hcount, ne_eq, not_true, if_false, pure_bind, if_true]
    rw [happend]
    rfl
  · have hreplaced := replaced hvalues gathered.values_length (value ++ data)
    refine ⟨gathered.fields_length, hreplaced.1, gathered.n_fields, ?_, gathered.room, ?_,
      gathered.fields, hreplaced.2, gathered.headers, gathered.flushed⟩
    · rw [List.length_append, List.length_singleton]
      exact hcount
    · rw [List.length_append, List.length_singleton]
      omega

/-- After the place is taken, the first piece is treated as any other. -/
theorem on_header_value_open {s s' : HttpParser} {data : Bytes} (naming : s.n_fields ≠ s.n_values)
    (opened : openValue s = .ok s') (between : s'.n_fields = s'.n_values) :
    on_header_value s data = on_header_value s' data := by
  unfold on_header_value
  simp only [naming, ne_eq, not_false_eq_true, if_true, opened, between, not_true, if_false]
  rfl

/-- The first piece of a value. -/
theorem firstValue_gathered {s : HttpParser} {sent : List Line} {names values : List Bytes}
    {data : Bytes} (gathered : Gathered P s sent names values)
    (naming : names.length = values.length + 1) (clean : (0 : UInt8) ∉ data) :
    ∃ s', on_header_value s data = .ok s' ∧ Gathered P s' sent names (values ++ [data]) ∧
      Keeps P s s' ∧ s'.flushed = s.flushed := by
  obtain ⟨s₁, hopen, hgathered, hkeeps, hflushed⟩ := openValue_gathered gathered naming
  obtain ⟨s₂, happend, hgathered₂, hkeeps₂, hflushed₂⟩ :=
    appendValue_gathered hgathered naming clean
  have hnot : s.n_fields ≠ s.n_values := by
    rw [gathered.n_fields, gathered.n_values]
    omega
  have heven : s₁.n_fields = s₁.n_values := by
    rw [hgathered.n_fields, hgathered.n_values, List.length_append, List.length_singleton, naming]
  refine ⟨s₂, ?_, hgathered₂, hkeeps.trans hkeeps₂, hflushed₂.trans hflushed⟩
  rw [on_header_value_open hnot hopen heven, happend]

/-! ### A header line -/

/-- The pieces of a name after the first. -/
theorem run_fieldPieces {s : HttpParser} {sent : List Line} {names values : List Bytes}
    {name : Bytes} {pieces : List Bytes} (gathered : Gathered P s sent (names ++ [name]) values)
    (naming : values.length = names.length) (clean : Clean pieces) :
    ∃ s', run P s (pieces.map .headerField) = .ok s' ∧
      Gathered P s' sent (names ++ [name ++ pieces.flatten]) values ∧ Keeps P s s' ∧
      s'.flushed = s.flushed := by
  induction pieces generalizing s name with
  | nil =>
      refine ⟨s, rfl, ?_, Keeps.refl s, rfl⟩
      rw [List.flatten_nil, List.append_nil]
      exact gathered
  | cons piece pieces ih =>
      obtain ⟨s₁, hstep, hgathered, hkeeps, hflushed⟩ :=
        appendField_gathered gathered naming (clean piece List.mem_cons_self)
      obtain ⟨s₂, hrun, hgathered₂, hkeeps₂, hflushed₂⟩ :=
        ih hgathered fun p hp => clean p (List.mem_cons_of_mem _ hp)
      refine ⟨s₂, ?_, ?_, hkeeps.trans hkeeps₂, hflushed₂.trans hflushed⟩
      · rw [List.map_cons, run_cons]
        show (on_header_field P s piece).bind _ = _
        rw [hstep]
        exact hrun
      · rw [List.flatten_cons, ← List.append_assoc]
        exact hgathered₂

/-- The pieces of a value after the first. -/
theorem run_valuePieces {s : HttpParser} {sent : List Line} {names values : List Bytes}
    {value : Bytes} {pieces : List Bytes} (gathered : Gathered P s sent names (values ++ [value]))
    (between : names.length = values.length + 1) (clean : Clean pieces) :
    ∃ s', run P s (pieces.map .headerValue) = .ok s' ∧
      Gathered P s' sent names (values ++ [value ++ pieces.flatten]) ∧ Keeps P s s' ∧
      s'.flushed = s.flushed := by
  induction pieces generalizing s value with
  | nil =>
      refine ⟨s, rfl, ?_, Keeps.refl s, rfl⟩
      rw [List.flatten_nil, List.append_nil]
      exact gathered
  | cons piece pieces ih =>
      obtain ⟨s₁, hstep, hgathered, hkeeps, hflushed⟩ :=
        appendValue_gathered gathered between (clean piece List.mem_cons_self)
      obtain ⟨s₂, hrun, hgathered₂, hkeeps₂, hflushed₂⟩ :=
        ih hgathered fun p hp => clean p (List.mem_cons_of_mem _ hp)
      refine ⟨s₂, ?_, ?_, hkeeps.trans hkeeps₂, hflushed₂.trans hflushed⟩
      · rw [List.map_cons, run_cons]
        show (on_header_value s piece).bind _ = _
        rw [hstep]
        exact hrun
      · rw [List.flatten_cons, ← List.append_assoc]
        exact hgathered₂

/-- Between two header lines: the `lines` so far are in `_headers` and the arrays, in this
order. -/
def Between (P : Platform) (s : HttpParser) (lines : List Line) : Prop :=
  ∃ sent kept, sent ++ kept = lines ∧ Gathered P s sent (kept.map Prod.fst) (kept.map Prod.snd)

end HttpParser

/-- The line, put together. -/
def Header.line (header : Header) : HttpParser.Line :=
  (header.field.flatten, header.value.flatten)

namespace HttpParser

variable {P : Platform}

/-- A header line is put after the lines before it, whatever its pieces are. -/
theorem run_header {s : HttpParser} {lines : List Line} (header : Header)
    (between : Between P s lines) :
    ∃ s', run P s header.events = .ok s' ∧ Between P s' (lines ++ [header.line]) ∧
      Keeps P s s' ∧ (s'.flushed = true → s.flushed = true ∨ headerMax ≤ lines.length + 1) := by
  obtain ⟨sent, kept, rfl, hgathered⟩ := between
  obtain ⟨name, names, hfield⟩ := List.exists_cons_of_ne_nil header.field_pieces
  obtain ⟨value, values, hvalue⟩ := List.exists_cons_of_ne_nil header.value_pieces
  have hfieldClean := header.field_clean
  have hvalueClean := header.value_clean
  rw [hfield] at hfieldClean
  rw [hvalue] at hvalueClean
  -- the name: its first piece, which may flush, and the others
  obtain ⟨s₁, sent', kept', hfirst, hgathered₁, hlines, hkeeps₁, hflushed₁⟩ :=
    firstField_gathered hgathered (hfieldClean name List.mem_cons_self)
  have heven : (kept'.map Prod.snd).length = (kept'.map Prod.fst).length := by
    rw [List.length_map, List.length_map]
  obtain ⟨s₂, hnames, hgathered₂, hkeeps₂, hflushed₂⟩ :=
    run_fieldPieces hgathered₁ heven fun p hp => hfieldClean p (List.mem_cons_of_mem _ hp)
  -- the value
  have hahead : (kept'.map Prod.fst ++ [name ++ names.flatten]).length
      = (kept'.map Prod.snd).length + 1 := by
    rw [List.length_append, List.length_map, List.length_map, List.length_singleton]
  obtain ⟨s₃, hfirstValue, hgathered₃, hkeeps₃, hflushed₃⟩ :=
    firstValue_gathered hgathered₂ hahead (hvalueClean value List.mem_cons_self)
  obtain ⟨s₄, hvalues, hgathered₄, hkeeps₄, hflushed₄⟩ :=
    run_valuePieces hgathered₃ hahead fun p hp => hvalueClean p (List.mem_cons_of_mem _ hp)
  refine ⟨s₄, ?_, ⟨sent', kept' ++ [header.line], ?_, ?_⟩,
    ((hkeeps₁.trans hkeeps₂).trans hkeeps₃).trans hkeeps₄, ?_⟩
  · unfold Header.events
    rw [run_append, hfield, List.map_cons, run_cons]
    show ((on_header_field P s name).bind _).bind _ = _
    rw [hfirst]
    show (run P s₁ (names.map .headerField)).bind _ = _
    rw [hnames, hvalue, List.map_cons]
    show run P s₂ (.headerValue value :: values.map .headerValue) = _
    rw [run_cons]
    show (on_header_value s₂ value).bind _ = _
    rw [hfirstValue]
    exact hvalues
  · rw [← List.append_assoc, hlines]
  · have hline : header.line = (name ++ names.flatten, value ++ values.flatten) := by
      unfold Header.line
      rw [hfield, hvalue, List.flatten_cons, List.flatten_cons]
    rw [hline, List.map_append, List.map_append]
    exact hgathered₄
  · intro hflushed
    rw [hflushed₄, hflushed₃, hflushed₂] at hflushed
    refine (hflushed₁ hflushed).imp_right fun hfull => ?_
    rw [List.length_append]
    omega

/-- Any number of header lines. -/
theorem run_headers {s : HttpParser} {lines : List Line} (headers : List Header)
    (between : Between P s lines) :
    ∃ s', run P s (headers.flatMap Header.events) = .ok s' ∧
      Between P s' (lines ++ headers.map Header.line) ∧ Keeps P s s' ∧
      (s'.flushed = true → s.flushed = true ∨ headerMax ≤ lines.length + headers.length) := by
  induction headers generalizing s lines with
  | nil =>
      refine ⟨s, rfl, ?_, Keeps.refl s, Or.inl⟩
      rw [List.map_nil, List.append_nil]
      exact between
  | cons header headers ih =>
      obtain ⟨s₁, hrun₁, hbetween₁, hkeeps₁, hflushed₁⟩ := run_header header between
      obtain ⟨s₂, hrun₂, hbetween₂, hkeeps₂, hflushed₂⟩ := ih hbetween₁
      refine ⟨s₂, ?_, ?_, hkeeps₁.trans hkeeps₂, ?_⟩
      · rw [List.flatMap_cons, run_append, hrun₁]
        exact hrun₂
      · rw [List.map_cons, ← List.singleton_append, ← List.append_assoc]
        exact hbetween₂
      · intro hflushed
        rw [List.length_cons]
        rcases hflushed₂ hflushed with hbefore | hfull
        · exact (hflushed₁ hbefore).imp_right fun hfull => by omega
        · rw [List.length_append, List.length_singleton] at hfull
          exact Or.inr (by omega)

end HttpParser

end IotJs

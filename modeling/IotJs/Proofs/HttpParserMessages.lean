import IotJs.Proofs.HttpParserHeaders

/-!
# `IotJs.Proofs.HttpParserMessages`: messages on one parser

`built` is the message that `parserOnHeadersComplete` builds at the end of the header part, and
`run_message` says what reading a whole message does from any state between two messages. The
state that one message leaves to the next has two parts that are not its own: the lines of its
trailers, which are in the arrays or in `_headers`, and `_url`, which the flush of a request's
url fills and nothing empties (the source empties `parser.url`, a field that nothing reads).

A parser starts `Fresh`, without either. So the first message is built of its own parts
(`first_message`). `messages_isolated_iff` says for which sequences of messages all of them are:
no message but the last has a trailer, and no request but the last has `HEADER_MAX` header lines.
The condition is exact, because a message that breaks it spoils the one after it: a trailer makes
the header lines too many (`spoiled_headers`), a flushed url makes the url too long
(`spoiled_url`).
-/

set_option autoImplicit false

namespace IotJs

namespace HttpParser

variable {P : Platform}

/-! ### The end of the header part -/

/-- The url that `parserOnHeadersComplete` takes when nothing was flushed. -/
def directUrl (P : Platform) (s : HttpParser) : Option String :=
  if s.type = .request then
    if P.bytesToString s.url = "" then s._url else some (P.bytesToString s.url)
  else s._url

/-- The message that is built at the end of the header part, from a state and the lines. -/
def built (P : Platform) (s : HttpParser) (code : Nat) (flushed : Bool) (lines : List Line) :
    IncomingMessage :=
  let url := if flushed then s.takenUrl P else s.directUrl P
  match s.type with
  | .request =>
    { url := url, headers := flat P lines, method := some code, statusCode := none,
      statusMessage := none }
  | .response =>
    { url := url, headers := flat P lines, method := none, statusCode := some code,
      statusMessage := some (P.bytesToString s.status_msg) }

/-- Empty arrays and an empty `_headers`: no lines. -/
theorem Between.of_empty {s : HttpParser} (fields : s.fields.length = headerMax)
    (values : s.values.length = headerMax) (n_fields : s.n_fields = 0) (n_values : s.n_values = 0)
    (headers : s._headers = []) : Between P s [] :=
  ⟨[], [], rfl, fields, values, n_fields, n_values, by decide, Nat.le_refl _, List.nil_prefix,
    List.nil_prefix, headers, fun h => absurd rfl h⟩

/-- The end of the header part after a flush: the rest of the lines is flushed as well. -/
theorem headersComplete_flushed {s : HttpParser} {lines : List Line} (code : Nat)
    (between : Between P s lines) (flushed : s.flushed = true) :
    ∃ s', on_headers_complete P s code = .ok s' ∧ Between P s' [] ∧ s'.type = s.type ∧
      s'.received = s.received ++ [built P s code true lines] ∧ s'.flushed = true ∧
      s'._url = s.takenUrl P := by
  obtain ⟨sent, kept, rfl, hgathered⟩ := between
  have hcount : s.n_values = kept.length := by
    rw [hgathered.n_values, List.length_map]
  have hflush := flush_ok (P := P) hcount hgathered.fields hgathered.values
  have hheaders : s._headers ++ flat P kept = flat P (sent ++ kept) := by
    rw [hgathered.headers, flat_append]
  have hrun : on_headers_complete P s code = .ok { s with
      url := []
      n_fields := 0
      n_values := 0
      flushed := true
      _headers := []
      _url := s.takenUrl P
      received := s.received ++ [built P s code true (sent ++ kept)] } := by
    unfold on_headers_complete built
    rw [flushed, ← hheaders]
    simp only [if_true]
    rw [hflush]
    cases htype : s.type with
    | request => rfl
    | response => rfl
  exact ⟨_, hrun, Between.of_empty hgathered.fields_length hgathered.values_length rfl rfl rfl,
    rfl, rfl, rfl, rfl⟩

/-- The end of the header part when nothing was flushed: the lines are all in the arrays, and the
url is handed over with them. -/
theorem headersComplete_unflushed {s : HttpParser} {lines : List Line} (code : Nat)
    (between : Between P s lines) (unflushed : s.flushed = false)
    (url : s.type = .request → s.url ≠ []) :
    ∃ s', on_headers_complete P s code = .ok s' ∧ Between P s' [] ∧ s'.type = s.type ∧
      s'.received = s.received ++ [built P s code false lines] ∧ s'.flushed = false ∧
      s'._url = s._url := by
  obtain ⟨sent, kept, rfl, hgathered⟩ := between
  -- what was sent before went through a flush
  have hsent : sent = [] := by
    by_contra hne
    have h := hgathered.flushed hne
    rw [unflushed] at h
    exact Bool.false_ne_true h
  subst hsent
  have hcount : s.n_values = kept.length := by
    rw [hgathered.n_values, List.length_map]
  have hmake := makeHeader_ok (P := P) hcount hgathered.fields hgathered.values
  have hleft : s._headers = [] := hgathered.headers
  have hrun : on_headers_complete P s code = .ok { s with
      n_fields := 0
      n_values := 0
      received := s.received ++ [built P s code false ([] ++ kept)] } := by
    unfold on_headers_complete built directUrl
    rw [unflushed]
    simp only [Bool.false_eq_true, if_false]
    rw [hmake]
    show Except.bind _ _ = _
    cases htype : s.type with
    | request =>
        have hurl : ¬ s.url = [] := url htype
        by_cases hempty : P.bytesToString s.url = ""
        · simp [Except.bind, pure, Except.pure, bind, hurl, hempty, htype, unflushed,
            parserOnHeadersComplete]
        · simp [Except.bind, pure, Except.pure, bind, hurl, hempty, htype, unflushed,
            parserOnHeadersComplete]
    | response =>
        simp [Except.bind, pure, Except.pure, bind, htype, unflushed, parserOnHeadersComplete]
  exact ⟨_, hrun, Between.of_empty hgathered.fields_length hgathered.values_length rfl rfl hleft,
    rfl, rfl, unflushed, rfl⟩

/-! ### A message -/

variable {type : ParserType}

/-- The state before the header lines of `m`: the url and the status text of `m` are read. -/
def opened (s : HttpParser) (m : Message type) : HttpParser :=
  match type with
  | .request => { s with url := m.text.flatten, status_msg := [] }
  | .response => { s with url := [], status_msg := m.text.flatten }

/-- The pieces of the url, or of the status text. -/
theorem run_text (s : HttpParser) (texts : List Bytes) (clean : Clean texts) :
    run P s (texts.map (Message.textEvent type)) = .ok (match type with
      | .request => { s with url := s.url ++ texts.flatten }
      | .response => { s with status_msg := s.status_msg ++ texts.flatten }) := by
  induction texts generalizing s with
  | nil =>
      rw [List.map_nil, run_nil, List.flatten_nil]
      cases type with
      | request => simp
      | response => simp
  | cons text texts ih =>
      have hclean : (0 : UInt8) ∉ text := clean text List.mem_cons_self
      have hrest : Clean texts := fun t ht => clean t (List.mem_cons_of_mem _ ht)
      rw [List.map_cons, run_cons]
      cases type with
      | request =>
          show run P { s with url := stringAppend s.url text } _ = _
          rw [stringAppend_clean _ _ hclean, ih _ hrest, List.flatten_cons, List.append_assoc]
      | response =>
          show run P { s with status_msg := stringAppend s.status_msg text } _ = _
          rw [stringAppend_clean _ _ hclean, ih _ hrest, List.flatten_cons, List.append_assoc]

theorem run_opening (s : HttpParser) (m : Message type) :
    run P s (.messageBegin :: m.text.map (Message.textEvent type)) = .ok (s.opened m) := by
  rw [run_cons]
  show run P s.on_message_begin _ = _
  rw [run_text _ _ m.text_clean]
  cases type with
  | request => rfl
  | response => rfl

theorem Between.opened {s : HttpParser} {lines : List Line} (between : Between P s lines)
    (m : Message type) : Between P (s.opened m) lines := by
  obtain ⟨sent, kept, hlines, h⟩ := between
  refine ⟨sent, kept, hlines, ?_⟩
  cases type with
  | request => exact ⟨h.1, h.2, h.3, h.4, h.5, h.6, h.7, h.8, h.9, h.10⟩
  | response => exact ⟨h.1, h.2, h.3, h.4, h.5, h.6, h.7, h.8, h.9, h.10⟩

@[simp] theorem opened_type (s : HttpParser) (m : Message type) : (s.opened m).type = s.type := by
  cases type with
  | request => rfl
  | response => rfl

@[simp] theorem opened_received (s : HttpParser) (m : Message type) :
    (s.opened m).received = s.received := by
  cases type with
  | request => rfl
  | response => rfl

@[simp] theorem opened_flushed (s : HttpParser) (m : Message type) :
    (s.opened m).flushed = s.flushed := by
  cases type with
  | request => rfl
  | response => rfl

@[simp] theorem opened_urlGiven (s : HttpParser) (m : Message type) :
    (s.opened m)._url = s._url := by
  cases type with
  | request => rfl
  | response => rfl

theorem opened_url_nonempty {s : HttpParser} (m : Message type) (same : s.type = type)
    (request : s.type = .request) : (s.opened m).url ≠ [] := by
  rw [same] at request
  subst request
  exact m.url_nonempty rfl

/-- The header callbacks do not change what the message is built of. -/
theorem Keeps.built {s s' : HttpParser} (keeps : Keeps P s s') (code : Nat) (lines : List Line) :
    built P s' code s'.flushed lines = built P s code s'.flushed lines := by
  unfold HttpParser.built
  rw [keeps.type, keeps.status_msg, keeps.takenUrl]
  cases hflushed : s'.flushed with
  | true => rfl
  | false =>
      obtain ⟨-, hurl, h_url⟩ := keeps.unflushed hflushed
      unfold directUrl
      rw [keeps.type, hurl, h_url]

/-- Lines that were not flushed are fewer than `HEADER_MAX`. -/
theorem Between.length_lt {s : HttpParser} {lines : List Line} (between : Between P s lines)
    (unflushed : s.flushed = false) : lines.length < headerMax := by
  obtain ⟨sent, kept, rfl, hgathered⟩ := between
  have hsent : sent = [] := by
    by_contra hne
    have h := hgathered.flushed hne
    rw [unflushed] at h
    exact Bool.false_ne_true h
  have hroom := hgathered.room
  rw [List.length_map] at hroom
  rw [hsent, List.nil_append]
  exact hroom

/-- What reading the message `m` does. The lines `left` of the message before are in front of the
lines of `m`, and the trailers of `m` are left for the message after. -/
structure Reads (P : Platform) (s : HttpParser) (left : List Line) (m : Message type)
    (s' : HttpParser) (flushed : Bool) : Prop where
  type : s'.type = s.type
  between : Between P s' (m.trailers.map Header.line)
  received : s'.received = s.received ++
    [built P (s.opened m) m.code flushed (left ++ m.headers.map Header.line)]
  flushed_iff : flushed = true ↔ s.flushed = true ∨ headerMax ≤ left.length + m.headers.length
  no_trailers : m.trailers = [] → s'.flushed = flushed ∧
    s'._url = if flushed then (s.opened m).takenUrl P else s._url

/-- The end of the header part, flushed or not. -/
theorem headersComplete_between {s : HttpParser} {lines : List Line} (code : Nat)
    (between : Between P s lines) (url : s.flushed = false → s.type = .request → s.url ≠ []) :
    ∃ s', on_headers_complete P s code = .ok s' ∧ Between P s' [] ∧ s'.type = s.type ∧
      s'.received = s.received ++ [HttpParser.built P s code s.flushed lines] ∧
      s'.flushed = s.flushed ∧ s'._url = if s.flushed then s.takenUrl P else s._url := by
  cases hflushed : s.flushed with
  | true => exact headersComplete_flushed code between hflushed
  | false => exact headersComplete_unflushed code between hflushed (url hflushed)

/-- A message is read without a fault, from any state between two messages. -/
theorem run_message {s : HttpParser} {left : List Line} (m : Message type) (same : s.type = type)
    (between : Between P s left) :
    ∃ s' flushed, run P s m.events = .ok s' ∧ Reads P s left m s' flushed := by
  obtain ⟨s₁, hheaders, hbetween₁, hkeeps, hflushed⟩ :=
    run_headers m.headers (between.opened m)
  have hurl : s₁.flushed = false → s₁.type = .request → s₁.url ≠ [] := by
    intro hnot hrequest
    rw [(hkeeps.unflushed hnot).2.1]
    rw [hkeeps.type, opened_type] at hrequest
    exact opened_url_nonempty m same hrequest
  -- the end of the header part empties the arrays, so the trailers start afresh
  obtain ⟨s₂, hcomplete, hbetween₂, htype₂, hreceived₂, hflushed₂, h_url₂⟩ :=
    headersComplete_between m.code hbetween₁ hurl
  obtain ⟨s₃, htrailers, hbetween₃, hkeeps₃, -⟩ := run_headers m.trailers hbetween₂
  refine ⟨s₃, s₁.flushed, ?_, ?_, hbetween₃, ?_, ?_, ?_⟩
  · have hevents : m.events = (.messageBegin :: m.text.map (Message.textEvent type)) ++
        (m.headers.flatMap Header.events ++
          ([.headersComplete m.code] ++
            (m.trailers.flatMap Header.events ++ [.messageComplete]))) := by
      unfold Message.events
      simp
    rw [hevents, run_append, run_opening]
    show run P (s.opened m) _ = _
    rw [run_append, hheaders]
    show run P s₁ _ = _
    rw [run_append, run_cons]
    show ((on_headers_complete P s₁ m.code).bind _).bind _ = _
    rw [hcomplete]
    show run P s₂ _ = _
    rw [run_append, htrailers]
    rfl
  · rw [hkeeps₃.type, htype₂, hkeeps.type, opened_type]
  · rw [hkeeps₃.received, hreceived₂, hkeeps.received, opened_received, hkeeps.built]
  · constructor
    · intro h
      have hbefore := hflushed h
      rwa [opened_flushed] at hbefore
    · intro h
      by_contra hne
      have hnot : s₁.flushed = false := Bool.eq_false_iff.mpr hne
      -- without a flush all lines are in the arrays, and there were none before
      have hshort := hbetween₁.length_lt hnot
      rw [List.length_append, List.length_map] at hshort
      have hbefore := (hkeeps.unflushed hnot).1
      rw [opened_flushed] at hbefore
      rcases h with h | h
      · rw [hbefore] at h
        exact Bool.false_ne_true h
      · omega
  · intro hnone
    rw [hnone] at htrailers
    have hsame : s₂ = s₃ := Except.ok.inj htrailers
    rw [← hsame, hflushed₂, h_url₂, hkeeps.takenUrl]
    refine ⟨rfl, ?_⟩
    cases hnot : s₁.flushed with
    | true => rfl
    | false =>
        show s₁._url = s._url
        rw [(hkeeps.unflushed hnot).2.2, opened_urlGiven]

/-! ### The messages one after the other -/

/-- `_url` as both users of a parser set it. -/
def startUrl : ParserType → Option String
  | .request => some ""
  | .response => none

/-- Nothing is left of an earlier message. -/
structure Fresh (P : Platform) (type : ParserType) (s : HttpParser) : Prop where
  same : s.type = type
  between : Between P s []
  urlGiven : s._url = startUrl type
  unflushed : type = .request → s.flushed = false

theorem fresh_create (type : ParserType) : Fresh P type (create type) := by
  cases type with
  | request => exact ⟨rfl, Between.of_empty rfl rfl rfl rfl rfl, rfl, fun _ => rfl⟩
  | response => exact ⟨rfl, Between.of_empty rfl rfl rfl rfl rfl, rfl, fun _ => rfl⟩

theorem flat_line (headers : List Header) :
    flat P (headers.map Header.line) = headers.flatMap (Header.own P) := by
  unfold flat
  rw [List.flatMap_map]
  rfl

/-- On a fresh parser a url is taken whole, with a flush and without one. -/
theorem Fresh.url_own {s : HttpParser} (fresh : Fresh P type s) (m : Message type) :
    (s.opened m).takenUrl P = (m.own P).url ∧ (s.opened m).directUrl P = (m.own P).url := by
  have htype := fresh.same
  have h_url := fresh.urlGiven
  unfold takenUrl directUrl
  rw [opened_type, opened_urlGiven, h_url, htype]
  cases type with
  | request =>
      have hnonempty : (s.opened m).url ≠ [] := m.url_nonempty rfl
      rw [if_pos ⟨rfl, hnonempty⟩, if_pos rfl]
      show (if P.bytesToString m.text.flatten = "" then some ""
          else some ("" ++ P.bytesToString m.text.flatten))
        = some (P.bytesToString m.text.flatten) ∧
        (if P.bytesToString m.text.flatten = "" then some ""
          else some (P.bytesToString m.text.flatten)) = some (P.bytesToString m.text.flatten)
      by_cases hempty : P.bytesToString m.text.flatten = ""
      · rw [if_pos hempty, if_pos hempty, hempty]
        exact ⟨rfl, rfl⟩
      · rw [if_neg hempty, if_neg hempty, String.empty_append]
        exact ⟨rfl, rfl⟩
  | response => exact ⟨rfl, rfl⟩

/-- On a fresh parser a message is built of its own parts, flushed or not. -/
theorem Fresh.built_own {s : HttpParser} (fresh : Fresh P type s) (m : Message type)
    (flushed : Bool) :
    built P (s.opened m) m.code flushed ([] ++ m.headers.map Header.line) = m.own P := by
  have htype := fresh.same
  have hurl : (if flushed then (s.opened m).takenUrl P else (s.opened m).directUrl P)
      = (m.own P).url := by
    rw [(fresh.url_own m).1, (fresh.url_own m).2, ite_self]
  unfold built
  rw [hurl, List.nil_append, flat_line, opened_type, htype]
  cases type with
  | request => rfl
  | response => rfl

theorem addHeaders_own (headers : List Header) :
    IncomingMessage.addHeaders (headers.flatMap (Header.own P)) = headers.map (Header.pair P) := by
  induction headers with
  | nil => rfl
  | cons header headers ih =>
      rw [List.flatMap_cons, List.map_cons, ← ih]
      rfl

theorem own_headers (m : Message type) : (m.own P).headers = m.headers.flatMap (Header.own P) := by
  cases type with
  | request => rfl
  | response => rfl

/-- The first message on a parser, with any number of header lines and any pieces: nothing fails,
and one `IncomingMessage` is built, with the whole url and with exactly the message's pairs in
order. -/
theorem first_message (P : Platform) (m : Message type) :
    ∃ s incoming, run P (create type) m.events = .ok s ∧ s.received = [incoming] ∧
      incoming = m.own P ∧
      IncomingMessage.addHeaders incoming.headers = m.headers.map (Header.pair P) := by
  obtain ⟨s, flushed, hrun, hreads⟩ :=
    run_message (P := P) m (fresh_create (P := P) type).same (fresh_create type).between
  refine ⟨s, m.own P, hrun, ?_, rfl, ?_⟩
  · have hnone : (create type).received = [] := by
      cases type with
      | request => rfl
      | response => rfl
    rw [hreads.received, (fresh_create type).built_own, hnone]
    rfl
  · rw [own_headers, addHeaders_own]

/-- The message leaves nothing to the one after it. -/
def LeavesNothing (m : Message type) : Prop :=
  m.trailers = [] ∧ (type = .request → m.headers.length < headerMax)

/-- A parser that has read such a message is as fresh as before. -/
theorem Fresh.next {s s' : HttpParser} {m : Message type} {flushed : Bool}
    (fresh : Fresh P type s) (reads : Reads P s [] m s' flushed) (leaves : LeavesNothing m) :
    Fresh P type s' := by
  obtain ⟨hnone, hshort⟩ := leaves
  obtain ⟨hflushed, h_url⟩ := reads.no_trailers hnone
  have hbetween := reads.between
  rw [hnone] at hbetween
  -- only a request keeps the url of a flush, and this one was too short for one
  have hunflushed : type = .request → flushed = false := by
    intro hrequest
    by_contra hne
    rcases reads.flushed_iff.mp (by simpa using hne) with h | h
    · rw [fresh.unflushed hrequest] at h
      exact Bool.false_ne_true h
    · have hlt := hshort hrequest
      rw [List.length_nil] at h
      omega
  refine ⟨reads.type.trans fresh.same, hbetween, ?_, fun h => hflushed.trans (hunflushed h)⟩
  rw [h_url]
  cases type with
  | request =>
      rw [hunflushed rfl]
      exact fresh.urlGiven
  | response =>
      -- a response has no url, so a flush leaves `_url` alone
      have htaken : (s.opened m).takenUrl P = none := (fresh.url_own m).1
      rw [htaken, fresh.urlGiven]
      exact ite_self _

/-- The header lines of a message after one with trailers are too many. -/
theorem spoiled_headers (s : HttpParser) (left : List Line) (m : Message type) (flushed : Bool)
    (some_left : left ≠ []) :
    built P (s.opened m) m.code flushed (left ++ m.headers.map Header.line) ≠ m.own P := by
  intro hsame
  -- the two messages would have the same pairs, so the lines left over would be none
  have hheaders : flat P (left ++ m.headers.map Header.line) = flat P (m.headers.map Header.line) := by
    rw [flat_line, ← own_headers, ← hsame]
    unfold built
    cases (s.opened m).type with
    | request => rfl
    | response => rfl
  have hlength := congrArg List.length hheaders
  rw [length_flat, length_flat, List.length_append] at hlength
  have hpos := List.length_pos_iff.mpr some_left
  omega

/-- The url of a request after a request whose url was flushed is too long. -/
theorem spoiled_url {s : HttpParser} (m : Message .request) {before : String}
    (request : s.type = .request) (urlGiven : s._url = some before) (left : List Line)
    (before_nonempty : before ≠ "") (decoded : P.bytesToString m.text.flatten ≠ "") :
    built P (s.opened m) m.code true (left ++ m.headers.map Header.line) ≠ m.own P := by
  intro hsame
  have hurl : (s.opened m).takenUrl P = (m.own P).url := by
    rw [← hsame]
    unfold built
    rw [opened_type, request]
    rfl
  have hnonempty : (s.opened m).url ≠ [] := m.url_nonempty rfl
  unfold takenUrl at hurl
  rw [opened_type, opened_urlGiven, urlGiven, if_pos ⟨request, hnonempty⟩] at hurl
  -- the url before stands in front of the message's own
  have hlonger : some (before ++ P.bytesToString m.text.flatten)
      = some (P.bytesToString m.text.flatten) := by
    have hurl' : (if P.bytesToString m.text.flatten = "" then some before
        else some (before ++ P.bytesToString m.text.flatten))
      = some (P.bytesToString m.text.flatten) := hurl
    rwa [if_neg decoded] at hurl'
  have hlength := congrArg String.length (Option.some.inj hlonger)
  rw [String.length_append] at hlength
  have hpos : before.length ≠ 0 := fun h => before_nonempty (String.length_eq_zero_iff.mp h)
  omega

/-- After a message that leaves something, the next one is not built of its own parts. -/
theorem Fresh.spoils {s s' s'' : HttpParser} {m next : Message type} {flushed flushed' : Bool}
    (decodes : ∀ b, P.bytesToString b = "" → b = []) (fresh : Fresh P type s)
    (reads : Reads P s [] m s' flushed)
    (reads' : Reads P s' (m.trailers.map Header.line) next s'' flushed')
    (leaves : ¬ LeavesNothing m) :
    built P (s'.opened next) next.code flushed'
      (m.trailers.map Header.line ++ next.headers.map Header.line) ≠ next.own P := by
  by_cases hnone : m.trailers = []
  · -- no trailers: it is a request whose url was flushed
    have hrequest : type = .request := by
      by_contra hne
      exact leaves ⟨hnone, fun h => absurd h hne⟩
    subst hrequest
    have hlong : headerMax ≤ m.headers.length := by
      by_contra hlt
      exact leaves ⟨hnone, fun _ => Nat.lt_of_not_le hlt⟩
    have hflushed : flushed = true :=
      reads.flushed_iff.mpr (Or.inr (by rw [List.length_nil, Nat.zero_add]; exact hlong))
    obtain ⟨hflushed', h_url⟩ := reads.no_trailers hnone
    rw [hflushed] at hflushed' h_url
    have htaken : s'._url = some (P.bytesToString m.text.flatten) :=
      h_url.trans (fresh.url_own m).1
    have hagain : flushed' = true := reads'.flushed_iff.mpr (Or.inl hflushed')
    rw [hagain]
    exact spoiled_url next (reads.type.trans fresh.same) htaken _
      (fun h => m.url_nonempty rfl (decodes _ h)) fun h => next.url_nonempty rfl (decodes _ h)
  · exact spoiled_headers s' _ next flushed' fun h => hnone (List.map_eq_nil_iff.mp h)

/-- Any number of messages are read without a fault, and each of them builds one message. -/
theorem run_messages {s : HttpParser} {left : List Line} (ms : List (Message type))
    (same : s.type = type) (between : Between P s left) :
    ∃ s' more, run P s (ms.flatMap Message.events) = .ok s' ∧
      s'.received = s.received ++ more := by
  induction ms generalizing s left with
  | nil => exact ⟨s, [], rfl, (List.append_nil _).symm⟩
  | cons m ms ih =>
      obtain ⟨s₁, flushed, hrun, hreads⟩ := run_message (P := P) m same between
      obtain ⟨s₂, more, hrun₂, hreceived⟩ := ih (hreads.type.trans same) hreads.between
      refine ⟨s₂, built P (s.opened m) m.code flushed (left ++ m.headers.map Header.line) :: more,
        ?_, ?_⟩
      · rw [List.flatMap_cons, run_append, hrun]
        exact hrun₂
      · rw [hreceived, hreads.received, List.append_assoc]
        rfl

/-- From a fresh parser: which sequences of messages are built of their own parts. -/
theorem Fresh.isolated_iff {s : HttpParser} (decodes : ∀ b, P.bytesToString b = "" → b = [])
    (fresh : Fresh P type s) (ms : List (Message type)) :
    (∃ s', run P s (ms.flatMap Message.events) = .ok s' ∧
        s'.received = s.received ++ ms.map (Message.own P)) ↔
      ∀ m ∈ ms.dropLast, LeavesNothing m := by
  induction ms generalizing s with
  | nil =>
      constructor
      · intro _ m hm
        exact absurd hm List.not_mem_nil
      · intro _
        exact ⟨s, rfl, (List.append_nil _).symm⟩
  | cons m ms ih =>
      obtain ⟨s₁, flushed, hrun, hreads⟩ := run_message (P := P) m fresh.same fresh.between
      have hown : s₁.received = s.received ++ [m.own P] := by
        rw [hreads.received, fresh.built_own]
      have hrest : run P s ((m :: ms).flatMap Message.events)
          = run P s₁ (ms.flatMap Message.events) := by
        rw [List.flatMap_cons, run_append, hrun]
        rfl
      have hmap : s.received ++ (m :: ms).map (Message.own P)
          = s₁.received ++ ms.map (Message.own P) := by
        rw [hown, List.map_cons, List.append_assoc, List.singleton_append]
      rw [hrest, hmap]
      cases ms with
      | nil =>
          constructor
          · intro _ m' hm'
            exact absurd hm' List.not_mem_nil
          · intro _
            exact ⟨s₁, rfl, (List.append_nil _).symm⟩
      | cons next ms =>
          rw [List.dropLast_cons_cons, List.forall_mem_cons]
          by_cases hleaves : LeavesNothing m
          · rw [ih (fresh.next hreads hleaves)]
            exact ⟨fun h => ⟨hleaves, h⟩, fun h => h.2⟩
          · refine ⟨fun ⟨s', hrun', hreceived⟩ => ?_, fun h => absurd h.1 hleaves⟩
            -- the next message is spoiled, whatever comes after it
            obtain ⟨s₂, flushed₂, hrun₂, hreads₂⟩ :=
              run_message (P := P) next (hreads.type.trans fresh.same) hreads.between
            obtain ⟨s₃, more, hrun₃, hmore⟩ :=
              run_messages (P := P) ms (hreads₂.type.trans (hreads.type.trans fresh.same))
                hreads₂.between
            rw [List.flatMap_cons, run_append, hrun₂] at hrun'
            have hlast : s₃ = s' := Except.ok.inj (hrun₃.symm.trans hrun')
            rw [← hlast, hmore, hreads₂.received, List.append_assoc, List.map_cons,
              List.singleton_append] at hreceived
            have hspoiled := List.head_eq_of_cons_eq (List.append_cancel_left hreceived)
            exact absurd hspoiled (fresh.spoils decodes hreads hreads₂ hleaves)

/-- When the messages on one parser are isolated: each `IncomingMessage` is built with exactly the
parts of its own message if and only if no message but the last has a trailer, and no request but
the last has `HEADER_MAX` header lines or more. The engine is assumed to decode only an empty
block to the empty string. -/
theorem messages_isolated_iff (P : Platform) (decodes : ∀ b, P.bytesToString b = "" → b = [])
    (type : ParserType) (ms : List (Message type)) :
    (∃ s, run P (create type) (ms.flatMap Message.events) = .ok s ∧
        s.received = ms.map (Message.own P)) ↔
      ∀ m ∈ ms.dropLast, m.trailers = [] ∧
        (type = .request → m.headers.length < headerMax) := by
  have hnone : (create type).received = [] := by
    cases type with
    | request => rfl
    | response => rfl
  have h := (fresh_create (P := P) type).isolated_iff decodes ms
  rw [hnone] at h
  exact h

/-- The line `a: b`. -/
def someHeader : Header where
  field := [[97]]
  value := [[98]]
  field_pieces := by decide
  value_pieces := by decide
  field_clean := by decide
  value_clean := by decide

/-- A request for `/c` with so many header lines and trailers. -/
def someRequest (headers trailers : Nat) : Message .request where
  code := 1
  text := [[47], [99]]
  headers := List.replicate headers someHeader
  trailers := List.replicate trailers someHeader
  text_clean := by decide
  url_nonempty _ := by decide

theorem ascii_decodes (nuttx : Bool) (b : Bytes)
    (empty : (Platform.ascii nuttx).bytesToString b = "") : b = [] := by
  have hlist := congrArg String.toList empty
  simpa [Platform.ascii] using hlist

/-- Nine header lines in the first request are few enough, and no number is too many in the last:
both requests are built of their own parts. -/
theorem nine_headers_isolated :
    ∃ s, run (.ascii false) (create .request)
        ([someRequest 9 0, someRequest 12 1].flatMap Message.events) = .ok s ∧
      s.received = [someRequest 9 0, someRequest 12 1].map (Message.own (.ascii false)) := by
  have hfirst : ∀ m ∈ [someRequest 9 0, someRequest 12 1].dropLast, m.trailers = [] ∧
      (ParserType.request = .request → m.headers.length < headerMax) := by
    intro m hm
    obtain rfl := List.mem_singleton.mp hm
    exact ⟨rfl, fun _ => by decide⟩
  exact (messages_isolated_iff (.ascii false) (ascii_decodes false) .request _).mpr hfirst

/-- The messages are not isolated. After a request with ten header lines, the url of the next one
is `/c/c`. After a request with a trailer, the next one has the trailer among its header lines. -/
theorem messages_not_isolated :
    ¬ (∃ s, run (.ascii false) (create .request)
        ([someRequest 10 0, someRequest 0 0].flatMap Message.events) = .ok s ∧
      s.received = [someRequest 10 0, someRequest 0 0].map (Message.own (.ascii false))) ∧
    ¬ (∃ s, run (.ascii false) (create .request)
        ([someRequest 0 1, someRequest 0 0].flatMap Message.events) = .ok s ∧
      s.received = [someRequest 0 1, someRequest 0 0].map (Message.own (.ascii false))) := by
  constructor
  · rintro ⟨s, hrun, hreceived⟩
    have hmap : (run (.ascii false) (create .request)
        ([someRequest 10 0, someRequest 0 0].flatMap Message.events)).map received
        = .ok ([someRequest 10 0, someRequest 0 0].map (Message.own (.ascii false))) := by
      rw [hrun, ← hreceived]
      rfl
    exact absurd hmap (by decide)
  · rintro ⟨s, hrun, hreceived⟩
    have hmap : (run (.ascii false) (create .request)
        ([someRequest 0 1, someRequest 0 0].flatMap Message.events)).map received
        = .ok ([someRequest 0 1, someRequest 0 0].map (Message.own (.ascii false))) := by
      rw [hrun, ← hreceived]
      rfl
    exact absurd hmap (by decide)

end HttpParser

end IotJs

import IotJs.Proofs.HttpContract

/-!
# `IotJs.Proofs.HttpReleased`: no handler uses a parser that was released

The handlers of HTTP use `socket.parser` and `socket._server` without a look, where their
authors counted on an event not to come any more. `destroy` waits for 'finish', so events come
after all: buffered data is delivered to the handlers of a client whose parser is gone, and a
timeout that an application sets fires on a socket that its server no longer has.

`inTime` are the surroundings in which no event comes too late. Data is delivered while there
is a parser, and a socket that its server no longer has neither emits 'end', 'error' or
'timeout' nor completes the header of a request. There nothing that was released is used
(`released_not_used`). What keeps a handler from a parser that is gone in all other cases is
that a stream which has emitted 'end' delivers nothing.
-/

set_option autoImplicit false

namespace IotJs.Http

open Reentrant Socket

/-- The handlers have released the parser before the stream ended. -/
def tooLate (s : Socket) : Bool := wentWrong s && !s.http.parser

/-- A socket that its server no longer has. -/
def orphaned (s : Socket) : Bool :=
  decide (s.http.side = .server) && s._socketState.destroyed

/-- The call begins with an event whose handler uses `_server`. -/
def asksServer (s : Socket) : Socket.Call → Bool
  | .read n => readEnds s n
  | .onTimeout => true
  | i => errs s i

/-- No event comes too late. -/
def inTime (P : Platform) : Env Socket HttpYield HttpAsk Call where
  call
    | .socket i, s =>
        (delivers P s i = true → tooLate s = false) ∧ (orphaned s = true → asksServer s i = false)
    | .parserOnHeadersComplete, s => orphaned s = false
    | _, _ => True
  answer _ _ _ := True
  returns
    | .socket (.event e), s => orphaned s = true → endFollows P s e = false
    -- the end of a message resumes the socket
    | .incoming, s => delivers P s .resume = true → tooLate s = false
    | _, _ => True
  throws _ _ := True

instance (P : Platform) : (inTime P).Testable where
  call
    | .socket i, s => inferInstanceAs (Decidable ((delivers P s i = true → tooLate s = false) ∧
        (orphaned s = true → asksServer s i = false)))
    | .parserOnHeadersComplete, s => inferInstanceAs (Decidable (orphaned s = false))
    | .clientRequest _, _ => .isTrue trivial
    | .parserOnMessageComplete, _ => .isTrue trivial
    | .responseOnEnd, _ => .isTrue trivial
    | .resOnFinish, _ => .isTrue trivial
  answer _ _ _ := .isTrue trivial
  returns
    | .socket (.event e), s =>
        inferInstanceAs (Decidable (orphaned s = true → endFollows P s e = false))
    | .incoming, s =>
        inferInstanceAs (Decidable (delivers P s .resume = true → tooLate s = false))
    | .socket .callback, _ => .isTrue trivial
    | .socket .getaddrinfo, _ => .isTrue trivial
    | .execute, _ => .isTrue trivial
    | .finish, _ => .isTrue trivial
    | .request, _ => .isTrue trivial
    | .server, _ => .isTrue trivial
  throws _ _ := .isTrue trivial

/-- What the handlers of an event count on. -/
def heard : SocketYield → Socket → Prop
  | .event (.data _), s => s.http.listening = true → s.http.parser = true
  | .event .end_, s => s.http.listening = true → s._readableState.endEmitted = true ∧
      (s.http.side = .server → s.http.parser = true ∧ s._server = true)
  | .event (.error _), s => s.http.listening = true →
      (s.http.side = .client → wentWrong s = true) ∧ (s.http.side = .server → s._server = true)
  | .event .timeout, s => s.http.listening = true → s.http.side = .server → s._server = true
  | .event .close, s => s.http.listening = true →
      wentWrong s = true ∧ s._socketState.destroyed = true
  | .event .connection, s => s.accepting = false
  | _, _ => True

theorem wentWrong_of_mem {s : Socket} {o : SocketObs} (hm : o ∈ s.log)
    (ho : releases s.http.side o = true) : wentWrong s = true := by
  simp only [wentWrong, Bool.or_eq_true, List.any_eq_true]
  exact .inl ⟨o, hm, ho⟩

/-! ### The events come as the handlers need them -/

section events

variable {P : Platform} {E : Surroundings} {side : HttpSide} {s t : Socket} {i : Socket.Call}
variable {atRest : Bool}

/-- After 'end' nothing is delivered. -/
theorem delivers_ended (hs : Base s) (he : s._readableState.endEmitted = true) :
    delivers P s i = false := by
  have hl := hs.read.drained he
  have hended := hs.read.endEmitted he
  cases i with
  | onread result =>
      cases result <;> simp [delivers, hended]
  | resume => simp [delivers, hl]
  | on ev => simp [delivers, hl]
  | _ => rfl

/-- Data that is delivered in time finds a parser. -/
theorem parser_of_delivers (hs : Base s) (hi : HttpInv side s) (hd : delivers P s i = true)
    (hin : tooLate s = false) (hl : s.http.listening = true) : s.http.parser = true := by
  cases hp : s.http.parser with
  | true => rfl
  | false =>
      rcases hi.released hl hp with he | ⟨hw, -⟩
      · rw [delivers_ended hs he] at hd
        cases hd
      · rw [tooLate, hw, hp] at hin
        cases hin

theorem server_of_not_orphaned (hi : HttpInv side s) (hside : s.http.side = .server)
    (ho : orphaned s = false) : s._server = true ∧ s._socketState.destroyed = false := by
  have hd : s._socketState.destroyed = false := by
    simpa [orphaned, hside] using ho
  rw [(hi.accepted (hi.whose.symm.trans hside)).server, hd]
  exact ⟨rfl, rfl⟩

/-- 'end' finds what its handler needs, on a socket that its server still has. -/
theorem heard_end (hi : HttpInv side s) (he : s._readableState.endEmitted = false)
    (ho : orphaned s = false) (ht : Ended s t) : heard (.event .end_) t := by
  intro hl
  refine ⟨ht.endEmitted, fun hside => ?_⟩
  rw [ht.http] at hl hside
  obtain ⟨hserver, hd⟩ := server_of_not_orphaned hi hside ho
  refine ⟨?_, ht.server.trans hserver⟩
  rw [ht.http]
  cases hp : s.http.parser with
  | true => rfl
  | false =>
      rcases hi.released hl hp with hem | ⟨-, hdestroyed⟩
      · rw [he] at hem
        cases hem
      · rw [hdestroyed (hi.whose.symm.trans hside)] at hd
        cases hd

theorem heard_plain {u : SocketYield} (hu : SocketYield.plain u = true) : heard u s := by
  cases u with
  | event e =>
      cases e with
      | data d => cases hu
      | end_ => cases hu
      | error m => cases hu
      | timeout => cases hu
      | close => cases hu
      | connection => cases hu
      | _ => trivial
  | callback => trivial
  | getaddrinfo => trivial

theorem endEmitted_of_endFollows {e : SocketEvent} (h : endFollows P s e = true) :
    s._readableState.endEmitted = false := by
  have hd : drained s = true := by
    cases e with
    | data d => exact (Bool.and_eq_true_iff.mp h).1
    | readable => exact (Bool.and_eq_true_iff.mp h).1
    | error m => exact (Bool.and_eq_true_iff.mp h).1
    | _ => cases h
  rw [drained, Bool.and_eq_true, Bool.not_eq_true'] at hd
  exact hd.1

/-- The socket can only read while its handle is open. -/
theorem not_destroyed_of_onread {result : ReadResult} (hs : Base s)
    (hen : Socket.enabled P s atRest (.onread result) = true) :
    s._socketState.destroyed = false := by
  simp only [Socket.enabled, Bool.and_eq_true, Option.any_eq_true] at hen
  obtain ⟨-, handle, hh, hopen⟩ := hen
  rw [← hs.handle.closed handle hh]
  simpa using hopen.2

/-- 'end' that follows when the listeners of an event return. -/
theorem heard_endFollows {e : SocketEvent} (hinv : (basis.and (connection side)).inv s)
    (hret : (inTime P).returns (.socket (.event e)) s) (hf : endFollows P s e = true)
    (ht : Ended s t) : heard (.event .end_) t := by
  refine heard_end hinv.2 (endEmitted_of_endFollows hf) ?_ ht
  rw [← Bool.not_eq_true]
  intro ho
  rw [show endFollows P s e = false from hret ho] at hf
  cases hf

/-- A call that comes in time is prepared for the handlers. -/
theorem prepared_of_inTime (hs : Base s) (hi : HttpInv side s)
    (hen : Socket.enabled P s atRest i = true) (hcall : (inTime P).call (.socket i) s) :
    Prepared P (around (inTime P)) (connection side) heard i s where
  plain u t hu := heard_plain hu
  data hd d t ht hl := by
    rw [ht] at hl ⊢
    exact parser_of_delivers hs hi hd (hcall.1 hd) hl
  read n hin hr t ht := by
    subst hin
    refine heard_end hi ?_ ?_ ht
    · simp only [readEnds, Bool.and_eq_true, Bool.not_eq_true'] at hr
      exact hr.1.2
    · rw [← Bool.not_eq_true]
      intro ho
      have hno := hcall.2 ho
      rw [asksServer, hr] at hno
      cases hno
  eof result hin he t ht := by
    subst hin
    refine heard_end hi he ?_ ht
    simp [orphaned, not_destroyed_of_onread hs hen]
  follows e t ht hret hf u hu := heard_endFollows ht hret hf hu
  error herr m t ht hm hl := by
    refine ⟨fun hside => wentWrong_of_mem hm (by rw [hside]; rfl), fun hside => ?_⟩
    · rw [ht.http] at hside
      rw [ht.server]
      refine (server_of_not_orphaned hi hside ?_).1
      rw [← Bool.not_eq_true]
      intro ho
      have hno := hcall.2 ho
      have hasks : asksServer s i = errs s i := by
        cases i with
        | read n => cases herr
        | onTimeout => cases herr
        | _ => rfl
      rw [hasks, herr] at hno
      cases hno
  failed status hin m t ht hm hl := by
    refine ⟨fun hside => wentWrong_of_mem hm (by rw [hside]; rfl), fun hside => ?_⟩
    -- a server does not connect
    subst hin
    rw [ht, hi.whose] at hside
    simp only [Socket.enabled, (hi.accepted hside).unattempted.connects, Bool.and_eq_true,
      decide_eq_true_eq] at hen
    omega
  connection hin t ht := ht
  timeout hin t ht hl hside := by
    subst hin
    rw [ht.http] at hl hside
    rw [ht.server]
    refine (server_of_not_orphaned hi hside ?_).1
    rw [← Bool.not_eq_true]
    intro ho
    cases hcall.2 ho
  close hin hl := by
    subst hin
    simp only [Socket.enabled, Bool.and_eq_true] at hen
    refine ⟨wentWrong_of_mem (List.mem_append_right _ (List.mem_singleton_self _)) ?_,
      hi.closing hen.2⟩
    cases s.http.side <;> rfl

end events

/-! ### What the HTTP modules do between two events -/

/-- The code, started in `s`, keeps the contract of the call that began in `s₀`. -/
abbrev Obeys (P : Platform) (side : HttpSide) (s₀ : Socket) (m : Method Unit) (s : Socket) :
    Prop :=
  m.wp (inTime P) .nil (basis.and (connection side)) (Kept (connection side) s₀)
    (fun _ => Kept (connection side) s₀) s

/-- The parser may be released. -/
def MayRelease (side : HttpSide) (s : Socket) : Prop :=
  s._readableState.endEmitted = true ∨
    wentWrong s = true ∧ (side = .server → s._socketState.destroyed = true)

/-- A change of what no invariant reads. -/
def Idle (f : HttpConnection → HttpConnection) : Prop :=
  ∀ h, (f h).side = h.side ∧ (f h).listening = h.listening ∧ (f h).parser = h.parser ∧
    (f h).log = h.log

section rules

variable {P : Platform} {F : Env Socket HttpYield HttpAsk Call} {G C : Contract Socket}
variable {X : Socket → Prop} {side : HttpSide} {s₀ s t : Socket}

@[simp] theorem wp_modifyHttp {f : HttpConnection → HttpConnection} {Q : Unit → Socket → Prop} :
    (modifyHttp f).wp F G C X Q s ↔ Q () { s with http := f s.http } := Iff.rfl

@[simp] theorem wp_record {o : HttpObs} {Q : Unit → Socket → Prop} :
    (record o).wp F G C X Q s ↔
      Q () { s with http := { s.http with log := s.http.log ++ [o] } } := Iff.rfl

@[simp] theorem wp_releaseParser {Q : Unit → Socket → Prop} :
    releaseParser.wp F G C X Q s ↔ Q () { s with http := { s.http with parser := false } } :=
  Iff.rfl

theorem wp_useParser {Q : Unit → Socket → Prop} (hp : s.http.parser = true) (h : Q () s) :
    useParser.wp F G C X Q s := by
  simp only [useParser, Prog.wp_bind, Prog.wp_get, Prog.wp_ite, Prog.wp_pure]
  refine ⟨fun hn => ?_, fun _ => h⟩
  rw [hp] at hn
  cases hn

theorem wp_useServer {server : Bool} {Q : Unit → Socket → Prop} (hserver : server = true)
    (h : Q () s) : (useServer server).wp F G C X Q s := by
  rw [hserver]
  exact h

/-- The code of `net.js`, with handlers that keep the contract. -/
theorem wp_within {A : SocketYield → Socket → Prop} {listen : SocketYield → Method Unit}
    {p : Socket.Method Unit} {Q : Unit → Socket → Prop}
    (hlisten : ∀ u t, C.inv t → A u t →
      (listen u).wp F .nil C (C.Post t) (fun _ => C.Post t) t)
    (h : p.wp (around F) .nil C X Q s)
    (hhands : p.hands (around F) C A (fun _ _ => True) s) :
    (within listen p).wp F .nil C X Q s := by
  have hanswer : ∀ q t r, F.answer (HttpAsk.socket q) t r → (around F).answer q t r :=
    fun _ _ _ => id
  have hreturns : ∀ u t, F.returns (HttpYield.socket u) t → (around F).returns u t :=
    fun _ _ => id
  refine Prog.wp_intercept hanswer hreturns (fun _ _ _ => trivial) (fun u t hinv ha => ?_) p h
    hhands
  exact Prog.wp_mono (fun _ hv => ⟨hv, trivial⟩) (fun _ _ => id) _ (hlisten u t hinv ha)

/-- The code of `net.js`, where no handler listens. -/
theorem wp_net {p : Socket.Method Unit} {Q : Unit → Socket → Prop}
    (h : p.wp (around F) .nil C X Q s) : (net p).wp F .nil C X Q s :=
  wp_within (fun _ t hinv _ => ⟨hinv, C.refl t⟩) h (Prog.hands_trivial p s)

/-! The state of HTTP changes. -/

theorem base_http {h : HttpConnection} (hs : Base s) : Base { s with http := h } :=
  { hs with }

/-- A socket that HTTP has touched has been taken. -/
theorem not_accepting (hi : HttpInv side s) (h : s.http ≠ .new side) : s.accepting = false := by
  cases hacc : s.accepting with
  | false => rfl
  | true => exact absurd (hi.untouched hacc) h

theorem accepting_of_listening (hi : HttpInv side s) (h : s.http.listening = true) :
    s.accepting = false := by
  refine not_accepting hi fun hnew => ?_
  rw [hnew] at h
  cases h

/-- Another state of HTTP. -/
theorem kept_http {h : HttpConnection} (hk : Kept (connection side) s₀ s)
    (hacc : s.accepting = false) (hside : h.side = s.http.side) (hlog : s.http.log ⊆ h.log)
    (hparser : .nullParser ∉ h.log) (hserver : .nullServer ∉ h.log)
    (hreleased : h.listening = true → h.parser = false → MayRelease side { s with http := h }) :
    Kept (connection side) s₀ { s with http := h } := by
  have hi : HttpInv side s := hk.1.2
  refine ⟨⟨base_http hk.base, ⟨hside.trans hi.whose, hparser, hserver, hi.closing, hreleased,
    ?_, ?_⟩⟩, hk.mono, fun hw => ?_⟩
  · intro hn
    rw [show s.accepting = true from hn] at hacc
    cases hacc
  · intro hs
    have ha := hi.accepted hs
    exact ⟨ha.server, ha.up, ha.unattempted⟩
  · exact wentWrong_mono hside (List.Subset.refl _) hlog (hk.2.2 hw)

/-- What is released stays released. -/
theorem MayRelease.mono (h : MayRelease side s) (hk : Kept (connection side) s t) :
    MayRelease side t := by
  rcases h with he | ⟨hw, hd⟩
  · exact .inl (hk.mono.endEmitted he)
  · exact .inr ⟨hk.2.2 hw, fun hs => hk.mono.destroyed (hd hs)⟩

theorem kept_release (hk : Kept (connection side) s₀ s) (hacc : s.accepting = false)
    (hr : MayRelease side s) :
    Kept (connection side) s₀ { s with http := { s.http with parser := false } } :=
  kept_http hk hacc rfl (List.Subset.refl _) hk.1.2.parserUsed hk.1.2.serverUsed fun _ _ => hr

theorem kept_idle {f : HttpConnection → HttpConnection} (hf : Idle f)
    (hk : Kept (connection side) s₀ s) (hacc : s.accepting = false) :
    Kept (connection side) s₀ { s with http := f s.http } := by
  obtain ⟨hside, hlisten, hparser, hlog⟩ := hf s.http
  have hi : HttpInv side s := hk.1.2
  refine kept_http hk hacc hside ?_ ?_ ?_ fun hl hp => ?_
  · rw [hlog]
    exact List.Subset.refl _
  · rw [hlog]
    exact hi.parserUsed
  · rw [hlog]
    exact hi.serverUsed
  · rw [hlisten] at hl
    rw [hparser] at hp
    rcases hi.released hl hp with he | ⟨hw, hd⟩
    · exact .inl he
    · refine .inr ⟨wentWrong_mono hside (List.Subset.refl _) ?_ hw, hd⟩
      rw [hlog]
      exact List.Subset.refl _

/-- An entry of the log that is no defect. -/
theorem kept_record {o : HttpObs} (hparser : o ≠ .nullParser) (hserver : o ≠ .nullServer)
    (hk : Kept (connection side) s₀ s) (hacc : s.accepting = false) :
    Kept (connection side) s₀
      { s with http := { s.http with log := s.http.log ++ [o] } } := by
  have hi : HttpInv side s := hk.1.2
  refine kept_http hk hacc rfl (List.subset_append_left ..) ?_ ?_ fun hl hp => ?_
  · simp [hi.parserUsed, hparser.symm]
  · simp [hi.serverUsed, hserver.symm]
  · rcases hi.released hl hp with he | ⟨hw, hd⟩
    · exact .inl he
    · exact .inr ⟨wentWrong_mono (s := s) rfl (List.Subset.refl _) (List.subset_append_left ..) hw,
        hd⟩

/-- Outside code has control in the middle of a call. -/
theorem wp_yieldTo_obeys {u : HttpYield} {Q : Unit → Socket → Prop}
    (hk : Kept (connection side) s₀ s)
    (hQ : ∀ t, (inTime P).returns u t → Kept (connection side) s t → Q () t) :
    (Prog.yieldTo u : Method Unit).wp (inTime P) .nil (basis.and (connection side))
      (Kept (connection side) s₀) Q s :=
  ⟨hk.1, fun t _ ht => ⟨fun hret => hQ t hret ht, fun _ => hk.trans ht⟩⟩

end rules

/-! ### Using the parser -/

section parser

variable {P : Platform} {side : HttpSide} {s₀ s t : Socket}

theorem idle_executing (f : Nat → Nat) :
    Idle fun http => { http with executing := f http.executing } :=
  fun _ => ⟨rfl, rfl, rfl, rfl⟩

theorem idle_finishing (f : Nat → Nat) :
    Idle fun http => { http with finishing := f http.finishing } :=
  fun _ => ⟨rfl, rfl, rfl, rfl⟩

/-- Control goes to the parser, between two changes that no invariant reads. -/
theorem wp_parse {f g : HttpConnection → HttpConnection} {u : HttpYield} (hf : Idle f)
    (hg : Idle g) (hk : Kept (connection side) s₀ s) (hacc : s.accepting = false)
    {Q : Int → Socket → Prop} (hQ : ∀ ret t, Kept (connection side) s t → Q ret t) :
    (do
      modifyHttp f
      Prog.yieldTo u
      modifyHttp g
      Prog.askFor .error : Prog Socket HttpYield HttpAsk Int).wp (inTime P) .nil
        (basis.and (connection side)) (Kept (connection side) s₀) Q s := by
  simp only [Prog.wp_bind, wp_modifyHttp]
  have hstart := kept_idle hf hk.restart hacc
  refine wp_yieldTo_obeys (hk.trans hstart) fun t _ ht => ?_
  have hback := kept_idle hg (hstart.trans ht) (ht.mono.accepting hacc)
  exact fun ret _ => hQ ret _ hback

theorem wp_execute (hk : Kept (connection side) s₀ s) (hacc : s.accepting = false)
    {Q : Int → Socket → Prop} (hQ : ∀ ret t, Kept (connection side) s t → Q ret t) :
    execute.wp (inTime P) .nil (basis.and (connection side)) (Kept (connection side) s₀) Q s :=
  wp_parse (idle_executing (· + 1)) (idle_executing (· - 1)) hk hacc hQ

theorem wp_finish (hk : Kept (connection side) s₀ s) (hacc : s.accepting = false)
    {Q : Int → Socket → Prop} (hQ : ∀ ret t, Kept (connection side) s t → Q ret t) :
    finish.wp (inTime P) .nil (basis.and (connection side)) (Kept (connection side) s₀) Q s :=
  wp_parse (idle_finishing (· + 1)) (idle_finishing (· - 1)) hk hacc hQ

/-- `parser.finish(); socket.parser = null` -/
theorem wp_finish_release (hk : Kept (connection side) s₀ s) (hacc : s.accepting = false)
    (hr : MayRelease side s) {Q : Unit → Socket → Prop}
    (hQ : ∀ t, Kept (connection side) s t → Q () t) :
    (do
      let _ ← finish
      releaseParser : Method Unit).wp (inTime P) .nil (basis.and (connection side))
        (Kept (connection side) s₀) Q s := by
  simp only [Prog.wp_bind, wp_releaseParser]
  refine wp_finish hk hacc fun ret t ht => hQ _ ?_
  exact kept_release ht (ht.mono.accepting hacc) (hr.mono ht)

theorem net_destroy_obeys (hk : Kept (connection side) s₀ s) (hacc : s.accepting = false) :
    Obeys P side s₀ (net (Socket.destroy P)) s :=
  wp_net (destroy_keeps respects_connection hk hacc)

theorem net_destroySoon_obeys (hk : Kept (connection side) s₀ s) (hacc : s.accepting = false) :
    Obeys P side s₀ (net (Socket.destroySoon P)) s :=
  wp_net (destroySoon_keeps respects_connection hk hacc)

/-- Outside code has control at the end of a piece of code. -/
theorem yieldTo_obeys {u : HttpYield} (hk : Kept (connection side) s₀ s) :
    Obeys P side s₀ (Prog.yieldTo u) s :=
  wp_yieldTo_obeys hk fun _ _ ht => hk.trans ht

end parser

/-! ### The client -/

section client

variable {P : Platform} {s₀ s t : Socket}

theorem wp_clientEmit {o : HttpObs} (hparser : o ≠ .nullParser) (hserver : o ≠ .nullServer)
    (hk : Kept (connection .client) s₀ s) (hacc : s.accepting = false)
    {Q : Unit → Socket → Prop} (hQ : ∀ t, Kept (connection .client) s t → Q () t) :
    (Client.emit o).wp (inTime P) .nil (basis.and (connection .client))
      (Kept (connection .client) s₀) Q s := by
  have hrecord := kept_record hparser hserver hk.restart hacc
  simp only [Client.emit, Prog.wp_bind, wp_record]
  exact wp_yieldTo_obeys (hk.trans hrecord) fun t _ ht => hQ t (hrecord.trans ht)

/-- `unrefParser`, and the `destroy` that follows it. -/
theorem unref_destroy_obeys (hk : Kept (connection .client) s₀ s) (hacc : s.accepting = false)
    (hr : MayRelease .client s) : Obeys P .client s₀ (do
      Client.unrefParser
      net (Socket.destroy P)) s := by
  simp only [Client.unrefParser, Prog.wp_bind, Prog.wp_get, Prog.wp_ite, Prog.wp_pure]
  refine ⟨fun _ => ?_, fun _ => net_destroy_obeys hk hacc⟩
  have h := wp_finish_release (P := P) (Q := fun _ => Obeys P .client s₀ (net (Socket.destroy P)))
    hk hacc hr fun t ht => net_destroy_obeys (hk.trans ht) (ht.mono.accepting hacc)
  simpa only [Prog.wp_bind] using h

theorem client_socketOnData_obeys (hk : Kept (connection .client) s₀ s)
    (hacc : s.accepting = false) (hp : s.http.parser = true) :
    Obeys P .client s₀ (Client.socketOnData P) s := by
  simp only [Client.socketOnData, Prog.wp_bind, Prog.wp_ite, Prog.wp_pure, wp_record]
  refine wp_useParser hp (wp_execute hk hacc fun ret t ht => ⟨fun _ => ?_, fun _ => hk.trans ht⟩)
  have htacc := ht.mono.accepting hacc
  -- the response is malformed
  have hbad := kept_record (o := .malformed) (by simp) (by simp) (hk.trans ht) htacc
  have hr : MayRelease .client
      { t with http := { t.http with log := t.http.log ++ [.malformed] } } :=
    .inr ⟨by simp [wentWrong], by simp⟩
  have h := wp_finish_release (P := P) (Q := fun _ t => (net (Socket.destroy P)).wp (inTime P) .nil
    (basis.and (connection .client)) (Kept (connection .client) s₀)
    (fun _ t => Obeys P .client s₀ (Client.emit (.error .parse)) t) t) hbad htacc hr fun u hu => ?_
  · simpa only [Prog.wp_bind] using h
  · have huacc := hu.mono.accepting htacc
    refine Prog.wp_mono (fun _ => (hbad.trans hu).trans) (fun _ v hv => ?_) _
      (net_destroy_obeys hu.restart huacc)
    have hkv := (hbad.trans hu).trans hv
    exact wp_clientEmit (by simp) (by simp) hkv (hv.mono.accepting huacc) fun w hw => hkv.trans hw

/-- The handlers of a client, 'close' apart. -/
theorem client_listener_obeys {e : SocketEvent} (hk : Kept (connection .client) s₀ s)
    (hl : s.http.listening = true) (hheard : heard (.event e) s) :
    Obeys P .client s₀ (Client.listener P e) s := by
  have hi : HttpInv .client s := hk.1.2
  have hacc := accepting_of_listening hi hl
  cases e with
  | error m => exact unref_destroy_obeys hk hacc (.inr ⟨(hheard hl).1 hi.whose, by simp⟩)
  | data d => exact client_socketOnData_obeys hk hacc (hheard hl)
  | end_ => exact unref_destroy_obeys hk hacc (.inl (hheard hl).1)
  | _ => exact hk

/-- `socket.read()` of a client that was closed emits 'end', if anything. -/
theorem client_read_obeys (hk : Kept (connection .client) s₀ s) (hacc : s.accepting = false) :
    Obeys P .client s₀ (within (fun | .event e => Client.listener P e | _ => pure ()) (do
      let _ ← (Socket.readable P).read none)) s := by
  refine wp_within (A := fun u t => u = .event .end_ ∧ t._readableState.endEmitted = true ∧
    t.accepting = false) ?_ ?_ ?_
  · rintro u t hinv ⟨rfl, he, htacc⟩
    exact unref_destroy_obeys (.refl hinv.1 hinv.2) htacc (.inl he)
  · simp only [Prog.wp_bind]
    exact read_keeps respects_connection hk hacc
  · simp only [Prog.hands_bind]
    exact read_hands hk.base.orderly fun _ t ht => ⟨rfl, ht.endEmitted, ht.accepting.trans hacc⟩

theorem client_socketOnClose_obeys (hk : Kept (connection .client) s₀ s)
    (hacc : s.accepting = false) (hw : wentWrong s = true) :
    Obeys P .client s₀ (Client.socketOnClose P) s := by
  -- what follows the request's listeners of 'close'
  have hlast : ∀ (parser : Bool) (t : Socket), Kept (connection .client) s t →
      Obeys P .client s₀ (do
        if parser then
          let _ ← finish
          releaseParser) t := by
    intro parser t ht
    cases parser with
    | false => exact hk.trans ht
    | true =>
        refine wp_finish_release (hk.trans ht) (ht.mono.accepting hacc) (.inr ⟨ht.2.2 hw, by simp⟩)
          fun u hu => ?_
        exact (hk.trans ht).trans hu
  simp only [Client.socketOnClose]
  refine (Prog.wp_bind ..).mpr ((Prog.wp_get ..).mpr ((Prog.wp_bind ..).mpr ?_))
  refine Prog.wp_mono (fun _ => hk.trans) (fun _ t ht => ?_) _ (client_read_obeys hk.restart hacc)
  refine (Prog.wp_bind ..).mpr (wp_clientEmit (by simp) (by simp) (hk.trans ht)
    (ht.mono.accepting hacc) fun u hu => ?_)
  have hku := ht.trans hu
  have huacc := hku.mono.accepting hacc
  refine (Prog.wp_bind ..).mpr ((Prog.wp_get ..).mpr ((Prog.wp_ite ..).mpr ⟨fun _ => ?_, fun _ => ?_⟩))
  · exact (Prog.wp_bind ..).mpr
      (wp_yieldTo_obeys (hk.trans hku) fun v _ hv => hlast _ v (hku.trans hv))
  · exact (Prog.wp_bind ..).mpr
      (wp_clientEmit (by simp) (by simp) (hk.trans hku) huacc fun v hv => hlast _ v (hku.trans hv))

theorem idle_res : Idle fun http => { http with res := true } := fun _ => ⟨rfl, rfl, rfl, rfl⟩

theorem parserOnIncomingClient_obeys (hk : Kept (connection .client) s₀ s)
    (hacc : s.accepting = false) :
    Obeys P .client s₀ (Client.parserOnIncomingClient P) s := by
  simp only [Client.parserOnIncomingClient, Prog.wp_bind, Prog.wp_get, Prog.wp_ite, wp_modifyHttp]
  refine ⟨fun _ => net_destroy_obeys hk hacc, fun _ => ?_⟩
  have hres := kept_idle idle_res hk hacc
  exact wp_clientEmit (by simp) (by simp) hres hacc fun t ht => hres.trans ht

theorem responseOnEnd_obeys {side : HttpSide} (hk : Kept (connection side) s₀ s)
    (hacc : s.accepting = false) : Obeys P side s₀ (Client.responseOnEnd P) s := by
  simp only [Client.responseOnEnd, Prog.wp_bind, Prog.wp_get, Prog.wp_ite, Prog.wp_pure]
  exact ⟨fun _ => net_destroySoon_obeys hk hacc, fun _ => hk⟩

end client

/-! ### The server -/

section server

variable {P : Platform} {s₀ s t : Socket}

theorem server_socketOnData_obeys (hk : Kept (connection .server) s₀ s)
    (hacc : s.accepting = false) (hp : s.http.parser = true) :
    Obeys P .server s₀ (Server.socketOnData P) s := by
  simp only [Server.socketOnData, Prog.wp_bind, Prog.wp_ite, Prog.wp_pure]
  refine wp_useParser hp (wp_execute hk hacc fun ret t ht => ⟨fun _ => ?_, fun _ => hk.trans ht⟩)
  exact net_destroy_obeys (hk.trans ht) (ht.mono.accepting hacc)

/-- `server` is read before `finish`, which may destroy the socket. -/
theorem server_socketOnEnd_obeys (hk : Kept (connection .server) s₀ s)
    (hacc : s.accepting = false) (he : s._readableState.endEmitted = true)
    (hp : s.http.parser = true) (hserver : s._server = true) :
    Obeys P .server s₀ (Server.socketOnEnd P) s := by
  simp only [Server.socketOnEnd, Prog.wp_bind, Prog.wp_get, Prog.wp_ite, Prog.wp_pure,
    wp_releaseParser]
  refine wp_useParser hp (wp_finish hk hacc fun ret t ht => ?_)
  have htacc := ht.mono.accepting hacc
  refine ⟨fun _ => net_destroy_obeys (hk.trans ht) htacc, fun _ => ?_⟩
  have hr : MayRelease .server s := .inl he
  have hrelease := kept_release (hk.trans ht) htacc (hr.mono ht)
  refine wp_useServer hserver fun allow _ =>
    ⟨fun _ => ⟨fun _ => ?_, fun _ => hrelease⟩, fun _ => hrelease⟩
  refine wp_net (Prog.wp_mono (fun _ => id) (fun _ _ hu => hu.1) _
    (end_keeps respects_connection none none hrelease htacc fun _ hsome => ?_))
  cases hsome

theorem server_socketOnClose_obeys (hk : Kept (connection .server) s₀ s)
    (hacc : s.accepting = false) (hr : MayRelease .server s) :
    Obeys P .server s₀ Server.socketOnClose s := by
  have hrelease := kept_release hk hacc hr
  simp only [Server.socketOnClose, Prog.wp_bind, Prog.wp_get, Prog.wp_ite, Prog.wp_pure,
    wp_releaseParser]
  exact ⟨fun _ => yieldTo_obeys hrelease, fun _ => hrelease⟩

theorem wp_emitTimeout {present : Bool} {u : HttpYield} (hk : Kept (connection .server) s₀ s)
    {Q : Int → Socket → Prop} (hQ : ∀ ret t, Kept (connection .server) s t → Q ret t) :
    (Server.emitTimeout present u).wp (inTime P) .nil (basis.and (connection .server))
      (Kept (connection .server) s₀) Q s := by
  simp only [Server.emitTimeout, Prog.wp_bind, Prog.wp_ite, Prog.wp_pure]
  refine ⟨fun _ => wp_yieldTo_obeys hk fun t _ ht => ?_, fun _ => hQ 0 s hk.restart⟩
  exact fun ret _ => hQ ret t ht

theorem server_socketOnTimeout_obeys (hk : Kept (connection .server) s₀ s)
    (hacc : s.accepting = false) (hserver : s._server = true) :
    Obeys P .server s₀ (Server.socketOnTimeout P) s := by
  simp only [Server.socketOnTimeout, Prog.wp_bind, Prog.wp_get]
  refine wp_useServer hserver (wp_emitTimeout hk fun serverTimeout t ht => ?_)
  refine wp_emitTimeout (hk.trans ht) fun reqTimeout u hu => ?_
  refine wp_emitTimeout ((hk.trans ht).trans hu) fun resTimeout v hv => ?_
  have hkv := (ht.trans hu).trans hv
  refine (Prog.wp_ite ..).mpr ⟨fun _ => ?_, fun _ => hk.trans hkv⟩
  exact net_destroy_obeys (hk.trans hkv) (hkv.mono.accepting hacc)

theorem server_socketOnError_obeys (hk : Kept (connection .server) s₀ s)
    (hacc : s.accepting = false) (hserver : s._server = true) :
    Obeys P .server s₀ (Server.socketOnError P) s := by
  simp only [Server.socketOnError, Prog.wp_bind, Prog.wp_get]
  refine wp_useServer hserver (Prog.wp_mono (fun _ => hk.trans) (fun _ t ht => ?_) _
    (net_destroy_obeys hk.restart hacc))
  exact yieldTo_obeys (hk.trans ht)

/-- The handlers of a server, 'close' apart. -/
theorem server_listener_obeys {e : SocketEvent} (hk : Kept (connection .server) s₀ s)
    (hl : s.http.listening = true) (hheard : heard (.event e) s) :
    Obeys P .server s₀ (Server.listener P e) s := by
  have hi : HttpInv .server s := hk.1.2
  have hacc := accepting_of_listening hi hl
  cases e with
  | error m => exact server_socketOnError_obeys hk hacc ((hheard hl).2 hi.whose)
  | data d => exact server_socketOnData_obeys hk hacc (hheard hl)
  | end_ =>
      obtain ⟨he, hserver⟩ := hheard hl
      exact server_socketOnEnd_obeys hk hacc he (hserver hi.whose).1 (hserver hi.whose).2
  | timeout => exact server_socketOnTimeout_obeys hk hacc (hheard hl hi.whose)
  | _ => exact hk

theorem idle_httpMessage (b : Bool) : Idle fun http => { http with _httpMessage := b } :=
  fun _ => ⟨rfl, rfl, rfl, rfl⟩

theorem parserOnIncoming_obeys (hk : Kept (connection .server) s₀ s)
    (hacc : s.accepting = false) (hserver : s._server = true) :
    Obeys P .server s₀ Server.parserOnIncoming s := by
  simp only [Server.parserOnIncoming, Prog.wp_bind, Prog.wp_get, wp_modifyHttp]
  exact wp_useServer hserver (yieldTo_obeys (kept_idle (idle_httpMessage true) hk hacc))

theorem resOnFinish_obeys {side : HttpSide} (hk : Kept (connection side) s₀ s)
    (hacc : s.accepting = false) : Obeys P side s₀ (Server.resOnFinish P) s := by
  simp only [Server.resOnFinish, Prog.wp_bind, wp_modifyHttp]
  exact net_destroySoon_obeys (kept_idle (idle_httpMessage false) hk hacc) hacc

end server

/-! ### Every event -/

section listen

variable {P : Platform} {side : HttpSide} {s₀ s t : Socket}

/-- The handlers of the HTTP module that has the socket. -/
theorem dispatch_obeys {e : SocketEvent} {client server : SocketEvent → Method Unit}
    (hk : Kept (connection side) s₀ s)
    (hclient : side = .client → s.http.listening = true → Obeys P side s₀ (client e) s)
    (hserver : side = .server → s.http.listening = true → Obeys P side s₀ (server e) s) :
    Obeys P side s₀ (dispatch client server (.event e)) s := by
  have hi : HttpInv side s := hk.1.2
  simp only [dispatch, Prog.wp_bind, Prog.wp_get, Prog.wp_ite, Prog.wp_pure]
  refine ⟨fun hl => ?_, fun _ => hk⟩
  rw [hi.whose]
  cases side with
  | neither => exact hk
  | client => exact hclient rfl hl
  | server => exact hserver rfl hl

theorem onRead_obeys {u : SocketYield} (hk : Kept (connection side) s₀ s) (hheard : heard u s) :
    Obeys P side s₀ (onRead P u) s := by
  cases u with
  | callback => exact hk
  | getaddrinfo => exact hk
  | event e =>
      refine dispatch_obeys hk ?_ ?_
      · rintro rfl hl
        exact client_listener_obeys hk hl hheard
      · rintro rfl hl
        exact server_listener_obeys hk hl hheard

/-- A part of the code of `net.js` that emits what the handlers of `onRead` hear. -/
theorem within_onRead_obeys {p : Socket.Method Unit} (h : Keeps (around (inTime P))
      (connection side) s₀ p s)
    (hhands : p.hands (around (inTime P)) (basis.and (connection side)) heard
      (fun _ _ => True) s) : Obeys P side s₀ (within (onRead P) p) s :=
  wp_within (fun _ _ hinv hheard => onRead_obeys (.refl hinv.1 hinv.2) hheard) h hhands

/-- Registering the handler of 'data' may deliver what is buffered, and the end. -/
theorem on_data_hands (hp : s.http.parser = true) :
    ((Socket.readable P).on P "data").hands (around (inTime P)) (basis.and (connection side)) heard
      (fun _ _ => True) s := by
  refine on_hands (fun _ _ _ d t ht _ => ?_) fun d t hinv hret hf u hu =>
    heard_endFollows hinv hret hf hu
  rw [ht]
  exact hp

/-- Registering another handler emits nothing. -/
theorem hands_on_other {E : Surroundings} {C : Contract Socket} {A : SocketYield → Socket → Prop}
    {ev : String} {Q : Unit → Socket → Prop} (hev : ev ≠ "data")
    (h : Q () { s with errorListener := s.errorListener || ev = "error" }) :
    ((Socket.readable P).on P ev).hands E C A Q s := by
  simp only [ReadableObject.on, Prog.hands_bind, Prog.hands_ite]
  exact ⟨fun h' => absurd h' hev, fun _ => h⟩

/-- Registering one handler, and then the rest. -/
theorem on_then_keeps {ev : String} {rest : Unit → Socket.Method Unit}
    (hk : Kept (connection side) s₀ s) (hacc : s.accepting = false)
    (hrest : ∀ t, Kept (connection side) s₀ t → t.accepting = false →
      Keeps (around (inTime P)) (connection side) s₀ (rest ()) t) :
    Keeps (around (inTime P)) (connection side) s₀ ((Socket.readable P).on P ev >>= rest) s := by
  refine (Prog.wp_bind ..).mpr (Prog.wp_mono (fun _ => hk.trans) (fun _ t ht => ?_) _
    (on_keeps respects_connection hk.restart hacc))
  exact hrest t (hk.trans ht) (ht.mono.accepting hacc)

/-- The state that the handlers of both sides start from. -/
theorem kept_listening (hk : Kept (connection side) s₀ s) (hacc : s.accepting = false) :
    Kept (connection side) s₀
      { s with http := { s.http with parser := true, incoming := false, listening := true } } := by
  refine kept_http hk hacc rfl (List.Subset.refl _) hk.1.2.parserUsed hk.1.2.serverUsed ?_
  rintro _ ⟨⟩

theorem setupConnection_obeys (hk : Kept (connection side) s₀ s) (hacc : s.accepting = false) :
    Obeys P side s₀ (setupConnection P) s := by
  simp only [setupConnection, Prog.wp_bind, wp_modifyHttp]
  refine within_onRead_obeys ?_ ?_
  · refine on_then_keeps (kept_listening hk hacc) hacc fun t ht htacc => ?_
    refine on_then_keeps ht htacc fun u hu huacc => ?_
    refine on_then_keeps hu huacc fun v hv hvacc => ?_
    exact on_keeps respects_connection hv hvacc
  · simp only [Prog.hands_bind]
    refine hands_on_other (by decide) (Prog.hands_mono (fun _ t _ => ?_) _ (on_data_hands rfl))
    exact hands_on_other (by decide) (hands_on_other (by decide) trivial)

theorem connectionListener_obeys (hk : Kept (connection side) s₀ s)
    (hacc : s.accepting = false) : Obeys P side s₀ (connectionListener P) s := by
  have hstart := kept_listening hk hacc
  simp only [connectionListener]
  refine (Prog.wp_bind ..).mpr (wp_modifyHttp.mpr ((Prog.wp_bind ..).mpr ?_))
  refine Prog.wp_mono (fun _ => id) (fun _ t ht => ?_) _
    (show Obeys P side s₀ _ _ from within_onRead_obeys ?_ ?_)
  · simp only [Prog.wp_bind, Prog.wp_ite, Prog.wp_pure]
    exact fun timeout _ => ⟨fun _ => wp_net (setTimeout_keeps respects_connection ht), fun _ => ht⟩
  · refine on_then_keeps hstart hacc fun t ht htacc => ?_
    refine on_then_keeps ht htacc fun u hu huacc => ?_
    refine on_then_keeps hu huacc fun v hv hvacc => ?_
    refine on_then_keeps hv hvacc fun w hw hwacc => ?_
    exact on_keeps respects_connection hw hwacc
  · simp only [Prog.hands_bind]
    refine Prog.hands_mono (fun _ t _ => ?_) _ (on_data_hands rfl)
    exact hands_on_other (by decide) (hands_on_other (by decide) (hands_on_other (by decide)
      (hands_on_other (by decide) trivial)))

/-- All handlers. -/
theorem listen_obeys {u : SocketYield} (hk : Kept (connection side) s₀ s) (hheard : heard u s) :
    Obeys P side s₀ (listen P u) s := by
  have hi : HttpInv side s := hk.1.2
  cases u with
  | callback => exact hk
  | getaddrinfo => exact hk
  | event e =>
      cases e with
      | connection =>
          simp only [listen, Prog.wp_bind, Prog.wp_get, Prog.wp_ite, Prog.wp_pure]
          exact ⟨fun _ => connectionListener_obeys hk hheard, fun _ => hk⟩
      | close =>
          show Obeys P side s₀ (dispatch (fun _ => Client.socketOnClose P)
            (fun _ => Server.socketOnClose) (.event .close)) s
          refine dispatch_obeys hk ?_ ?_
          · rintro rfl hl
            exact client_socketOnClose_obeys hk (accepting_of_listening hi hl) (hheard hl).1
          · rintro rfl hl
            refine server_socketOnClose_obeys hk (accepting_of_listening hi hl) (.inr ?_)
            exact ⟨(hheard hl).1, fun _ => (hheard hl).2⟩
      | _ => exact onRead_obeys hk hheard

end listen

/-! ### Every call -/

section calls

variable {P : Platform} {side : HttpSide} {s : Socket} {atRest : Bool}

/-- A call of `net.js`, with the handlers inside. -/
theorem within_listen_obeys {i : Socket.Call} (hk : Kept (connection side) s s)
    (hen : Socket.enabled P s atRest i = true) (hcall : (inTime P).call (.socket i) s) :
    Obeys P side s (within (listen P) (Socket.body P i)) s := by
  refine wp_within (A := heard) ?_ (socket_keeps hk hen hcall) ?_
  · exact fun u t hinv hheard => listen_obeys (.refl hinv.1 hinv.2) hheard
  · exact body_hands hk.base (prepared_of_inTime hk.base hk.1.2 hen hcall)

theorem clientRequest_obeys {options : ConnectOptions} (hk : Kept (connection side) s s)
    (hnone : s._handle = none) : Obeys P side s (clientRequest P options) s := by
  have hacc : s.accepting = false := by
    cases hacc : s.accepting with
    | false => rfl
    | true =>
        have hsome := hk.base.handle.accepting hacc
        rw [hnone] at hsome
        cases hsome
  have hen : Socket.enabled P s true (.connect options) = true := by
    simp [Socket.enabled, hacc]
  simp only [clientRequest]
  refine (Prog.wp_bind ..).mpr (Prog.wp_mono (fun _ => id) (fun _ t ht => ?_) _
    (within_listen_obeys hk hen ⟨fun h => ?_, fun _ => rfl⟩))
  · exact setupConnection_obeys ht (ht.mono.accepting hacc)
  · cases h

theorem idle_incoming : Idle fun http => { http with incoming := true, complete := false } :=
  fun _ => ⟨rfl, rfl, rfl, rfl⟩

theorem idle_complete : Idle fun http => { http with complete := true } :=
  fun _ => ⟨rfl, rfl, rfl, rfl⟩

theorem parserOnHeadersComplete_obeys (hk : Kept (connection side) s s)
    (hacc : s.accepting = false) (ho : orphaned s = false) :
    Obeys P side s (parserOnHeadersComplete P) s := by
  have hi : HttpInv side s := hk.1.2
  have hstart := kept_idle idle_incoming hk hacc
  simp only [parserOnHeadersComplete, Prog.wp_bind, Prog.wp_get, wp_modifyHttp]
  rw [hi.whose] at hstart ⊢
  cases side with
  | neither => exact hstart
  | client => exact parserOnIncomingClient_obeys hstart hacc
  | server => exact parserOnIncoming_obeys hstart hacc (server_of_not_orphaned hi hi.whose ho).1

/-- The end of a message resumes the socket, which may deliver what is buffered. -/
theorem parserOnMessageComplete_obeys (hk : Kept (connection side) s s)
    (hacc : s.accepting = false) : Obeys P side s (parserOnMessageComplete P) s := by
  have hstart := kept_idle idle_complete hk hacc
  simp only [parserOnMessageComplete, Prog.wp_bind, Prog.wp_get, Prog.wp_ite, wp_modifyHttp]
  refine ⟨fun _ => wp_yieldTo_obeys hstart fun t hret ht => ?_, fun _ => hk⟩
  refine within_onRead_obeys (resume_keeps respects_connection (hstart.trans ht)
    (ht.mono.accepting hacc)) (resume_hands (fun hf hl d u hu hlisten => ?_) ?_)
  · have hd : delivers P t .resume = true := by
      simp [delivers, hf, hl]
    rw [hu] at hlisten ⊢
    exact parser_of_delivers ht.base ht.1.2 hd (hret hd) hlisten
  · exact fun d u hinv huret hf v hv => heard_endFollows hinv huret hf hv

/-- Every call keeps the contract. -/
theorem holds_connection {s₀ : Socket} (hb : Base s₀) (hi : HttpInv side s₀) :
    Contract.Holds (machine P) (inTime P) .nil (basis.and (connection side)) s₀ := by
  refine Contract.Holds.intro ⟨hb, hi⟩ fun i atRest s _ hs hen hcall => ?_
  have hk : Kept (connection side) s s := .refl hs.1 hs.2
  -- a connection that HTTP has not touched has nothing that could make the call
  have hacc : (s.http = .new side → enabled P s atRest i = false) → s.accepting = false := by
    intro hnew
    refine not_accepting hs.2 fun h => ?_
    rw [show enabled P s atRest i = true from hen] at hnew
    cases hnew h
  cases i with
  | clientRequest options =>
      refine clientRequest_obeys hk ?_
      simp only [machine, enabled, Bool.and_eq_true, Option.isNone_iff_eq_none] at hen
      exact hen.2
  | socket i =>
      simp only [machine, enabled, Bool.and_eq_true] at hen
      exact within_listen_obeys hk hen.1 hcall
  | parserOnHeadersComplete =>
      refine parserOnHeadersComplete_obeys hk (hacc fun hnew => ?_) hcall
      simp [enabled, hnew, HttpConnection.new]
  | parserOnMessageComplete =>
      refine parserOnMessageComplete_obeys hk (hacc fun hnew => ?_)
      simp [enabled, hnew, HttpConnection.new]
  | responseOnEnd =>
      refine responseOnEnd_obeys hk (hacc fun hnew => ?_)
      simp [enabled, hnew, HttpConnection.new]
  | resOnFinish =>
      refine resOnFinish_obeys hk (hacc fun hnew => ?_)
      simp [enabled, hnew, HttpConnection.new]

end calls

/-! ### Runs -/

theorem httpInv_client : HttpInv .client client :=
  ⟨rfl, by simp [client, HttpConnection.new], by simp [client, HttpConnection.new],
    fun h => (by cases h), fun h => (by cases h), fun h => (by cases h), fun h => (by cases h)⟩

theorem httpInv_server : HttpInv .server server :=
  ⟨rfl, by simp [server, HttpConnection.new], by simp [server, HttpConnection.new],
    fun h => (by cases h), fun h => (by cases h), fun _ => rfl,
    fun _ => ⟨rfl, .inl rfl, rfl, rfl, fun _ h => (by cases h)⟩⟩

/-- In every run in which no event comes too late, on the client and on the server, no handler
uses a parser that was released, or the server of a socket that no longer has one. -/
theorem released_not_used (P : Platform) {s₀ : Socket} (hs₀ : s₀ = client ∨ s₀ = server)
    {c : Config Socket HttpYield HttpAsk} (hc : (machine P).Reach (inTime P) s₀ c) :
    .nullParser ∉ c.heap.http.log ∧ .nullServer ∉ c.heap.http.log := by
  rcases hs₀ with rfl | rfl
  · have hbase : Base client := base_http (base_of_initial (.inl ⟨none, false, rfl⟩))
    have hinv := (holds_connection hbase httpInv_client).inv_of_reach hc
    exact ⟨hinv.2.parserUsed, hinv.2.serverUsed⟩
  · have hbase : Base server := base_http (base_of_initial (.inr ⟨true, rfl⟩))
    have hinv := (holds_connection hbase httpInv_server).inv_of_reach hc
    exact ⟨hinv.2.parserUsed, hinv.2.serverUsed⟩

/-- A response arrives, and the parser has it. -/
theorem released_not_used_response :
    ∃ c : Config Socket HttpYield HttpAsk, c.heap.http.executing = 1 ∧
      .nullParser ∉ c.heap.http.log ∧ .nullServer ∉ c.heap.http.log := by
  obtain ⟨c, hc, hrun⟩ := Machine.exists_reach_of_run (machine (.ascii false))
    (inTime (.ascii false)) client
    [.call (.clientRequest ⟨.string "a", some 80, 0⟩) [], .call (.socket (.afterLookup 0)) [],
      .ret [], .call (.socket (.afterConnect 0)) [], .ret [], .call (.socket (.tick 0)) [],
      .call (.socket (.onread (.data [1]))) []]
    (fun c => c.heap.http.executing == 1) rfl
  exact ⟨c, by simpa using hrun, released_not_used (.ascii false) (.inl rfl) hc⟩

/-- A client that writes gets two blocks of a malformed response: the second one finds no
parser. A timeout fires on a socket that its server no longer has. -/
theorem released_used :
    (∃ c : Config Socket HttpYield HttpAsk, (machine (.ascii false)).Reach .free client c ∧
      .nullParser ∈ c.heap.http.log) ∧
    ∃ c : Config Socket HttpYield HttpAsk, (machine (.ascii false)).Reach .free server c ∧
      .nullServer ∈ c.heap.http.log := by
  constructor
  · obtain ⟨c, hc, hrun⟩ := Machine.exists_reach_of_run (machine (.ascii false)) .free client
      [.call (.clientRequest ⟨.string "a", some 80, 0⟩) [], .call (.socket (.afterLookup 0)) [],
        .ret [], .call (.socket (.afterConnect 0)) [], .ret [], .call (.socket (.tick 0)) [],
        .call (.socket (.write (.data (.buffer [1])) none)) [],
        .call (.socket (.onread (.data [1]))) [], .ret [1], .ret [0], .ret [], .ret [],
        .call (.socket (.onread (.data [1]))) []]
      (fun c => c.heap.http.log.contains .nullParser) rfl
    exact ⟨c, hc, by simpa using hrun⟩
  · obtain ⟨c, hc, hrun⟩ := Machine.exists_reach_of_run (machine (.ascii false)) .free server
      [.call (.socket .onconnection) [0], .ret [], .call (.socket (.end_ none none)) [],
        .call (.socket (.tick 1)) [0], .ret [], .call (.socket .destroy) [],
        .call (.socket (.setTimeout 1)) [], .call (.socket (.elapse 1)) [],
        .call (.socket .onTimeout) []]
      (fun c => c.heap.http.log.contains .nullServer) rfl
    exact ⟨c, hc, by simpa using hrun⟩

end IotJs.Http

import IotJs.Core.Http
import IotJs.Proofs.SocketYields

/-!
# `IotJs.Proofs.HttpContract`: what the handlers of HTTP count on

A handler uses `socket.parser` and `socket._server` without a look, or after one. The parser is
released by the handlers alone: when the stream has ended, and where something went wrong
(`wentWrong`). `_server` is cleared by `net.js`, together with the flag `destroyed`.

`HttpInv` says so of a connection, and `connection` makes a contract of it. The code of `net.js`
leaves what the HTTP modules keep as it is, so it keeps the contract (`socket_keeps`). A server
never looks anything up, and never connects: its sockets are connected from the start.
-/

set_option autoImplicit false

namespace IotJs

open Reentrant

namespace Socket

/-! ### What the actions leave -/

/-- What an action of `net.js` does to the fields that HTTP looks at. -/
structure Leaves (s t : Socket) : Prop where
  http : t.http = s.http
  log : s.log <+: t.log
  closing : t.closing = true → s.closing = true ∨ t._socketState.destroyed = true
  server : t._server = s._server ∧ t._socketState.destroyed = s._socketState.destroyed ∨
    t._server = false ∧ t._socketState.destroyed = true
  accepting : t.accepting = s.accepting ∨ t._writableState.ready = true

section leaves

variable {E : Surroundings} {k : Kind} {s t u : Socket}

theorem Leaves.trans (h₁ : Leaves s t) (h₂ : Leaves t u)
    (hready : t._writableState.ready = true → u._writableState.ready = true) : Leaves s u where
  http := h₂.http.trans h₁.http
  log := h₁.log.trans h₂.log
  closing hc := by
    rcases h₂.closing hc with ht | hd
    · rcases h₁.closing ht with hs | hd
      · exact .inl hs
      · refine .inr ?_
        rcases h₂.server with ⟨-, heq⟩ | ⟨-, hu⟩
        · rw [heq]
          exact hd
        · exact hu
    · exact .inr hd
  server := by
    rcases h₂.server with ⟨hserver, hd⟩ | hu
    · rw [hserver, hd]
      exact h₁.server
    · exact .inr hu
  accepting := by
    rcases h₂.accepting with heq | hr
    · rw [heq]
      exact h₁.accepting.imp_right hready
    · exact .inr hr

theorem Hands.leaves {req : WriteReq} (h : Hands E req s t) : Leaves s t := by
  cases h with
  | sent => exact ⟨rfl, List.prefix_append .., .inl, .inl ⟨rfl, rfl⟩, .inl rfl⟩
  | refused =>
      exact ⟨rfl, (List.prefix_append ..).trans (List.prefix_append ..), .inl, .inl ⟨rfl, rfl⟩,
        .inl rfl⟩

theorem Flush.leaves (h : Flush E s t) : Leaves s t := by
  have hsame : Leaves s s := ⟨rfl, List.prefix_rfl, .inl, .inl ⟨rfl, rfl⟩, .inl rfl⟩
  cases h with
  | busy => exact hsame
  | idle => exact hsame
  | next hw hb h =>
      have hl := h.leaves
      exact ⟨hl.http, hl.log, hl.closing, hl.server, hl.accepting⟩

theorem leaves_closeNow : Leaves s (closeNow s) where
  http := rfl
  log := (List.prefix_append ..).trans (List.prefix_append ..)
  closing _ := .inr rfl
  server := .inr ⟨rfl, rfl⟩
  accepting := .inl rfl

theorem Finish.leaves (h : Finish E s t) : Leaves s t := by
  cases h with
  | close timer =>
      have hl := leaves_closeNow (s := { finishing s with _timer := timer })
      exact ⟨hl.http, (List.prefix_append ..).trans hl.log, hl.closing, hl.server, hl.accepting⟩
  | shutdown =>
      exact ⟨rfl, (List.prefix_append ..).trans (List.prefix_append ..), .inl, .inl ⟨rfl, rfl⟩,
        .inl rfl⟩
  | refused =>
      exact ⟨rfl, (List.prefix_append ..).trans (List.prefix_append ..), .inl, .inl ⟨rfl, rfl⟩,
        .inl rfl⟩

theorem Establishes.leaves (h : Establishes s t) : Leaves s t := by
  cases h with
  | connected => exact ⟨rfl, List.prefix_rfl, .inl, .inl ⟨rfl, rfl⟩, .inl rfl⟩
  | accepted => exact ⟨rfl, List.prefix_rfl, .inl, .inl ⟨rfl, rfl⟩, .inr rfl⟩

theorem Action.leaves (h : Action E k s t) : Leaves s t := by
  have happend : ∀ o : SocketObs, s.log <+: s.log ++ [o] := fun o => List.prefix_append ..
  have htwice : ∀ o o' : SocketObs, s.log <+: s.log ++ [o] ++ [o'] :=
    fun o o' => (List.prefix_append ..).trans (List.prefix_append ..)
  cases h with
  | onclose => exact ⟨rfl, List.prefix_rfl, fun hc => (by cases hc), .inl ⟨rfl, rfl⟩, .inl rfl⟩
  | write req he hr hw hb h =>
      have hl := h.leaves
      exact ⟨hl.http, (happend _).trans hl.log, hl.closing, hl.server, hl.accepting⟩
  | close => exact leaves_closeNow
  | establish h hf => exact h.leaves.trans hf.leaves hf.mono.ready
  | establishFinish h hdue hf => exact h.leaves.trans hf.leaves hf.mono.ready
  | complete hw hcall hf =>
      have hl := hf.leaves
      exact ⟨hl.http, (happend _).trans hl.log, hl.closing, hl.server, hl.accepting⟩
  | completeFinish hw hcall hdue hf =>
      have hl := hf.leaves
      exact ⟨hl.http, (happend _).trans hl.log, hl.closing, hl.server, hl.accepting⟩
  | shutdownClose timer =>
      have hl := leaves_closeNow (s := { s with shutdowns := s.shutdowns - 1, _timer := timer })
      exact ⟨hl.http, hl.log, hl.closing, hl.server, hl.accepting⟩
  | tickFinish hi hcall he hsome hf =>
      have hl := hf.leaves
      exact ⟨hl.http, hl.log, hl.closing, hl.server, hl.accepting⟩
  | _ =>
      first
      | exact ⟨rfl, List.prefix_rfl, .inl, .inl ⟨rfl, rfl⟩, .inl rfl⟩
      | exact ⟨rfl, happend _, .inl, .inl ⟨rfl, rfl⟩, .inl rfl⟩
      | exact ⟨rfl, htwice _ _, .inl, .inl ⟨rfl, rfl⟩, .inl rfl⟩

/-- Nothing is looked up or connected to, and no failure of either waits. -/
structure NoAttempt (lookups : List Lookup) (connects : Nat) (ticks : List SocketTick) :
    Prop where
  lookups : lookups = []
  connects : connects = 0
  failed : ∀ message, .lookupFailed message ∉ ticks

def Unattempted (s : Socket) : Prop := NoAttempt s.lookups s.connects s.ticks

theorem NoAttempt.append {lookups : List Lookup} {connects : Nat} {ticks : List SocketTick}
    (h : NoAttempt lookups connects ticks) {tick : SocketTick}
    (ht : ∀ message, tick ≠ .lookupFailed message) :
    NoAttempt lookups connects (ticks ++ [tick]) := by
  refine ⟨h.lookups, h.connects, fun message hm => ?_⟩
  rcases List.mem_append.mp hm with hm | hm
  · exact h.failed message hm
  · exact ht message (List.mem_singleton.mp hm).symm

theorem NoAttempt.eraseIdx {lookups : List Lookup} {connects : Nat} {ticks : List SocketTick}
    (h : NoAttempt lookups connects ticks) (i : Nat) :
    NoAttempt lookups connects (ticks.eraseIdx i) :=
  ⟨h.lookups, h.connects, fun message hm => h.failed message (List.mem_of_mem_eraseIdx hm)⟩

/-- A native connect that completes was not there. -/
theorem NoAttempt.pred {lookups : List Lookup} {connects : Nat} {ticks : List SocketTick}
    (h : NoAttempt lookups connects ticks) : NoAttempt lookups (connects - 1) ticks := by
  refine ⟨h.lookups, ?_, h.failed⟩
  rw [h.connects]

theorem Hands.unattempted {req : WriteReq} (h : Hands E req s t) (hs : Unattempted s) : Unattempted t := by
  cases h <;> exact hs

theorem Flush.unattempted (h : Flush E s t) (hs : Unattempted s) : Unattempted t := by
  cases h with
  | next _ _ h => exact h.unattempted hs
  | _ => exact hs

theorem Finish.unattempted (h : Finish E s t) (hs : Unattempted s) : Unattempted t := by
  cases h <;> exact hs

theorem Establishes.unattempted (h : Establishes s t) (hs : Unattempted s) : Unattempted t := by
  cases h with
  | connected => exact NoAttempt.pred hs
  | accepted => exact hs

theorem Action.unattempted (h : Action E k s t) (hk : k ≠ .connecting) (hs : Unattempted s) :
    Unattempted t := by
  cases h with
  | connecting => exact absurd rfl hk
  | lookup => exact absurd rfl hk
  | afterLookup => exact absurd rfl hk
  | lookupFailed => exact absurd rfl hk
  | scheduleFailed => exact absurd rfl hk
  | connectHandle => exact absurd rfl hk
  | write req he hr hw hb h => exact h.unattempted hs
  | callBack => exact hs.append fun _ => by simp
  | endIdle => exact hs.append fun _ => by simp
  | connectFailed => exact NoAttempt.pred hs
  | connectIgnored => exact NoAttempt.pred hs
  | establish h hf => exact hf.unattempted (h.unattempted hs)
  | establishFinish h hdue hf => exact hf.unattempted (h.unattempted hs)
  | scheduleReadStart => exact hs.append fun _ => by simp
  | complete hw hcall hf => exact hf.unattempted hs
  | completeFinish hw hcall hdue hf => exact hf.unattempted hs
  | tickFinish hi hcall he hsome hf => exact hf.unattempted (NoAttempt.eraseIdx hs _)
  | tickMissing => exact hs.eraseIdx _
  | tickEnded => exact hs.eraseIdx _
  | tickCallback => exact hs.eraseIdx _
  | tickLookupFailed => exact hs.eraseIdx _
  | tickLookupThrown => exact hs.eraseIdx _
  | readStart => exact hs.eraseIdx _
  | _ => exact hs

end leaves

end Socket

namespace Http

open Socket

/-! ### The contract -/

/-- The events in which the handlers release the parser. -/
def releases : HttpSide → SocketObs → Bool
  | _, .event .close => true
  | .client, .event (.error _) => true
  | _, _ => false

/-- Why the handlers release the parser of a stream that has not ended: the socket had an error
or was closed, or a response was malformed. -/
def wentWrong (s : Socket) : Bool :=
  s.log.any (releases s.http.side) || s.http.log.contains .malformed

/-- A socket of a server. -/
structure Accepted (s : Socket) : Prop where
  server : s._server = !s._socketState.destroyed
  up : s.accepting = true ∨ s._writableState.ready = true
  unattempted : Unattempted s

/-- What is true of a connection whenever outside code has control. -/
structure HttpInv (side : HttpSide) (s : Socket) : Prop where
  whose : s.http.side = side
  parserUsed : .nullParser ∉ s.http.log
  serverUsed : .nullServer ∉ s.http.log
  closing : s.closing = true → s._socketState.destroyed = true
  released : s.http.listening = true → s.http.parser = false →
    s._readableState.endEmitted = true ∨
      wentWrong s = true ∧ (side = .server → s._socketState.destroyed = true)
  /-- the handlers are registered when the server has taken the connection -/
  untouched : s.accepting = true → s.http = .new side
  accepted : side = .server → Accepted s

/-- The contract of a connection. -/
def connection (side : HttpSide) : Contract Socket :=
  .plain (HttpInv side) (fun s t => wentWrong s = true → wentWrong t = true) (fun _ => id)
    fun h₁ h₂ => h₂ ∘ h₁

theorem wentWrong_mono {s t : Socket} (hside : t.http.side = s.http.side)
    (hlog : s.log ⊆ t.log) (hhttp : s.http.log ⊆ t.http.log) (h : wentWrong s = true) :
    wentWrong t = true := by
  simp only [wentWrong, Bool.or_eq_true, List.any_eq_true, List.contains_iff_mem] at h ⊢
  rcases h with ⟨o, ho, hr⟩ | hm
  · rw [← hside] at hr
    exact .inl ⟨o, hlog ho, hr⟩
  · exact .inr (hhttp hm)

section actions

variable {E : Surroundings} {k : Kind} {s t : Socket} {side : HttpSide}

/-- The code of `net.js` keeps what HTTP counts on. On a server it makes no attempt to
connect. -/
theorem action_httpInv (h : Action E k s t) (hk : side = .server → k ≠ .connecting)
    (hi : HttpInv side s) : HttpInv side t ∧ (wentWrong s = true → wentWrong t = true) := by
  have hl := h.leaves
  have hm := h.mono
  have hwrong : wentWrong s = true → wentWrong t = true := by
    refine wentWrong_mono (by rw [hl.http]) hl.log.subset ?_
    rw [hl.http]
    exact List.Subset.refl _
  have hdestroyed : s._socketState.destroyed = true → t._socketState.destroyed = true :=
    hm.destroyed
  refine ⟨⟨?_, ?_, ?_, ?_, ?_, ?_, ?_⟩, hwrong⟩
  · rw [hl.http]
    exact hi.whose
  · rw [hl.http]
    exact hi.parserUsed
  · rw [hl.http]
    exact hi.serverUsed
  · intro hc
    rcases hl.closing hc with hs | hd
    · exact hdestroyed (hi.closing hs)
    · exact hd
  · rw [hl.http]
    intro hlisten hparser
    rcases hi.released hlisten hparser with hem | ⟨hw, hd⟩
    · exact .inl (hm.endEmitted hem)
    · exact .inr ⟨hwrong hw, fun hside => hdestroyed (hd hside)⟩
  · intro hacc
    rw [hl.http]
    refine hi.untouched ?_
    cases hs : s.accepting with
    | true => rfl
    | false =>
        rw [show t.accepting = false from hm.accepting hs] at hacc
        cases hacc
  · intro hside
    have ha := hi.accepted hside
    refine ⟨?_, ?_, h.unattempted (hk hside) ha.unattempted⟩
    · rcases hl.server with ⟨hserver, hd⟩ | ⟨hserver, hd⟩
      · rw [hserver, hd]
        exact ha.server
      · rw [hserver, hd]
        rfl
    · rcases hl.accepting with heq | hr
      · rw [heq]
        exact ha.up.imp_right hm.ready
      · exact .inr hr

end actions

/-! ### The code of `net.js` keeps the contract -/

/-- The surroundings of the socket, when those of the connection are `F`. What the handlers do
is part of them. Nobody connects a socket that is being accepted. -/
def around (F : Env Socket HttpYield HttpAsk Call) : Surroundings where
  call i s := F.call (.socket i) s ∧ ∀ options, i = .connect options → s.accepting = false
  answer q s r := F.answer (.socket q) s r
  returns u s := F.returns (.socket u) s
  throws _ _ := True

section keeps

variable {P : Platform} {F : Env Socket HttpYield HttpAsk Call} {E : Surroundings}
variable {side : HttpSide} {s₀ s t : Socket} {atRest : Bool} {i : Socket.Call}

theorem sound_connection {k : Kind} (hk : side = .server → k ≠ .connecting) :
    Sound E (connection side) k :=
  fun _ hi h => action_httpInv h hk hi

theorem respects_connection : Respects E (connection side) :=
  respects_of_sound (sound_connection fun _ => by simp) (sound_connection fun _ => by simp)

/-- A socket of a server is connected, or still being accepted. -/
theorem respectsConnect_connection : RespectsConnect P (around F) (connection side) := by
  cases side with
  | server =>
      refine ⟨?_, ?_⟩
      · intro s₀ s options h hcall
        have hup : s._socketState.connected = true := by
          rw [← h.base.life.ready]
          rcases (h.1.2.accepted rfl).up with hacc | hr
          · rw [hcall.2 options rfl] at hacc
            cases hacc
          · exact hr
        refine wp_connect h ?_ ?_
        · intro _ hn
          rw [hup] at hn
          cases hn
        · intro _ hn
          rw [hup] at hn
          cases hn
      · intro s₀ s err h hne
        exact absurd (h.1.2.accepted rfl).unattempted.lookups hne
  | neither => exact respectsConnect_of_sound respects_connection (sound_connection (by simp))
  | client => exact respectsConnect_of_sound respects_connection (sound_connection (by simp))

/-- Every call of `net.js` keeps the contract. -/
theorem socket_keeps (h : Kept (connection side) s s) (hen : Socket.enabled P s atRest i = true)
    (hcall : F.call (.socket i) s) : Keeps (around F) (connection side) s (Socket.body P i) s := by
  have hD : Respects (around F) (connection side) := respects_connection
  have haround : (around F).call i s := by
    refine ⟨hcall, ?_⟩
    rintro options rfl
    simpa [Socket.enabled] using hen
  cases hi : i.native with
  | false =>
      refine body_keeps hD i hi (respectsFinish_of_sound hD ?_) respectsConnect_connection h hen
        haround
      exact sound_connection fun _ => by simp
  | true =>
      have hrest := atRest_of_native hi hen
      subst hrest
      refine native_keeps hD (sound_connection fun _ => by simp)
        (sound_connection fun _ => by simp) (afterWrite_at hD ?_ ?_ h hen haround) hi h hen haround
      · exact sound_connection fun _ => by simp
      · intro s₀ s t hk ha
        refine finishes_of_kept hD (hk.act ?_ ha) ha.ended_of_completeFinish
        exact sound_connection fun _ => by simp

end keeps

end Http

end IotJs

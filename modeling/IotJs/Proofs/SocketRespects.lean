import IotJs.Proofs.SocketBase
import Mathlib.Logic.Relation

/-!
# `IotJs.Proofs.SocketRespects`: every call is made of actions

A contract that the actions keep is kept by every call of the machine. `Kept D s₀ s` is what a
call that started in `s₀` has established in `s`, and each lemma here takes one function of
`net.js` from a state that is kept to states that are kept. Where a contract holds of a whole
function and not of its actions, `Respects` asks for it of that function.

The lemmas speak about any contract `D`. `basis` is always at its side.
-/

set_option autoImplicit false

namespace IotJs.Socket

open Reentrant WritableObject ReadableObject

/-- What a call that started in `s₀` has established in `s`. -/
abbrev Kept (D : Contract Socket) (s₀ s : Socket) : Prop := (basis.and D).Post s₀ s

/-- The method, started in `s`, keeps the contract of the call that began in `s₀`. -/
abbrev Keeps {α : Type} (E : Surroundings) (D : Contract Socket) (s₀ : Socket) (m : Method α)
    (s : Socket) : Prop :=
  m.wp E .nil (basis.and D) (Kept D s₀) (fun _ => Kept D s₀) s

/-- The actions of a kind keep the contract. -/
def Sound (E : Surroundings) (D : Contract Socket) (k : Kind) : Prop :=
  ∀ {s t : Socket}, Base s → D.inv s → Action E k s t → D.inv t ∧ D.rely s t

/-- What follows `onSocketFinish`: the listeners of the application, and those of `destroy`. -/
def finishTail (P : Platform) (n : Nat) : Method Unit := do
  Prog.yieldTo (.event .finish)
  runFinishListeners P n

section

variable {P : Platform} {E : Surroundings} {D : Contract Socket} {k : Kind}
variable {s₀ s t u : Socket} {f : Method Unit}

theorem Kept.base (h : Kept D s₀ s) : Base s := h.1.1

theorem Kept.mono (h : Kept D s₀ s) : Mono s₀ s := h.2.1

/-- An action of a sound kind. -/
theorem Kept.act (h : Kept D s₀ s) (hs : Sound E D k) (ha : Action E k s t) : Kept D s₀ t := by
  obtain ⟨hinv, hrely⟩ := hs h.base h.1.2 ha
  exact ⟨⟨ha.base h.base, hinv⟩, h.mono.trans ha.mono, D.trans h.2.2 hrely⟩

/-- From the start of a call. -/
theorem Kept.refl (hb : Base s) (hd : D.inv s) : Kept D s s :=
  ⟨⟨hb, hd⟩, .refl s, D.refl s⟩

/-- A part of a call that is kept on its own. -/
theorem Kept.trans (h₁ : Kept D s₀ s) (h₂ : Kept D s t) : Kept D s₀ t :=
  ⟨h₂.1, h₁.mono.trans h₂.mono, D.trans h₁.2.2 h₂.2.2⟩

theorem Kept.restart (h : Kept D s₀ s) : Kept D s s := .refl h.base h.1.2

/-- Outside code has control in the middle of a call. -/
theorem wp_yieldTo_kept {v : SocketYield} {Q : Unit → Socket → Prop} (h : Kept D s₀ s)
    (hQ : ∀ t, E.returns v t → Kept D s t → Q () t) :
    (Prog.yieldTo v : Method Unit).wp E .nil (basis.and D) (Kept D s₀) Q s :=
  ⟨h.1, fun t _ ht => ⟨fun hret => hQ t hret ht, fun _ => h.trans ht⟩⟩

/-- What follows `onSocketFinish`, from the state `s` that it leaves, ends where the contract of
the call is kept. -/
def Finishes (P : Platform) (E : Surroundings) (D : Contract Socket) (s₀ s : Socket) : Prop :=
  (finishTail P s.finishListeners).wp E .nil (basis.and D) (Kept D s₀)
    (fun _ t => Kept D s₀ t ∧ Mono s t) s

variable (E D) in
/-- A contract that the common actions keep, and the rejection of a write. -/
structure Respects : Prop where
  common : Sound E D .common
  /-- a write after end, which an application made in the state `u` -/
  reject : ∀ {f : Method Unit} {i : Call} {s₀ s u : Socket} {log : List SocketObs}
    {callback : Option Callback}, Kept D s₀ s → s._writableState.ended = true → i.Writes callback →
    E.call i u → s = { u with log := log } →
    Keeps E D s₀ ((writableObject f).writeAfterEnd callback) s

variable (P E D) in
/-- A contract that 'finish' keeps as a whole. -/
def RespectsFinish : Prop :=
  ∀ {s₀ s t : Socket}, Kept D s₀ s → Action E .finish s t → Finishes P E D s₀ t

variable (P E D) in
/-- A contract that the two calls of an attempt to connect keep. -/
structure RespectsConnect : Prop where
  connect : ∀ {s₀ s : Socket} {options : ConnectOptions}, Kept D s₀ s →
    E.call (.connect options) s → Keeps E D s₀ (Socket.connect P options) s
  afterLookup : ∀ {s₀ s : Socket} {err : Int}, Kept D s₀ s → s.lookups ≠ [] →
    E.call (.afterLookup err) s → Keeps E D s₀ (body P (.afterLookup err)) s

variable (hD : Respects E D)
include hD

/-! ### Events -/

theorem record_keeps {o : SocketObs} (ho : o.silent = true) (h : Kept D s₀ s) :
    Kept D s₀ { s with log := s.log ++ [o] } :=
  h.act hD.common (.silent ho)

/-- An event that no property reads. -/
theorem emit_keeps {e : SocketEvent} (he : (SocketObs.event e).silent = true)
    (h : Kept D s₀ s) : Keeps E D s₀ (emit e) s := by
  refine (wp_emit ?_).mpr (Prog.wp_yieldTo_post (record_keeps hD he h))
  rintro message rfl
  cases he

theorem emit_error_keeps {message : String} (hc : ErrorCause E) (h : Kept D s₀ s) :
    Keeps E D s₀ (emit (.error message)) s :=
  wp_emit_error.mpr ⟨fun _ => Prog.wp_yieldTo_post (h.act hD.common (.error hc)), fun _ => h⟩

/-- Another value of the timer. -/
theorem Kept.timer (h : Kept D s₀ s) (timer : Option Timer) :
    Kept D s₀ { s with _timer := timer } :=
  h.act hD.common (.timer timer s._timeout s.now)

end

/-! ### Native calls -/

/-- The calls that the native side makes on its own, at rest. -/
def Call.native : Call → Bool
  | .afterWrite _ | .afterShutdown | .onread _ => true
  | _ => false

section

variable {P : Platform} {s : Socket} {atRest : Bool} {i : Call} {status : Int}
variable {result : ReadResult}

theorem atRest_of_native (hi : i.native = true) (hen : enabled P s atRest i = true) :
    atRest = true := by
  cases i with
  | afterWrite => simp_all [enabled]
  | afterShutdown => simp_all [enabled]
  | onread => simp_all [enabled]
  | _ => cases hi

theorem enabled_afterWrite (hen : enabled P s atRest (.afterWrite status) = true) :
    s.writes ≠ [] := by
  simp only [enabled, Bool.and_eq_true, Bool.not_eq_true', List.isEmpty_eq_false_iff] at hen
  exact hen.2

theorem enabled_afterShutdown (hen : enabled P s atRest .afterShutdown = true) :
    s.accepting = false ∧ 0 < s.shutdowns := by
  simp only [enabled, Bool.and_eq_true, decide_eq_true_eq, Bool.not_eq_true'] at hen
  exact ⟨hen.1.1, hen.2⟩

/-- Only a socket that was connected reads. -/
theorem enabled_onread (hb : Base s) (hen : enabled P s atRest (.onread result) = true) :
    s.accepting = false ∧ s._writableState.ready = true := by
  simp only [enabled, Bool.and_eq_true, Bool.not_eq_true', Option.any_eq_true] at hen
  obtain ⟨⟨⟨hacc, -⟩, -⟩, handle, heq, hreading, -⟩ := hen
  exact ⟨hacc, hb.handle.reading handle heq hreading⟩

end

/-! ### Writing -/

section

variable {ι : Type} {E : Surroundings} {G C : Contract Socket} {X : Socket → Prop} {s : Socket}
variable {f : Method Unit}

/-- `doWrite` on an idle stream with a handle. -/
theorem wp_doWrite_hands {req : WriteReq} {Q : Unit → Socket → Prop}
    (hw : s._writableState.writing = false) (hh : s._handle.isSome = true)
    (hQ : ∀ t, Hands E req s t → Q () t) :
    ((writableObject f).doWrite req).wp E G C X Q s := by
  refine wp_doWrite.mpr ⟨fun _ => ?_, fun hbusy => ?_⟩
  · show (_write req).wp E G C X Q _
    simp only [_write, Prog.wp_bind]
    refine wp_resetSocketTimeout fun timer => wp_useHandle.mpr ⟨fun hnone => ?_, fun _ => ?_⟩
    · rw [show s._handle = none from hnone] at hh
      cases hh
    · intro err hans
      refine (Prog.wp_ite ..).mpr ⟨fun herr => ?_, fun herr => ?_⟩
      · subst herr
        exact hQ _ (.sent timer hans)
      · exact hQ _ (.refused timer err herr hans)
  · rw [show s._writableState.writing = true from hbusy] at hw
    cases hw

end

section

variable {P : Platform} {E : Surroundings} {D : Contract Socket} {k : Kind}
variable {s₀ s t u : Socket} {f : Method Unit} (hD : Respects E D)
include hD

/-- A stream that has not ended takes the chunk, and does not end. -/
theorem writeOrBuffer_keeps {data : Data} {callback : Option Callback} (h : Kept D s₀ s)
    (he : s._writableState.ended = false) :
    ((writableObject f).writeOrBuffer P data callback).wp E .nil (basis.and D) (Kept D s₀)
      (fun _ t => Kept D s₀ t ∧ t._writableState.ended = false) s := by
  -- the test of the high water mark comes last on both paths
  have hmark : ∀ t, Kept D s₀ t → t._writableState.ended = false →
      (t._writableState.highWaterMark ≤ t._writableState.length →
        Kept D s₀ { t with _writableState := { t._writableState with needDrain := true } } ∧
          t._writableState.ended = false) ∧
      (¬ t._writableState.highWaterMark ≤ t._writableState.length →
        Kept D s₀ t ∧ t._writableState.ended = false) :=
    fun t ht hte => ⟨fun _ => ⟨ht.act hD.common (.needDrain true), hte⟩, fun _ => ⟨ht, hte⟩⟩
  rw [wp_writeOrBuffer]
  refine ⟨fun hbusy => ?_, fun hidle => ?_⟩
  · exact hmark _ (h.act hD.common (.queue ⟨data.toBuffer P, callback⟩ he hbusy)) he
  · refine wp_doWrite_hands hidle.1.2 (h.base.handle.ready hidle.1.1) fun t ht => ?_
    refine hmark t (h.act hD.common (.write _ he hidle.1.1 hidle.1.2 hidle.2 ht)) ?_
    cases ht <;> exact he

/-- `Writable.prototype.write`. After 'finish' it is an application that calls it, in the
state `u`. -/
theorem write_keeps {data : Data} {callback : Option Callback} {log : List SocketObs}
    (h : Kept D s₀ s)
    (hcall : s._writableState.ended = true → ∃ i : Call, i.Writes callback ∧ E.call i u)
    (hs : s = { u with log := log }) :
    ((writableObject f).write P data callback).wp E .nil (basis.and D) (Kept D s₀)
      (fun _ t => Kept D s₀ t ∧
        (s._writableState.ended = false → t._writableState.ended = false)) s := by
  refine wp_write.mpr ⟨fun he => ?_, fun he => ?_⟩
  · obtain ⟨i, hi, hcall⟩ := hcall he
    refine Prog.wp_mono (fun _ => id) (fun _ t ht => ⟨record_keeps hD rfl ht, fun hn => ?_⟩) _
      (hD.reject h he hi hcall hs)
    rw [show s._writableState.ended = true from he] at hn
    cases hn
  · exact Prog.wp_mono (fun _ => id) (fun _ t ht => ⟨record_keeps hD rfl ht.1, fun _ => ht.2⟩) _
      (writeOrBuffer_keeps hD h he)

/-! ### `end` and `destroy` -/

/-- `Socket.prototype.end`. A stream that has not ended does not end here: 'finish' is emitted
later. -/
theorem end_keeps (data : Option Data) (callback : Option Callback) (h : Kept D s₀ s)
    (hacc : s.accepting = false)
    (hcall : s._writableState.ended = true → data.isSome = true →
      E.call (.end_ data callback) s) :
    (end_ P data callback).wp E .nil (basis.and D) (Kept D s₀)
      (fun _ t => Kept D s₀ t ∧ t._writableState.ending = true ∧
        (s._writableState.ended = false → t._writableState.ended = false)) s := by
  have hstart := record_keeps hD (o := .note .endCalled) rfl h
  simp only [end_, Prog.wp_bind, unfinished_eq, wp_modifyState]
  refine wp_end_of (R := fun t => Kept D s₀ t ∧ t.accepting = false ∧
    (s._writableState.ended = false → t._writableState.ended = false)) ?_ ?_ ?_
  · refine ⟨fun _ => ⟨hstart, hacc, id⟩, fun c hc => ?_⟩
    -- the call of `write` starts after `end` was recorded, and nobody takes the socket back
    refine Prog.wp_mono (fun _ => hstart.trans) (fun _ t ht =>
      ⟨hstart.trans ht.1, ht.1.mono.accepting hacc, ht.2⟩) _
      (write_keeps hD hstart.restart (fun he => ?_) rfl)
    have hending : s._writableState.ending = true := h.base.life.ended he
    have hdata : data = some c := by
      simpa [endChunk, hending] using hc
    have hsome : data.isSome = true := by
      rw [hdata]
      rfl
    exact ⟨.end_ data callback, ⟨hsome, rfl⟩, hcall he hsome⟩
  · exact fun t ht he => ⟨ht.1.act hD.common (.endAgain he), he, ht.2.2⟩
  · refine fun t ht he => wp_endWritable.mpr ⟨fun hidle => ?_, fun hbusy => ?_⟩
    · exact ⟨ht.1.act hD.common (.endIdle ht.2.1 he hidle.1 hidle.2), rfl, ht.2.2⟩
    · exact ⟨ht.1.act hD.common (.endBusy ht.2.1 he hbusy), rfl, ht.2.2⟩

theorem destroy_keeps (h : Kept D s₀ s) (hacc : s.accepting = false) :
    Keeps E D s₀ (destroy P) s := by
  -- a stream that has not ended yet: `destroy` waits for 'finish'
  have hdefer : ∀ t, Kept D s₀ t → t._writableState.ending = true →
      t._writableState.ended = false → Kept D s₀
        { t with _timer := none, log := t.log ++ [.destroyCalled],
                 finishListeners := t.finishListeners + 1 } :=
    fun t ht he hn => (ht.timer hD none).act hD.common (.defer he hn)
  simp only [destroy, Prog.wp_bind, Prog.wp_get, Prog.wp_ite, wp_record, wp_clearSocketTimeout,
    Prog.wp_modify]
  refine ⟨fun hd => h.act hD.common (.destroyAgain hd), fun hd => ⟨fun hw => ?_, fun hw => ?_⟩⟩
  · -- a writable socket is ended first, and never ends inside that call
    have hn := h.base.life.ended_of_writable hw
    refine Prog.wp_mono (fun _ => id) (fun _ t ht => ⟨fun he => ?_, fun _ => ?_⟩) _
      (end_keeps hD none none h hacc fun _ hsome => by cases hsome)
    · rw [show t._writableState.ended = true from he] at ht
      exact absurd (ht.2.2 hn) (by simp)
    · exact hdefer t ht.1 ht.2.1 (ht.2.2 hn)
  · have htimer := h.timer hD none
    have hd' : s._socketState.destroyed = false := by simpa using hd
    refine ⟨fun he => ?_, fun he => ?_⟩
    · simp only [close, Prog.wp_bind]
      refine wp_useHandle.mpr ⟨fun hnone => ?_, fun hsome => ?_⟩
      · exact htimer.act hD.common (.closeMissing hd' he hnone)
      · exact htimer.act hD.common (.close hd' he hsome)
    · exact hdefer s h (h.base.life.ending_of_not_writable (by simpa using hw)) (by simpa using he)

/-- On a stream that has ended, `destroy` closes the handle and does not throw. -/
theorem destroy_closes {X : Socket → Prop} (h : Kept D s₀ s)
    (he : s._writableState.ended = true) (hh : s._handle.isSome = true) :
    (destroy P).wp E .nil (basis.and D) X
      (fun _ t => Kept D s₀ t ∧ t._socketState.destroyed = true) s := by
  have hw : s._socketState.writable = false := by
    rw [h.base.life.writable, h.base.life.ended he]
    rfl
  simp only [destroy, close, Prog.wp_bind, Prog.wp_get, Prog.wp_ite, Prog.wp_modify, wp_record,
    wp_modifyState, wp_clearSocketTimeout]
  refine ⟨fun hd => ⟨h.act hD.common (.destroyAgain hd), hd⟩, fun hd => ⟨fun hw' => ?_,
    fun _ => ⟨fun _ => ?_, fun hn => absurd he hn⟩⟩⟩
  · rw [hw] at hw'
    cases hw'
  · refine wp_useHandle.mpr ⟨fun hnone => ?_, fun _ => ⟨?_, trivial⟩⟩
    · rw [show s._handle = none from hnone] at hh
      cases hh
    · exact (h.timer hD none).act hD.common (.close (by simpa using hd) he hh)

theorem destroySoon_keeps (h : Kept D s₀ s) (hacc : s.accepting = false) :
    Keeps E D s₀ (destroySoon P) s := by
  simp only [destroySoon, Prog.wp_bind, Prog.wp_get, Prog.wp_ite, Prog.wp_modify]
  refine ⟨fun _ => ?_, fun _ => h.act hD.common .once⟩
  exact Prog.wp_mono (fun _ => id) (fun _ t ht => ht.1.act hD.common .once) _
    (end_keeps hD none none h hacc fun _ hsome => by cases hsome)

theorem maybeDestroy_keeps (h : Kept D s₀ s) (hacc : s.accepting = false) :
    Keeps E D s₀ (maybeDestroy P) s := by
  simp only [maybeDestroy, Prog.wp_bind, Prog.wp_get, Prog.wp_ite, Prog.wp_pure]
  exact ⟨fun _ => destroy_keeps hD h hacc, fun _ => h⟩

/-! ### 'finish' -/

theorem runFinishListeners_keeps (n : Nat) :
    ∀ {s₀ s : Socket}, Kept D s₀ s → s._writableState.ended = true →
      Keeps E D s₀ (runFinishListeners P n) s := by
  induction n with
  | zero => exact fun h _ => h
  | succ n ih =>
      intro s₀ s h he
      have hfire := h.restart.act hD.common (.fire he)
      have hacc := h.base.life.not_accepting (h.base.life.ended he)
      simp only [runFinishListeners, Prog.wp_bind, Prog.wp_modify]
      -- each of these listeners is a `destroy` that waited, and starts as a call of its own
      refine Prog.wp_mono (fun _ => h.trans) (fun _ t ht => ?_) _
        (destroy_keeps hD hfire hacc)
      refine wp_yieldTo_kept (h.trans ht) fun u _ hu => ?_
      exact ih ((h.trans ht).trans hu) (hu.mono.ended (ht.mono.ended he))

/-- On a socket with a handle, only a listener of 'finish' throws. -/
theorem finishTail_total {X : Socket → Prop} (h : Kept D s₀ s)
    (he : s._writableState.ended = true) (hh : s._handle.isSome = true)
    (hX : ∀ t, E.throws (.event .finish) t → Kept D s₀ t → X t) (n : Nat) :
    (finishTail P n).wp E .nil (basis.and D) X (fun _ => Kept D s₀) s := by
  have hyield : ∀ (n : Nat) {s : Socket}, Kept D s₀ s → s._writableState.ended = true →
      s._handle.isSome = true →
      (finishTail P n).wp E .nil (basis.and D) X (fun _ => Kept D s₀) s := by
    intro n
    induction n with
    | zero =>
        intro s h _ _
        exact (Prog.wp_yieldTo ..).mpr ⟨h.1, fun t _ ht =>
          ⟨fun _ => h.trans ht, fun hthrow => hX t hthrow (h.trans ht)⟩⟩
    | succ n ih =>
        intro s h he hh
        simp only [finishTail, runFinishListeners, Prog.wp_bind, Prog.wp_modify] at ih ⊢
        refine (Prog.wp_yieldTo ..).mpr ⟨h.1, fun t _ ht =>
          ⟨fun _ => ?_, fun hthrow => hX t hthrow (h.trans ht)⟩⟩
        have hte : t._writableState.ended = true := ht.2.1.ended he
        have hth : t._handle.isSome = true := ht.2.1.handle hh
        have hfire := (Kept.restart (h.trans ht)).act hD.common (.fire hte)
        -- `destroy` closes the socket, and the next listener of the application follows
        refine Prog.wp_mono (fun _ => id) (fun _ u hu => ?_) _ (destroy_closes hD hfire hte hth)
        exact ih ((h.trans ht).trans hu.1) (hu.1.mono.ended hte) (hu.1.mono.handle hth)
  exact hyield n h he hh

/-- Where each action keeps the contract, so does the rest of 'finish'. -/
theorem finishes_of_kept (h : Kept D s₀ s) (he : s._writableState.ended = true) :
    Finishes P E D s₀ s := by
  have htail : Keeps E D s (finishTail P s.finishListeners) s := by
    simp only [finishTail, Prog.wp_bind]
    refine wp_yieldTo_kept h.restart fun t _ ht => ?_
    exact runFinishListeners_keeps hD _ ht (ht.mono.ended he)
  exact Prog.wp_mono (fun _ => h.trans) (fun _ t ht => ⟨h.trans ht, ht.mono⟩) _ htail

end

section

variable {P : Platform} {E : Surroundings} {G C D : Contract Socket} {X : Socket → Prop}
variable {s₀ s₁ s t u : Socket}

theorem Finish.ended (h : Finish E s t) : t._writableState.ended = true := by
  cases h <;> rfl

theorem Action.ended_of_finish (h : Action E .finish s t) : t._writableState.ended = true := by
  cases h with
  | establishFinish _ _ hf => exact hf.ended
  | tickFinish _ _ _ _ hf => exact hf.ended

theorem Action.ended_of_completeFinish (h : Action E .completeFinish s t) :
    t._writableState.ended = true := by
  cases h with
  | completeFinish _ _ _ hf => exact hf.ended

/-- 'finish' of a stream that is ending, up to the listeners of the application. Only a socket
that never had a handle throws. -/
theorem wp_emitFinish_finish {Q : Unit → Socket → Prop} (hl : LifeOk u) (hh : HandleOk u)
    (hr : ReadOk u) (hending : u._writableState.ending = true)
    (he : u._writableState.ended = false)
    (hmissing : u._handle = none → X
      { finishing u with
        log := u.log ++ [.event .finish] ++ [.native .shutdown u.handleStatus] })
    (hfinish : u._handle.isSome = true → ∀ t, Finish E u t →
      (finishTail P t.finishListeners).wp E G C X Q t) :
    ((writable P).emitFinish).wp E G C X Q u := by
  have hd := hl.not_destroyed he
  have hw : u._socketState.writable = false := by
    rw [hl.writable, hending]
    rfl
  refine wp_emitFinish.mpr ⟨fun _ => ?_, fun hn => ?_⟩
  · show (onFinish P).wp E G C X Q (finishing u)
    simp only [onFinish, onSocketFinish, destroy, close, Prog.wp_bind, Prog.wp_get, Prog.wp_ite,
      Prog.wp_modify, wp_record, wp_modifyState, wp_clearSocketTimeout]
    refine ⟨fun hread => ⟨fun hd' => ?_, fun _ => ⟨fun hw' => ?_, fun _ => ⟨fun _ => ?_,
      fun hn => ?_⟩⟩⟩, fun hread => ?_⟩
    · rw [show u._socketState.destroyed = true from hd'] at hd
      cases hd
    · rw [show u._socketState.writable = true from hw'] at hw
      cases hw
    · have hread' : u._socketState.readable = false ∨ u._readableState.ended = true := by
        simpa [finishing] using hread
      have hsome := hr.isSome hh.ready hread'
      refine wp_useHandle.mpr ⟨fun hnone => ?_, fun _ => ?_⟩
      · rw [show u._handle = none from hnone] at hsome
        cases hsome
      · exact hfinish hsome _ (.close none hread')
    · exact absurd rfl hn
    · have hread' : u._socketState.readable = true ∧ u._readableState.ended = false := by
        simpa [finishing] using hread
      refine wp_useHandle.mpr ⟨hmissing, fun hsome => ?_⟩
      intro err hans
      refine ⟨fun _ => ?_, fun herr => ?_⟩
      · exact hfinish hsome _ (.shutdown hread'.2)
      · exact hfinish hsome _ (.refused err herr hread'.2 hans)
  · rw [show u._writableState.ended = true from hn] at he
    cases he

variable (hD : Respects E D)
include hD

/-- `writeBuffered` on a stream that is ready: it flushes, or emits 'finish' or 'drain', and the
stream stays ready. -/
theorem writeBuffered_keeps (hl : LifeOk u) (hh : HandleOk u) (hr : ReadOk u)
    (hready : u._writableState.ready = true) (hflush : ∀ t, Flush E u t → Kept D s₁ t)
    (hfinish : FinishDue u → ∀ t, Finish E u t → Finishes P E D s₁ t) :
    ((writable P).writeBuffered).wp E .nil (basis.and D) (Kept D s₁)
      (fun _ t => Kept D s₁ t ∧ t._writableState.ready = true) u := by
  have hsome := hh.ready hready
  refine wp_writeBuffered.mpr ⟨fun hbusy => ⟨hflush u (.busy hbusy), hready⟩, fun hidle =>
    ⟨fun hb => wp_onEmptyBuffer.mpr ⟨fun hending => ?_, fun hending => ?_⟩, fun req rest hb => ?_⟩⟩
  · cases he : u._writableState.ended with
    | true =>
        -- 'finish' was emitted before: nothing happens
        have hkept := hflush u (.idle hidle hb fun _ => he)
        refine wp_emitFinish.mpr ⟨fun hn => ?_, fun _ => ⟨hkept, hready⟩⟩
        rw [show u._writableState.ended = false from hn] at he
        cases he
    | false =>
        refine wp_emitFinish_finish hl hh hr hending he (fun hnone => ?_) fun _ t ht => ?_
        · rw [hnone] at hsome
          cases hsome
        · refine Prog.wp_mono (fun _ => id) (fun _ v hv => ⟨hv.1, hv.2.ready ?_⟩) _
            (hfinish ⟨hending, he, hidle, hb⟩ t ht)
          exact ht.mono.ready hready
  · have hkept : Kept D s₁ u := hflush u (.idle hidle hb fun hending' => by
      rw [show u._writableState.ending = false from hending] at hending'
      cases hending')
    refine ⟨fun _ => wp_emitDrain.mpr ⟨fun _ => ?_, fun _ => ⟨hkept, hready⟩⟩,
      fun _ => ⟨hkept, hready⟩⟩
    have hdrain := hkept.act hD.common (.needDrain false)
    exact Prog.wp_mono (fun _ => hdrain.trans)
      (fun _ t ht => ⟨hdrain.trans ht, ht.mono.ready hready⟩) _
      (emit_keeps hD (e := .drain) rfl hdrain.restart)
  · refine wp_doWrite_hands hidle hsome fun t ht => ?_
    have hfl : Flush E u t := .next hidle hb ht
    exact ⟨hflush t hfl, hfl.mono.ready hready⟩

/-- `writeBuffered` on a stream that is ready: only a listener of 'drain' or 'finish' throws. -/
theorem writeBuffered_total (hl : LifeOk u) (hh : HandleOk u) (hr : ReadOk u)
    (hready : u._writableState.ready = true) (hflush : ∀ t, Flush E u t → Kept D s₁ t)
    (hfinish : FinishDue u → ∀ t, Finish E u t → Kept D s₁ t)
    (hX : ∀ e t, e = .drain ∨ e = .finish → E.throws (.event e) t → Kept D s₁ t → X t) :
    ((writable P).writeBuffered).wp E .nil (basis.and D) X (fun _ => Kept D s₁) u := by
  have hsome := hh.ready hready
  refine wp_writeBuffered.mpr ⟨fun hbusy => hflush u (.busy hbusy), fun hidle =>
    ⟨fun hb => wp_onEmptyBuffer.mpr ⟨fun hending => ?_, fun hending => ?_⟩, fun req rest hb => ?_⟩⟩
  · cases he : u._writableState.ended with
    | true =>
        have hkept := hflush u (.idle hidle hb fun _ => he)
        refine wp_emitFinish.mpr ⟨fun hn => ?_, fun _ => hkept⟩
        rw [show u._writableState.ended = false from hn] at he
        cases he
    | false =>
        refine wp_emitFinish_finish hl hh hr hending he (fun hnone => ?_) fun _ t ht => ?_
        · rw [hnone] at hsome
          cases hsome
        · have hkept := hfinish ⟨hending, he, hidle, hb⟩ t ht
          exact finishTail_total hD hkept ht.ended (ht.mono.handle hsome)
            (fun v hthrow hv => hX .finish v (.inr rfl) hthrow hv) _
  · have hkept : Kept D s₁ u := hflush u (.idle hidle hb fun hending' => by
      rw [show u._writableState.ending = false from hending] at hending'
      cases hending')
    refine ⟨fun _ => wp_emitDrain.mpr ⟨fun _ => ?_, fun _ => hkept⟩, fun _ => hkept⟩
    have hdrain := (hkept.act hD.common (.needDrain false)).act hD.common
      (@Action.silent E _ (.event .drain) rfl)
    exact (Prog.wp_yieldTo ..).mpr ⟨hdrain.1, fun t _ ht => ⟨fun _ => hdrain.trans ht,
      fun hthrow => hX .drain t (.inl rfl) hthrow (hdrain.trans ht)⟩⟩
  · refine wp_doWrite_hands hidle hsome fun t ht => ?_
    exact hflush t (.next hidle hb ht)

/-! ### Connections -/

/-- A connection is established: `onSocketConnect`. -/
theorem onSocketConnect_keeps {v : Socket} (hfin : RespectsFinish P E D) (h : Kept D s₀ s)
    (hu : ∀ timer, Establishes s (established timer v)) :
    Keeps E D s₀ (onSocketConnect P) v := by
  simp only [onSocketConnect, Prog.wp_bind, wp_modifyState, writable_eq]
  refine wp_resetSocketTimeout fun timer => wp_readyToWrite.mpr ?_
  have hest := hu timer
  refine Prog.wp_mono (fun _ => id) (fun _ t ht => ?_) _
    (writeBuffered_keeps hD (hest.lifeOk h.base.life) (hest.handleOk h.base.handle)
      (hest.readOk h.base.read) hest.ready (fun t ht => h.act hD.common (.establish hest ht))
      (fun hdue t ht => hfin h (.establishFinish hest hdue ht)))
  exact ht.1.act hD.common (.scheduleReadStart ht.2)

theorem afterConnect_keeps {status : Int} (hfin : RespectsFinish P E D) (h : Kept D s₀ s)
    (hacc : s.accepting = false) (hpos : 0 < s.connects) (hcall : E.call (.afterConnect status) s) :
    Keeps E D s₀ (body P (.afterConnect status)) s := by
  simp only [body, afterConnect, Prog.wp_bind, Prog.wp_modify, Prog.wp_ite, wp_record,
    wp_modifyState, Prog.wp_get, Prog.wp_pure]
  refine ⟨fun hne => ⟨fun hd => ⟨fun h0 => absurd h0 hne, fun _ => ?_⟩, fun _ => ?_⟩,
    fun h0 => ⟨fun hd => ⟨fun _ => ?_, fun hne => absurd (not_not.mp h0) hne⟩, fun hd => ?_⟩⟩
  · -- a failure: `destroy` first, and the error is emitted afterwards
    have hfailed := h.act hD.common (.connectFailed hne hcall)
    refine Prog.wp_mono (fun _ => id) (fun _ t ht => ?_) _ (destroy_keeps hD hfailed hacc)
    exact emit_error_keeps hD (.connect hne hcall) ht
  · exact h.act hD.common (.connectFailed hne hcall)
  · refine Prog.wp_mono (fun _ => id) (fun _ t ht => emit_keeps hD rfl ht) _
      (onSocketConnect_keeps hD hfin h fun timer => .connected timer hpos ?_)
    simpa using hd
  · exact h.act hD.common (.connectIgnored (by simpa using hd))

theorem onconnection_keeps (hfin : RespectsFinish P E D) (h : Kept D s₀ s)
    (hacc : s.accepting = true) :
    Keeps E D s₀ (body P .onconnection) s := by
  simp only [body, Prog.wp_bind, Prog.wp_modify]
  refine Prog.wp_mono (fun _ => id) (fun _ t ht => emit_keeps hD rfl ht) _
    (onSocketConnect_keeps hD hfin h fun timer => .accepted timer hacc)

omit hD in
theorem lookup_keeps {hostname : Host} {port : Int} (hc : Sound E D .connecting) (h : Kept D s₀ s)
    (hh : s._handle.isSome = true) : Keeps E D s₀ (Socket.lookup P hostname port) s := by
  cases hostname with
  | string hostname =>
      simp only [Socket.lookup, Prog.wp_bind, Prog.wp_ite, Prog.wp_modify, Prog.wp_askFor]
      have hlookup := h.act hc (.lookup ⟨hostname, port⟩ hh)
      exact ⟨fun _ => Prog.wp_yieldTo_post hlookup, fun _ _ _ => ⟨fun _ => hlookup, fun _ => h⟩⟩
  | absent => exact h
  | other => exact h

/-- `connect`, once the handle exists. -/
def connectOn (P : Platform) (options : ConnectOptions) : Method Unit := do
  resetSocketTimeout
  modifyState fun state => { state with connecting := true }
  match checkConnect options with
  | .error message => Prog.fail message
  | .ok port =>
      modify fun s => { s with _host := options.host.orLocalhost }
      Socket.lookup P options.host.orLocalhost port

omit hD in
/-- `connect` does nothing on a socket that is connecting or connected, and makes the handle
where there is none. -/
theorem wp_connect {G C : Contract Socket} {X : Socket → Prop} {Q : Unit → Socket → Prop}
    {options : ConnectOptions}
    (hbusy : Q () s)
    (hnew : s._socketState.connecting = false → s._socketState.connected = false →
      s._handle = none →
      (connectOn P options).wp E G C X Q { s with _handle := some ⟨false, false⟩ })
    (hold : s._socketState.connecting = false → s._socketState.connected = false →
      s._handle.isSome = true → (connectOn P options).wp E G C X Q s) :
    (connect P options).wp E G C X Q s := by
  simp only [connectOn, Prog.wp_bind] at hnew hold
  simp only [connect, Prog.wp_bind, Prog.wp_get, Prog.wp_ite]
  refine ⟨fun hidle => ?_, fun _ => hbusy⟩
  rw [Bool.not_eq_true', Bool.or_eq_false_iff] at hidle
  obtain ⟨hconnecting, hconnected⟩ := hidle
  constructor
  · intro hnone
    exact hnew hconnecting hconnected (Option.isNone_iff_eq_none.mp hnone)
  · intro hsome
    rw [Option.isNone_iff_eq_none] at hsome
    exact hold hconnecting hconnected (Option.isSome_iff_ne_none.mpr hsome)

theorem connectOn_keeps {options : ConnectOptions} (hc : Sound E D .connecting)
    (h : Kept D s₀ s) (hh : s._handle.isSome = true) (hconnected : s._socketState.connected = false) :
    Keeps E D s₀ (connectOn P options) s := by
  simp only [connectOn, Prog.wp_bind]
  refine wp_resetSocketTimeout fun timer => wp_modifyState.mpr ?_
  have hconn := (h.timer hD timer).act hc (.connecting hconnected)
  cases checkConnect options with
  | error message => exact hconn
  | ok port =>
      simp only [Prog.wp_bind, Prog.wp_modify]
      exact lookup_keeps hc (hconn.act hD.common (.host options.host.orLocalhost)) hh

theorem connect_keeps {options : ConnectOptions} (hc : Sound E D .connecting) (h : Kept D s₀ s) :
    Keeps E D s₀ (connect P options) s := by
  refine wp_connect h ?_ ?_
  · intro _ hconnected hnone
    exact connectOn_keeps hD hc (h.act hD.common (.newHandle hnone)) rfl hconnected
  · intro _ hconnected hsome
    exact connectOn_keeps hD hc h hsome hconnected

omit hD in
/-- The callback of a lookup: the handle is still there after the listeners of 'lookup'. -/
theorem afterLookup_keeps {err : Int} (hc : Sound E D .connecting) (h : Kept D s₀ s)
    (hl : s.lookups ≠ []) (hcall : E.call (.afterLookup err) s) : Keeps E D s₀ (body P (.afterLookup err)) s := by
  obtain ⟨lookup, rest, hcons⟩ := List.exists_cons_of_ne_nil hl
  simp only [body, Prog.wp_bind, Prog.wp_get, Prog.wp_modify]
  rw [hcons]
  simp only [List.head?_cons, afterLookup, connectHandle, Prog.wp_bind, Prog.wp_ite, Prog.wp_modify,
    wp_record, wp_nextTick]
  refine ⟨fun h0 => (wp_emit (by simp)).mpr ?_, fun hne => (wp_emit (by simp)).mpr ?_⟩
  · have hdone := h.act hc (.afterLookup h0 hcall)
    rw [hcons] at hdone
    refine wp_yieldTo_kept hdone fun t hret ht => wp_resetSocketTimeout fun timer => ?_
    have hh : t._handle.isSome = true := ht.mono.handle (h.base.handle.lookups hl)
    have hconn : ∀ n, Kept D s₀ _ := fun n =>
      (hdone.trans ht).act hc (.connectHandle timer n hh hret)
    refine wp_useHandle.mpr ⟨fun hnone => ?_, fun _ => ?_⟩
    · rw [show t._handle = none from hnone] at hh
      cases hh
    · exact fun _ _ => ⟨fun _ => hconn (t.connects + 1), fun _ => hconn t.connects⟩
  · have hfailed := h.act hc
      (.lookupFailed (dnsException err lookup.host) hne hcall)
    rw [hcons] at hfailed
    exact wp_yieldTo_kept hfailed fun t _ ht =>
      (hfailed.trans ht).act hc (.scheduleFailed _ hne hcall)

/-! ### Reading -/

theorem onSocketEnd_keeps (h : Kept D s₀ s) (hacc : s.accepting = false) :
    Keeps E D s₀ (onSocketEnd P) s := by
  simp only [onSocketEnd, Prog.wp_bind, Prog.wp_get, Prog.wp_ite, Prog.wp_pure]
  refine Prog.wp_mono (fun _ => h.trans) (fun _ t ht => ⟨fun _ => ?_, fun _ => h.trans ht⟩) _
    (maybeDestroy_keeps hD h.restart hacc)
  exact destroySoon_keeps hD (h.trans ht) (ht.mono.accepting hacc)

/-- On a stream that has ended, `maybeDestroy` does not throw. -/
theorem maybeDestroy_closes {X : Socket → Prop} (h : Kept D s₀ s)
    (he : s._writableState.ended = true) (hh : s._handle.isSome = true) :
    (maybeDestroy P).wp E .nil (basis.and D) X
      (fun _ t => Kept D s₀ t ∧ (s._socketState.connecting = false →
        s._socketState.readable = false → t._socketState.destroyed = true)) s := by
  have hw : s._socketState.writable = false := by
    rw [h.base.life.writable, h.base.life.ended he]
    rfl
  simp only [maybeDestroy, Prog.wp_bind, Prog.wp_get, Prog.wp_ite, Prog.wp_pure]
  refine ⟨fun _ => ?_, fun hn => ⟨h, fun hc hr => ?_⟩⟩
  · exact Prog.wp_mono (fun _ => id) (fun _ t ht => ⟨ht.1, fun _ _ => ht.2⟩) _
      (destroy_closes hD h he hh)
  · rw [hw, hc, hr] at hn
    exact absurd rfl hn

/-- On a stream that has ended, `onSocketEnd` does not throw. -/
theorem onSocketEnd_ended {X : Socket → Prop} (h : Kept D s₀ s)
    (he : s._writableState.ended = true) (hh : s._handle.isSome = true) :
    (onSocketEnd P).wp E .nil (basis.and D) X (fun _ => Kept D s₀) s := by
  simp only [onSocketEnd, destroySoon, Prog.wp_bind, Prog.wp_get, Prog.wp_ite, Prog.wp_pure,
    Prog.wp_modify]
  refine Prog.wp_mono (fun _ => id) (fun _ t ht => ?_) _
    (maybeDestroy_closes hD h.restart he hh)
  have hkept := h.trans ht.1
  refine ⟨fun _ => ⟨fun hw => ?_, fun _ => hkept.act hD.common .once⟩, fun _ => hkept⟩
  have hn := hkept.base.life.ended_of_writable hw
  have hte : t._writableState.ended = true := ht.1.mono.ended he
  rw [hte] at hn
  cases hn

/-- 'end' of a stream that is empty. Where this returns, 'end' has been emitted. -/
theorem emitEnd_keeps (h : Kept D s₀ s) (hacc : s.accepting = false)
    (hl : s._readableState.length = 0) :
    ((readable P).emitEnd).wp E .nil (basis.and D) (Kept D s₀)
      (fun _ t => Kept D s₀ t ∧ t._readableState.endEmitted = true) s := by
  refine wp_emitEnd.mpr ⟨fun _ => h, fun he => ⟨fun _ => ?_, fun hem => ⟨h, hem⟩⟩⟩
  have hend := h.act hD.common (.end_ he hl)
  show Prog.wp _ _ _ _ (do
    record (.event .end_)
    onSocketEnd P
    Prog.yieldTo (.event .end_)) _ _
  simp only [Prog.wp_bind, wp_record]
  refine Prog.wp_mono (fun _ => hend.trans) (fun _ t ht => ?_) _
    (onSocketEnd_keeps hD hend.restart hacc)
  refine wp_yieldTo_kept (hend.trans ht) fun u _ hu => ⟨(hend.trans ht).trans hu, ?_⟩
  exact hu.mono.endEmitted (ht.mono.endEmitted rfl)

theorem emitEndIfEmpty_keeps (h : Kept D s₀ s) (hacc : s.accepting = false) :
    Keeps E D s₀ (readable P).emitEndIfEmpty s :=
  wp_emitEndIfEmpty.mpr ⟨fun hempty => Prog.wp_mono (fun _ => id) (fun _ _ ht => ht.1) _
    (emitEnd_keeps hD h hacc hempty.2), fun _ => h⟩

theorem emitData_keeps {data : Option Bytes} (h : Kept D s₀ s) (hacc : s.accepting = false) :
    Keeps E D s₀ ((readable P).emitData P data) s := by
  simp only [emitData, assertEmpty, Prog.wp_bind, wp_readBuffer_none]
  refine ⟨fun _ => ?_, fun _ => ?_⟩
  · show ((emit (.data data)).wp ..)
    refine Prog.wp_mono (fun _ => h.trans) (fun _ t ht => ?_) _
      (emit_keeps hD (e := .data data) rfl h.restart)
    exact emitEndIfEmpty_keeps hD (h.trans ht) (ht.mono.accepting hacc)
  · exact record_keeps hD rfl (h.act hD.common .take)

/-- A block of data arrives. A paused stream buffers it, and `hpush` is what that leaves. -/
theorem push_keeps {data : Data} (hacc : s.accepting = false)
    (h : s._readableState.ended = true ∨ s._readableState.flowing = true → Kept D s₀ s)
    (herr : s._readableState.ended = true → ErrorCause E)
    (hpush : s._readableState.ended = false → s._readableState.flowing = false →
      Kept D s₀ (pushed (data.toBuffer P) s)) :
    Keeps E D s₀ ((readable P).push P (.data data)) s := by
  refine wp_push.mpr ⟨fun hc => (by cases hc), fun hc => (by cases hc), ?_⟩
  rintro data' ⟨⟩
  refine ⟨fun hended => ?_, fun hended => ⟨fun hflow => ?_, fun hpaused => ?_⟩⟩
  · exact emit_error_keeps hD (herr hended) (h (.inl hended))
  · exact emitData_keeps hD (record_keeps hD rfl (h (.inr hflow))) hacc
  · exact emit_keeps hD (e := .readable) rfl
      (record_keeps hD (o := .readNote (.pushed _)) rfl (hpush hended hpaused))

/-- EOF, where the state that it leaves is kept. -/
theorem onreadEof_keeps (hmet : ∀ timer, Kept D s₀ (eofMet { s with _timer := timer }))
    (hacc : s.accepting = false) : Keeps E D s₀ (onreadEof P) s := by
  simp only [onreadEof, Prog.wp_bind, Prog.wp_get, Prog.wp_ite, wp_modifyState]
  refine wp_resetSocketTimeout fun timer => wp_push.mpr
    ⟨fun hc => (by cases hc), fun _ => wp_onEof.mpr ?_, fun _ hc => (by cases hc)⟩
  have hstart := hmet timer
  -- EOF is not taken back
  have hrest : ∀ t, Kept D (eofMet { s with _timer := timer }) t →
      (t._readableState.length = 0 → t._readableState.endEmitted = true) →
      (t._readableState.length = 0 → Keeps E D s₀ (maybeDestroy P)
        { t with _socketState := { t._socketState with readable := false } }) ∧
      (¬ t._readableState.length = 0 → Kept D s₀ t) := by
    refine fun t ht hem => ⟨fun hl => maybeDestroy_keeps hD ?_ (ht.mono.accepting hacc),
      fun _ => hstart.trans ht⟩
    exact (hstart.trans ht).act hD.common (.unreadable (hem hl))
  refine ⟨fun hl => ?_, fun hl => hrest _ hstart.restart fun hl' => absurd hl' hl⟩
  exact Prog.wp_mono (fun _ => hstart.trans) (fun _ t ht => hrest t ht.1 fun _ => ht.2) _
    (emitEnd_keeps hD hstart.restart hacc hl)

theorem afterReadBuffer_keeps {res : Option Bytes} (h : Kept D s₀ s)
    (hacc : s.accepting = false) :
    ((readable P).afterReadBuffer res).wp E .nil (basis.and D) (Kept D s₀)
      (fun _ => Kept D s₀) s := by
  cases res with
  | none => exact wp_afterReadBuffer_none.mpr (emitEndIfEmpty_keeps hD h hacc)
  | some data =>
      refine wp_afterReadBuffer_some.mpr ?_
      have htook := record_keeps hD (o := .readNote (.took data)) rfl h
      exact Prog.wp_mono (fun _ => id) (fun _ t ht => record_keeps hD rfl ht) _
        (emitEndIfEmpty_keeps hD htook hacc)

theorem read_keeps {n : Option Int} (h : Kept D s₀ s) (hacc : s.accepting = false) :
    ((readable P).read n).wp E .nil (basis.and D) (Kept D s₀) (fun _ => Kept D s₀) s := by
  refine wp_read.mpr ⟨fun hn => (wp_readBuffer_some hn).mpr ?_,
    fun _ => afterReadBuffer_keeps hD h hacc⟩
  refine ⟨fun _ => afterReadBuffer_keeps hD h hacc, fun _ => ⟨fun _ => ?_, fun _ => h⟩⟩
  exact afterReadBuffer_keeps hD (h.act hD.common .take) hacc

theorem resume_keeps (h : Kept D s₀ s) (hacc : s.accepting = false) :
    Keeps E D s₀ ((readable P).resume P) s := by
  refine wp_resume.mpr ⟨fun _ => ?_, fun _ => h⟩
  have hflow := h.act hD.common (.flowing true)
  refine ⟨fun _ => wp_readBuffer_none.mpr ⟨fun _ => emitData_keeps hD hflow hacc, fun _ => ?_⟩,
    fun _ => hflow⟩
  exact emitData_keeps hD (hflow.act hD.common .take) hacc

theorem on_keeps {ev : String} (h : Kept D s₀ s) (hacc : s.accepting = false) :
    Keeps E D s₀ ((readable P).on P ev) s := by
  have hlisten := h.act hD.common (.errorListener (s.errorListener || ev = "error"))
  simp only [on, Prog.wp_bind, Prog.wp_ite]
  exact ⟨fun _ => resume_keeps hD hlisten hacc, fun _ => hlisten⟩

theorem pause_keeps (h : Kept D s₀ s) : Keeps E D s₀ (readable P).pause s :=
  wp_pause.mpr ⟨fun _ => emit_keeps hD (e := .pause) rfl (h.act hD.common (.flowing false)),
    fun _ => h⟩

/-- What the native side reports to a socket that reads. -/
theorem onread_keeps {result : ReadResult} (hn : Sound E D .native) (heof : Sound E D .eof)
    (h : Kept D s₀ s) (hacc : s.accepting = false) (hready : s._writableState.ready = true)
    (hcall : E.call (.onread result) s) : Keeps E D s₀ (onread P result) s := by
  have hmet : ∀ t, Kept D s₀ t → t.accepting = false → t._writableState.ready = true →
      Keeps E D s₀ (onreadEof P) t := fun t ht htacc htready =>
    onreadEof_keeps hD (fun timer => (ht.timer hD timer).act heof (.eof htready)) htacc
  cases result with
  | eof => exact hmet s h hacc hready
  | error nread =>
      simp only [onread, Prog.wp_bind]
      refine wp_resetSocketTimeout fun timer => ?_
      exact emit_error_keeps hD (.read hcall) (h.timer hD timer)
  | data buffer =>
      simp only [onread, Prog.wp_bind]
      refine wp_resetSocketTimeout fun timer => ?_
      have hstart := h.timer hD timer
      have herr : s._readableState.ended = true → ErrorCause E := fun he => .push he hcall
      have hpush : ∀ payload, Keeps E D { s with _timer := timer }
          ((readable P).push P (.data (.buffer payload))) { s with _timer := timer } :=
        fun payload => push_keeps hD hacc (fun _ => hstart.restart) herr
          fun hended _ => hstart.restart.act hn (.push _ hended)
      refine (Prog.wp_ite ..).mpr ⟨fun _ => ?_, fun _ => ?_⟩
      · -- NuttX: the payload comes before EOF
        have hrest : ∀ (eofNeeded : Bool) (t : Socket), Kept D { s with _timer := timer } t →
            Keeps E D s₀ (if eofNeeded then onreadEof P else pure ()) t := by
          intro eofNeeded t ht
          cases eofNeeded with
          | true => exact hmet t (hstart.trans ht) (ht.mono.accepting hacc) (ht.mono.ready hready)
          | false => exact hstart.trans ht
        cases splitEof P buffer with
        | mk payload eofNeeded =>
            cases payload with
            | none => exact hrest eofNeeded _ hstart.restart
            | some payload =>
                refine (Prog.wp_bind ..).mpr ?_
                exact Prog.wp_mono (fun _ => hstart.trans) (fun _ => hrest eofNeeded) _
                  (hpush payload)
      · exact Prog.wp_mono (fun _ => hstart.trans) (fun _ t ht => hstart.trans ht) _ (hpush buffer)

theorem afterWrite_keeps {status : Int} (hc : Sound E D .complete)
    (hfin : ∀ {s₀ s t : Socket}, Kept D s₀ s → Action E .completeFinish s t →
      Finishes P E D s₀ t)
    (h : Kept D s₀ s) (hw : s.writes ≠ []) (hcall : E.call (.afterWrite status) s) :
    Keeps E D s₀ (body P (.afterWrite status)) s := by
  obtain ⟨req, rest, hcons⟩ := List.exists_cons_of_ne_nil hw
  simp only [body, Prog.wp_bind, Prog.wp_get, Prog.wp_modify]
  have htail : s.writes.head? = some req := by
    rw [hcons]
    rfl
  rw [htail]
  simp only [afterWrite, Prog.wp_bind, wp_record, writable_eq, wp_onwrite]
  refine Prog.wp_mono (fun _ => id) (fun _ t ht => ?_) _
    (writeBuffered_keeps hD (lifeOk_completed h.base.life req status) h.base.handle h.base.read
      (h.base.queue.ready_of_writes hcons)
      (fun t ht => h.act hc (.complete hcons hcall ht))
      (fun hdue t ht => hfin h (.completeFinish hcons hcall hdue ht)))
  cases req.callback with
  | none => exact ht.1
  | some callback => exact Prog.wp_yieldTo_post (ht.1.act hc (.called callback status))

/-- A native shutdown has completed: it closes a socket that has met EOF. -/
theorem afterShutdown_keeps (hb : Base s) (hacc : s.accepting = false) (hpos : 0 < s.shutdowns)
    (hdone : s._readableState.ended = false ∨ s._socketState.destroyed = true →
      Kept D s₀ { s with shutdowns := s.shutdowns - 1 })
    (hclose : s._readableState.ended = true → s._socketState.destroyed = false →
      Kept D s₀ (closeNow { s with shutdowns := s.shutdowns - 1, _timer := none })) :
    Keeps E D s₀ (body P .afterShutdown) s := by
  have he := hb.life.shutdowns hpos
  simp only [body, afterShutdown, Prog.wp_bind, Prog.wp_get, Prog.wp_modify, Prog.wp_ite]
  refine ⟨fun hr => ?_, fun hr => hdone (.inl (by simpa using hr))⟩
  cases hd : s._socketState.destroyed with
  | true => exact destroy_keeps hD (hdone (.inr hd)) hacc
  | false =>
      have hw : s._socketState.writable = false := by
        rw [hb.life.writable, hb.life.ended he]
        rfl
      have hh := hb.read.isSome hb.handle.ready (.inr hr)
      simp only [destroy, close, Prog.wp_bind, Prog.wp_get, Prog.wp_ite, Prog.wp_modify,
        wp_record, wp_modifyState, wp_clearSocketTimeout]
      refine ⟨fun hd' => ?_, fun _ => ⟨fun hw' => ?_, fun _ => ⟨fun _ => ?_, fun hn => ?_⟩⟩⟩
      · rw [hd] at hd'
        cases hd'
      · rw [hw] at hw'
        cases hw'
      · refine wp_useHandle.mpr ⟨fun hnone => ?_, fun _ => hclose hr hd⟩
        rw [show s._handle = none from hnone] at hh
        cases hh
      · exact absurd he hn

/-! ### Timers and ticks -/

theorem setTimeout_keeps {msecs : Int} (h : Kept D s₀ s) : Keeps E D s₀ (setTimeout msecs) s := by
  simp only [setTimeout, Prog.wp_bind, Prog.wp_modify, wp_clearSocketTimeout, Prog.wp_ite]
  exact ⟨fun _ => h.act hD.common (.timer _ _ s.now), fun _ => h.act hD.common (.timer _ _ s.now)⟩

theorem onTimeout_keeps (h : Kept D s₀ s) : Keeps E D s₀ onTimeout s := by
  simp only [onTimeout, Prog.wp_bind, Prog.wp_modify, wp_clearSocketTimeout]
  exact Prog.wp_mono (fun _ => id) (fun _ t ht => Kept.timer hD ht none) _
    (emit_keeps hD (e := .timeout) rfl (h.timer hD _))

theorem tick_keeps {i : Nat} (hfin : RespectsFinish P E D) (h : Kept D s₀ s) (hi : i < s.ticks.length)
    (hcall : E.call (.tick i) s) : Keeps E D s₀ (body P (.tick i)) s := by
  simp only [body, Prog.wp_bind, Prog.wp_get, Prog.wp_modify]
  cases ht : s.ticks[i]? with
  | none =>
      rw [List.getElem?_eq_none_iff] at ht
      omega
  | some tick =>
      cases tick with
      | writable tick =>
          cases tick with
          | emitFinish =>
              have hl := h.base.life
              have hending := hl.scheduled (List.mem_of_getElem? ht)
              cases he : s._writableState.ended with
              | true =>
                  refine wp_emitFinish.mpr ⟨fun hn => ?_, fun _ => ?_⟩
                  · rw [show s._writableState.ended = false from hn] at he
                    cases he
                  · exact h.act hD.common (.tickEnded ht he)
              | false =>
                  refine wp_emitFinish_finish (hl.eraseIdx i) h.base.handle h.base.read hending he
                    (fun hnone => h.act hD.common (.tickMissing ht hcall he hnone))
                    fun hsome t ht' => ?_
                  exact Prog.wp_mono (fun _ => id) (fun _ _ hv => hv.1) _
                    (hfin h (.tickFinish ht hcall he hsome ht'))
          | callback c => exact Prog.wp_yieldTo_post (h.act hD.common (.tickCallback c ht))
      | lookupFailed message =>
          simp only [runTick, Prog.wp_bind]
          refine wp_emit_error.mpr ⟨fun _ => ?_, fun _ => ?_⟩
          · have hfailed := h.act hD.common (.tickLookupFailed ht)
            exact wp_yieldTo_kept hfailed fun t _ ht => hfailed.trans ht
          · exact h.act hD.common (.tickLookupThrown ht)
      | readStart =>
          have hready := h.base.life.readStart (List.mem_of_getElem? ht)
          have hsome := h.base.handle.ready hready
          have hstart := h.act hD.common (.readStart ht hcall hsome)
          simp only [runTick, Prog.wp_bind]
          refine wp_useHandle.mpr ⟨fun hnone => ?_, fun _ => fun _ _ => (Prog.wp_ite ..).mpr ?_⟩
          · rw [show s._handle = none from hnone] at hsome
            cases hsome
          · exact ⟨fun _ => hstart.act hD.common (.reading hready), fun _ => hstart⟩

/-! ### Every call -/

/-- A call that the native side does not make at rest keeps the contract. -/
theorem body_keeps (i : Call) {atRest : Bool} (hi : i.native = false)
    (hfin : RespectsFinish P E D) (hconn : RespectsConnect P E D) (h : Kept D s₀ s)
    (hen : enabled P s atRest i = true) (hcall : E.call i s) : Keeps E D s₀ (body P i) s := by
  cases i with
  | connect options => exact hconn.connect h hcall
  | write chunk callback =>
      cases chunk with
      | data data =>
          simp only [body, write, Prog.wp_bind, writable_eq]
          exact Prog.wp_mono (fun _ => id) (fun _ t ht => ht.1) _
            (write_keeps hD h (fun _ => ⟨.write (.data data) callback, rfl, hcall⟩) rfl)
      | null => exact h
      | other => exact h
  | end_ data callback =>
      have hacc : s.accepting = false := by simpa [enabled] using hen
      exact Prog.wp_mono (fun _ => id) (fun _ t ht => ht.1) _
        (end_keeps hD data callback h hacc fun _ _ => hcall)
  | destroy => exact destroy_keeps hD h (by simpa [enabled] using hen)
  | destroySoon => exact destroySoon_keeps hD h (by simpa [enabled] using hen)
  | setTimeout msecs => exact setTimeout_keeps hD h
  | read n =>
      simp only [body, Prog.wp_bind]
      exact read_keeps hD h (by simpa [enabled] using hen)
  | pause => exact pause_keeps hD h
  | resume => exact resume_keeps hD h (by simpa [enabled] using hen)
  | on ev => exact on_keeps hD h (by simpa [enabled] using hen)
  | removeAllListeners ev => exact h.act hD.common (.errorListener _)
  | tick i =>
      refine tick_keeps hD hfin h ?_ hcall
      simp only [enabled, Bool.and_eq_true, decide_eq_true_eq] at hen
      exact hen.2
  | afterLookup err =>
      refine hconn.afterLookup h ?_ hcall
      simp only [enabled, Bool.and_eq_true, Bool.not_eq_true', List.isEmpty_eq_false_iff] at hen
      exact hen.2
  | afterConnect status =>
      simp only [enabled, Bool.and_eq_true, decide_eq_true_eq, Bool.not_eq_true'] at hen
      exact afterConnect_keeps hD hfin h hen.1.1 hen.2 hcall
  | afterWrite status => cases hi
  | afterShutdown => cases hi
  | onread result => cases hi
  | onclose =>
      simp only [body, Prog.wp_bind, Prog.wp_modify]
      exact emit_keeps hD (e := .close) rfl (h.act hD.common .onclose)
  | onconnection => exact onconnection_keeps hD hfin h hen
  | onTimeout => exact onTimeout_keeps hD h
  | elapse msecs => exact h.act hD.common (.timer _ _ (s.now + msecs))

end

/-! ### Contracts that every action keeps -/

section

variable {P : Platform} {E : Surroundings} {D : Contract Socket} {s₀ s t : Socket}

/-- The rejection of a write, where each action keeps the contract. -/
theorem respects_of_sound (hc : Sound E D .common) (hr : Sound E D .reject) : Respects E D where
  common := hc
  reject := by
    intro f i s₀ s u log callback h he hi hcall hs
    have hcause : ErrorCause E := by
      refine .rejected hi ?_ hcall
      rw [hs] at he
      exact he
    refine wp_writeAfterEnd.mpr ?_
    have hrej := h.act hr (.reject callback he)
    refine wp_emit_error.mpr ⟨fun _ => ?_, fun _ => hrej⟩
    have herr := hrej.act hc (@Action.error E _ "write after end" hcause)
    refine wp_yieldTo_kept herr fun t _ ht => ⟨fun _ => herr.trans ht, fun c _ => ?_⟩
    exact (herr.trans ht).act hr (.callBack c)

/-- 'finish', where each action keeps the contract. -/
theorem respectsFinish_of_sound (hD : Respects E D) (hfin : Sound E D .finish) :
    RespectsFinish P E D :=
  fun h ha => finishes_of_kept hD (h.act hfin ha) ha.ended_of_finish

/-- An attempt to connect, where each action keeps the contract. -/
theorem respectsConnect_of_sound (hD : Respects E D) (hc : Sound E D .connecting) :
    RespectsConnect P E D where
  connect h _ := connect_keeps hD hc h
  afterLookup h hl hcall := afterLookup_keeps hc h hl hcall

/-- A contract that the calls keep holds in every run. The native calls come at rest only, so
they may keep less. -/
theorem holds_of_keeps (hinit : Initial s₀) (hinv : D.inv s₀) (hD : Respects E D)
    (hfin : RespectsFinish P E D) (hconn : RespectsConnect P E D)
    (hnative : ∀ {i : Call} {s : Socket}, i.native = true → Kept D s s →
      enabled P s true i = true → E.call i s →
      (body P i).wp E .nil (basis.and D) ((basis.and D).PostAt true s)
        (fun _ => (basis.and D).PostAt true s) s) :
    Contract.Holds (machine P) E .nil (basis.and D) s₀ where
  init := ⟨base_of_initial hinit, hinv⟩
  body i atRest s _ hs hen hcall _ := by
    have hk : Kept D s s := .refl hs.1 hs.2
    cases hi : i.native with
    | true =>
        have hrest := atRest_of_native hi hen
        subst hrest
        exact hnative hi hk hen hcall
    | false =>
        exact Prog.wp_at atRest (body_keeps hD i hi hfin hconn hk hen hcall)

/-- The native calls, where the actions of two of them keep the contract. -/
theorem native_keeps {i : Call} (hD : Respects E D) (hn : Sound E D .native)
    (heof : Sound E D .eof)
    (hwrite : ∀ status, i = .afterWrite status →
      (body P i).wp E .nil (basis.and D) ((basis.and D).PostAt true s)
        (fun _ => (basis.and D).PostAt true s) s)
    (hi : i.native = true) (h : Kept D s s) (hen : enabled P s true i = true)
    (hcall : E.call i s) :
    (body P i).wp E .nil (basis.and D) ((basis.and D).PostAt true s)
      (fun _ => (basis.and D).PostAt true s) s := by
  have hat : ∀ t, Kept D s t → (basis.and D).PostAt true s t := fun t ht => ht.at true
  cases i with
  | afterWrite status => exact hwrite status rfl
  | afterShutdown =>
      obtain ⟨hacc, hpos⟩ := enabled_afterShutdown hen
      refine Prog.wp_mono hat (fun _ => hat) _ ?_
      refine afterShutdown_keeps hD h.base hacc hpos (fun hdone => h.act hn (.shutdownDone hdone))
        fun hr hd => h.act hD.common (.shutdownClose none (h.base.life.shutdowns hpos) hd ?_)
      exact h.base.read.isSome h.base.handle.ready (.inr hr)
  | onread result =>
      obtain ⟨hacc, hready⟩ := enabled_onread h.base hen
      exact Prog.wp_mono hat (fun _ => hat) _ (onread_keeps hD hn heof h hacc hready hcall)
  | _ => cases hi

/-- The completion of a native write, where its actions keep the contract. -/
theorem afterWrite_at {i : Call} (hD : Respects E D) (hc : Sound E D .complete)
    (hfin : ∀ {s₀ s t : Socket}, Kept D s₀ s → Action E .completeFinish s t →
      Finishes P E D s₀ t)
    (h : Kept D s s) (hen : enabled P s true i = true) (hcall : E.call i s) :
    ∀ status, i = .afterWrite status →
      (body P i).wp E .nil (basis.and D) ((basis.and D).PostAt true s)
        (fun _ => (basis.and D).PostAt true s) s := by
  rintro status rfl
  have hat : ∀ t, Kept D s t → (basis.and D).PostAt true s t := fun t ht => ht.at true
  exact Prog.wp_mono hat (fun _ => hat) _
    (afterWrite_keeps hD hc hfin h (enabled_afterWrite hen) hcall)

/-- A contract that every action keeps holds in every run. -/
theorem holds_of_sound (hinit : Initial s₀) (hinv : D.inv s₀) (h : ∀ k, Sound E D k) :
    Contract.Holds (machine P) E .nil (basis.and D) s₀ := by
  have hD := respects_of_sound (h .common) (h .reject)
  refine holds_of_keeps hinit hinv hD (respectsFinish_of_sound hD (h .finish))
    (respectsConnect_of_sound hD (h .connecting))
    fun hi hk hen hcall => native_keeps hD (h .native) (h .eof) ?_ hi hk hen hcall
  refine afterWrite_at hD (h .complete) (fun hk ha => ?_) hk hen hcall
  exact finishes_of_kept hD (hk.act (h .completeFinish) ha) ha.ended_of_completeFinish

/-! ### Runs are paths of actions -/

/-- One action, of any kind. -/
def Acts (E : Surroundings) (s t : Socket) : Prop := ∃ k, Action E k s t

/-- The machine refines the actions: in every reachable configuration, the socket is one that
actions lead to. -/
theorem reach_acts (hinit : Initial s₀) {c : Config Socket SocketYield SocketNative}
    (hc : (machine P).Reach E s₀ c) : Relation.ReflTransGen (Acts E) s₀ c.heap := by
  have hholds : Contract.Holds (machine P) E .nil
      (basis.and (.ofInv (Relation.ReflTransGen (Acts E) s₀))) s₀ :=
    holds_of_sound hinit Relation.ReflTransGen.refl
      fun k _ _ _ hpath ha => ⟨hpath.tail ⟨k, ha⟩, trivial⟩
  exact (hholds.inv_of_reach hc).2

end

end IotJs.Socket

import IotJs.Lib.Reentrant.Intercept
import IotJs.Proofs.SocketRespects

/-!
# `IotJs.Proofs.SocketYields`: when a socket emits its events

A listener that a library puts on a socket may need something of the state in which its event
is emitted. This module says what a caller of `net.js` has to know before the call so that the
events of the call come in such states. `A` is what the listeners need.

Only a few events matter: 'data', 'end', 'error', 'timeout', 'close' and 'connection'. From the
start of a call up to the first of them the code of `net.js` leaves most of the socket as it is
(`Beside`), so what the listener needs can be asked for at the start. 'end' may also follow a
'data' event of the same call, and then it is asked for when the listeners of 'data' return.
-/

set_option autoImplicit false

namespace IotJs.Socket

open Reentrant WritableObject ReadableObject

/-- The events that a listener may have conditions on. -/
def SocketYield.plain : SocketYield → Bool
  | .event (.data _) | .event .end_ | .event (.error _) => false
  | .event .timeout | .event .close | .event .connection => false
  | _ => true

/-- What the code of `net.js` leaves as it is until it emits an event. -/
structure Beside (s t : Socket) : Prop where
  http : t.http = s.http
  server : t._server = s._server
  read : t._readableState = s._readableState
  readable : t._socketState.readable = s._socketState.readable
  accepting : t.accepting = s.accepting
  log : s.log <+: t.log

theorem Beside.refl (s : Socket) : Beside s s := ⟨rfl, rfl, rfl, rfl, rfl, List.prefix_rfl⟩

theorem Beside.trans {s t u : Socket} (h₁ : Beside s t) (h₂ : Beside t u) : Beside s u :=
  ⟨h₂.http.trans h₁.http, h₂.server.trans h₁.server, h₂.read.trans h₁.read,
    h₂.readable.trans h₁.readable, h₂.accepting.trans h₁.accepting,
    h₁.log.trans h₂.log⟩

/-- An entry of the log. -/
theorem Beside.record (s : Socket) (o : SocketObs) :
    Beside s { s with log := s.log ++ [o] } :=
  ⟨rfl, rfl, rfl, rfl, rfl, List.prefix_append ..⟩

/-- The state in which the listeners of 'end' are called, when 'end' was due in `s`. -/
structure Ended (s t : Socket) : Prop where
  http : t.http = s.http
  server : t._server = s._server
  accepting : t.accepting = s.accepting
  endEmitted : t._readableState.endEmitted = true

section

variable {P : Platform} {E : Surroundings} {C : Contract Socket}
variable {A : SocketYield → Socket → Prop} {s t : Socket} {f : Method Unit}

@[simp] theorem hands_record {o : SocketObs} {Q : Unit → Socket → Prop} :
    (record o).hands E C A Q s ↔ Q () { s with log := s.log ++ [o] } := Iff.rfl

@[simp] theorem hands_modifyState {g : SocketState → SocketState} {Q : Unit → Socket → Prop} :
    (modifyState g).hands E C A Q s ↔ Q () { s with _socketState := g s._socketState } :=
  Iff.rfl

@[simp] theorem hands_nextTick {tick : SocketTick} {Q : Unit → Socket → Prop} :
    (nextTick tick).hands E C A Q s ↔ Q () { s with ticks := s.ticks ++ [tick] } := Iff.rfl

@[simp] theorem hands_clearSocketTimeout {Q : Unit → Socket → Prop} :
    clearSocketTimeout.hands E C A Q s ↔ Q () { s with _timer := none } := Iff.rfl

@[simp] theorem hands_writable_note {n : WritableNote} {Q : Unit → Socket → Prop} :
    ((writableObject f).note n).hands E C A Q s ↔
      Q () { s with log := s.log ++ [.note n] } := Iff.rfl

@[simp] theorem hands_writable_nextTick {tick : WritableTick} {Q : Unit → Socket → Prop} :
    ((writableObject f).nextTick tick).hands E C A Q s ↔
      Q () { s with ticks := s.ticks ++ [.writable tick] } := Iff.rfl

@[simp] theorem hands_readable_note {n : ReadableNote} {Q : Unit → Socket → Prop} :
    ((readable P).note n).hands E C A Q s ↔
      Q () { s with log := s.log ++ [.readNote n] } := Iff.rfl

theorem hands_resetSocketTimeout {Q : Unit → Socket → Prop}
    (h : ∀ timer, Q () { s with _timer := timer }) :
    resetSocketTimeout.hands E C A Q s := by
  simp only [resetSocketTimeout, Prog.hands_bind, Prog.hands_get, Prog.hands_ite]
  exact ⟨fun _ => h _, fun _ => h s._timer⟩

theorem hands_useHandle {op : NativeOp} {Q : Unit → Socket → Prop}
    (h : Q () { s with log := s.log ++ [.native op s.handleStatus] }) :
    (useHandle op).hands E C A Q s := by
  simp only [useHandle, Prog.hands_bind, Prog.hands_get, hands_record, Prog.hands_ite]
  exact ⟨fun _ => trivial, fun _ => h⟩

theorem hands_emit {e : SocketEvent} {Q : Unit → Socket → Prop}
    (h : A (.event e) { s with log := s.log ++ [.event e] })
    (hQ : ∀ t, C.Post { s with log := s.log ++ [.event e] } t → E.returns (.event e) t → Q () t) :
    (emit e).hands E C A Q s := by
  cases e with
  | error message =>
      simp only [emit, Prog.hands_bind, Prog.hands_get, Prog.hands_ite, hands_record]
      exact ⟨fun _ => ⟨h, hQ⟩, fun _ => trivial⟩
  | _ => exact ⟨h, hQ⟩

/-! ### Code that emits nothing -/

theorem doWrite_hands {req : WriteReq} {Q : Unit → Socket → Prop}
    (hQ : ∀ t, Beside s t → Q () t) : ((writableObject f).doWrite req).hands E C A Q s := by
  have hbeside : ∀ (timer : Option Timer) (log : List SocketObs) (writes : List WriteReq),
      s.log <+: log → Q () { s with
        _timer := timer, writes := writes, log := log
        _writableState :=
          { s._writableState with writing := true, writingLength := req.chunk.length } } :=
    fun _ _ _ hlog => hQ _ ⟨rfl, rfl, rfl, rfl, rfl, hlog⟩
  simp only [doWrite, WritableObject.getState, WritableObject.modifyState, Prog.hands_bind,
    Prog.hands_get, Prog.hands_pure, Prog.hands_ite, Prog.hands_modify]
  refine ⟨fun _ => ?_, fun _ => hQ s (.refl s)⟩
  show (_write req).hands E C A Q _
  simp only [_write, Prog.hands_bind, Prog.hands_askFor, Prog.hands_ite, Prog.hands_modify,
    hands_record]
  refine hands_resetSocketTimeout fun timer => hands_useHandle fun err _ => ⟨fun _ => ?_, fun _ => ?_⟩
  · exact hbeside timer _ _ (List.prefix_append ..)
  · exact hbeside timer _ s.writes ((List.prefix_append ..).trans (List.prefix_append ..))

/-- A stream that has not ended rejects nothing. -/
theorem write_hands {data : Data} {callback : Option Callback} {Q : Bool → Socket → Prop}
    (he : s._writableState.ended = false) (hQ : ∀ res t, Beside s t → Q res t) :
    ((writableObject f).write P data callback).hands E C A Q s := by
  -- what comes after the chunk: the test of the high water mark
  have hmark : ∀ t, Beside s t → ∀ needDrain, Beside s
      { t with _writableState := { t._writableState with needDrain := needDrain } } :=
    fun t ht _ => { ht with }
  have hlast : ∀ res t, Beside s t → Q res { t with log := t.log ++ [.note (.returned res)] } :=
    fun res t ht => hQ res _ (ht.trans (.record t _))
  simp only [WritableObject.write, writeOrBuffer, WritableObject.getState,
    WritableObject.modifyState, Prog.hands_bind, Prog.hands_get, Prog.hands_pure, Prog.hands_ite,
    Prog.hands_modify, hands_writable_note, writable_state, writable_setState]
  refine ⟨fun hended => ?_, fun _ => ?_⟩
  · rw [hended] at he
    cases he
  · have hlog : s.log <+: s.log ++ [.note (.accepted ⟨data.toBuffer P, callback⟩)] :=
      List.prefix_append ..
    refine ⟨fun _ => ⟨fun _ => ?_, fun _ => ?_⟩, fun _ => doWrite_hands fun t ht => ?_⟩
    · exact hQ _ _ ⟨rfl, rfl, rfl, rfl, rfl, hlog.trans (List.prefix_append ..)⟩
    · exact hQ _ _ ⟨rfl, rfl, rfl, rfl, rfl, hlog.trans (List.prefix_append ..)⟩
    · have hstart : Beside s t := .trans (by exact ⟨rfl, rfl, rfl, rfl, rfl, hlog⟩) ht
      exact ⟨fun _ => hlast _ _ (hmark t hstart true), fun _ => hlast _ _ hstart⟩

/-- `end` without a chunk, also where NuttX makes one up. -/
theorem end_hands {callback : Option Callback} {Q : Unit → Socket → Prop}
    (hl : s._writableState.ended = true → s._writableState.ending = true)
    (hQ : ∀ t, Beside s t → Q () t) : (end_ P none callback).hands E C A Q s := by
  -- what comes after the chunk
  have hrest : ∀ t, Beside s t → ((do
      if !(← unfinished.getState).ending then
        unfinished.endWritable callback
      unfinished.note .endReturned : Method Unit) >>= fun _ =>
        modifyState fun state => { state with writable := false }).hands E C A Q t := by
    intro t ht
    have hlog : ∀ o, s.log <+: t.log ++ [o] := fun o => ht.log.trans (List.prefix_append ..)
    simp only [unfinished_eq, WritableObject.getState, WritableObject.modifyState, endWritable,
      Prog.hands_bind, Prog.hands_get, Prog.hands_pure, Prog.hands_ite, Prog.hands_modify,
      hands_writable_note, hands_writable_nextTick, hands_modifyState, writable_state,
      writable_setState]
    refine ⟨fun _ => ⟨fun _ => ?_, fun _ => ?_⟩, fun _ => ?_⟩
    · exact hQ _ { ht with log := hlog _ }
    · exact hQ _ { ht with log := hlog _ }
    · exact hQ _ { ht with log := hlog _ }
  have hcalled : Beside s { s with log := s.log ++ [.note .endCalled] } := .record s _
  simp only [Prog.hands_bind] at hrest
  simp only [end_, WritableObject.end_, unfinished_eq, WritableObject.getState, Prog.hands_bind,
    Prog.hands_get, Prog.hands_pure, hands_writable_note, writable_state] at hrest ⊢
  cases hc : endChunk P s._writableState.ending none with
  | none => exact hrest _ hcalled
  | some chunk =>
      have hn : s._writableState.ended = false := by
        cases he : s._writableState.ended with
        | false => rfl
        | true =>
            rw [hl he, endChunk, Bool.not_true, Bool.and_false] at hc
            cases hc
      refine (Prog.hands_bind ..).mpr (write_hands hn fun _ t ht => ?_)
      exact hrest t (hcalled.trans ht)

theorem destroySoon_hands {Q : Unit → Socket → Prop}
    (hl : s._writableState.ended = true → s._writableState.ending = true)
    (hQ : ∀ t, Beside s t → Q () t) : (destroySoon P).hands E C A Q s := by
  simp only [destroySoon, Prog.hands_bind, Prog.hands_get, Prog.hands_ite, Prog.hands_modify]
  refine ⟨fun _ => end_hands hl fun t ht => ?_, fun _ => ?_⟩
  · exact hQ _ { ht with }
  · exact hQ _ ⟨rfl, rfl, rfl, rfl, rfl, List.prefix_rfl⟩

theorem destroy_hands {Q : Unit → Socket → Prop}
    (hl : s._writableState.ended = true → s._writableState.ending = true)
    (hQ : ∀ t, t.http = s.http → t.accepting = s.accepting → Q () t) :
    (destroy P).hands E C A Q s := by
  have hrest : ∀ t : Socket, t.http = s.http → t.accepting = s.accepting →
      (t._writableState.ended = true → close.hands E C A (fun _ t => (modifyState fun state =>
        { state with destroyed := true }).hands E C A Q t) t) ∧
      (¬ t._writableState.ended = true →
        Q () { t with finishListeners := t.finishListeners + 1 }) := by
    intro t hhttp hacc
    refine ⟨fun _ => (Prog.hands_bind ..).mpr (hands_useHandle ?_), fun _ => ?_⟩
    · exact hQ _ hhttp hacc
    · exact hQ _ hhttp hacc
  simp only [destroy, Prog.hands_bind, Prog.hands_get, Prog.hands_ite, Prog.hands_modify,
    hands_record, hands_clearSocketTimeout]
  refine ⟨fun _ => hQ _ rfl rfl, fun _ => ⟨fun _ => end_hands hl fun t ht => ?_, fun _ => ?_⟩⟩
  · exact hrest { t with _timer := none, log := t.log ++ [.destroyCalled] } ht.http ht.accepting
  · exact hrest { s with _timer := none, log := s.log ++ [.destroyCalled] } rfl rfl

theorem maybeDestroy_hands {Q : Unit → Socket → Prop}
    (hl : s._writableState.ended = true → s._writableState.ending = true)
    (hQ : ∀ t, Q () t) : (maybeDestroy P).hands E C A Q s := by
  simp only [maybeDestroy, Prog.hands_bind, Prog.hands_get, Prog.hands_ite, Prog.hands_pure]
  exact ⟨fun _ => destroy_hands hl fun t _ _ => hQ t, fun _ => hQ s⟩

/-- A socket that is still readable is not destroyed when its stream ends. -/
theorem onSocketEnd_hands {Q : Unit → Socket → Prop}
    (hl : s._writableState.ended = true → s._writableState.ending = true)
    (hr : s._socketState.readable = true) (hQ : ∀ t, Beside s t → Q () t) :
    (onSocketEnd P).hands E C A Q s := by
  simp only [onSocketEnd, maybeDestroy, Prog.hands_bind, Prog.hands_get, Prog.hands_ite,
    Prog.hands_pure]
  refine ⟨fun hclose => ?_, fun _ => ⟨fun _ => destroySoon_hands hl hQ, fun _ => hQ s (.refl s)⟩⟩
  rw [hr, Bool.not_true, Bool.and_false] at hclose
  cases hclose

/-- The timer changes, and nothing that a listener may look at. -/
theorem Beside.timer (s : Socket) (timer : Option Timer) : Beside s { s with _timer := timer } :=
  ⟨rfl, rfl, rfl, rfl, rfl, List.prefix_rfl⟩

end

/-! ### Code that emits events of no interest -/

/-- What `destroy` and the listeners of 'end' count on. -/
structure Orderly (s : Socket) : Prop where
  ended : s._writableState.ended = true → s._writableState.ending = true
  unreadable : s._socketState.readable = false → s._readableState.endEmitted = true

theorem Base.orderly {s : Socket} (h : Base s) : Orderly s :=
  ⟨h.life.ended, h.read.unreadable⟩

section

variable {P : Platform} {E : Surroundings} {D : Contract Socket}
variable {A : SocketYield → Socket → Prop} {s : Socket}

section plain

variable (hplain : ∀ u t, SocketYield.plain u = true → A u t)
include hplain

theorem runFinishListeners_hands (n : Nat) :
    ∀ {s : Socket}, Orderly s → (runFinishListeners P n).hands E (basis.and D) A
      (fun _ t => s.accepting = false → t.accepting = false) s := by
  induction n with
  | zero => intro _ _; exact id
  | succ n ih =>
      intro s hs
      simp only [runFinishListeners, Prog.hands_bind, Prog.hands_modify, Prog.hands_yieldTo]
      refine destroy_hands hs.ended fun t _ ht => ⟨hplain _ _ rfl, fun u hu _ => ?_⟩
      refine Prog.hands_mono (fun _ v hv hacc => hv ?_) _ (ih (Kept.base hu).orderly)
      exact (Kept.mono hu).accepting (ht.trans hacc)

/-- The listeners of 'finish' of a stream that is ending. -/
theorem onFinish_hands (hending : s._writableState.ending = true) :
    (onFinish P).hands E (basis.and D) A
      (fun _ t => s.accepting = false → t.accepting = false) s := by
  have hrest : ∀ (n : Nat) (t : Socket), t.accepting = s.accepting → (do
      Prog.yieldTo (.event .finish)
      runFinishListeners P n : Method Unit).hands E (basis.and D) A
        (fun _ t => s.accepting = false → t.accepting = false) t := by
    intro n t ht
    refine ⟨hplain _ _ rfl, fun u hu _ => ?_⟩
    refine Prog.hands_mono (fun _ v hv hacc => hv ?_) _
      (runFinishListeners_hands hplain n (Kept.base hu).orderly)
    exact (Kept.mono hu).accepting (ht.trans hacc)
  simp only [onFinish, onSocketFinish, Prog.hands_bind, Prog.hands_get, Prog.hands_ite] at hrest ⊢
  refine ⟨fun _ => destroy_hands (fun _ => hending) fun t _ => hrest _ t, fun _ => ?_⟩
  exact hands_useHandle fun err _ => ⟨fun _ => hrest _ _ rfl, fun _ => hrest _ _ rfl⟩

theorem emitFinish_hands (hending : s._writableState.ending = true) :
    ((writable P).emitFinish).hands E (basis.and D) A
      (fun _ t => s.accepting = false → t.accepting = false) s := by
  simp only [WritableObject.emitFinish, WritableObject.getState, WritableObject.modifyState,
    Prog.hands_bind, Prog.hands_get, Prog.hands_pure, Prog.hands_ite, Prog.hands_modify,
    writable_eq, writable_state, writable_setState]
  exact ⟨fun _ => onFinish_hands hplain hending, fun _ => id⟩

/-- `writeBuffered` emits 'finish' or 'drain', if anything. -/
theorem writeBuffered_hands {Q : Unit → Socket → Prop}
    (hQ : ∀ t, (s.accepting = false → t.accepting = false) → Q () t) :
    ((writable P).writeBuffered).hands E (basis.and D) A Q s := by
  simp only [WritableObject.writeBuffered, WritableObject.getState, Prog.hands_bind,
    Prog.hands_get, Prog.hands_pure, Prog.hands_ite, writable_eq, writable_state]
  refine ⟨fun _ => ?_, fun _ => hQ s id⟩
  cases s._writableState.buffer with
  | cons req rest => exact doWrite_hands fun t ht => hQ t fun hacc => ht.accepting.trans hacc
  | nil =>
      simp only [onEmptyBuffer, emitDrain, WritableObject.getState, WritableObject.modifyState,
        Prog.hands_bind, Prog.hands_get, Prog.hands_pure, Prog.hands_ite, Prog.hands_modify,
        writable_state]
      refine ⟨fun he => ?_, fun _ => ⟨fun _ => ⟨fun _ => ?_, fun _ => hQ s id⟩, fun _ => hQ s id⟩⟩
      · exact Prog.hands_mono (fun _ => hQ) _ (emitFinish_hands hplain he)
      · refine hands_emit (e := .drain) (hplain _ _ rfl) fun t ht _ => hQ t fun hacc => ?_
        exact (Kept.mono ht).accepting hacc

theorem onSocketConnect_hands {Q : Unit → Socket → Prop}
    (hQ : ∀ t, (s.accepting = false → t.accepting = false) → Q () t) :
    (onSocketConnect P).hands E (basis.and D) A Q s := by
  simp only [onSocketConnect, _readyToWrite, WritableObject.modifyState, Prog.hands_bind,
    Prog.hands_modify, hands_modifyState, hands_nextTick]
  exact hands_resetSocketTimeout fun timer => writeBuffered_hands hplain fun t ht => hQ _ ht

end plain

/-! ### Reading -/

/-- The next 'data' event comes from this call. -/
def delivers (P : Platform) (s : Socket) : Call → Bool
  | .onread (.data buffer) =>
      s._readableState.flowing && !s._readableState.ended &&
        (!P.nuttx || (splitEof P buffer).1.isSome)
  | .resume => !s._readableState.flowing && decide (0 < s._readableState.length)
  | .on ev =>
      ev = "data" && !s._readableState.flowing && decide (0 < s._readableState.length)
  | _ => false

/-- 'end' has not been emitted, and nothing is left to read. -/
def drained (s : Socket) : Bool :=
  !s._readableState.endEmitted && s._readableState.length == 0

/-- When the listeners of `e` return, 'end' follows. On NuttX a block may hold EOF. -/
def endFollows (P : Platform) (s : Socket) : SocketEvent → Bool
  | .data _ => drained s && (P.nuttx || s._readableState.ended)
  | .readable | .error _ => drained s && P.nuttx
  | _ => false

/-- `read(n)` takes all that is left before 'end'. -/
def readEnds (s : Socket) (n : Option Int) : Bool :=
  s._readableState.ended && !s._readableState.endEmitted &&
    decide ((s._readableState.length : Int) ≤ readLength s._readableState.length n)

/-- 'end' is emitted once, on a socket that is still readable. -/
theorem emitEnd_hands (hs : Orderly s) {Q : Unit → Socket → Prop}
    (hend : s._readableState.endEmitted = false → ∀ t, Ended s t → A (.event .end_) t)
    (hQ : ∀ t, Orderly t → t._readableState.endEmitted = true → Q () t) :
    ((readable P).emitEnd).hands E (basis.and D) A Q s := by
  simp only [emitEnd, ReadableObject.getState, ReadableObject.modifyState, Prog.hands_bind,
    Prog.hands_get, Prog.hands_pure, Prog.hands_ite, Prog.hands_modify, readable_state,
    readable_setState, Bool.not_eq_true', Bool.not_eq_false]
  refine ⟨fun _ => trivial, fun _ => ⟨fun hem => ?_, fun hem => hQ s hs hem⟩⟩
  have hr : s._socketState.readable = true := by
    cases hr : s._socketState.readable with
    | true => rfl
    | false =>
        rw [hs.unreadable hr] at hem
        cases hem
  show (do
    record (.event .end_)
    onSocketEnd P
    Prog.yieldTo (.event .end_) : Method Unit).hands E (basis.and D) A Q _
  simp only [Prog.hands_bind, hands_record]
  refine onSocketEnd_hands hs.ended hr fun t ht => ?_
  have hemitted : t._readableState.endEmitted = true := by
    rw [ht.read]
  refine ⟨hend hem t ⟨ht.http, ht.server, ht.accepting, hemitted⟩, fun u hu _ => ?_⟩
  exact hQ u (Kept.base hu).orderly ((Kept.mono hu).endEmitted hemitted)

theorem emitEndIfEmpty_hands (hs : Orderly s) {Q : Unit → Socket → Prop}
    (hend : s._readableState.ended = true → drained s = true →
      ∀ t, Ended s t → A (.event .end_) t)
    (hsame : Q () s)
    (hQ : ∀ t, Orderly t → t._readableState.endEmitted = true → Q () t) :
    ((readable P).emitEndIfEmpty).hands E (basis.and D) A Q s := by
  simp only [emitEndIfEmpty, ReadableObject.getState, Prog.hands_bind, Prog.hands_get,
    Prog.hands_pure, Prog.hands_ite, readable_state, Bool.and_eq_true, beq_iff_eq]
  refine ⟨fun he => emitEnd_hands hs (fun hem => hend he.1 ?_) hQ, fun _ => hsame⟩
  simp [drained, hem, he.2]

/-- A 'data' event, and the 'end' that may follow it. -/
theorem emitData_hands {data : Option Bytes} {Q : Unit → Socket → Prop}
    (hdata : ∀ t, t.http = s.http → A (.event (.data data)) t)
    (hfollows : ∀ t, (basis.and D).inv t → E.returns (.event (.data data)) t →
      endFollows P t (.data data) = true → ∀ u, Ended t u → A (.event .end_) u)
    (hreturn : ∀ t, (basis.and D).inv t → E.returns (.event (.data data)) t → Q () t)
    (hQ : ∀ t, Orderly t → t._readableState.endEmitted = true → Q () t) :
    ((readable P).emitData P data).hands E (basis.and D) A Q s := by
  have hemit : (emit (.data data)).hands E (basis.and D) A
      (fun _ t => ((readable P).emitEndIfEmpty).hands E (basis.and D) A Q t) s := by
    refine hands_emit (hdata _ rfl) fun t ht hret => ?_
    have hlate := (Kept.base ht).orderly
    refine emitEndIfEmpty_hands hlate (fun he hd => hfollows t ht.1 hret ?_) (hreturn t ht.1 hret) hQ
    simp [endFollows, hd, he]
  simp only [emitData, assertEmpty, readBuffer, ReadableObject.getState,
    ReadableObject.modifyState, Prog.hands_bind, Prog.hands_get, Prog.hands_pure, Prog.hands_ite,
    Prog.hands_modify, readable_state, readable_setState]
  exact ⟨fun _ => hemit, fun _ => ⟨fun _ => trivial, fun _ => trivial⟩⟩

/-- EOF: 'end' is emitted unless something is left to read. -/
theorem onreadEof_hands (hs : Orderly s)
    (hend : drained s = true → ∀ t, Ended s t → A (.event .end_) t) :
    (onreadEof P).hands E (basis.and D) A (fun _ _ => True) s := by
  simp only [onreadEof, push, onEof, ReadableObject.getState, ReadableObject.modifyState,
    Prog.hands_bind, Prog.hands_get, Prog.hands_pure, Prog.hands_ite, Prog.hands_modify,
    hands_readable_note, hands_modifyState, readable_state, readable_setState, beq_iff_eq]
  refine hands_resetSocketTimeout fun timer => ⟨fun hl => ?_, fun hl => ⟨fun h => ?_, fun _ => ?_⟩⟩
  · refine emitEnd_hands (s := eofMet { s with _timer := timer }) ⟨hs.ended, hs.unreadable⟩
      (fun hem t ht => hend ?_ t ⟨ht.http, ht.server, ht.accepting, ht.endEmitted⟩)
      (fun t ht _ => ⟨fun _ => ?_, fun _ => trivial⟩)
    · show (!s._readableState.endEmitted && s._readableState.length == 0) = true
      rw [show s._readableState.endEmitted = false from hem]
      simpa using hl
    · exact maybeDestroy_hands ht.ended fun _ => trivial
  · exact absurd h hl
  · trivial

/-- 'end' after what `readBuffer` did, where that left `t`. -/
theorem afterReadBuffer_hands {t : Socket} {res : Option Bytes} (ht : Orderly t)
    (hend : t._readableState.ended = true → drained t = true →
      ∀ u, Ended t u → A (.event .end_) u) :
    ((readable P).afterReadBuffer res).hands E (basis.and D) A (fun _ _ => True) t := by
  cases res with
  | none =>
      simp only [afterReadBuffer, Prog.hands_bind, Prog.hands_pure]
      exact emitEndIfEmpty_hands ht hend trivial fun _ _ _ => trivial
  | some data =>
      simp only [afterReadBuffer, Prog.hands_bind, Prog.hands_pure, hands_readable_note]
      have htook : Orderly { t with log := t.log ++ [.readNote (.took data)] } :=
        ⟨ht.ended, ht.unreadable⟩
      refine emitEndIfEmpty_hands htook (fun he hd u hu => ?_) ?_ fun _ _ _ => ?_
      · exact hend he hd u ⟨hu.http, hu.server, hu.accepting, hu.endEmitted⟩
      · trivial
      · trivial

/-- `read` emits 'end' only. -/
theorem read_hands (hs : Orderly s) {n : Option Int}
    (hend : readEnds s n = true → ∀ t, Ended s t → A (.event .end_) t) :
    ((readable P).read n).hands E (basis.and D) A (fun _ _ => True) s := by
  -- what is left is not more than what is asked for
  have hdue : ∀ t : Socket, t.http = s.http → t._server = s._server →
      t.accepting = s.accepting →
      t._readableState.ended = s._readableState.ended →
      t._readableState.endEmitted = s._readableState.endEmitted →
      (t._readableState.length = 0 →
        (s._readableState.length : Int) ≤ readLength s._readableState.length n) →
      t._readableState.ended = true → drained t = true → ∀ u, Ended t u → A (.event .end_) u := by
    intro t hhttp hserver hacc hended hemitted hle he hd u hu
    simp only [drained, Bool.and_eq_true, Bool.not_eq_true', beq_iff_eq] at hd
    refine hend ?_ u ⟨hu.http.trans hhttp, hu.server.trans hserver, hu.accepting.trans hacc,
      hu.endEmitted⟩
    simp [readEnds, ← hended, ← hemitted, he, hd.1, hle hd.2]
  have hnone : ((readable P).afterReadBuffer none).hands E (basis.and D) A
      (fun _ _ => True) s := by
    refine afterReadBuffer_hands hs (hdue s rfl rfl rfl rfl rfl fun hl => ?_)
    rw [hl]
    exact readLength_nonneg 0 n
  simp only [ReadableObject.read, readBuffer, ReadableObject.getState,
    ReadableObject.modifyState, Prog.hands_bind, Prog.hands_get, Prog.hands_pure, Prog.hands_ite,
    Prog.hands_modify, Prog.hands_fail, Option.getD_some, readable_state, readable_setState]
  refine ⟨fun hpos => ⟨fun _ => hnone, fun _ => ⟨fun hle => ?_, fun _ => trivial⟩⟩,
    fun _ => hnone⟩
  rw [if_neg (Int.ne_of_gt hpos)] at hle
  exact afterReadBuffer_hands ⟨hs.ended, hs.unreadable⟩ (hdue _ rfl rfl rfl rfl rfl fun _ => hle)

theorem resume_hands
    (hdata : s._readableState.flowing = false → 0 < s._readableState.length →
      ∀ d t, t.http = s.http → A (.event (.data d)) t)
    (hfollows : ∀ d t, (basis.and D).inv t → E.returns (.event (.data d)) t →
      endFollows P t (.data d) = true → ∀ u, Ended t u → A (.event .end_) u) :
    ((readable P).resume P).hands E (basis.and D) A (fun _ _ => True) s := by
  simp only [resume, readBuffer, ReadableObject.getState, ReadableObject.modifyState,
    Prog.hands_bind, Prog.hands_get, Prog.hands_pure, Prog.hands_ite, Prog.hands_modify,
    Prog.hands_fail, readable_state, readable_setState, Bool.not_eq_true']
  have hemit : s._readableState.flowing = false → 0 < s._readableState.length →
      ∀ d t, t.http = s.http →
        ((readable P).emitData P d).hands E (basis.and D) A (fun _ _ => True) t := by
    intro hf hl d t ht
    exact emitData_hands (fun u hu => hdata hf hl d u (hu.trans ht)) (hfollows d)
      (fun _ _ _ => trivial) fun _ _ _ => trivial
  refine ⟨fun hf => ⟨fun hl => ⟨fun _ => ?_, fun _ => ⟨fun _ => ?_, fun _ => trivial⟩⟩,
    fun _ => trivial⟩, fun _ => trivial⟩
  · exact hemit hf hl _ _ rfl
  · exact hemit hf hl _ _ rfl

theorem on_hands {ev : String}
    (hdata : ev = "data" → s._readableState.flowing = false → 0 < s._readableState.length →
      ∀ d t, t.http = s.http → A (.event (.data d)) t)
    (hfollows : ∀ d t, (basis.and D).inv t → E.returns (.event (.data d)) t →
      endFollows P t (.data d) = true → ∀ u, Ended t u → A (.event .end_) u) :
    ((readable P).on P ev).hands E (basis.and D) A (fun _ _ => True) s := by
  simp only [on, Prog.hands_bind, Prog.hands_ite]
  exact ⟨fun hev => resume_hands (hdata hev) hfollows, fun _ => trivial⟩

/-- A block arrives: 'data', 'readable', or an 'error' after EOF. -/
theorem push_hands {data : Bytes} {Q : Unit → Socket → Prop}
    (hplain : ∀ u t, SocketYield.plain u = true → A u t)
    (hdata : s._readableState.flowing = true → s._readableState.ended = false →
      ∀ d t, t.http = s.http → A (.event (.data d)) t)
    (herror : ∀ m, A (.event (.error m)) { s with log := s.log ++ [.event (.error m)] })
    (hfollows : ∀ e t, (basis.and D).inv t → E.returns (.event e) t → endFollows P t e = true →
      ∀ u, Ended t u → A (.event .end_) u)
    (hQ : ∀ t, Orderly t →
      (P.nuttx = true → drained t = true → ∀ u, Ended t u → A (.event .end_) u) → Q () t) :
    ((readable P).push P (.data (.buffer data))).hands E (basis.and D) A Q s := by
  have hreturn : ∀ e t, (basis.and D).inv t → E.returns (.event e) t →
      (P.nuttx = true → drained t = true → endFollows P t e = true) → Q () t :=
    fun e t ht hret hdue => hQ t ht.1.orderly fun hn hd => hfollows e t ht hret (hdue hn hd)
  have hdone : ∀ t, Orderly t → t._readableState.endEmitted = true → Q () t := by
    intro t ht hem
    refine hQ t ht fun _ hd => ?_
    simp [drained, hem] at hd
  simp only [push, emitError, emitReadable, ReadableObject.getState, ReadableObject.modifyState,
    Prog.hands_bind, Prog.hands_get, Prog.hands_pure, Prog.hands_ite, Prog.hands_modify,
    hands_readable_note, readable_state, readable_setState, Bool.not_eq_true]
  refine ⟨fun _ => ?_, fun he => ⟨fun hf => ?_, fun _ => ?_⟩⟩
  · refine hands_emit (e := .error _) (herror _) fun t ht hret => ?_
    exact hreturn _ t ht.1 hret fun hn hd => by simp [endFollows, hn, hd]
  · refine emitData_hands (fun t ht => hdata hf he _ t ht) (fun t => hfollows _ t)
      (fun t ht hret => ?_) hdone
    exact hreturn _ t ht hret fun hn hd => by simp [endFollows, hn, hd]
  · refine hands_emit (e := .readable) (hplain _ _ rfl) fun t ht hret => ?_
    exact hreturn _ t ht.1 hret fun hn hd => by simp [endFollows, hn, hd]

theorem onread_hands {result : ReadResult} (hs : Orderly s)
    (hplain : ∀ u t, SocketYield.plain u = true → A u t)
    (hdata : delivers P s (.onread result) = true → ∀ d t, t.http = s.http →
      A (.event (.data d)) t)
    (herror : ∀ m t, Beside s t → .event (.error m) ∈ t.log → A (.event (.error m)) t)
    (hend : s._readableState.endEmitted = false → ∀ t, Ended s t → A (.event .end_) t)
    (hfollows : ∀ e t, (basis.and D).inv t → E.returns (.event e) t → endFollows P t e = true →
      ∀ u, Ended t u → A (.event .end_) u) :
    (onread P result).hands E (basis.and D) A (fun _ _ => True) s := by
  have hemitted : drained s = true → s._readableState.endEmitted = false := by
    intro hd
    simp only [drained, Bool.and_eq_true, Bool.not_eq_true'] at hd
    exact hd.1
  have hreported : ∀ timer m, A (.event (.error m))
      { s with _timer := timer, log := s.log ++ [.event (.error m)] } :=
    fun _ m => herror m _ ⟨rfl, rfl, rfl, rfl, rfl, List.prefix_append ..⟩ (by simp)
  cases result with
  | eof => exact onreadEof_hands hs fun hd => hend (hemitted hd)
  | error nread =>
      simp only [onread, ReadableObject.error, emitError, Prog.hands_bind]
      exact hands_resetSocketTimeout fun timer =>
        hands_emit (e := .error _) (hreported timer _) fun _ _ _ => trivial
  | data buffer =>
      simp only [onread, Prog.hands_bind]
      refine hands_resetSocketTimeout fun timer => (Prog.hands_ite ..).mpr ⟨fun hn => ?_, fun hn => ?_⟩
      · -- NuttX: the payload comes before EOF
        have hrest : ∀ (eofNeeded : Bool) (t : Socket), Orderly t →
            (drained t = true → ∀ u, Ended t u → A (.event .end_) u) →
            (if eofNeeded then onreadEof P else pure ()).hands E (basis.and D) A
              (fun _ _ => True) t := by
          intro eofNeeded t ht hdue
          cases eofNeeded with
          | true => exact onreadEof_hands ht hdue
          | false => trivial
        simp only [delivers, hn] at hdata
        cases hsplit : splitEof P buffer with
        | mk payload eofNeeded =>
            cases payload with
            | none =>
                exact hrest eofNeeded _ ⟨hs.ended, hs.unreadable⟩ fun hd u hu =>
                  hend (hemitted hd) u ⟨hu.http, hu.server, hu.accepting, hu.endEmitted⟩
            | some payload =>
                refine (Prog.hands_bind ..).mpr ?_
                refine push_hands hplain (fun hf he => hdata ?_) (hreported timer) hfollows
                  fun t ht hdue => hrest eofNeeded t ht (hdue hn)
                simp only [hsplit, show s._readableState.flowing = true from hf,
                  show s._readableState.ended = false from he]
                rfl
      · refine push_hands hplain (fun hf he => hdata ?_) (hreported timer) hfollows
          fun _ _ _ => trivial
        simp [delivers, hn]
        exact ⟨hf, he⟩

/-! ### Every call -/

/-- The call emits 'error', if there is a listener. -/
def errs (s : Socket) : Call → Bool
  | .write (.data _) _ | .end_ (some _) _ => s._writableState.ended
  | .onread _ => true
  | .tick i => s.ticks[i]?.any fun | .lookupFailed _ => true | _ => false
  | _ => false

variable (P E D A) in
/-- What the caller of `i` has seen to in `s`, so that every event of the call comes in a state
that its listeners can bear. -/
structure Prepared (i : Call) (s : Socket) : Prop where
  plain : ∀ u t, SocketYield.plain u = true → A u t
  data : delivers P s i = true → ∀ d t, t.http = s.http → A (.event (.data d)) t
  read : ∀ n, i = .read n → readEnds s n = true → ∀ t, Ended s t → A (.event .end_) t
  eof : ∀ result, i = .onread result → s._readableState.endEmitted = false →
    ∀ t, Ended s t → A (.event .end_) t
  follows : ∀ e t, (basis.and D).inv t → E.returns (.event e) t → endFollows P t e = true →
    ∀ u, Ended t u → A (.event .end_) u
  error : errs s i = true → ∀ m t, Beside s t → .event (.error m) ∈ t.log →
    A (.event (.error m)) t
  failed : ∀ status, i = .afterConnect status → ∀ m t, t.http = s.http →
    .event (.error m) ∈ t.log → A (.event (.error m)) t
  connection : i = .onconnection → ∀ t, t.accepting = false → A (.event .connection) t
  timeout : i = .onTimeout → ∀ t, Beside s t → A (.event .timeout) t
  close : i = .onclose →
    A (.event .close) { s with closing := false, log := s.log ++ [.event .close] }

/-- A write after end. -/
theorem write_ended_hands {data : Data} {callback : Option Callback} {f : Method Unit}
    {Q : Bool → Socket → Prop}
    (he : s._writableState.ended = true)
    (herror : ∀ m t, Beside s t → .event (.error m) ∈ t.log → A (.event (.error m)) t)
    (hQ : ∀ res t, Q res t) :
    ((writableObject f).write P data callback).hands E (basis.and D) A Q s := by
  simp only [WritableObject.write, writeAfterEnd, WritableObject.getState, Prog.hands_bind,
    Prog.hands_get, Prog.hands_pure, Prog.hands_ite, hands_writable_note, writable_state]
  refine ⟨fun _ => ?_, fun hn => absurd he hn⟩
  refine hands_emit (e := .error _) (herror _ _ ?_ (by simp)) fun t _ _ => ?_
  · exact ⟨rfl, rfl, rfl, rfl, rfl, (List.prefix_append ..).trans (List.prefix_append ..)⟩
  · cases callback <;> exact hQ _ _

theorem lookup_hands {hostname : Host} {port : Int}
    (hplain : ∀ u t, SocketYield.plain u = true → A u t) :
    (lookup P hostname port).hands E (basis.and D) A (fun _ _ => True) s := by
  cases hostname with
  | string hostname =>
      simp only [lookup, Prog.hands_bind, Prog.hands_ite, Prog.hands_modify, Prog.hands_yieldTo,
        Prog.hands_askFor]
      exact ⟨fun _ => ⟨hplain _ _ rfl, fun _ _ _ => trivial⟩,
        fun _ _ _ => ⟨fun _ => trivial, fun _ => trivial⟩⟩
  | absent => trivial
  | other => trivial

theorem connect_hands {options : ConnectOptions}
    (hplain : ∀ u t, SocketYield.plain u = true → A u t) :
    (connect P options).hands E (basis.and D) A (fun _ _ => True) s := by
  have hrest : ∀ t : Socket, (connectOn P options).hands E (basis.and D) A (fun _ _ => True) t := by
    intro t
    simp only [connectOn, Prog.hands_bind, hands_modifyState]
    refine hands_resetSocketTimeout fun timer => ?_
    cases checkConnect options with
    | error message => trivial
    | ok port =>
        simp only [Prog.hands_bind, Prog.hands_modify]
        exact lookup_hands hplain
  simp only [connectOn, Prog.hands_bind] at hrest
  simp only [connect, Prog.hands_bind, Prog.hands_get, Prog.hands_ite, Prog.hands_modify]
  exact ⟨fun _ => ⟨fun _ => hrest _, fun _ => hrest s⟩, fun _ => trivial⟩

theorem afterLookup_hands {lookup : Lookup} {err : Int}
    (hplain : ∀ u t, SocketYield.plain u = true → A u t) :
    (afterLookup lookup err).hands E (basis.and D) A (fun _ _ => True) s := by
  simp only [afterLookup, connectHandle, Prog.hands_bind, Prog.hands_ite, Prog.hands_modify,
    hands_record, hands_nextTick]
  refine ⟨fun _ => hands_emit (e := .lookup _) (hplain _ _ rfl) fun t _ _ => ?_,
    fun _ => hands_emit (e := .lookup _) (hplain _ _ rfl) fun _ _ _ => trivial⟩
  exact hands_resetSocketTimeout fun timer => hands_useHandle fun r _ =>
    ⟨fun _ => trivial, fun _ => trivial⟩

/-- `end`, with a chunk or without. -/
theorem end_some_hands {data : Option Data} {callback : Option Callback} (hs : Orderly s)
    (herror : data.isSome = true → s._writableState.ended = true →
      ∀ m t, Beside s t → .event (.error m) ∈ t.log → A (.event (.error m)) t) :
    (end_ P data callback).hands E (basis.and D) A (fun _ _ => True) s := by
  -- what comes after the chunk
  have hrest : ∀ t : Socket, ((do
      if !(← unfinished.getState).ending then
        unfinished.endWritable callback
      unfinished.note .endReturned : Method Unit) >>= fun _ =>
        modifyState fun state => { state with writable := false }).hands E (basis.and D) A
          (fun _ _ => True) t := by
    intro t
    simp only [unfinished_eq, WritableObject.getState, WritableObject.modifyState, endWritable,
      Prog.hands_bind, Prog.hands_get, Prog.hands_pure, Prog.hands_ite, Prog.hands_modify,
      hands_writable_note, hands_writable_nextTick, hands_modifyState, implies_true, and_self]
  simp only [Prog.hands_bind] at hrest
  simp only [end_, WritableObject.end_, unfinished_eq, WritableObject.getState, Prog.hands_bind,
    Prog.hands_get, Prog.hands_pure, hands_writable_note, writable_state] at hrest ⊢
  cases hc : endChunk P s._writableState.ending data with
  | none => exact hrest _
  | some chunk =>
      refine (Prog.hands_bind ..).mpr ?_
      cases he : s._writableState.ended with
      | false => exact write_hands he fun _ t _ => hrest t
      | true =>
          have hdata : data.isSome = true := by
            simp only [endChunk, hs.ended he, Bool.not_true, Bool.and_false] at hc
            rw [show data = some chunk from hc]
            rfl
          refine write_ended_hands he (fun m t ht => herror hdata he m t ?_) fun _ t => hrest t
          exact .trans (.record s (.note .endCalled)) ht

theorem afterConnect_hands {status : Int} (hs : Orderly s)
    (hplain : ∀ u t, SocketYield.plain u = true → A u t)
    (herror : ∀ m t, t.http = s.http → .event (.error m) ∈ t.log → A (.event (.error m)) t) :
    (afterConnect P status).hands E (basis.and D) A (fun _ _ => True) s := by
  have hrest : ∀ t : Socket, Orderly t → t.http = s.http →
      (destroy P).hands E (basis.and D) A (fun _ t => (emit (.error
        ("connect failed - status: " ++ toString status))).hands E (basis.and D) A
          (fun _ _ => True) t) t := by
    intro t ht hhttp
    refine destroy_hands ht.ended fun u hu _ => ?_
    exact hands_emit (e := .error _) (herror _ _ (hu.trans hhttp) (by simp)) fun _ _ _ => trivial
  simp only [afterConnect, Prog.hands_bind, Prog.hands_get, Prog.hands_pure, Prog.hands_ite,
    hands_record, hands_modifyState]
  refine ⟨fun hne => ⟨fun _ => ⟨fun h0 => absurd h0 hne, fun _ => ?_⟩, fun _ => trivial⟩,
    fun _ => ⟨fun _ => ⟨fun _ => ?_, fun _ => ?_⟩, fun _ => trivial⟩⟩
  · exact hrest _ ⟨hs.ended, hs.unreadable⟩ rfl
  · refine onSocketConnect_hands hplain fun t _ => ?_
    exact hands_emit (e := .connect) (hplain _ _ rfl) fun _ _ _ => trivial
  · exact hrest _ ⟨hs.ended, hs.unreadable⟩ rfl

theorem afterWrite_hands {req : WriteReq} {status : Int}
    (hplain : ∀ u t, SocketYield.plain u = true → A u t) :
    (afterWrite P req status).hands E (basis.and D) A (fun _ _ => True) s := by
  simp only [afterWrite, _onwrite, WritableObject.modifyState, Prog.hands_bind,
    Prog.hands_modify, hands_record]
  refine writeBuffered_hands hplain fun t _ => ?_
  cases req.callback with
  | none => trivial
  | some callback => exact ⟨hplain _ _ rfl, fun _ _ _ => trivial⟩

theorem tick_hands {tick : SocketTick}
    (hplain : ∀ u t, SocketYield.plain u = true → A u t)
    (hending : tick = .writable .emitFinish → s._writableState.ending = true)
    (herror : ∀ m, tick = .lookupFailed m → A (.event (.error m))
      { s with log := s.log ++ [.event (.error m)] }) :
    (runTick P tick).hands E (basis.and D) A (fun _ _ => True) s := by
  cases tick with
  | writable tick =>
      cases tick with
      | emitFinish =>
          exact Prog.hands_mono (fun _ _ _ => trivial) _ (emitFinish_hands hplain (hending rfl))
      | callback c => exact ⟨hplain _ _ rfl, fun _ _ _ => trivial⟩
  | lookupFailed m =>
      simp only [runTick, Prog.hands_bind]
      exact hands_emit (e := .error _) (herror m rfl) fun _ _ _ => trivial
  | readStart =>
      simp only [runTick, Prog.hands_bind]
      exact hands_useHandle fun r _ => (Prog.hands_ite ..).mpr ⟨fun _ => trivial, fun _ => trivial⟩

/-- A call whose caller has seen to it that the listeners can bear its events. -/
theorem body_hands {i : Call} (hs : Base s) (h : Prepared P E D A i s) :
    (body P i).hands E (basis.and D) A (fun _ _ => True) s := by
  have ho := hs.orderly
  cases i with
  | connect options => exact connect_hands h.plain
  | write chunk callback =>
      cases chunk with
      | data data =>
          simp only [body, write, Prog.hands_bind, writable_eq]
          cases he : s._writableState.ended with
          | false => exact write_hands he fun _ _ _ => trivial
          | true => exact write_ended_hands he (h.error he) fun _ _ => trivial
      | null => trivial
      | other => trivial
  | end_ data callback =>
      refine end_some_hands ho fun hsome he => h.error ?_
      cases data with
      | none => cases hsome
      | some data => exact he
  | destroy => exact destroy_hands ho.ended fun _ _ _ => trivial
  | destroySoon => exact destroySoon_hands ho.ended fun _ _ => trivial
  | setTimeout msecs =>
      simp only [body, setTimeout, Prog.hands_bind, Prog.hands_modify, hands_clearSocketTimeout,
        Prog.hands_ite]
      exact ⟨fun _ => trivial, fun _ => trivial⟩
  | read n =>
      simp only [body, Prog.hands_bind]
      exact read_hands ho (h.read n rfl)
  | pause =>
      simp only [body, pause, ReadableObject.getState, ReadableObject.modifyState,
        Prog.hands_bind, Prog.hands_get, Prog.hands_pure, Prog.hands_ite, Prog.hands_modify]
      exact ⟨fun _ => hands_emit (e := .pause) (h.plain _ _ rfl) fun _ _ _ => trivial,
        fun _ => trivial⟩
  | resume =>
      refine resume_hands (fun hf hl => h.data ?_) fun d t => h.follows (.data d) t
      simp [delivers, hf, hl]
  | on ev =>
      refine on_hands (fun hev hf hl => h.data ?_) fun d t => h.follows (.data d) t
      simp [delivers, hev, hf, hl]
  | removeAllListeners ev => trivial
  | tick i =>
      simp only [body, Prog.hands_bind, Prog.hands_get, Prog.hands_modify]
      cases hi : s.ticks[i]? with
      | none => trivial
      | some tick =>
          refine tick_hands h.plain ?_ ?_
          · rintro rfl
            exact hs.life.scheduled (List.mem_of_getElem? hi)
          · rintro m rfl
            refine h.error ?_ m _ ⟨rfl, rfl, rfl, rfl, rfl, List.prefix_append ..⟩ (by simp)
            simp only [errs, hi]
            rfl
  | afterLookup err =>
      simp only [body, Prog.hands_bind, Prog.hands_get, Prog.hands_modify]
      cases s.lookups.head? with
      | none => trivial
      | some lookup => exact afterLookup_hands h.plain
  | afterConnect status =>
      simp only [body, Prog.hands_bind, Prog.hands_modify]
      exact afterConnect_hands ⟨ho.ended, ho.unreadable⟩ h.plain (h.failed status rfl)
  | afterWrite status =>
      simp only [body, Prog.hands_bind, Prog.hands_get, Prog.hands_modify]
      cases s.writes.head? with
      | none => trivial
      | some req => exact afterWrite_hands h.plain
  | afterShutdown =>
      simp only [body, afterShutdown, Prog.hands_bind, Prog.hands_get, Prog.hands_modify,
        Prog.hands_ite]
      exact ⟨fun _ => destroy_hands ho.ended fun _ _ _ => trivial, fun _ => trivial⟩
  | onread result =>
      exact onread_hands ho h.plain h.data (h.error rfl) (h.eof result rfl) h.follows
  | onclose =>
      simp only [body, Prog.hands_bind, Prog.hands_modify]
      exact hands_emit (e := .close) (h.close rfl) fun _ _ _ => trivial
  | onconnection =>
      simp only [body, Prog.hands_bind, Prog.hands_modify]
      refine onSocketConnect_hands h.plain fun t ht => ?_
      exact hands_emit (e := .connection) (h.connection rfl _ (ht rfl)) fun _ _ _ => trivial
  | onTimeout =>
      simp only [body, onTimeout, Prog.hands_bind, Prog.hands_modify, hands_clearSocketTimeout]
      refine hands_emit (e := .timeout) (h.timeout rfl _ ?_) fun _ _ _ => trivial
      exact ⟨rfl, rfl, rfl, rfl, rfl, List.prefix_append ..⟩
  | elapse msecs => trivial

end

end IotJs.Socket

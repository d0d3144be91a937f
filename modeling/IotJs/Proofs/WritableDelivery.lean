import IotJs.Lib.History
import IotJs.Proofs.WritableWp
import Mathlib.Algebra.Ring.Int.Defs

/-!
# `IotJs.Proofs.WritableDelivery`: chunks leave a `Writable` in order, one at a time
-/

set_option autoImplicit false

namespace IotJs.Writable

open Reentrant History WritableObject

/-! ### The log projections over `++` -/

@[simp] theorem accepted_append (log new : List WritableObs) :
    accepted (log ++ new) = accepted log ++ accepted new := List.filterMap_append ..

@[simp] theorem handed_append (log new : List WritableObs) :
    handed (log ++ new) = handed log ++ handed new := List.filterMap_append ..

@[simp] theorem handed_nil : handed [] = [] := rfl

@[simp] theorem completed_nil : completed [] = 0 := rfl

@[simp] theorem completed_append (log new : List WritableObs) :
    completed (log ++ new) = completed log + completed new := List.countP_append ..

/-! ### What the methods of a plain `Writable` do -/

@[simp] theorem this_state (s : Writable) : this.state s = s._writableState := rfl

@[simp] theorem this_setState (state : WritableState) (s : Writable) :
    this.setState state s = { s with _writableState := state } := rfl

section

variable {E : Env Writable WritableYield Empty Call} {G C : Contract Writable}
variable {X : Writable → Prop} {Q : Unit → Writable → Prop} {s : Writable}

@[simp] theorem wp_record {o : WritableObs} :
    (record o).wp E G C X Q s ↔ Q () { s with log := s.log ++ [o] } := Iff.rfl

@[simp] theorem wp_note {n : WritableNote} :
    (this.note n).wp E G C X Q s ↔ Q () { s with log := s.log ++ [.note n] } := Iff.rfl

@[simp] theorem wp_nextTick {t : WritableTick} :
    (this.nextTick t).wp E G C X Q s ↔ Q () { s with ticks := s.ticks ++ [t] } := Iff.rfl

theorem wp_handOver {req : WriteReq} :
    (this._write req).wp E G C X Q s ↔
      (Prog.yieldTo ._write).wp E G C X Q
        { s with inFlight := s.inFlight + 1, log := s.log ++ [.handed req.chunk] } := Iff.rfl

theorem wp_emit_drain :
    (this.emit .drain).wp E G C X Q s ↔
      (Prog.yieldTo (.event .drain)).wp E G C X Q
        { s with log := s.log ++ [.event .drain] } := Iff.rfl

theorem wp_emit_finish :
    (this.emit .finish).wp E G C X Q s ↔
      (Prog.yieldTo (.event .finish)).wp E G C X Q
        { s with log := s.log ++ [.event .finish] } := Iff.rfl

theorem wp_emit_error {message : String} :
    (this.emit (.error message)).wp E G C X Q s ↔
      (s.errorListener = true → (Prog.yieldTo (.event (.error message))).wp E G C X Q
        { s with log := s.log ++ [.event (.error message)] }) ∧
      (s.errorListener = false → X s) := by
  simp [this, emit]

end

/-! ### The invariant -/

/-- The total length of the chunks of a buffer. -/
def buffered (buffer : List WriteReq) : Int :=
  (buffer.map fun req => (req.chunk.length : Int)).sum

/-- The state and the log agree, when `pending` are the chunks that were accepted and not
handed to `_write` yet. In the middle of a call `pending` is not always the buffer. -/
structure Core (pending : List WriteReq) (s : Writable) : Prop where
  outstanding : s.inFlight = if s._writableState.writing then 1 else 0
  idle : s._writableState.writing = false → s._writableState.writingLength = 0
  writingReady : s._writableState.writing = true → s._writableState.ready = true
  length : s._writableState.length = s._writableState.writingLength + buffered pending
  fifo : accepted s.log = handed s.log ++ pending.map (·.chunk)
  balance : (handed s.log).length = completed s.log + s.inFlight
  alone : Always (fun pre o => ∀ chunk, o = .handed chunk →
    (handed pre).length = completed pre) s.log

/-- The invariant of a `Writable` whenever outside code has control. -/
structure Inv (s : Writable) : Prop extends Core s._writableState.buffer s where
  flushed : s._writableState.ready = true → s._writableState.writing = false →
    s._writableState.buffer = []

theorem Core.writing_of_inFlight {pending : List WriteReq} {s : Writable} (h : Core pending s)
    (hin : 0 < s.inFlight) : s._writableState.writing = true := by
  cases hw : s._writableState.writing with
  | true => rfl
  | false => simp [h.outstanding, hw] at hin

theorem Core.not_writing_of_inFlight {pending : List WriteReq} {s : Writable}
    (h : Core pending s) (hin : s.inFlight = 0) : s._writableState.writing = false := by
  cases hw : s._writableState.writing with
  | false => rfl
  | true => simp [h.outstanding, hw] at hin

/-- Without a pending chunk and a chunk in flight, everything accepted has completed. -/
theorem Core.completed_of_idle {s : Writable} (h : Core s._writableState.buffer s)
    (hw : s._writableState.writing = false) (hb : s._writableState.buffer = []) :
    completed s.log = (accepted s.log).length := by
  have hbalance := h.balance
  rw [h.fifo, hb, List.map_nil, List.append_nil, hbalance, h.outstanding, hw]
  rfl

/-- Surroundings without any restriction. -/
abbrev anywhere : Env Writable WritableYield Empty Call := .free

/-- The delivery contract. -/
abbrev delivery : Contract Writable := .ofInv Inv

section specs

variable {X : Writable → Prop} {Q : Unit → Writable → Prop} {s : Writable}

/-- Entries other than an accepted, a handed or a completed chunk do not touch the invariant. -/
theorem Core.record {pending : List WriteReq} {o : WritableObs} (h : Core pending s)
    (ha : accepted [o] = []) (hh : handed [o] = []) (hc : completed [o] = 0) :
    Core pending { s with log := s.log ++ [o] } where
  outstanding := h.outstanding
  idle := h.idle
  writingReady := h.writingReady
  length := h.length
  fifo := by simpa [ha, hh] using h.fifo
  balance := by simpa [hh, hc] using h.balance
  alone := by
    simp only [always_append, always_cons, always_nil, and_true, List.append_nil]
    refine ⟨h.alone, fun chunk ho => ?_⟩
    subst ho
    simp [handed] at hh

theorem Inv.record {o : WritableObs} (h : Inv s) (ha : accepted [o] = []) (hh : handed [o] = [])
    (hc : completed [o] = 0) : Inv { s with log := s.log ++ [o] } :=
  ⟨h.toCore.record ha hh hc, h.flushed⟩

theorem Inv.event {e : WritableEvent} (h : Inv s) :
    Inv { s with log := s.log ++ [.event e] } := h.record rfl rfl rfl

/-- The invariant does not speak of `needDrain`, `ending` and `ended`, of the ticks and of the
listeners. -/
theorem Core.frame {pending : List WriteReq} {needDrain ending ended errorListener : Bool}
    {ticks : List WritableTick} (h : Core pending s) :
    Core pending { s with
      _writableState := { s._writableState with
        needDrain := needDrain, ending := ending, ended := ended }
      ticks := ticks, errorListener := errorListener } :=
  { h with }

theorem Inv.frame {needDrain ending ended errorListener : Bool} {ticks : List WritableTick}
    (h : Inv s) :
    Inv { s with
      _writableState := { s._writableState with
        needDrain := needDrain, ending := ending, ended := ended }
      ticks := ticks, errorListener := errorListener } :=
  ⟨h.toCore.frame, h.flushed⟩

theorem emitDrain_ok (h : Inv s) (hQ : ∀ t, Inv t → Q () t) (hX : ∀ t, Inv t → X t) :
    this.emitDrain.wp anywhere .nil delivery X Q s := by
  rw [wp_emitDrain]
  refine ⟨fun _ => ?_, fun _ => hQ s h⟩
  rw [wp_emit_drain]
  exact Prog.wp_yieldTo_inv h.frame.event hQ hX

theorem emitFinish_ok (h : Inv s) (hQ : ∀ t, Inv t → Q () t) (hX : ∀ t, Inv t → X t) :
    this.emitFinish.wp anywhere .nil delivery X Q s := by
  rw [wp_emitFinish]
  refine ⟨fun _ => ?_, fun _ => hQ s h⟩
  rw [wp_emit_finish]
  exact Prog.wp_yieldTo_inv h.frame.event hQ hX

theorem onEmptyBuffer_ok (h : Inv s) (hQ : ∀ t, Inv t → Q () t) (hX : ∀ t, Inv t → X t) :
    this.onEmptyBuffer.wp anywhere .nil delivery X Q s := by
  rw [wp_onEmptyBuffer]
  exact ⟨fun _ => emitFinish_ok h hQ hX, fun _ => ⟨fun _ => emitDrain_ok h hQ hX, fun _ => hQ s h⟩⟩

/-- `doWrite` on an idle, ready stream hands over the oldest pending chunk. -/
theorem doWrite_ok {req : WriteReq} (h : Core (req :: s._writableState.buffer) s)
    (hw : s._writableState.writing = false) (hr : s._writableState.ready = true)
    (hQ : ∀ t, Inv t → Q () t) (hX : ∀ t, Inv t → X t) :
    (this.doWrite req).wp anywhere .nil delivery X Q s := by
  have hin : s.inFlight = 0 := by simpa [hw] using h.outstanding
  -- nothing is in flight, so all that was handed over has completed
  have hb : (handed s.log).length = completed s.log := by simpa [hin] using h.balance
  rw [wp_doWrite]
  refine ⟨fun _ => ?_, fun hw' => absurd hw' (by simp [hw])⟩
  rw [wp_handOver]
  refine Prog.wp_yieldTo_inv ?_ hQ hX
  refine ⟨⟨?_, ?_, ?_, ?_, ?_, ?_, ?_⟩, ?_⟩
  · simp [hin]
  · simp
  · exact fun _ => hr
  · have hl := h.length
    simp only [h.idle hw, buffered, List.map_cons, List.sum_cons] at hl
    simpa [buffered] using hl
  · simpa [accepted, handed] using h.fifo
  · show (handed (s.log ++ [.handed req.chunk])).length =
      completed (s.log ++ [.handed req.chunk]) + (s.inFlight + 1)
    rw [handed_append, completed_append, List.length_append, hb, hin]
    rfl
  · simpa [h.alone] using hb
  · simp

/-- Whoever calls `writeBuffered` knows that the stream is ready. -/
theorem writeBuffered_ok (h : Core s._writableState.buffer s)
    (hr : s._writableState.ready = true) (hQ : ∀ t, Inv t → Q () t) (hX : ∀ t, Inv t → X t) :
    this.writeBuffered.wp anywhere .nil delivery X Q s := by
  rw [wp_writeBuffered]
  refine ⟨fun hw => ?_, fun hw => ⟨fun hb => ?_, fun req rest hb => ?_⟩⟩
  · exact hQ s ⟨h, fun _ hw' => absurd hw (by simp [hw'])⟩
  · exact onEmptyBuffer_ok ⟨h, fun _ _ => hb⟩ hQ hX
  · rw [this_state] at hb
    rw [hb] at h
    refine doWrite_ok ?_ hw hr hQ hX
    exact { h with }

/-- `write` on a stream that has not ended: the chunk joins the pending chunks, and leaves them
at once when the stream is ready and idle. -/
theorem writeOrBuffer_ok {P : Platform} {data : Data} {callback : Option Callback}
    {Q : Bool → Writable → Prop} (h : Inv s) (hQ : ∀ b t, Inv t → Q b t)
    (hX : ∀ t, Inv t → X t) :
    (this.writeOrBuffer P data callback).wp anywhere .nil delivery X Q s := by
  have hcore : Core (s._writableState.buffer ++ [⟨data.toBuffer P, callback⟩])
      { s with
        _writableState :=
          { s._writableState with
            length := s._writableState.length + (data.toBuffer P).length }
        log := s.log ++ [.note (.accepted ⟨data.toBuffer P, callback⟩)] } := by
    refine ⟨h.outstanding, h.idle, h.writingReady, ?_, ?_, ?_, ?_⟩
    · have hl := h.length
      simp [buffered] at hl ⊢
      omega
    · rw [accepted_append, h.fifo]
      simp [accepted, handed]
    · simpa [handed, completed] using h.balance
    · simpa using h.alone
  -- the test of the high water mark does not touch the invariant
  have hrest : ∀ t, Inv t →
      (t._writableState.highWaterMark ≤ t._writableState.length →
        Q (!true) { t with _writableState := { t._writableState with needDrain := true } }) ∧
      (¬ t._writableState.highWaterMark ≤ t._writableState.length →
        Q (!t._writableState.needDrain) t) := fun t ht =>
    ⟨fun _ => hQ _ _ ht.frame, fun _ => hQ _ _ ht⟩
  rw [wp_writeOrBuffer, wp_note]
  simp only [this_state, this_setState]
  refine ⟨fun hc => ?_, fun hc => ?_⟩
  · have hinv : Inv { s with
        _writableState :=
          { s._writableState with
            length := s._writableState.length + (data.toBuffer P).length
            buffer := s._writableState.buffer ++ [⟨data.toBuffer P, callback⟩] }
        log := s.log ++ [.note (.accepted ⟨data.toBuffer P, callback⟩)] } := by
      refine ⟨⟨h.outstanding, h.idle, h.writingReady, hcore.length, hcore.fifo, hcore.balance,
        hcore.alone⟩, fun hr hw => ?_⟩
      have hr' : s._writableState.ready = true := hr
      have hw' : s._writableState.writing = false := hw
      -- a ready and idle stream has an empty buffer, and would have written the chunk
      simp [hr', hw', h.flushed hr' hw'] at hc
    exact hrest _ hinv
  · obtain ⟨⟨hr, hw⟩, hb⟩ := hc
    refine doWrite_ok ?_ hw hr hrest hX
    simpa [hb] using hcore

theorem emit_error_ok {message : String} (h : Inv s) (hQ : ∀ t, Inv t → Q () t)
    (hX : ∀ t, Inv t → X t) :
    (this.emit (.error message)).wp anywhere .nil delivery X Q s := by
  rw [wp_emit_error]
  exact ⟨fun _ => Prog.wp_yieldTo_inv h.event hQ hX, fun _ => hX s h⟩

theorem write_ok {P : Platform} {data : Data} {callback : Option Callback}
    {Q : Bool → Writable → Prop} (h : Inv s) (hQ : ∀ b t, Inv t → Q b t)
    (hX : ∀ t, Inv t → X t) :
    (this.write P data callback).wp anywhere .nil delivery X Q s := by
  rw [wp_write]
  refine ⟨fun _ => ?_, fun _ => ?_⟩
  · rw [wp_writeAfterEnd, wp_note]
    refine emit_error_ok (h.record rfl rfl rfl) (fun t ht => ⟨fun _ => ?_, fun c _ => ?_⟩) hX
    · exact hQ _ _ (ht.record rfl rfl rfl)
    · exact hQ _ _ (ht.frame.record rfl rfl rfl)
  · exact writeOrBuffer_ok h (fun b t ht => hQ _ _ (ht.record rfl rfl rfl)) hX

theorem endWritable_ok {callback : Option Callback} (h : Inv s) (hQ : ∀ t, Inv t → Q () t) :
    (this.endWritable callback).wp anywhere .nil delivery X Q s := by
  rw [wp_endWritable]
  exact ⟨fun _ => hQ _ h.frame, fun _ => hQ _ h.frame⟩

theorem end_ok {P : Platform} {chunk : Option Data} {callback : Option Callback} (h : Inv s)
    (hQ : ∀ t, Inv t → Q () t) (hX : ∀ t, Inv t → X t) :
    (this.end_ P chunk callback).wp anywhere .nil delivery X Q s := by
  have hrest : ∀ t, Inv t →
      (t._writableState.ending = true → (this.note .endReturned).wp anywhere .nil delivery X Q t) ∧
      (t._writableState.ending = false → (this.endWritable callback).wp anywhere .nil delivery X
        (fun _ t => (this.note .endReturned).wp anywhere .nil delivery X Q t) t) := fun t ht =>
    ⟨fun _ => hQ _ (ht.record rfl rfl rfl),
      fun _ => endWritable_ok ht fun u hu => hQ _ (hu.record rfl rfl rfl)⟩
  rw [wp_end, wp_note]
  exact ⟨fun _ => hrest _ (h.record rfl rfl rfl),
    fun c _ => write_ok (h.record rfl rfl rfl) (fun _ => hrest) hX⟩

end specs

/-! ### The contract of the machine -/

/-- `ready` is set: what is pending is still the buffer. -/
theorem Inv.readyToWrite {s : Writable} (h : Inv s) :
    Core s._writableState.buffer
      { s with _writableState := { s._writableState with ready := true } } :=
  ⟨h.outstanding, h.idle, fun _ => rfl, h.length, h.fifo, h.balance, h.alone⟩

/-- The chunk in flight has completed. -/
theorem Inv.onwrite {s : Writable} {status : Int} (h : Inv s) (hin : 0 < s.inFlight) :
    Core s._writableState.buffer { s with
      _writableState := { s._writableState with
        length := s._writableState.length - s._writableState.writingLength
        writing := false, writingLength := 0 }
      inFlight := s.inFlight - 1, log := s.log ++ [.completed status] } := by
  have hw := h.writing_of_inFlight hin
  have hone : s.inFlight = 1 := by simpa [hw] using h.outstanding
  refine ⟨?_, fun _ => rfl, fun hf => absurd hf (by simp), ?_, ?_, ?_, ?_⟩
  · simp [hone]
  · have hl := h.length
    simp
    omega
  · simpa [accepted, handed] using h.fifo
  · have hb := h.balance
    simp [hone, handed, completed] at hb ⊢
    exact hb
  · simpa using h.alone

theorem delivery_body (P : Platform) (i : Call) {s : Writable} (h : Inv s)
    (he : enabled s i = true) :
    (body P i).wp anywhere .nil delivery (delivery.Post s) (fun _ => delivery.Post s) s := by
  have hPost : ∀ t, Inv t → delivery.Post s t := fun t ht => ⟨ht, trivial⟩
  cases i with
  | write data callback =>
      simp only [body, Prog.wp_bind]
      exact write_ok h (fun _ => hPost) hPost
  | end_ chunk callback => exact end_ok h hPost hPost
  | _readyToWrite => exact writeBuffered_ok h.readyToWrite rfl hPost hPost
  | _onwrite status =>
      have hin : 0 < s.inFlight := by simpa [enabled] using he
      exact writeBuffered_ok (h.onwrite hin) (h.writingReady (h.writing_of_inFlight hin)) hPost
        hPost
  | tick i =>
      have h' : Inv { s with ticks := s.ticks.eraseIdx i } := h.frame
      simp only [body, Prog.wp_bind, Prog.wp_get, Prog.wp_modify]
      cases s.ticks[i]? with
      | none => exact hPost _ h'
      | some t =>
          cases t with
          | emitFinish => exact emitFinish_ok h' hPost hPost
          | callback c =>
              simp only [runTick, Prog.wp_bind, wp_record]
              exact Prog.wp_yieldTo_inv (h'.record rfl rfl rfl) hPost hPost
  | listenError present => exact hPost _ h.frame

/-- Every call keeps the invariant, in any surroundings. -/
theorem delivery_holds (P : Platform) (highWaterMark : Option Int) :
    Contract.Holds (machine P) .free .nil delivery (new highWaterMark) := by
  refine .intro ?_ fun i _ s _ h he _ => delivery_body P i h he
  · refine ⟨⟨rfl, fun _ => rfl, fun h => absurd h (by simp [new, WritableState.new]), rfl, rfl,
      rfl, ?_⟩, fun _ _ => rfl⟩
    simp [new]

/-! ### Delivery -/

/-- In every run of a `Writable`, the chunks given to `_write` are a prefix of the accepted
chunks, in order; a chunk is given to `_write` only when every earlier one has completed; and
whenever no call is on the stack, a ready stream with no write in flight has an empty
buffer. -/
theorem handed_prefix_accepted (P : Platform) (highWaterMark : Option Int)
    {c : Config Writable WritableYield Empty}
    (hc : (machine P).Reach .free (new highWaterMark) c) :
    handed c.heap.log <+: accepted c.heap.log ∧
    (∀ pre chunk post, c.heap.log = pre ++ .handed chunk :: post →
      (handed pre).length = completed pre) ∧
    (c.stack = [] → c.heap._writableState.ready = true → c.heap.inFlight = 0 →
      c.heap._writableState.buffer = []) := by
  have h : Inv c.heap := (delivery_holds P highWaterMark).inv_of_reach hc
  refine ⟨⟨_, h.fifo.symm⟩, fun pre chunk post hlog => ?_, fun _ hr hin => ?_⟩
  · exact h.alone pre _ post hlog chunk rfl
  · exact h.flushed hr (h.not_writing_of_inFlight hin)

/-- A ready stream takes `[1]`; while `_write` has control, `[2]` is written and stays behind it. -/
theorem handed_prefix_accepted_nested :
    ∃ c : Config Writable WritableYield Empty,
      accepted c.heap.log = [[1], [2]] ∧ handed c.heap.log = [[1]] ∧
      handed c.heap.log <+: accepted c.heap.log := by
  obtain ⟨c, hc, hlog⟩ := Machine.exists_reach_of_run (machine (.ascii false)) .free (new none)
    [.call ._readyToWrite [], .call (.write (.buffer [1]) none) [],
      .call (.write (.buffer [2]) none) []]
    (fun c => decide (accepted c.heap.log = [[1], [2]] ∧ handed c.heap.log = [[1]])) rfl
  obtain ⟨ha, hh⟩ := of_decide_eq_true hlog
  exact ⟨c, ha, hh, (handed_prefix_accepted (.ascii false) none hc).1⟩

end IotJs.Writable

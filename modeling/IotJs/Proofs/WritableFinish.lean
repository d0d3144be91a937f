import IotJs.Proofs.WritableHistory

/-!
# `IotJs.Proofs.WritableFinish`: the 'finish' event of a `Writable`

`end` sets `ending`, and 'finish' sets `ended`. Between the two, `write` still accepts a chunk,
because it tests `ended` only. So a chunk can be written after `end` returned, and when `end`
has scheduled 'finish' for the next tick, the tick emits it with that chunk in flight:
`finish_before_completion` is such a run.

Where nobody writes in that window (`noLateWrite`), 'finish' means what it says: it comes at
most once, after `end`, with every accepted chunk completed, and nothing is accepted after
`end` returned.
-/

set_option autoImplicit false

namespace IotJs.Writable

open Reentrant History WritableObject

/-- The call writes a chunk, on a stream that is ending. -/
def Call.writes : Call → Bool
  | .write .. => true
  | .end_ chunk _ => chunk.isSome
  | _ => false

/-- Between `end` and 'finish' nobody writes. -/
def noLateWrite : Env Writable WritableYield Empty Call where
  call i s := s._writableState.ending = true → s._writableState.ended = false → i.writes = false
  answer _ _ _ := True
  returns _ _ := True
  throws _ _ := True

instance : noLateWrite.Testable where
  call i s := inferInstanceAs (Decidable (s._writableState.ending = true →
    s._writableState.ended = false → i.writes = false))
  answer _ _ _ := .isTrue trivial
  returns _ _ := .isTrue trivial
  throws _ _ := .isTrue trivial

/-- The call was refused with an error 'write after end', which was emitted or thrown. -/
def Rejected : Outcome Writable WritableYield Empty Unit → Prop
  | .yielded (.event e) _ _ => e = .error "write after end"
  | .thrown e _ => e = "write after end"
  | _ => False

/-- What 'finish' promises. -/
structure Finishes (P : Platform) (s : Writable) : Prop where
  once : s.log.count (.event .finish) ≤ 1
  /-- only after `end`, and when every accepted chunk has completed -/
  complete : ∀ pre post, s.log = pre ++ .event .finish :: post →
    .note .endCalled ∈ pre ∧ completed pre = (accepted pre).length
  /-- the state in which 'finish' is emitted, which then stays -/
  settled : .event .finish ∈ s.log →
    s._writableState.length = 0 ∧ s._writableState.buffer = [] ∧ s.inFlight = 0
  /-- after `end` returned nothing is accepted, so only earlier chunks reach `_write` -/
  closed : ∀ pre post, s.log = pre ++ .note .endReturned :: post →
    accepted post = [] ∧ handed s.log <+: accepted pre
  rejected : .note .endReturned ∈ s.log → ∀ data callback rs,
    noLateWrite.call (.write data callback) s →
    Rejected ((body P (.write data callback)).exec rs s)

/-! ### The invariant -/

/-- Nothing is in flight and nothing is buffered. -/
def Idle (s : Writable) : Prop :=
  s._writableState.writing = false ∧ s._writableState.buffer = []

/-- The invariant of the window between `end` and 'finish', and of what follows. -/
structure FinishInv (s : Writable) : Prop where
  scheduled : .emitFinish ∈ s.ticks → Idle s
  ended : s._writableState.ended = true → Idle s
  returned : .note .endReturned ∈ s.log → s._writableState.ending = true
  closed : Always (fun pre o => ∀ req, o = .note (.accepted req) → .note .endReturned ∉ pre) s.log
  complete : Always (fun pre o => o = .event .finish →
    .note .endCalled ∈ pre ∧ completed pre = (accepted pre).length) s.log
  once : s.log.count (.event .finish) = if s._writableState.ended then 1 else 0

/-- What the finish contract is built on. -/
abbrev finishBasis : Contract Writable := delivery.and history

/-- The finish contract. -/
abbrev finishing : Contract Writable := .ofInv FinishInv

section specs

variable {X : Writable → Prop} {Q : Unit → Writable → Prop} {s : Writable}

/-- A log entry that says nothing of the end of the stream. -/
theorem FinishInv.record {o : WritableObs} (h : FinishInv s) (hacc : accepted [o] = [])
    (hfin : o ≠ .event .finish) (hret : o ≠ .note .endReturned) :
    FinishInv { s with log := s.log ++ [o] } where
  scheduled := h.scheduled
  ended := h.ended
  returned hmem := by
    rcases List.mem_append.mp hmem with hmem | hmem
    · exact h.returned hmem
    · exact absurd (List.mem_singleton.mp hmem).symm hret
  closed := by
    simp only [always_append, always_cons, always_nil, and_true]
    refine ⟨h.closed, fun req ho => ?_⟩
    subst ho
    simp [accepted] at hacc
  complete := by
    simp only [always_append, always_cons, always_nil, and_true]
    exact ⟨h.complete, fun ho => absurd ho hfin⟩
  once := by
    have hcount : List.count (.event .finish) [o] = 0 := List.count_eq_zero.mpr (by simpa using hfin.symm)
    rw [List.count_append, h.once, hcount, Nat.add_zero]

/-- The invariant does not speak of `needDrain` and of the listeners. -/
theorem FinishInv.frame {needDrain errorListener : Bool} (h : FinishInv s) :
    FinishInv { s with
      _writableState := { s._writableState with needDrain := needDrain }
      errorListener := errorListener } :=
  { h with }

theorem emitDrain_finish (h : FinishInv s) (hQ : ∀ t, FinishInv t → Q () t)
    (hX : ∀ t, FinishInv t → X t) :
    this.emitDrain.wp noLateWrite finishBasis finishing X Q s := by
  rw [wp_emitDrain]
  refine ⟨fun _ => ?_, fun _ => hQ s h⟩
  rw [wp_emit_drain]
  exact Prog.wp_yieldTo_inv (h.frame.record rfl (by simp) (by simp)) hQ hX

/-- 'finish' on an idle stream that is ending and has completed everything. -/
theorem emitFinish_finish (h : FinishInv s) (hidle : Idle s)
    (hcalled : .note .endCalled ∈ s.log) (hdone : completed s.log = (accepted s.log).length)
    (hQ : ∀ t, FinishInv t → Q () t) (hX : ∀ t, FinishInv t → X t) :
    this.emitFinish.wp noLateWrite finishBasis finishing X Q s := by
  rw [wp_emitFinish]
  refine ⟨fun hended => ?_, fun _ => hQ s h⟩
  have hended : s._writableState.ended = false := hended
  have hnone : s.log.count (.event .finish) = 0 := by rw [h.once, hended]; rfl
  rw [wp_emit_finish]
  refine Prog.wp_yieldTo_inv ⟨fun _ => hidle, fun _ => hidle, fun hmem => ?_, ?_, ?_, ?_⟩ hQ hX
  · exact h.returned (by simpa using hmem)
  · simpa using h.closed
  · simpa using ⟨h.complete, hcalled, hdone⟩
  · simp [hnone]

theorem onEmptyBuffer_finish (h : FinishInv s) (hidle : Idle s) (hends : Ends s)
    (hdone : completed s.log = (accepted s.log).length)
    (hQ : ∀ t, FinishInv t → Q () t) (hX : ∀ t, FinishInv t → X t) :
    this.onEmptyBuffer.wp noLateWrite finishBasis finishing X Q s := by
  rw [wp_onEmptyBuffer]
  refine ⟨fun he => ?_, fun _ => ⟨fun _ => emitDrain_finish h hQ hX, fun _ => hQ s h⟩⟩
  exact emitFinish_finish h hidle (hends.ending he) hdone hQ hX

/-- A chunk leaves only while no 'finish' was emitted or scheduled. -/
theorem doWrite_finish {req : WriteReq} (h : FinishInv s) (hw : s._writableState.writing = false)
    (hsched : .emitFinish ∉ s.ticks) (hended : s._writableState.ended = false)
    (hQ : ∀ t, FinishInv t → Q () t) (hX : ∀ t, FinishInv t → X t) :
    (this.doWrite req).wp noLateWrite finishBasis finishing X Q s := by
  have h' := h.record (o := .handed req.chunk) rfl (by simp) (by simp)
  rw [wp_doWrite]
  refine ⟨fun _ => ?_, fun hw' => absurd hw' (by simp [hw])⟩
  rw [wp_handOver]
  refine Prog.wp_yieldTo_inv ⟨fun ht => absurd ht hsched, fun he => ?_, h'.returned, h'.closed,
    h'.complete, h'.once⟩ hQ hX
  exact absurd he (by simp [hended])

theorem writeBuffered_finish (h : FinishInv s) (hends : Ends s)
    (hcore : Core s._writableState.buffer s)
    (hQ : ∀ t, FinishInv t → Q () t) (hX : ∀ t, FinishInv t → X t) :
    this.writeBuffered.wp noLateWrite finishBasis finishing X Q s := by
  rw [wp_writeBuffered]
  refine ⟨fun _ => hQ s h, fun hw => ⟨fun hb => ?_, fun req rest hb => ?_⟩⟩
  · have hw : s._writableState.writing = false := hw
    have hb : s._writableState.buffer = [] := hb
    exact onEmptyBuffer_finish h ⟨hw, hb⟩ hends (hcore.completed_of_idle hw hb) hQ hX
  · -- with a chunk buffered no 'finish' was emitted or scheduled
    have hbusy : ¬ Idle s := fun hidle => by simp [hidle.2] at hb
    have hended : s._writableState.ended = false := by
      by_contra he
      exact hbusy (h.ended (by simpa using he))
    refine doWrite_finish ⟨fun ht => absurd (h.scheduled ht) hbusy, fun he => ?_, h.returned,
      h.closed, h.complete, h.once⟩ hw (fun ht => hbusy (h.scheduled ht)) hended hQ hX
    exact absurd he (by simp [hended])

/-- A `write` outside the window: the stream is not ending, or it has ended. -/
theorem write_finish {P : Platform} {data : Data} {callback : Option Callback}
    {Q : Bool → Writable → Prop} (hends : Ends s) (h : FinishInv s)
    (hcall : s._writableState.ending = true → s._writableState.ended = true)
    (hQ : ∀ b t, FinishInv t → Q b t) (hX : ∀ t, FinishInv t → X t) :
    (this.write P data callback).wp noLateWrite finishBasis finishing X Q s := by
  have hret : ∀ res : Bool, ∀ t, FinishInv t → (this.note (.returned res)).wp noLateWrite
      finishBasis finishing X (fun _ => Q res) t := fun _ _ ht =>
    hQ _ _ (ht.record rfl (by simp) (by simp))
  rw [wp_write]
  refine ⟨fun _ => ?_, fun hended => ?_⟩
  · have h' := h.record (o := .note (.rejected callback)) rfl (by simp) (by simp)
    rw [wp_writeAfterEnd, wp_note, wp_emit_error]
    refine ⟨fun _ => ?_, fun _ => hX _ h'⟩
    refine Prog.wp_yieldTo_inv (h'.record rfl (by simp) (by simp))
      (fun t ht => ⟨fun _ => hret _ t ht, fun c _ => hret _ _ ?_⟩) hX
    refine ⟨fun hmem => ht.scheduled ?_, ht.ended, ht.returned, ht.closed, ht.complete, ht.once⟩
    simpa using hmem
  · have hended : s._writableState.ended = false := hended
    have hending : s._writableState.ending = false := by
      by_contra he
      have := hcall (by simpa using he)
      simp [hended] at this
    -- outside the window a stream that has not ended is not ending, so `end` was not called
    have hsched : .emitFinish ∉ s.ticks := fun hmem => by
      simpa [hending] using hends.scheduled hmem
    have hopen : .note .endReturned ∉ s.log := fun hmem => by
      simpa [hending] using h.returned hmem
    -- the accepted chunk is the last one before `end` returns
    have hacc : FinishInv { s with
        _writableState :=
          { s._writableState with
            length := s._writableState.length + (data.toBuffer P).length }
        log := s.log ++ [.note (.accepted ⟨data.toBuffer P, callback⟩)] } := by
      refine ⟨h.scheduled, h.ended, fun hmem => ?_, ?_, ?_, ?_⟩
      · exact absurd hmem (by simpa using hopen)
      · simpa using ⟨h.closed, hopen⟩
      · simpa using h.complete
      · rw [List.count_append, h.once]
        rfl
    have hrest : ∀ t, FinishInv t →
        (t._writableState.highWaterMark ≤ t._writableState.length →
          (this.note (.returned !true)).wp noLateWrite finishBasis finishing X (fun _ => Q !true)
            { t with _writableState := { t._writableState with needDrain := true } }) ∧
        (¬ t._writableState.highWaterMark ≤ t._writableState.length →
          (this.note (.returned !t._writableState.needDrain)).wp noLateWrite finishBasis finishing X
            (fun _ => Q !t._writableState.needDrain) t) := fun t ht =>
      ⟨fun _ => hret _ _ ht.frame, fun _ => hret _ t ht⟩
    rw [wp_writeOrBuffer, wp_note]
    simp only [this_state, this_setState]
    refine ⟨fun _ => ?_, fun hc => ?_⟩
    · have hbuf : FinishInv { s with
          _writableState :=
            { s._writableState with
              length := s._writableState.length + (data.toBuffer P).length
              buffer := s._writableState.buffer ++ [⟨data.toBuffer P, callback⟩] }
          log := s.log ++ [.note (.accepted ⟨data.toBuffer P, callback⟩)] } :=
        ⟨fun hmem => absurd hmem hsched, fun he => absurd he (by simp [hended]), hacc.returned,
          hacc.closed, hacc.complete, hacc.once⟩
      exact hrest _ hbuf
    · exact doWrite_finish hacc hc.1.2 hsched hended hrest hX

/-- `end` outside the window, or without a chunk. -/
theorem end_finish {P : Platform} {chunk : Option Data} {callback : Option Callback}
    (hends : Ends s) (h : FinishInv s)
    (hcall : s._writableState.ending = true → s._writableState.ended = false → chunk = none)
    (hQ : ∀ t, FinishInv t → Q () t) (hX : ∀ t, FinishInv t → X t) :
    (this.end_ P chunk callback).wp noLateWrite finishBasis finishing X Q s := by
  -- both paths of `end` leave the stream ending when it returns
  have hreturn : ∀ t, FinishInv t → t._writableState.ending = true →
      (this.note .endReturned).wp noLateWrite finishBasis finishing X Q t := by
    intro t ht he
    refine hQ _ ⟨ht.scheduled, ht.ended, fun _ => he, ?_, ?_, ?_⟩
    · simpa using ht.closed
    · simpa using ht.complete
    · rw [List.count_append, ht.once]
      rfl
  have hrest : ∀ t, FinishInv t →
      (t._writableState.ending = true →
        (this.note .endReturned).wp noLateWrite finishBasis finishing X Q t) ∧
      (t._writableState.ending = false →
        (this.endWritable callback).wp noLateWrite finishBasis finishing X
          (fun _ t => (this.note .endReturned).wp noLateWrite finishBasis finishing X Q t) t) := by
    intro t ht
    refine ⟨hreturn t ht, fun _ => wp_endWritable.mpr ⟨fun hidle => ?_, fun hbusy => ?_⟩⟩
    · exact hreturn _ ⟨fun _ => hidle, ht.ended, fun _ => rfl, ht.closed, ht.complete, ht.once⟩ rfl
    · exact hreturn _ ⟨ht.scheduled, ht.ended, fun _ => rfl, ht.closed, ht.complete, ht.once⟩ rfl
  have h' := h.record (o := .note .endCalled) rfl (by simp) (by simp)
  rw [wp_end, wp_note]
  refine ⟨fun _ => hrest _ h', fun c hc => ?_⟩
  refine write_finish ?_ h' (fun he => ?_) (fun _ => hrest) hX
  · exact ⟨hends.ended, fun he => List.mem_append_left _ (hends.ending he), hends.scheduled⟩
  · have he : s._writableState.ending = true := he
    by_contra hended
    have hnone := hcall he (by simpa using hended)
    simp [endChunk, he, hnone] at hc

end specs

/-! ### The contract of the machine -/

theorem Call.chunk_of_not_writes {chunk : Option Data} {callback : Option Callback}
    (h : (Call.end_ chunk callback).writes = false) : chunk = none := by
  simpa [Call.writes] using h

/-- Every call outside the window keeps the finish contract. -/
theorem finishing_holds (P : Platform) (highWaterMark : Option Int) :
    Contract.Holds (machine P) noLateWrite finishBasis finishing (new highWaterMark) := by
  refine .intro ?_ fun i _ s hg h he hcall => ?_
  · refine ⟨fun h => ?_, fun h => ?_, fun h => ?_, always_nil _, always_nil _, rfl⟩
    · simp [new] at h
    · simp [new, WritableState.new] at h
    · simp [new] at h
  · have hPost : ∀ t, FinishInv t → finishing.Post s t := fun t ht => ⟨ht, trivial⟩
    obtain ⟨hinv, hends⟩ := hg
    cases i with
    | write data callback =>
        simp only [machine, body, Prog.wp_bind]
        refine write_finish hends h (fun he => ?_) (fun _ => hPost) hPost
        by_contra hended
        have hlate := hcall he (by simpa using hended)
        simp [Call.writes] at hlate
    | end_ chunk callback =>
        exact end_finish hends h (fun he hended => Call.chunk_of_not_writes (hcall he hended))
          hPost hPost
    | _readyToWrite =>
        refine writeBuffered_finish ?_ ⟨hends.ended, hends.ending, hends.scheduled⟩ ?_ hPost hPost
        · exact { h with }
        · exact hinv.readyToWrite
    | _onwrite status =>
        have hin : 0 < s.inFlight := by simpa [machine, enabled] using he
        have h' := h.record (o := .completed status) rfl (by simp) (by simp)
        refine writeBuffered_finish ?_ ?_ (hinv.onwrite hin) hPost hPost
        · exact ⟨fun ht => ⟨rfl, (h.scheduled ht).2⟩, fun he => ⟨rfl, (h.ended he).2⟩,
            h'.returned, h'.closed, h'.complete, h'.once⟩
        · exact ⟨hends.ended, fun he => List.mem_append_left _ (hends.ending he),
            hends.scheduled⟩
    | listenError present => exact hPost _ h.frame
    | tick i =>
        have h' : FinishInv { s with ticks := s.ticks.eraseIdx i } :=
          ⟨fun ht => h.scheduled (List.mem_of_mem_eraseIdx ht), h.ended, h.returned, h.closed,
            h.complete, h.once⟩
        simp only [machine, body, Prog.wp_bind, Prog.wp_get, Prog.wp_modify]
        cases ht : s.ticks[i]? with
        | none => exact hPost _ h'
        | some t =>
            cases t with
            | emitFinish =>
                have hmem := List.mem_of_getElem? ht
                have hidle := h.scheduled hmem
                exact emitFinish_finish h' hidle (hends.ending (hends.scheduled hmem))
                  (hinv.completed_of_idle hidle.1 hidle.2) hPost hPost
            | callback c =>
                exact Prog.wp_yieldTo_inv (h'.record rfl (by simp) (by simp)) hPost hPost

/-! ### 'finish' -/

/-- A stream that has ended refuses every chunk. -/
theorem rejected_of_ended {P : Platform} {s : Writable} (h : s._writableState.ended = true)
    (data : Data) (callback : Option Callback) (rs : List Int) :
    Rejected ((body P (.write data callback)).exec rs s) := by
  obtain ⟨state, errorListener, ticks, inFlight, log⟩ := s
  obtain ⟨_, _, _, _, _, _, _, _, ended⟩ := state
  cases h
  cases errorListener with
  | true => rfl
  | false => rfl

/-- Nothing is accepted after an entry before which nothing may be accepted. -/
theorem FinishInv.accepted_post {s : Writable} (h : FinishInv s) {pre post : List WritableObs}
    (hlog : s.log = pre ++ .note .endReturned :: post) : accepted post = [] := by
  refine List.filterMap_eq_nil_iff.mpr fun o ho => ?_
  obtain ⟨before, after, rfl⟩ := List.append_of_mem ho
  cases o with
  | note n =>
      cases n with
      | accepted req =>
          have hlate := h.closed (pre ++ .note .endReturned :: before) _ after
            (by rw [hlog]; simp) req rfl
          exact absurd (by simp) hlate
      | rejected callback => rfl
      | returned res => rfl
      | endCalled => rfl
      | endReturned => rfl
  | handed chunk => rfl
  | completed status => rfl
  | event e => rfl
  | called callback => rfl

/-- 'finish' was emitted only on a stream that has ended. -/
theorem FinishInv.ended_of_finish {s : Writable} (h : FinishInv s)
    (hmem : .event .finish ∈ s.log) : s._writableState.ended = true := by
  by_contra hended
  have hcount := List.count_pos_iff.mpr hmem
  rw [h.once, if_neg hended] at hcount
  omega

/-- In every run in which nobody writes between `end` and 'finish', 'finish' is emitted at most
once, after `end` and with every accepted chunk completed; and a chunk that is written after
`end` returned is rejected and never given to `_write`. -/
theorem finish_of_noLateWrite (P : Platform) (highWaterMark : Option Int)
    {c : Config Writable WritableYield Empty}
    (hc : (machine P).Reach noLateWrite (new highWaterMark) c) : Finishes P c.heap := by
  have hbasis := ((delivery_holds P highWaterMark).of_free (E := noLateWrite)).and
    (history_holds P highWaterMark).of_free.of_given
  obtain ⟨⟨hinv, hends⟩, h⟩ := (hbasis.and (finishing_holds P highWaterMark)).inv_of_reach hc
  refine ⟨?_, fun pre post hlog => ?_, fun hmem => ?_, fun pre post hlog => ?_, fun hmem => ?_⟩
  · rw [h.once]
    split <;> omega
  · exact h.complete pre _ post hlog rfl
  · obtain ⟨hw, hb⟩ := h.ended (h.ended_of_finish hmem)
    refine ⟨?_, hb, ?_⟩
    · rw [hinv.length, hinv.idle hw, hb]
      rfl
    · rw [hinv.outstanding, hw]
      rfl
  · have hpost := h.accepted_post hlog
    refine ⟨hpost, ?_⟩
    have hacc : accepted c.heap.log = accepted pre := by
      rw [hlog, accepted_append]
      show accepted pre ++ accepted post = accepted pre
      rw [hpost, List.append_nil]
    rw [← hacc, hinv.fifo]
    exact List.prefix_append _ _
  · intro data callback rs hcall
    refine rejected_of_ended ?_ data callback rs
    by_contra hended
    have hlate := hcall (h.returned hmem) (by simpa using hended)
    simp [Call.writes] at hlate

/-- A ready stream that ends with nothing to write: the tick emits 'finish'. -/
theorem finish_of_noLateWrite_empty :
    ∃ c : Config Writable WritableYield Empty,
      .event .finish ∈ c.heap.log ∧ Finishes (.ascii false) c.heap := by
  obtain ⟨c, hc, hrun⟩ := Machine.exists_reach_of_run (machine (.ascii false)) noLateWrite
    (new none) [.call ._readyToWrite [], .call (.end_ none none) [], .call (.tick 0) []]
    (fun c => decide (.event .finish ∈ c.heap.log)) rfl
  exact ⟨c, of_decide_eq_true hrun, finish_of_noLateWrite (.ascii false) none hc⟩

/-- Without the condition, 'finish' can come before a chunk has completed: the stream is ready
and idle, `end` schedules 'finish', `[1]` is written and accepted, and the tick runs while `[1]`
is in flight. -/
theorem finish_before_completion :
    ¬ ∀ (P : Platform) (highWaterMark : Option Int) (c : Config Writable WritableYield Empty),
      (machine P).Reach .free (new highWaterMark) c → Finishes P c.heap := by
  intro hall
  obtain ⟨c, hc, hrun⟩ := Machine.exists_reach_of_run (machine (.ascii false)) .free (new none)
    [.call ._readyToWrite [], .call (.end_ none none) [],
      .call (.write (.buffer [1]) none) [], .ret [], .call (.tick 0) []]
    (fun c => decide (.event .finish ∈ c.heap.log ∧ c.heap.inFlight = 1)) rfl
  obtain ⟨hmem, hin⟩ := of_decide_eq_true hrun
  have := ((hall _ _ c hc).settled hmem).2.2
  omega

end IotJs.Writable

import IotJs.Proofs.WritableDelivery

/-!
# `IotJs.Proofs.WritableHistory`: what never goes back

The log of a `Writable` only grows, and `ending` and `ended` stay `true` once they are. This
is the `rely` of the `history` contract, so a function may count on it across every yield. Its
invariant orders the three: a stream has ended only when it is ending, it is ending only when
`end` was called, and 'finish' is scheduled only on a stream that is ending.
-/

set_option autoImplicit false

namespace IotJs.Writable

open Reentrant WritableObject

/-- `t` is a later state than `s`. -/
structure Grows (s t : Writable) : Prop where
  log : s.log <+: t.log
  ending : s._writableState.ending = true → t._writableState.ending = true
  ended : s._writableState.ended = true → t._writableState.ended = true

/-- The order of `end`, `ending` and `ended`. -/
structure Ends (s : Writable) : Prop where
  ended : s._writableState.ended = true → s._writableState.ending = true
  ending : s._writableState.ending = true → .note .endCalled ∈ s.log
  scheduled : .emitFinish ∈ s.ticks → s._writableState.ending = true

/-- The history contract. -/
def history : Contract Writable :=
  .plain Ends Grows (fun _ => ⟨List.prefix_rfl, id, id⟩)
    fun h₁ h₂ => ⟨h₁.log.trans h₂.log, h₂.ending ∘ h₁.ending, h₂.ended ∘ h₁.ended⟩

section specs

variable {α : Type} {s₀ s t : Writable}

/-- The method, started in `s`, keeps the contract of the call that began in `s₀`. -/
def Keeps (s₀ : Writable) (m : Method α) (s : Writable) : Prop :=
  m.wp anywhere .nil history (history.Post s₀) (fun _ => history.Post s₀) s

/-- What the contract does not speak of may change. -/
theorem history_frame (h : history.Post s₀ s) (hlog : t.log = s.log)
    (hending : t._writableState.ending = s._writableState.ending)
    (hended : t._writableState.ended = s._writableState.ended)
    (hticks : .emitFinish ∈ t.ticks → .emitFinish ∈ s.ticks) : history.Post s₀ t := by
  obtain ⟨hends, hgrows⟩ := h
  refine ⟨⟨?_, ?_, ?_⟩, ⟨?_, ?_, ?_⟩⟩
  · rw [hended, hending]
    exact hends.ended
  · rw [hending, hlog]
    exact hends.ending
  · rw [hending]
    exact fun ht => hends.scheduled (hticks ht)
  · rw [hlog]
    exact hgrows.log
  · rw [hending]
    exact hgrows.ending
  · rw [hended]
    exact hgrows.ended

theorem history_record {o : WritableObs} (h : history.Post s₀ s) :
    history.Post s₀ { s with log := s.log ++ [o] } where
  left := ⟨h.1.ended, fun he => List.mem_append_left _ (h.1.ending he), h.1.scheduled⟩
  right := ⟨h.2.log.trans (List.prefix_append ..), h.2.ending, h.2.ended⟩

theorem emit_history {e : WritableEvent} (h : history.Post s₀ s) : Keeps s₀ (this.emit e) s := by
  cases e with
  | error message =>
      exact wp_emit_error.mpr ⟨fun _ => Prog.wp_yieldTo_post (history_record h), fun _ => h⟩
  | drain => exact Prog.wp_yieldTo_post (history_record h)
  | finish => exact Prog.wp_yieldTo_post (history_record h)

theorem emitDrain_history (h : history.Post s₀ s) : Keeps s₀ this.emitDrain s :=
  wp_emitDrain.mpr ⟨fun _ => emit_history (history_frame h rfl rfl rfl id), fun _ => h⟩

/-- Only a stream that is ending emits 'finish'. -/
theorem emitFinish_history (h : history.Post s₀ s) (he : s._writableState.ending = true) :
    Keeps s₀ this.emitFinish s := by
  refine wp_emitFinish.mpr ⟨fun _ => emit_history ?_, fun _ => h⟩
  exact ⟨⟨fun _ => he, h.1.ending, h.1.scheduled⟩, ⟨h.2.log, h.2.ending, fun _ => rfl⟩⟩

theorem onEmptyBuffer_history (h : history.Post s₀ s) : Keeps s₀ this.onEmptyBuffer s :=
  wp_onEmptyBuffer.mpr ⟨fun he => emitFinish_history h he,
    fun _ => ⟨fun _ => emitDrain_history h, fun _ => h⟩⟩

theorem doWrite_history {req : WriteReq} (h : history.Post s₀ s) :
    Keeps s₀ (this.doWrite req) s := by
  refine wp_doWrite.mpr ⟨fun _ => wp_handOver.mpr (Prog.wp_yieldTo_post ?_), fun _ => h⟩
  exact history_frame (history_record h) rfl rfl rfl id

theorem writeBuffered_history (h : history.Post s₀ s) : Keeps s₀ this.writeBuffered s :=
  wp_writeBuffered.mpr ⟨fun _ => h, fun _ => ⟨fun _ => onEmptyBuffer_history h,
    fun _ _ _ => doWrite_history (history_frame h rfl rfl rfl id)⟩⟩

theorem write_history {P : Platform} {data : Data} {callback : Option Callback}
    (h : history.Post s₀ s) : Keeps s₀ (this.write P data callback) s := by
  have hret : ∀ res : Bool, ∀ t, history.Post s₀ t → (this.note (.returned res)).wp anywhere .nil
      history (history.Post s₀) (fun _ => history.Post s₀) t := fun _ _ ht => history_record ht
  refine wp_write.mpr ⟨fun _ => ?_, fun _ => ?_⟩
  · rw [wp_writeAfterEnd, wp_note]
    refine Prog.wp_mono (fun _ => id) (fun _ t ht => ⟨fun _ => hret _ t ht, fun c _ => ?_⟩) _
      (emit_history (history_record h))
    exact hret _ _ (history_frame ht rfl rfl rfl (by simp))
  · -- the test of the high water mark comes last on both paths
    have hmark : ∀ t, history.Post s₀ t → history.Post s₀
        { t with _writableState := { t._writableState with needDrain := true } } :=
      fun _ ht => history_frame ht rfl rfl rfl id
    rw [wp_writeOrBuffer, wp_note]
    have h' := history_record (o := .note (.accepted ⟨data.toBuffer P, callback⟩)) h
    refine ⟨fun _ => ?_, fun _ => ?_⟩
    · have h'' := history_frame (t := { s with
          _writableState := { s._writableState with
            length := s._writableState.length + (data.toBuffer P).length
            buffer := s._writableState.buffer ++ [⟨data.toBuffer P, callback⟩] }
          log := s.log ++ [.note (.accepted ⟨data.toBuffer P, callback⟩)] }) h' rfl rfl rfl id
      exact ⟨fun _ => hret _ _ (hmark _ h''), fun _ => hret _ _ h''⟩
    · refine Prog.wp_mono (fun _ => id) (fun _ t ht => ?_) _
        (doWrite_history (history_frame h' rfl rfl rfl id))
      exact ⟨fun _ => hret _ _ (hmark t ht), fun _ => hret _ t ht⟩

theorem end_history {P : Platform} {chunk : Option Data} {callback : Option Callback}
    (h : history.Post s₀ s) : Keeps s₀ (this.end_ P chunk callback) s := by
  -- `end` was called: now the stream may be ending
  have hrest : ∀ t, history.Post s₀ t → .note .endCalled ∈ t.log →
      (t._writableState.ending = true → (this.note .endReturned).wp anywhere .nil
        history (history.Post s₀) (fun _ => history.Post s₀) t) ∧
      (t._writableState.ending = false → (this.endWritable callback).wp anywhere .nil
        history (history.Post s₀) (fun _ t => (this.note .endReturned).wp anywhere .nil
          history (history.Post s₀) (fun _ => history.Post s₀) t) t) := by
    intro t ht hcalled
    have hend : ∀ ticks, history.Post s₀ { t with
        _writableState := { t._writableState with ending := true }, ticks := ticks } := fun _ =>
      ⟨⟨fun _ => rfl, fun _ => hcalled, fun _ => rfl⟩, ⟨ht.2.log, fun _ => rfl, ht.2.ended⟩⟩
    refine ⟨fun _ => history_record ht, fun _ => wp_endWritable.mpr ⟨fun _ => ?_, fun _ => ?_⟩⟩
    · exact history_record (hend _)
    · exact history_record (hend _)
  have hcalled := history_record (o := .note .endCalled) h
  refine wp_end.mpr ⟨fun _ => hrest _ hcalled (by simp), fun c _ => ?_⟩
  -- the call of `write` starts after `end` was noted, and the log only grows
  have hstart := history_record (o := .note .endCalled) ⟨h.1, history.refl s⟩
  have hsince : ∀ t, history.Post { s with log := s.log ++ [.note .endCalled] } t →
      history.Post s₀ t := fun t ht => ⟨ht.1, history.trans hcalled.2 ht.2⟩
  refine Prog.wp_mono hsince (fun _ t ht => hrest t (hsince t ht) ?_) _
    (write_history ⟨hstart.1, history.refl _⟩)
  exact ht.2.log.subset (by simp)

end specs

/-- Every call keeps the history contract, in any surroundings. -/
theorem history_holds (P : Platform) (highWaterMark : Option Int) :
    Contract.Holds (machine P) .free .nil history (new highWaterMark) := by
  refine .intro ?_ fun i _ s _ hends _ _ => ?_
  · refine ⟨fun h => absurd h ?_, fun h => absurd h ?_, fun h => absurd h ?_⟩
    · simp [new, WritableState.new]
    · simp [new, WritableState.new]
    · simp [new]
  · have h : history.Post s s := ⟨hends, history.refl s⟩
    cases i with
    | write data callback =>
        simp only [machine, body, Prog.wp_bind]
        exact write_history h
    | end_ chunk callback => exact end_history h
    | _readyToWrite => exact writeBuffered_history (history_frame h rfl rfl rfl id)
    | _onwrite status =>
        exact writeBuffered_history (history_frame (history_record h) rfl rfl rfl id)
    | listenError present => exact history_frame h rfl rfl rfl id
    | tick i =>
        have h' : history.Post s { s with ticks := s.ticks.eraseIdx i } :=
          history_frame h rfl rfl rfl List.mem_of_mem_eraseIdx
        simp only [machine, body, Prog.wp_bind, Prog.wp_get, Prog.wp_modify]
        cases ht : s.ticks[i]? with
        | none => exact h'
        | some t =>
            cases t with
            | emitFinish =>
                exact emitFinish_history h' (hends.scheduled (List.mem_of_getElem? ht))
            | callback c => exact Prog.wp_yieldTo_post (history_record h')

end IotJs.Writable

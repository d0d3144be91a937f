import IotJs.Lib.Reentrant.Contract
import IotJs.Core.Writable

/-!
# `IotJs.Proofs.WritableWp`: one rule per function of `stream_writable.js`

What each function needs before it, for any object, contract and surroundings. A plain
`Writable` and a `Socket` share these rules; they differ in `_write` and `emit`.
-/

set_option autoImplicit false

namespace IotJs.WritableObject

open Reentrant

variable {σ υ κ ι : Type} {this : WritableObject σ υ κ} {P : Platform}
variable {E : Env σ υ κ ι} {G C : Contract σ} {X : σ → Prop} {s : σ}

@[simp] theorem wp_getState {Q : WritableState → σ → Prop} :
    this.getState.wp E G C X Q s ↔ Q (this.state s) s := Iff.rfl

@[simp] theorem wp_modifyState {f : WritableState → WritableState} {Q : Unit → σ → Prop} :
    (this.modifyState f).wp E G C X Q s ↔ Q () (this.setState (f (this.state s)) s) := Iff.rfl

theorem wp_emitDrain {Q : Unit → σ → Prop} :
    this.emitDrain.wp E G C X Q s ↔
      ((this.state s).needDrain = true → (this.emit .drain).wp E G C X Q
        (this.setState { this.state s with needDrain := false } s)) ∧
      ((this.state s).needDrain = false → Q () s) := by
  simp [emitDrain]

theorem wp_emitFinish {Q : Unit → σ → Prop} :
    this.emitFinish.wp E G C X Q s ↔
      ((this.state s).ended = false → (this.emit .finish).wp E G C X Q
        (this.setState { this.state s with ended := true } s)) ∧
      ((this.state s).ended = true → Q () s) := by
  simp [emitFinish]

theorem wp_onEmptyBuffer {Q : Unit → σ → Prop} :
    this.onEmptyBuffer.wp E G C X Q s ↔
      ((this.state s).ending = true → this.emitFinish.wp E G C X Q s) ∧
      ((this.state s).ending = false →
        ((this.state s).needDrain = true → this.emitDrain.wp E G C X Q s) ∧
        ((this.state s).needDrain = false → Q () s)) := by
  simp [onEmptyBuffer]

theorem wp_doWrite {req : WriteReq} {Q : Unit → σ → Prop} :
    (this.doWrite req).wp E G C X Q s ↔
      ((this.state s).writing = false → (this._write req).wp E G C X Q
        (this.setState
          { this.state s with writing := true, writingLength := req.chunk.length } s)) ∧
      ((this.state s).writing = true → Q () s) := by
  simp [doWrite]

theorem wp_writeBuffered {Q : Unit → σ → Prop} :
    this.writeBuffered.wp E G C X Q s ↔
      ((this.state s).writing = true → Q () s) ∧
      ((this.state s).writing = false →
        ((this.state s).buffer = [] → this.onEmptyBuffer.wp E G C X Q s) ∧
        ∀ req rest, (this.state s).buffer = req :: rest → (this.doWrite req).wp E G C X Q
          (this.setState { this.state s with buffer := rest } s)) := by
  cases hw : (this.state s).writing <;> cases hb : (this.state s).buffer <;>
    simp [writeBuffered, hw, hb]

/-- The stream takes the chunk itself when it is ready, idle and has nothing pending. -/
theorem wp_writeOrBuffer {data : Data} {callback : Option Callback} {Q : Bool → σ → Prop} :
    (this.writeOrBuffer P data callback).wp E G C X Q s ↔
      (this.note (.accepted ⟨data.toBuffer P, callback⟩)).wp E G C X (fun _ s =>
        let req : WriteReq := ⟨data.toBuffer P, callback⟩
        let s := this.setState
          { this.state s with length := (this.state s).length + req.chunk.length } s
        let rest : Unit → σ → Prop := fun _ s =>
          ((this.state s).highWaterMark ≤ (this.state s).length →
            let s := this.setState { this.state s with needDrain := true } s
            Q (!(this.state s).needDrain) s) ∧
          (¬ (this.state s).highWaterMark ≤ (this.state s).length →
            Q (!(this.state s).needDrain) s)
        (((this.state s).ready = false ∨ (this.state s).writing = true) ∨
            ¬ (this.state s).buffer = [] →
          rest () (this.setState { this.state s with buffer := (this.state s).buffer ++ [req] } s)) ∧
        (((this.state s).ready = true ∧ (this.state s).writing = false) ∧
            (this.state s).buffer = [] →
          (this.doWrite req).wp E G C X rest s)) s := by
  simp only [writeOrBuffer, Prog.wp_bind, wp_getState, wp_modifyState, Prog.wp_ite, Prog.wp_pure,
    Bool.or_eq_true, Bool.not_eq_true', List.isEmpty_eq_false_iff, not_or, Bool.not_eq_false,
    Bool.not_eq_true, not_not, ne_eq]

theorem wp_writeAfterEnd {callback : Option Callback} {Q : Unit → σ → Prop} :
    (this.writeAfterEnd callback).wp E G C X Q s ↔
      (this.note (.rejected callback)).wp E G C X (fun _ s =>
        (this.emit (.error "write after end")).wp E G C X (fun _ s =>
          (callback = none → Q () s) ∧
          ∀ c, callback = some c → (this.nextTick (.callback c)).wp E G C X Q s) s) s := by
  cases callback <;> simp [writeAfterEnd]

theorem wp_write {data : Data} {callback : Option Callback} {Q : Bool → σ → Prop} :
    (this.write P data callback).wp E G C X Q s ↔
      ((this.state s).ended = true →
        (this.writeAfterEnd callback).wp E G C X (fun _ s =>
          (this.note (.returned false)).wp E G C X (fun _ => Q false) s) s) ∧
      ((this.state s).ended = false →
        (this.writeOrBuffer P data callback).wp E G C X (fun res s =>
          (this.note (.returned res)).wp E G C X (fun _ => Q res) s) s) := by
  simp [write]

theorem wp_endWritable {callback : Option Callback} {Q : Unit → σ → Prop} :
    (this.endWritable callback).wp E G C X Q s ↔
      let s := this.setState { this.state s with ending := true } s
      ((this.state s).writing = false ∧ (this.state s).buffer = [] →
        (this.nextTick .emitFinish).wp E G C X Q s) ∧
      (¬ ((this.state s).writing = false ∧ (this.state s).buffer = []) → Q () s) := by
  simp [endWritable]

theorem wp_end {chunk : Option Data} {callback : Option Callback} {Q : Unit → σ → Prop} :
    (this.end_ P chunk callback).wp E G C X Q s ↔
      (this.note .endCalled).wp E G C X (fun _ s =>
        let rest : Unit → σ → Prop := fun _ s =>
          ((this.state s).ending = true → (this.note .endReturned).wp E G C X Q s) ∧
          ((this.state s).ending = false → (this.endWritable callback).wp E G C X (fun _ s =>
            (this.note .endReturned).wp E G C X Q s) s)
        (endChunk P (this.state s).ending chunk = none → rest () s) ∧
        ∀ c, endChunk P (this.state s).ending chunk = some c →
          (this.write P c none).wp E G C X (fun _ => rest ()) s) s := by
  simp only [end_, Prog.wp_bind, wp_getState]
  refine iff_of_eq (congrArg (fun Q => Prog.wp E G C X _ Q s) (funext fun _ => funext fun t => ?_))
  cases endChunk P (this.state t).ending chunk <;> simp [and_comm]

/-- The rule of `end` with a condition `R` for what comes after the chunk. -/
theorem wp_end_of {chunk : Option Data} {callback : Option Callback} {Q : Unit → σ → Prop}
    {R : σ → Prop}
    (hstart : (this.note .endCalled).wp E G C X (fun _ s =>
      (endChunk P (this.state s).ending chunk = none → R s) ∧
      ∀ c, endChunk P (this.state s).ending chunk = some c →
        (this.write P c none).wp E G C X (fun _ => R) s) s)
    (hagain : ∀ t, R t → (this.state t).ending = true →
      (this.note .endReturned).wp E G C X Q t)
    (hend : ∀ t, R t → (this.state t).ending = false →
      (this.endWritable callback).wp E G C X (fun _ s =>
        (this.note .endReturned).wp E G C X Q s) t) :
    (this.end_ P chunk callback).wp E G C X Q s := by
  rw [wp_end]
  refine Prog.wp_mono (fun _ => id) (fun _ t ht => ⟨fun hnone => ?_, fun c hc => ?_⟩) _ hstart
  · exact ⟨hagain t (ht.1 hnone), hend t (ht.1 hnone)⟩
  · exact Prog.wp_mono (fun _ => id) (fun _ u hu => ⟨hagain u hu, hend u hu⟩) _ (ht.2 c hc)

@[simp] theorem wp_readyToWrite {Q : Unit → σ → Prop} :
    this._readyToWrite.wp E G C X Q s ↔
      this.writeBuffered.wp E G C X Q (this.setState { this.state s with ready := true } s) := by
  simp [_readyToWrite]

@[simp] theorem wp_onwrite {status : Int} {Q : Unit → σ → Prop} :
    (this._onwrite status).wp E G C X Q s ↔
      this.writeBuffered.wp E G C X Q (this.setState
        { this.state s with length := (this.state s).length - (this.state s).writingLength,
                            writing := false, writingLength := 0 } s) := by
  simp [_onwrite]

end IotJs.WritableObject

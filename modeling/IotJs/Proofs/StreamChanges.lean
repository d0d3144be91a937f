import IotJs.Core.Readable
import IotJs.Core.Writable
import IotJs.Lib.Reentrant.Changes

/-!
# `IotJs.Proofs.StreamChanges`: the functions of the streams change what their object changes

The functions of `stream_writable.js` and `stream_readable.js` touch the state only through the
operations of the object that they run over: its state record, its events, its ticks, its notes
and its `_write`. So they change the state as these do (`ChangesBy`). `push` is an exception: it
notes that it took a chunk, or the end of the stream, and an object may allow that in some states
only.
-/

set_option autoImplicit false

namespace IotJs

open Reentrant

variable {σ υ κ : Type} {R : σ → σ → Prop} {P : Platform}

/-- Every operation of the object changes the state by `R`. -/
structure WritableObject.ChangesBy (this : WritableObject σ υ κ) (R : σ → σ → Prop) : Prop where
  setState : ∀ state s, R s (this.setState state s)
  _write : ∀ req, (this._write req).ChangesBy R
  emit : ∀ e, (this.emit e).ChangesBy R
  nextTick : ∀ tick, (this.nextTick tick).ChangesBy R
  note : ∀ n, (this.note n).ChangesBy R

/-- Every operation of the object changes the state by `R`; the notes of `push` do where they
are asked for. -/
structure ReadableObject.ChangesBy (this : ReadableObject σ υ κ) (R : σ → σ → Prop) : Prop where
  setState : ∀ state s, R s (this.setState state s)
  emit : ∀ e, (this.emit e).ChangesBy R
  addListener : ∀ ev, (this.addListener ev).ChangesBy R
  note : ∀ n, (∀ data, n ≠ .pushed data) → n ≠ .eof → (this.note n).ChangesBy R

namespace WritableObject.ChangesBy

variable {this : WritableObject σ υ κ} (h : this.ChangesBy R)
include h

omit h in
theorem getState : this.getState.ChangesBy R := fun _ => trivial

theorem modifyState (f : WritableState → WritableState) : (this.modifyState f).ChangesBy R :=
  fun s => (Prog.changes_modify _).mpr (h.setState _ s)

theorem emitDrain : this.emitDrain.ChangesBy R := fun _ =>
  (Prog.changes_ite ..).mpr
    ⟨fun _ => (h.modifyState _).bind (fun _ => h.emit .drain) _, fun _ => trivial⟩

theorem emitFinish : this.emitFinish.ChangesBy R := fun _ =>
  (Prog.changes_ite ..).mpr
    ⟨fun _ => (h.modifyState _).bind (fun _ => h.emit .finish) _, fun _ => trivial⟩

theorem onEmptyBuffer : this.onEmptyBuffer.ChangesBy R := fun _ =>
  (Prog.changes_ite ..).mpr ⟨fun _ => h.emitFinish _, fun _ =>
    (Prog.changes_ite ..).mpr ⟨fun _ => h.emitDrain _, fun _ => trivial⟩⟩

theorem doWrite (req : WriteReq) : (this.doWrite req).ChangesBy R := fun _ =>
  (Prog.changes_ite ..).mpr
    ⟨fun _ => (h.modifyState _).bind (fun _ => h._write req) _, fun _ => trivial⟩

theorem writeBuffered : this.writeBuffered.ChangesBy R := by
  intro s
  show Prog.Changes R (this.getState >>= _) s
  refine (Prog.changes_ite ..).mpr ⟨fun _ => ?_, fun _ => trivial⟩
  cases (this.state s).buffer with
  | nil => exact h.onEmptyBuffer s
  | cons req rest => exact (h.modifyState _).bind (fun _ => h.doWrite req) s

theorem writeOrBuffer (data : Data) (callback : Option Callback) :
    (this.writeOrBuffer P data callback).ChangesBy R := by
  -- the test of the high water mark comes last on both paths
  have hmark : (do
      let state ← this.getState
      if state.highWaterMark ≤ state.length then
        this.modifyState fun state => { state with needDrain := true }
      return !(← this.getState).needDrain : Prog σ υ κ Bool).ChangesBy R := by
    refine getState.bind fun state => .ite ?_ fun _ => trivial
    exact (h.modifyState _).bind fun _ _ => trivial
  refine (h.note _).bind fun _ => (h.modifyState _).bind fun _ => getState.bind fun state => ?_
  exact .ite ((h.modifyState _).bind fun _ => hmark) ((h.doWrite _).bind fun _ => hmark)

theorem writeAfterEnd (callback : Option Callback) :
    (this.writeAfterEnd callback).ChangesBy R := by
  refine (h.note _).bind fun _ => (h.emit _).bind fun _ => ?_
  cases callback with
  | none => exact fun _ => trivial
  | some callback => exact h.nextTick _

theorem write (data : Data) (callback : Option Callback) :
    (this.write P data callback).ChangesBy R := by
  refine getState.bind fun state => .ite ?_ ?_
  · exact (h.writeAfterEnd callback).bind fun _ => (h.note _).bind fun _ _ => trivial
  · exact (h.writeOrBuffer data callback).bind fun res => (h.note _).bind fun _ _ => trivial

theorem endWritable (callback : Option Callback) : (this.endWritable callback).ChangesBy R := by
  refine (h.modifyState _).bind fun _ => getState.bind fun state => ?_
  exact .ite (h.nextTick _) fun _ => trivial

theorem end_ (chunk : Option Data) (callback : Option Callback) :
    (this.end_ P chunk callback).ChangesBy R := by
  have hend : (do
      if !(← this.getState).ending then
        this.endWritable callback
      this.note .endReturned : Prog σ υ κ Unit).ChangesBy R := by
    refine getState.bind fun state => .ite ?_ (h.note _)
    exact (h.endWritable callback).bind fun _ => h.note _
  refine (h.note _).bind fun _ => getState.bind fun state => ?_
  cases endChunk P state.ending chunk with
  | none => exact hend
  | some chunk => exact (h.write chunk none).bind fun _ => hend

theorem _readyToWrite : this._readyToWrite.ChangesBy R :=
  (h.modifyState _).bind fun _ => h.writeBuffered

theorem _onwrite (status : Int) : (this._onwrite status).ChangesBy R :=
  (h.modifyState _).bind fun _ => h.writeBuffered

end WritableObject.ChangesBy

namespace ReadableObject.ChangesBy

variable {this : ReadableObject σ υ κ} (h : this.ChangesBy R)

theorem getState : this.getState.ChangesBy R := fun _ => trivial

include h

theorem modifyState (f : ReadableState → ReadableState) : (this.modifyState f).ChangesBy R :=
  fun s => (Prog.changes_modify _).mpr (h.setState _ s)

theorem readBuffer (n : Option Int) : (this.readBuffer n).ChangesBy R := by
  refine getState.bind fun state => .ite (fun _ => trivial) (.ite ?_ fun _ => trivial)
  exact (h.modifyState _).bind fun _ _ => trivial

theorem emitEnd : this.emitEnd.ChangesBy R := by
  refine getState.bind fun state => .ite (fun _ => trivial) (getState.bind fun state => ?_)
  exact .ite ((h.modifyState _).bind fun _ => h.emit _) fun _ => trivial

theorem emitEndIfEmpty : this.emitEndIfEmpty.ChangesBy R :=
  getState.bind fun _ => .ite h.emitEnd fun _ => trivial

theorem assertEmpty : (this.assertEmpty P).ChangesBy R := by
  refine (h.readBuffer none).bind fun actual => ?_
  cases actual with
  | none => exact fun _ => trivial
  | some actual => exact (h.note .assertionFailed nofun nofun).bind fun _ _ => trivial

theorem emitData (data : Option Bytes) : (this.emitData P data).ChangesBy R :=
  h.assertEmpty.bind fun _ => (h.emit _).bind fun _ => h.emitEndIfEmpty

/-- From a state in which the end of the stream may be noted. -/
theorem onEof {s : σ} (heof : (this.note .eof).Changes R s) : this.onEof.Changes R s := by
  refine heof.bind fun _ => (h.modifyState _).bind fun _ => getState.bind fun state => ?_
  exact .ite h.emitEnd fun _ => trivial

theorem afterReadBuffer (res : Option Bytes) : (this.afterReadBuffer res).ChangesBy R := by
  cases res with
  | none => exact h.emitEndIfEmpty.bind fun _ _ => trivial
  | some data =>
      refine (h.note (.took data) nofun nofun).bind fun _ => h.emitEndIfEmpty.bind fun _ => ?_
      exact (h.note (.returned data) nofun nofun).bind fun _ _ => trivial

theorem read (n : Option Int) : (this.read n).ChangesBy R := by
  refine getState.bind fun state => .ite ?_ (h.afterReadBuffer none)
  exact (h.readBuffer _).bind fun res => h.afterReadBuffer res

theorem pause : this.pause.ChangesBy R :=
  getState.bind fun _ => .ite ((h.modifyState _).bind fun _ => h.emit _) fun _ => trivial

theorem resume : (this.resume P).ChangesBy R := by
  refine getState.bind fun state => .ite ?_ fun _ => trivial
  refine (h.modifyState _).bind fun _ => getState.bind fun state => .ite ?_ fun _ => trivial
  exact (h.readBuffer none).bind fun data => h.emitData data

theorem on (ev : String) : (this.on P ev).ChangesBy R :=
  (h.addListener ev).bind fun _ => .ite h.resume fun _ => trivial

/-- From a state in which a chunk, or the end of the stream, may be noted. -/
theorem push {s : σ} (chunk : Chunk) (hpushed : ∀ data, (this.note (.pushed data)).Changes R s)
    (heof : (this.note .eof).Changes R s) : (this.push P chunk).Changes R s := by
  cases chunk with
  | other => exact h.emit _ s
  | null => exact h.onEof heof
  | data data =>
      show Prog.Changes R (this.getState >>= _) s
      refine (Prog.changes_ite ..).mpr ⟨fun _ => h.emit _ s, fun _ => ?_⟩
      refine (hpushed _).bind fun _ => getState.bind fun state => ?_
      exact .ite (h.emitData _) ((h.modifyState _).bind fun _ => h.emit _)

end ReadableObject.ChangesBy

end IotJs

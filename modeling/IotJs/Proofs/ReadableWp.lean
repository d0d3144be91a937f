import IotJs.Lib.Reentrant.Contract
import IotJs.Core.Readable

/-!
# `IotJs.Proofs.ReadableWp`: one rule per function of `stream_readable.js`

What each function needs before it, for any object, contract and surroundings. A plain
`Readable` and a `Socket` share these rules.
-/

set_option autoImplicit false

namespace IotJs.ReadableObject

open Reentrant

variable {σ υ κ ι : Type} {this : ReadableObject σ υ κ} {P : Platform}
variable {E : Env σ υ κ ι} {G C : Contract σ} {X : σ → Prop} {s : σ}

@[simp] theorem wp_getState {Q : ReadableState → σ → Prop} :
    this.getState.wp E G C X Q s ↔ Q (this.state s) s := Iff.rfl

@[simp] theorem wp_modifyState {f : ReadableState → ReadableState} {Q : Unit → σ → Prop} :
    (this.modifyState f).wp E G C X Q s ↔ Q () (this.setState (f (this.state s)) s) := Iff.rfl

/-- Everything that is buffered leaves at once. -/
theorem wp_readBuffer_none {Q : Option Bytes → σ → Prop} :
    (this.readBuffer none).wp E G C X Q s ↔
      ((this.state s).buffer = [] ∨ (this.state s).length = 0 → Q none s) ∧
      (¬ ((this.state s).buffer = [] ∨ (this.state s).length = 0) →
        Q (some (this.state s).buffer.flatten)
          (this.setState { this.state s with buffer := [], length := 0 } s)) := by
  simp [readBuffer]

/-- A proper part of what is buffered cannot be read. -/
theorem wp_readBuffer_some {n : Int} (hn : 0 < n) {Q : Option Bytes → σ → Prop} :
    (this.readBuffer (some n)).wp E G C X Q s ↔
      ((this.state s).buffer = [] ∨ (this.state s).length = 0 → Q none s) ∧
      (¬ ((this.state s).buffer = [] ∨ (this.state s).length = 0) →
        (((this.state s).length : Int) ≤ n → Q (some (this.state s).buffer.flatten)
          (this.setState { this.state s with buffer := [], length := 0 } s)) ∧
        (¬ ((this.state s).length : Int) ≤ n → X s)) := by
  have hn0 : n ≠ 0 := by omega
  simp [readBuffer, hn0]

theorem wp_emitEnd {Q : Unit → σ → Prop} :
    this.emitEnd.wp E G C X Q s ↔
      ((this.state s).ended = false → X s) ∧
      ((this.state s).ended = true →
        ((this.state s).endEmitted = false → (this.emit .end_).wp E G C X Q
          (this.setState { this.state s with endEmitted := true } s)) ∧
        ((this.state s).endEmitted = true → Q () s)) := by
  simp [emitEnd]

theorem wp_emitEndIfEmpty {Q : Unit → σ → Prop} :
    this.emitEndIfEmpty.wp E G C X Q s ↔
      ((this.state s).ended = true ∧ (this.state s).length = 0 →
        this.emitEnd.wp E G C X Q s) ∧
      (¬ ((this.state s).ended = true ∧ (this.state s).length = 0) → Q () s) := by
  simp [emitEndIfEmpty]

/-- With nothing buffered the assertion of `emitData` holds. -/
theorem wp_emitData {data : Option Bytes} {Q : Unit → σ → Prop}
    (h : (this.state s).length = 0) :
    (this.emitData P data).wp E G C X Q s ↔
      (this.emit (.data data)).wp E G C X
        (fun _ s => this.emitEndIfEmpty.wp E G C X Q s) s := by
  simp [emitData, assertEmpty, wp_readBuffer_none, h]

theorem wp_onEof {Q : Unit → σ → Prop} :
    this.onEof.wp E G C X Q s ↔
      (this.note .eof).wp E G C X (fun _ s =>
        let s := this.setState { this.state s with ended := true } s
        ((this.state s).length = 0 → this.emitEnd.wp E G C X Q s) ∧
        (¬ (this.state s).length = 0 → Q () s)) s := by
  simp [onEof]

/-- What `read(n)` asks for is between nothing and everything. -/
theorem readLength_le (length : Nat) (n : Option Int) : readLength length n ≤ length := by
  cases n with
  | none => exact Int.le_refl _
  | some n =>
      simp only [readLength]
      split
      · exact Int.le_refl _
      · split <;> omega

/-- What `read` asks for is not negative. -/
theorem readLength_nonneg (length : Nat) (n : Option Int) : 0 ≤ readLength length n := by
  cases n with
  | none => exact Int.natCast_nonneg length
  | some n =>
      simp only [readLength]
      split
      · exact Int.natCast_nonneg length
      · split <;> omega

theorem wp_afterReadBuffer_some {data : Bytes} {Q : Option Bytes → σ → Prop} :
    (this.afterReadBuffer (some data)).wp E G C X Q s ↔
      (this.note (.took data)).wp E G C X (fun _ s => this.emitEndIfEmpty.wp E G C X (fun _ s =>
        (this.note (.returned data)).wp E G C X (fun _ => Q (some data)) s) s) s := by
  simp [afterReadBuffer]

theorem wp_afterReadBuffer_none {Q : Option Bytes → σ → Prop} :
    (this.afterReadBuffer none).wp E G C X Q s ↔
      this.emitEndIfEmpty.wp E G C X (fun _ => Q none) s := by
  simp [afterReadBuffer]

theorem wp_read {n : Option Int} {Q : Option Bytes → σ → Prop} :
    (this.read n).wp E G C X Q s ↔
      (0 < readLength (this.state s).length n →
        (this.readBuffer (some (readLength (this.state s).length n))).wp E G C X (fun res s =>
          (this.afterReadBuffer res).wp E G C X Q s) s) ∧
      (¬ 0 < readLength (this.state s).length n →
        (this.afterReadBuffer none).wp E G C X Q s) := by
  simp [read]

theorem wp_pause {Q : Unit → σ → Prop} :
    this.pause.wp E G C X Q s ↔
      ((this.state s).flowing = true → (this.emit .pause).wp E G C X Q
        (this.setState { this.state s with flowing := false } s)) ∧
      ((this.state s).flowing = false → Q () s) := by
  simp [pause]

theorem wp_resume {Q : Unit → σ → Prop} :
    (this.resume P).wp E G C X Q s ↔
      ((this.state s).flowing = false →
        let s := this.setState { this.state s with flowing := true } s
        (0 < (this.state s).length → (this.readBuffer none).wp E G C X (fun data s =>
          (this.emitData P data).wp E G C X Q s) s) ∧
        (¬ 0 < (this.state s).length → Q () s)) ∧
      ((this.state s).flowing = true → Q () s) := by
  simp [resume]

theorem wp_push {chunk : Chunk} {Q : Unit → σ → Prop} :
    (this.push P chunk).wp E G C X Q s ↔
      (chunk = .other → (this.emit (.error "Invalid chunk")).wp E G C X Q s) ∧
      (chunk = .null → this.onEof.wp E G C X Q s) ∧
      ∀ data, chunk = .data data →
        ((this.state s).ended = true →
          (this.emit (.error "stream.push() after EOF")).wp E G C X Q s) ∧
        ((this.state s).ended = false →
          (this.note (.pushed (data.toBuffer P))).wp E G C X (fun _ s =>
            ((this.state s).flowing = true →
              (this.emitData P (some (data.toBuffer P))).wp E G C X Q s) ∧
            ((this.state s).flowing = false → (this.emit .readable).wp E G C X Q
              (this.setState
                { this.state s with
                  length := (this.state s).length + (data.toBuffer P).length
                  buffer := (this.state s).buffer ++ [data.toBuffer P] } s))) s) := by
  cases chunk <;> simp [push, emitError, emitReadable]

end IotJs.ReadableObject

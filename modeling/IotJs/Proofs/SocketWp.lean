import IotJs.Core.Socket
import IotJs.Proofs.ReadableWp
import IotJs.Proofs.WritableWp

/-!
# `IotJs.Proofs.SocketWp`: one rule per primitive of `net.js`

What the methods of a `Socket` that touch its own fields need before them, for any contract and
surroundings. The rules of the two halves apply to `writableObject` and `readable`.

The restart of a timer is a write of some value to `_timer`: no property here reads more of
it than whether it is still active.
-/

set_option autoImplicit false

namespace IotJs.Socket

open Reentrant

variable {ι : Type} {P : Platform} {E : Env Socket SocketYield SocketNative ι}
variable {G C : Contract Socket} {X : Socket → Prop} {s : Socket} {onFinish : Method Unit}

@[simp] theorem wp_record {o : SocketObs} {Q : Unit → Socket → Prop} :
    (record o).wp E G C X Q s ↔ Q () { s with log := s.log ++ [o] } := Iff.rfl

@[simp] theorem wp_modifyState {f : SocketState → SocketState} {Q : Unit → Socket → Prop} :
    (modifyState f).wp E G C X Q s ↔ Q () { s with _socketState := f s._socketState } := Iff.rfl

@[simp] theorem wp_nextTick {tick : SocketTick} {Q : Unit → Socket → Prop} :
    (nextTick tick).wp E G C X Q s ↔ Q () { s with ticks := s.ticks ++ [tick] } := Iff.rfl

@[simp] theorem wp_clearSocketTimeout {Q : Unit → Socket → Prop} :
    clearSocketTimeout.wp E G C X Q s ↔ Q () { s with _timer := none } := Iff.rfl

/-- Only the timer changes. -/
theorem wp_resetSocketTimeout {Q : Unit → Socket → Prop}
    (h : ∀ timer, Q () { s with _timer := timer }) :
    resetSocketTimeout.wp E G C X Q s := by
  simp only [resetSocketTimeout, Prog.wp_bind, Prog.wp_get, Prog.wp_ite]
  exact ⟨fun _ => h _, fun _ => h s._timer⟩

theorem wp_emit_error {message : String} {Q : Unit → Socket → Prop} :
    (emit (.error message)).wp E G C X Q s ↔
      (s.errorListener = true → (Prog.yieldTo (.event (.error message))).wp E G C X Q
        { s with log := s.log ++ [.event (.error message)] }) ∧
      (s.errorListener = false → X s) := by
  simp only [emit, Prog.wp_bind, Prog.wp_get, Prog.wp_ite, wp_record, Bool.not_eq_true]
  rfl

/-- An event of which nothing is known but that it is no 'error'. -/
theorem wp_emit {e : SocketEvent} (he : ∀ message, e ≠ .error message)
    {Q : Unit → Socket → Prop} :
    (emit e).wp E G C X Q s ↔
      (Prog.yieldTo (.event e)).wp E G C X Q { s with log := s.log ++ [.event e] } := by
  cases e with
  | error message => exact absurd rfl (he message)
  | _ => rfl

theorem wp_useHandle {op : NativeOp} {Q : Unit → Socket → Prop} :
    (useHandle op).wp E G C X Q s ↔
      (s._handle = none → X { s with log := s.log ++ [.native op s.handleStatus] }) ∧
      (s._handle.isSome = true →
        Q () { s with log := s.log ++ [.native op s.handleStatus] }) := by
  simp only [useHandle, Prog.wp_bind, Prog.wp_get, wp_record, Prog.wp_ite,
    Option.isNone_iff_eq_none, ← Option.ne_none_iff_isSome]
  rfl

/-! ### The writable half -/

@[simp] theorem writable_eq : writable P = writableObject (Socket.onFinish P) := rfl

@[simp] theorem unfinished_eq : unfinished = writableObject (pure ()) := rfl

@[simp] theorem writable_state : (writableObject onFinish).state s = s._writableState := rfl

@[simp] theorem writable_setState (state : WritableState) :
    (writableObject onFinish).setState state s = { s with _writableState := state } := rfl

@[simp] theorem wp_writable_note {n : WritableNote} {Q : Unit → Socket → Prop} :
    ((writableObject onFinish).note n).wp E G C X Q s ↔
      Q () { s with log := s.log ++ [.note n] } := Iff.rfl

@[simp] theorem wp_writable_nextTick {tick : WritableTick} {Q : Unit → Socket → Prop} :
    ((writableObject onFinish).nextTick tick).wp E G C X Q s ↔
      Q () { s with ticks := s.ticks ++ [.writable tick] } := Iff.rfl

/-! ### The readable half -/

@[simp] theorem readable_state : (readable P).state s = s._readableState := rfl

@[simp] theorem readable_setState (state : ReadableState) :
    (readable P).setState state s = { s with _readableState := state } := rfl

@[simp] theorem wp_readable_note {n : ReadableNote} {Q : Unit → Socket → Prop} :
    ((readable P).note n).wp E G C X Q s ↔
      Q () { s with log := s.log ++ [.readNote n] } := Iff.rfl

end IotJs.Socket

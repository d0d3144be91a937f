import IotJs.Proofs.ReadableWp
import Mathlib.Algebra.Ring.Nat

/-!
# `IotJs.Proofs.ReadableConservation`: no byte of a `Readable` is lost, duplicated or reordered

What `push` accepted is what has been taken out, followed by what is buffered, whenever outside
code has control. Bytes leave the buffer with a 'data' event or through `read`. `read` gives
its result to the caller only after it has emitted 'end', so between the two the result is
taken and not delivered yet. The `rely` of the contract says that outside code cannot come
between: once the stream has met EOF and is empty, nothing more is taken.

A flowing stream is empty at every such point. This is why the assertion of `emitData` never
fails.
-/

set_option autoImplicit false

namespace IotJs.Readable

open Reentrant ReadableObject

/-! ### The log projections over `++` -/

@[simp] theorem accepted_append (log new : List ReadableObs) :
    accepted (log ++ new) = accepted log ++ accepted new := List.flatMap_append

@[simp] theorem taken_append (log new : List ReadableObs) :
    taken (log ++ new) = taken log ++ taken new := List.flatMap_append

@[simp] theorem delivered_append (log new : List ReadableObs) :
    delivered (log ++ new) = delivered log ++ delivered new := List.flatMap_append

/-! ### What the methods of a plain `Readable` do -/

@[simp] theorem this_state (s : Readable) : this.state s = s._readableState := rfl

@[simp] theorem this_setState (state : ReadableState) (s : Readable) :
    this.setState state s = { s with _readableState := state } := rfl

section

variable {E : Env Readable ReadableEvent Empty Call} {G C : Contract Readable}
variable {X : Readable → Prop} {Q : Unit → Readable → Prop} {s : Readable}

@[simp] theorem wp_record {o : ReadableObs} :
    (record o).wp E G C X Q s ↔ Q () { s with log := s.log ++ [o] } := Iff.rfl

@[simp] theorem wp_note {n : ReadableNote} :
    (this.note n).wp E G C X Q s ↔ Q () { s with log := s.log ++ [.note n] } := Iff.rfl

/-- Every event but 'error' is simply emitted. -/
theorem wp_emit {e : ReadableEvent} (he : ∀ message, e ≠ .error message) :
    (this.emit e).wp E G C X Q s ↔
      (Prog.yieldTo e).wp E G C X Q { s with log := s.log ++ [.event e] } := by
  cases e with
  | error message => exact absurd rfl (he message)
  | data data => rfl
  | readable => rfl
  | pause => rfl
  | end_ => rfl

theorem wp_emit_error {message : String} :
    (this.emit (.error message)).wp E G C X Q s ↔
      (s.errorListener = true → (Prog.yieldTo (.error message)).wp E G C X Q
        { s with log := s.log ++ [.event (.error message)] }) ∧
      (s.errorListener = false → X s) := by
  simp [this, emit]

end

/-! ### The contract -/

/-- The stream has met EOF and nothing is buffered. -/
def AtEnd (s : Readable) : Prop :=
  s._readableState.ended = true ∧ s._readableState.length = 0

/-- What holds of the bytes between two statements of the library too. -/
structure Kept (s : Readable) : Prop where
  conserved : taken s.log ++ s._readableState.buffer.flatten = accepted s.log
  length : s._readableState.length = s._readableState.buffer.flatten.length
  flowing : s._readableState.flowing = true → s._readableState.length = 0
  asserted : .note .assertionFailed ∉ s.log

/-- The invariant: before 'end', what was taken has been delivered. -/
structure Conserved (s : Readable) : Prop extends Kept s where
  returned : s._readableState.endEmitted = false → delivered s.log = taken s.log

/-- What happens to the bytes from `s` to `t`: some more are taken, and delivered unless a
listener of 'end' threw past a `read`; at the end of the stream, none. -/
structure Moves (E : Env Readable ReadableEvent Empty Call) (s t : Readable) : Prop where
  bytes : ∃ data, taken t.log = taken s.log ++ data ∧
    ((∀ u, ¬ E.throws .end_ u) → delivered t.log = delivered s.log ++ data) ∧ (AtEnd s → data = [])
  atEnd : AtEnd s → AtEnd t
  endEmitted : s._readableState.endEmitted = true → t._readableState.endEmitted = true

theorem Moves.trans {E : Env Readable ReadableEvent Empty Call} {s t u : Readable}
    (hst : Moves E s t) (htu : Moves E t u) : Moves E s u := by
  obtain ⟨⟨x, hx, hx', hxe⟩, hend, hemit⟩ := hst
  obtain ⟨⟨y, hy, hy', hye⟩, hend', hemit'⟩ := htu
  refine ⟨⟨x ++ y, ?_, fun he => ?_, fun hs => ?_⟩, hend' ∘ hend, hemit' ∘ hemit⟩
  · rw [hy, hx, List.append_assoc]
  · rw [hy' he, hx' he, List.append_assoc]
  · rw [hxe hs, hye (hend hs), List.append_nil]

/-- The conservation contract. -/
def conservation (E : Env Readable ReadableEvent Empty Call) : Contract Readable :=
  .plain Conserved (Moves E) (fun _ => ⟨⟨[], by simp, by simp, by simp⟩, id, id⟩) Moves.trans

section specs

variable {E : Env Readable ReadableEvent Empty Call} {P : Platform} {s₀ s t : Readable}

/-- The method, started in `s`, keeps the contract of the call that began in `s₀`. -/
def Keeps (E : Env Readable ReadableEvent Empty Call) {α : Type} (s₀ : Readable) (m : Method α)
    (s : Readable) : Prop :=
  m.wp E .nil (conservation E) ((conservation E).Post s₀) (fun _ => (conservation E).Post s₀) s

/-- A log entry without bytes. -/
theorem Kept.record {o : ReadableObs} (h : Kept s) (hacc : accepted [o] = [])
    (htak : taken [o] = []) (ho : o ≠ .note .assertionFailed) :
    Kept { s with log := s.log ++ [o] } where
  conserved := by
    rw [taken_append, accepted_append, htak, hacc, List.append_nil, List.append_nil]
    exact h.conserved
  length := h.length
  flowing := h.flowing
  asserted hmem := by
    rcases List.mem_append.mp hmem with hmem | hmem
    · exact h.asserted hmem
    · exact ho (List.mem_singleton.mp hmem).symm

theorem post_record {o : ReadableObs} (h : (conservation E).Post s₀ s) (hacc : accepted [o] = [])
    (htak : taken [o] = []) (hdel : delivered [o] = []) (ho : o ≠ .note .assertionFailed) :
    (conservation E).Post s₀ { s with log := s.log ++ [o] } := by
  obtain ⟨hcons, ⟨data, ht, hd, hend⟩, hat, hemit⟩ := h
  refine ⟨⟨hcons.toKept.record hacc htak ho, fun he => ?_⟩, ⟨⟨data, ?_, fun he => ?_, hend⟩, hat, hemit⟩⟩
  · rw [taken_append, delivered_append, htak, hdel, hcons.returned he]
  · rw [taken_append, htak, List.append_nil, ht]
  · rw [delivered_append, hdel, List.append_nil, hd he]

/-- An event without data. -/
theorem emit_ok {e : ReadableEvent} (he : ∀ data, e ≠ .data data)
    (h : (conservation E).Post s₀ s) : Keeps E s₀ (this.emit e) s := by
  cases e with
  | data data => exact absurd rfl (he data)
  | readable => exact Prog.wp_yieldTo_post (post_record h rfl rfl rfl (by simp))
  | pause => exact Prog.wp_yieldTo_post (post_record h rfl rfl rfl (by simp))
  | end_ => exact Prog.wp_yieldTo_post (post_record h rfl rfl rfl (by simp))
  | error message =>
      exact wp_emit_error.mpr
        ⟨fun _ => Prog.wp_yieldTo_post (post_record h rfl rfl rfl (by simp)), fun _ => h⟩

/-- 'end' comes at the end of the stream. Nothing is taken there, so what the caller has taken
and not delivered yet is still the last of the bytes. -/
theorem emitEnd_ok {X : Readable → Prop} {Q : Unit → Readable → Prop} (h : Kept s)
    (hend : AtEnd s) (hskip : s._readableState.endEmitted = true → Q () s)
    (hQ : ∀ t, Conserved t → t._readableState.endEmitted = true → Moves E s t → Q () t)
    (hX : ∀ t, Conserved t → Moves E s t → E.throws .end_ t → X t) :
    this.emitEnd.wp E .nil (conservation E) X Q s := by
  rw [wp_emitEnd]
  refine ⟨fun he => absurd hend.1 (by simpa using he), fun _ => ⟨fun _ => ?_, hskip⟩⟩
  rw [wp_emit (by simp)]
  -- 'end' brings no data, so what was accepted and taken stays as it is
  have hkept : Kept { s with
      _readableState := { s._readableState with endEmitted := true }
      log := s.log ++ [.event .end_] } := by
    have h' := h.record (o := .event .end_) rfl rfl (by simp)
    exact ⟨h'.conserved, h'.length, h'.flowing, h'.asserted⟩
  have hstart : Moves E s { s with
      _readableState := { s._readableState with endEmitted := true }
      log := s.log ++ [.event .end_] } := by
    refine ⟨⟨[], ?_, fun _ => ?_, fun _ => rfl⟩, id, fun _ => rfl⟩
    · rw [taken_append]
      rfl
    · rw [delivered_append]
      rfl
  refine ⟨⟨hkept, fun he => absurd he (by simp)⟩, fun t _ ht => ⟨?_, ?_⟩⟩
  · exact fun _ => hQ t ht.1 (ht.2.endEmitted rfl) ((conservation E).trans hstart ht.2)
  · exact hX t ht.1 ((conservation E).trans hstart ht.2)

theorem emitEndIfEmpty_ok {X : Readable → Prop} {Q : Unit → Readable → Prop} (h : Kept s)
    (hskip : Q () s)
    (hQ : AtEnd s → ∀ t, Conserved t → t._readableState.endEmitted = true → Moves E s t → Q () t)
    (hX : AtEnd s → ∀ t, Conserved t → Moves E s t → E.throws .end_ t → X t) :
    this.emitEndIfEmpty.wp E .nil (conservation E) X Q s :=
  wp_emitEndIfEmpty.mpr
    ⟨fun hend => emitEnd_ok h hend (fun _ => hskip) (hQ hend) (hX hend), fun _ => hskip⟩

theorem emitEndIfEmpty_post (h : (conservation E).Post s₀ s) : Keeps E s₀ this.emitEndIfEmpty s :=
  emitEndIfEmpty_ok h.1.toKept h (fun _ _ ht _ hm => ⟨ht, (conservation E).trans h.2 hm⟩)
    fun _ _ ht hm _ => ⟨ht, (conservation E).trans h.2 hm⟩

/-- `emitData` on an empty stream: the event itself delivers the data. -/
theorem emitData_ok {data : Bytes} (hlength : s._readableState.length = 0)
    (h : (conservation E).Post s₀ { s with log := s.log ++ [.event (.data (some data))] }) :
    Keeps E s₀ (this.emitData P (some data)) s := by
  refine (wp_emitData hlength).mpr ((wp_emit (by simp)).mpr ?_)
  refine Prog.wp_mono (fun _ => id) (fun _ t ht => ?_) _ (Prog.wp_yieldTo_post h)
  exact emitEndIfEmpty_post ht

theorem onEof_ok (h : (conservation E).Post s₀ s) : Keeps E s₀ this.onEof s := by
  have h' := post_record (o := .note .eof) h rfl rfl rfl (by simp)
  have hended : (conservation E).Post s₀ { s with
      _readableState := { s._readableState with ended := true }
      log := s.log ++ [.note .eof] } :=
    ⟨⟨⟨h'.1.conserved, h'.1.length, h'.1.flowing, h'.1.asserted⟩, h'.1.returned⟩,
      ⟨h'.2.bytes, fun hs => ⟨rfl, (h'.2.atEnd hs).2⟩, h'.2.endEmitted⟩⟩
  refine wp_onEof.mpr ⟨fun hlength => ?_, fun _ => hended⟩
  exact emitEnd_ok hended.1.toKept ⟨rfl, hlength⟩ (fun _ => hended)
    (fun _ ht _ hm => ⟨ht, (conservation E).trans hended.2 hm⟩)
    fun _ ht hm _ => ⟨ht, (conservation E).trans hended.2 hm⟩

theorem pause_ok (h : (conservation E).Post s₀ s) : Keeps E s₀ this.pause s := by
  refine wp_pause.mpr ⟨fun _ => emit_ok (by simp) ?_, fun _ => h⟩
  exact ⟨⟨⟨h.1.conserved, h.1.length, fun hf => absurd hf (by simp), h.1.asserted⟩, h.1.returned⟩,
    ⟨h.2.bytes, h.2.atEnd, h.2.endEmitted⟩⟩

/-- A buffer with a positive length is not empty. -/
theorem Kept.nonempty (h : Kept s) (hlength : 0 < s._readableState.length) :
    ¬ (s._readableState.buffer = [] ∨ s._readableState.length = 0) := by
  rintro (hb | hl)
  · have := h.length
    rw [hb, List.flatten_nil, List.length_nil] at this
    omega
  · omega

/-- Everything buffered is taken, by an event or by `read`. -/
theorem Kept.take {o : ReadableObs} (h : Kept s) (hacc : accepted [o] = [])
    (htak : taken [o] = s._readableState.buffer.flatten) (ho : o ≠ .note .assertionFailed) :
    Kept { s with
      _readableState := { s._readableState with buffer := [], length := 0 }
      log := s.log ++ [o] } where
  conserved := by
    rw [taken_append, accepted_append, htak, hacc, h.conserved, List.append_nil]
    simp
  length := rfl
  flowing _ := rfl
  asserted hmem := by
    rcases List.mem_append.mp hmem with hmem | hmem
    · exact h.asserted hmem
    · exact ho (List.mem_singleton.mp hmem).symm

/-- The new entries take the bytes `b` and deliver them at once. -/
theorem post_data {state : ReadableState} {new : List ReadableObs} {b : Bytes}
    (h : (conservation E).Post s₀ s) (hopen : ¬ AtEnd s₀)
    (hkept : Kept { s with _readableState := state, log := s.log ++ new })
    (htak : taken new = b) (hdel : delivered new = b)
    (hemit : state.endEmitted = s._readableState.endEmitted) :
    (conservation E).Post s₀ { s with _readableState := state, log := s.log ++ new } := by
  obtain ⟨hcons, ⟨b₀, ht, hd, -⟩, -, hemit₀⟩ := h
  refine ⟨⟨hkept, fun he => ?_⟩, ⟨⟨b₀ ++ b, ?_, fun he => ?_, fun hs => absurd hs hopen⟩,
    fun hs => absurd hs hopen, fun hs => ?_⟩⟩
  · rw [taken_append, delivered_append, htak, hdel, hcons.returned (hemit ▸ he)]
  · rw [taken_append, htak, ht, List.append_assoc]
  · rw [delivered_append, hdel, hd he, List.append_assoc]
  · exact hemit.trans (hemit₀ hs)

theorem resume_ok (h : (conservation E).Post s₀ s) : Keeps E s₀ (this.resume P) s := by
  refine wp_resume.mpr ⟨fun _ => ⟨fun hlength => ?_, fun hlength => ?_⟩, fun _ => h⟩
  · have hlength : 0 < s._readableState.length := hlength
    -- the whole buffer goes into one event, which takes and delivers it
    have htake := h.1.toKept.take
      (o := .event (.data (some s._readableState.buffer.flatten))) rfl (by simp [taken]) (by simp)
    have hpost : (conservation E).Post s₀ { s with
        _readableState :=
          { s._readableState with flowing := true, buffer := [], length := 0 }
        log := s.log ++ [.event (.data (some s._readableState.buffer.flatten))] } := by
      refine post_data h (fun hs => ?_) ⟨htake.conserved, rfl, fun _ => rfl, htake.asserted⟩
        (b := s._readableState.buffer.flatten) (by simp [taken]) (by simp [delivered]) rfl
      -- a call that started at the end of the stream finds nothing buffered
      have := (h.2.atEnd hs).2
      omega
    exact wp_readBuffer_none.mpr ⟨fun hb => absurd hb (h.1.toKept.nonempty hlength),
      fun _ => emitData_ok rfl hpost⟩
  · have hlength : s._readableState.length = 0 := by simpa using hlength
    exact ⟨⟨⟨h.1.conserved, h.1.length, fun _ => hlength, h.1.asserted⟩, h.1.returned⟩,
      ⟨h.2.bytes, h.2.atEnd, h.2.endEmitted⟩⟩

theorem on_ok {ev : String} (h : (conservation E).Post s₀ s) : Keeps E s₀ (this.on P ev) s := by
  have h' : (conservation E).Post s₀
      { s with errorListener := s.errorListener || ev = "error" } :=
    ⟨⟨⟨h.1.conserved, h.1.length, h.1.flowing, h.1.asserted⟩, h.1.returned⟩,
      ⟨h.2.bytes, h.2.atEnd, h.2.endEmitted⟩⟩
  simp only [Keeps, on, Prog.wp_bind, Prog.wp_ite]
  exact ⟨fun _ => resume_ok h', fun _ => h'⟩

theorem push_ok {chunk : Chunk} (h : (conservation E).Post s₀ s) :
    Keeps E s₀ (this.push P chunk) s := by
  refine wp_push.mpr ⟨fun _ => emit_ok (by simp) h, fun _ => onEof_ok h, fun data _ =>
    ⟨fun _ => emit_ok (by simp) h, fun hended => ?_⟩⟩
  have hended : s._readableState.ended = false := hended
  have hopen : ¬ AtEnd s₀ := fun hs => by
    have := (h.2.atEnd hs).1
    simp [hended] at this
  have hconserved := h.1.conserved
  refine wp_note.mpr ⟨fun hf => ?_, fun hf => ?_⟩
  · -- a flowing stream is empty, so the chunk overtakes nothing
    have hlength := h.1.flowing hf
    have hempty : s._readableState.buffer.flatten = [] :=
      List.length_eq_zero_iff.mp (h.1.length ▸ hlength)
    rw [hempty, List.append_nil] at hconserved
    have hpost : (conservation E).Post s₀ { s with
        log := s.log ++ [.note (.pushed (data.toBuffer P))] ++
          [.event (.data (some (data.toBuffer P)))] } := by
      rw [List.append_assoc]
      refine post_data h hopen ⟨?_, h.1.length, h.1.flowing, ?_⟩ (b := data.toBuffer P)
        (by simp [taken]) (by simp [delivered]) rfl
      · rw [taken_append, accepted_append, hempty, hconserved]
        simp [taken, accepted]
      · simpa using h.1.asserted
    exact emitData_ok hlength hpost
  · -- a paused stream keeps the chunk behind the bytes that it has
    have hpost : (conservation E).Post s₀ { s with
        _readableState :=
          { s._readableState with
            length := s._readableState.length + (data.toBuffer P).length
            buffer := s._readableState.buffer ++ [data.toBuffer P] }
        log := s.log ++ [.note (.pushed (data.toBuffer P))] } := by
      refine post_data h hopen ⟨?_, ?_, fun hf' => absurd hf' ?_, ?_⟩ (b := []) rfl rfl rfl
      · rw [taken_append, accepted_append, ← hconserved]
        simp [taken, accepted]
      · rw [h.1.length]
        simp
      · have hf : s._readableState.flowing = false := hf
        simp [hf]
      · simpa using h.1.asserted
    exact emit_ok (by simp) hpost

/-- `read` takes everything or nothing, and gives back what it took. -/
theorem read_ok {n : Option Int} (h : (conservation E).Post s₀ s) :
    Keeps E s₀ (this.read n) s := by
  refine wp_read.mpr ⟨fun hn => ?_, fun _ => ?_⟩
  · have hle := readLength_le s._readableState.length n
    have hn : 0 < readLength s._readableState.length n := hn
    have hlength : 0 < s._readableState.length := by omega
    refine (wp_readBuffer_some hn).mpr ⟨fun hb => absurd hb (h.1.toKept.nonempty hlength),
      fun _ => ⟨fun _ => wp_afterReadBuffer_some.mpr ?_, fun _ => h⟩⟩
    have hkept := h.1.toKept.take (o := .note (.took s._readableState.buffer.flatten)) rfl
      (by simp [taken]) (by simp)
    have hopen : ¬ AtEnd s₀ := fun hs => by
      have := (h.2.atEnd hs).2
      omega
    obtain ⟨b₀, ht₀, hd₀, -⟩ := h.2.bytes
    refine wp_note.mpr (emitEndIfEmpty_ok hkept ?_ (fun hend t ht hemit hm => ?_)
      fun hend t ht hm hthrow => ?_)
    · -- no 'end': nothing came between taking and returning
      have hpost : (conservation E).Post s₀ { s with
          _readableState := { s._readableState with buffer := [], length := 0 }
          log := s.log ++ ([.note (.took s._readableState.buffer.flatten)] ++
            [.note (.returned s._readableState.buffer.flatten)]) } := by
        refine post_data h hopen ?_ (b := s._readableState.buffer.flatten) (by simp [taken])
          (by simp [delivered]) rfl
        rw [← List.append_assoc]
        exact hkept.record rfl rfl (by simp)
      rw [← List.append_assoc] at hpost
      exact hpost
    · -- the listeners of 'end' took nothing
      obtain ⟨x, hx, hx', hxe⟩ := hm.bytes
      rw [hxe hend, List.append_nil] at hx hx'
      have htak : taken t.log = taken s₀.log ++ (b₀ ++ s._readableState.buffer.flatten) := by
        rw [hx, ← List.append_assoc, ← ht₀]
        simp [taken]
      have hpost : (conservation E).Post s₀ { t with
          log := t.log ++ [.note (.returned s._readableState.buffer.flatten)] } := by
        refine ⟨⟨ht.toKept.record rfl rfl (by simp), fun he => absurd he (by simp [hemit])⟩,
          ⟨⟨b₀ ++ s._readableState.buffer.flatten, ?_, fun he => ?_, fun hs => absurd hs hopen⟩,
          fun hs => absurd hs hopen, fun _ => hemit⟩⟩
        · rw [taken_append, htak]
          simp [taken]
        · rw [delivered_append, hx' he, ← List.append_assoc, ← hd₀ he]
          simp [delivered]
      exact hpost
    · -- a listener of 'end' threw: what was taken is never returned
      obtain ⟨x, hx, -, hxe⟩ := hm.bytes
      rw [hxe hend, List.append_nil] at hx
      refine ⟨ht, ⟨⟨b₀ ++ s._readableState.buffer.flatten, ?_, fun he => absurd hthrow (he t),
        fun hs => absurd hs hopen⟩, fun hs => absurd hs hopen, fun hs => ?_⟩⟩
      · rw [hx, ← List.append_assoc, ← ht₀]
        simp [taken]
      · exact hm.endEmitted (h.2.endEmitted hs)
  · exact wp_afterReadBuffer_none.mpr (emitEndIfEmpty_post h)

end specs

/-- Every call keeps the conservation contract, in any surroundings. -/
theorem conservation_holds (P : Platform) (E : Env Readable ReadableEvent Empty Call) :
    Contract.Holds (machine P) E .nil (conservation E) new := by
  refine .intro ?_ fun i _ s _ hcons _ _ => ?_
  · refine ⟨⟨rfl, rfl, fun h => absurd h ?_, by simp [new]⟩, fun _ => rfl⟩
    simp [new, ReadableState.new]
  · have h : (conservation E).Post s s := ⟨hcons, (conservation E).refl s⟩
    cases i with
    | push chunk => exact push_ok h
    | read n =>
        simp only [machine, body, Prog.wp_bind]
        exact read_ok h
    | pause => exact pause_ok h
    | resume => exact resume_ok h
    | on ev => exact on_ok h
    | error message => exact emit_ok (e := .error message) (by simp) h
    | removeAllListeners ev =>
        exact ⟨⟨⟨h.1.conserved, h.1.length, h.1.flowing, h.1.asserted⟩, h.1.returned⟩,
          ⟨h.2.bytes, h.2.atEnd, h.2.endEmitted⟩⟩

/-! ### Conservation -/

/-- In every run of a `Readable`, what was taken out of the stream and what is still buffered
are the accepted chunks; `length` is the sum of the buffered lengths; a flowing stream is
empty; and the assertion of `emitData` has not failed. What was taken is what was delivered,
before 'end' at any time, and after it at rest when the listeners of 'end' do not throw. -/
theorem delivered_append_buffered (P : Platform) {E : Env Readable ReadableEvent Empty Call}
    {c : Config Readable ReadableEvent Empty} (hc : (machine P).Reach E new c) :
    taken c.heap.log ++ c.heap._readableState.buffer.flatten = accepted c.heap.log ∧
    (c.heap._readableState.endEmitted = false ∨ c.stack = [] ∧ (∀ s, ¬ E.throws .end_ s) →
      delivered c.heap.log ++ c.heap._readableState.buffer.flatten = accepted c.heap.log) ∧
    c.heap._readableState.length = (c.heap._readableState.buffer.map List.length).sum ∧
    (c.heap._readableState.flowing = true → c.heap._readableState.length = 0) ∧
    .note .assertionFailed ∉ c.heap.log := by
  have h : Conserved c.heap := (conservation_holds P E).inv_of_reach hc
  refine ⟨h.conserved, fun hquiet => ?_, ?_, h.flowing, h.asserted⟩
  · have htaken : delivered c.heap.log = taken c.heap.log := by
      rcases hquiet with he | ⟨hrest, he⟩
      · exact h.returned he
      · obtain ⟨b, ht, hd, -⟩ := ((conservation_holds P E).outer_of_rest hc hrest).bytes
        rw [ht, hd he]
        rfl
    rw [htaken, h.conserved]
  · rw [h.length, List.length_flatten]

/-- `[1]` and `[2]` are pushed, `read` takes both, and `[3]` stays behind. -/
theorem delivered_append_buffered_three :
    ∃ c : Config Readable ReadableEvent Empty,
      delivered c.heap.log = [1, 2] ∧ c.heap._readableState.buffer = [[3]] ∧
      delivered c.heap.log ++ c.heap._readableState.buffer.flatten = accepted c.heap.log := by
  obtain ⟨c, hc, hrun⟩ := Machine.exists_reach_of_run (machine (.ascii false)) .free new
    [.call (.push (.data (.buffer [1]))) [], .ret [], .call (.push (.data (.buffer [2]))) [],
      .ret [], .call (.read none) [], .call (.push (.data (.buffer [3]))) []]
    (fun c => decide (delivered c.heap.log = [1, 2] ∧ c.heap._readableState.buffer = [[3]] ∧
      c.heap._readableState.endEmitted = false)) rfl
  obtain ⟨hd, hb, he⟩ := of_decide_eq_true hrun
  exact ⟨c, hd, hb, (delivered_append_buffered (.ascii false) hc).2.1 (.inl he)⟩

end IotJs.Readable

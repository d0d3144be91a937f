import IotJs.Lib.History
import IotJs.Proofs.ReadableConservation

/-!
# `IotJs.Proofs.ReadableEnd`: the 'end' event of a `Readable`

'end' is owed once the stream has met EOF and is empty. Four places emit it: `read`, `push` of
a chunk and `resume` after the listeners of 'data' have run, and `push(null)`. The first three
look at the state again after outside code may have changed it. The contract says that a call
which starts without the debt ends without it, and that `resume`, which may raise the debt by
emptying the buffer, pays it before it returns. So there is no debt at rest.

The listeners do not throw here: a listener of 'data' that throws past `resume` leaves the
debt unpaid.
-/

set_option autoImplicit false

namespace IotJs.Readable

open Reentrant History ReadableObject

/-- Surroundings whose listeners do not throw. -/
def noThrow : Env Readable ReadableEvent Empty Call where
  call _ _ := True
  answer _ _ _ := True
  returns _ _ := True
  throws _ _ := False

instance : noThrow.Testable where
  call _ _ := .isTrue trivial
  answer _ _ _ := .isTrue trivial
  returns _ _ := .isTrue trivial
  throws _ _ := .isFalse id

/-- 'end' is due and was not emitted. -/
def EndOwed (s : Readable) : Prop :=
  AtEnd s ∧ s._readableState.endEmitted = false

/-- The invariant of EOF and 'end'. -/
structure EndInv (s : Readable) : Prop where
  eof : s._readableState.ended = true ↔ .note .eof ∈ s.log
  emitted : s._readableState.endEmitted = true → AtEnd s
  once : s.log.count (.event .end_) = if s._readableState.endEmitted then 1 else 0
  complete : Always (fun pre o => o = .event .end_ →
    .note .eof ∈ pre ∧ taken pre = accepted pre) s.log
  last : Always (fun pre o => ∀ data, o = .event (.data data) → .event .end_ ∉ pre) s.log

/-- The contract of 'end'. -/
def ending : Contract Readable :=
  .plain EndInv (fun s t => ¬ EndOwed s → ¬ EndOwed t) (fun _ => id) fun h₁ h₂ => h₂ ∘ h₁

section specs

variable {P : Platform} {s₀ s : Readable} {X : Readable → Prop}

/-- The method, started in `s`, keeps the contract of the call that began in `s₀`. -/
def KeepsEnd {α : Type} (s₀ : Readable) (m : Method α) (s : Readable) : Prop :=
  m.wp noThrow (conservation noThrow) ending (ending.Post s₀) (fun _ => ending.Post s₀) s

/-- A log entry that is neither EOF nor an event of data or 'end'. -/
theorem EndInv.record {o : ReadableObs} (h : EndInv s) (heof : o ≠ .note .eof)
    (hend : o ≠ .event .end_) (hdata : ∀ data, o ≠ .event (.data data)) :
    EndInv { s with log := s.log ++ [o] } where
  eof := by
    rw [List.mem_append, List.mem_singleton, h.eof]
    exact ⟨.inl, fun hmem => hmem.resolve_right fun ho => heof ho.symm⟩
  emitted := h.emitted
  once := by
    have hcount : List.count (.event .end_) [o] = 0 :=
      List.count_eq_zero.mpr (by simpa using hend.symm)
    rw [List.count_append, h.once, hcount, Nat.add_zero]
  complete := by
    simp only [always_append, always_cons, always_nil, and_true]
    exact ⟨h.complete, fun ho => absurd ho hend⟩
  last := by
    simp only [always_append, always_cons, always_nil, and_true]
    exact ⟨h.last, fun data ho => absurd ho (hdata data)⟩

/-- Before 'end' the log does not show it. -/
theorem EndInv.not_emitted (h : EndInv s) (he : s._readableState.endEmitted = false) :
    .event .end_ ∉ s.log := by
  have hcount := h.once
  rw [he] at hcount
  exact List.count_eq_zero.mp hcount

/-- An event other than 'data' and 'end'. -/
theorem emit_end {e : ReadableEvent} (hend : e ≠ .end_) (hdata : ∀ data, e ≠ .data data)
    (h : ending.Post s₀ s) : KeepsEnd s₀ (this.emit e) s := by
  have h' : ending.Post s₀ { s with log := s.log ++ [.event e] } :=
    ⟨h.1.record (by simp) (by simpa using hend) (by simpa using hdata), h.2⟩
  cases e with
  | data data => exact absurd rfl (hdata data)
  | end_ => exact absurd rfl hend
  | readable => exact Prog.wp_yieldTo_post h'
  | pause => exact Prog.wp_yieldTo_post h'
  | error message =>
      exact wp_emit_error.mpr ⟨fun _ => Prog.wp_yieldTo_post h', fun _ => h⟩

/-- `emitEnd` at the end of the stream pays the debt. -/
theorem emitEnd_end {Q : Unit → Readable → Prop} (h : EndInv s) (hkept : Kept s)
    (hend : AtEnd s) (hQ : ∀ t, EndInv t → ¬ EndOwed t → Q () t) :
    this.emitEnd.wp noThrow (conservation noThrow) ending X Q s := by
  rw [wp_emitEnd]
  refine ⟨fun he => absurd hend.1 (by simpa using he), fun _ => ⟨fun hopen => ?_, fun he => ?_⟩⟩
  · rw [wp_emit (by simp)]
    have hopen : s._readableState.endEmitted = false := hopen
    -- the conservation contract: with nothing buffered, all that was accepted was taken
    have hempty : s._readableState.buffer.flatten = [] :=
      List.length_eq_zero_iff.mp (hkept.length ▸ hend.2)
    have hall : taken s.log = accepted s.log := by
      rw [← hkept.conserved, hempty, List.append_nil]
    have hcount : s.log.count (.event .end_) = 0 := List.count_eq_zero.mpr (h.not_emitted hopen)
    refine ⟨⟨?_, fun _ => hend, ?_, ?_, ?_⟩, fun t _ ht => ⟨?_, False.elim⟩⟩
    · simpa using h.eof
    · simp [hcount]
    · simp only [always_append, always_cons, always_nil, and_true, List.append_nil]
      exact ⟨h.complete, fun _ => ⟨h.eof.mp hend.1, hall⟩⟩
    · simpa using h.last
    · exact fun _ => hQ t ht.1 (ht.2 fun howed => by simp [EndOwed] at howed)
  · exact hQ s h fun howed => absurd howed.2 (by simpa using he)

theorem emitEndIfEmpty_end {Q : Unit → Readable → Prop} (h : EndInv s) (hkept : Kept s)
    (hQ : ∀ t, EndInv t → ¬ EndOwed t → Q () t) :
    this.emitEndIfEmpty.wp noThrow (conservation noThrow) ending X Q s :=
  wp_emitEndIfEmpty.mpr ⟨fun hend => emitEnd_end h hkept hend hQ,
    fun hnot => hQ s h fun howed => hnot howed.1⟩

/-- After the listeners of 'data', whatever they did, `emitData` leaves no debt. -/
theorem emitData_end {data : Option Bytes} (h : EndInv s)
    (hlength : s._readableState.length = 0) (hopen : s._readableState.endEmitted = false) :
    KeepsEnd s₀ (this.emitData P data) s := by
  refine (wp_emitData hlength).mpr ((wp_emit (by simp)).mpr ?_)
  refine ⟨⟨?_, h.emitted, ?_, ?_, ?_⟩, fun t hg ht => ⟨?_, False.elim⟩⟩
  · simpa using h.eof
  · rw [List.count_append, h.once]
    rfl
  · simpa using h.complete
  · simpa using ⟨h.last, h.not_emitted hopen⟩
  · exact fun _ => emitEndIfEmpty_end ht.1 hg.1.toKept fun u hu howed => ⟨hu, fun _ => howed⟩

theorem onEof_end (h : EndInv s) (hkept : Kept s) : KeepsEnd s₀ this.onEof s := by
  have hinv : EndInv { s with
      _readableState := { s._readableState with ended := true }
      log := s.log ++ [.note .eof] } := by
    refine ⟨by simp, fun he => ⟨rfl, (h.emitted he).2⟩, ?_, ?_, ?_⟩
    · rw [List.count_append, h.once]
      rfl
    · simpa using h.complete
    · simpa using h.last
  have hkept' : Kept { s with
      _readableState := { s._readableState with ended := true }
      log := s.log ++ [.note .eof] } := by
    have hk := hkept.record (o := .note .eof) rfl rfl (by simp)
    exact { hk with }
  refine wp_onEof.mpr ⟨fun hlength => ?_, fun hlength => ?_⟩
  · exact emitEnd_end hinv hkept' ⟨rfl, hlength⟩ fun t ht howed => ⟨ht, fun _ => howed⟩
  · exact ⟨hinv, fun _ howed => hlength howed.1.2⟩

theorem pause_end (h : ending.Post s₀ s) : KeepsEnd s₀ this.pause s := by
  refine wp_pause.mpr ⟨fun _ => emit_end (by simp) (by simp) ?_, fun _ => h⟩
  exact ⟨⟨h.1.eof, h.1.emitted, h.1.once, h.1.complete, h.1.last⟩, h.2⟩

/-- `resume` may empty the buffer of a stream that has met EOF, and then emits 'end'. -/
theorem resume_end (h : ending.Post s₀ s) (hkept : Kept s) :
    KeepsEnd s₀ (this.resume P) s := by
  refine wp_resume.mpr ⟨fun _ => ⟨fun hlength => ?_, fun hlength => ?_⟩, fun _ => h⟩
  · have hlength : 0 < s._readableState.length := hlength
    have hopen : s._readableState.endEmitted = false := by
      by_contra he
      have := (h.1.emitted (by simpa using he)).2
      omega
    -- emptying the buffer may raise the debt; `emitData` pays it below
    have hinv : EndInv { s with
        _readableState :=
          { s._readableState with flowing := true, buffer := [], length := 0 } } :=
      ⟨h.1.eof, fun he => absurd he (by simp [hopen]), h.1.once, h.1.complete, h.1.last⟩
    exact wp_readBuffer_none.mpr ⟨fun hb => absurd hb (hkept.nonempty hlength),
      fun _ => emitData_end hinv rfl hopen⟩
  · exact ⟨⟨h.1.eof, h.1.emitted, h.1.once, h.1.complete, h.1.last⟩, h.2⟩

theorem push_end {chunk : Chunk} (h : ending.Post s₀ s) (hkept : Kept s) :
    KeepsEnd s₀ (this.push P chunk) s := by
  refine wp_push.mpr ⟨fun _ => emit_end (by simp) (by simp) h, fun _ => onEof_end h.1 hkept,
    fun data _ => ⟨fun _ => emit_end (by simp) (by simp) h, fun hended => ?_⟩⟩
  have hended : s._readableState.ended = false := hended
  have hopen : s._readableState.endEmitted = false := by
    by_contra he
    have := (h.1.emitted (by simpa using he)).1
    simp [hended] at this
  have h' := h.1.record (o := .note (.pushed (data.toBuffer P))) (by simp) (by simp) (by simp)
  -- EOF has not come: a buffered chunk raises no debt, and `emitData` leaves none
  refine wp_note.mpr ⟨fun hf => ?_, fun _ => emit_end (by simp) (by simp) ?_⟩
  · exact emitData_end h' (hkept.flowing hf) hopen
  · refine ⟨⟨h'.eof, fun he => absurd he (by simp [hopen]), h'.once, h'.complete, h'.last⟩,
      fun _ howed => ?_⟩
    have : s._readableState.ended = true := howed.1.1
    simp [hended] at this

theorem read_end {n : Option Int} (h : ending.Post s₀ s) (hkept : Kept s) :
    KeepsEnd s₀ (this.read n) s := by
  refine wp_read.mpr ⟨fun hn => ?_, fun _ => ?_⟩
  · have hle := readLength_le s._readableState.length n
    have hn : 0 < readLength s._readableState.length n := hn
    have hlength : 0 < s._readableState.length := by omega
    have hopen : s._readableState.endEmitted = false := by
      by_contra he
      have := (h.1.emitted (by simpa using he)).2
      omega
    refine (wp_readBuffer_some hn).mpr ⟨fun hb => absurd hb (hkept.nonempty hlength),
      fun _ => ⟨fun _ => wp_afterReadBuffer_some.mpr (wp_note.mpr ?_), fun _ => h⟩⟩
    have h' := h.1.record (o := .note (.took s._readableState.buffer.flatten)) (by simp) (by simp)
      (by simp)
    have hkept' := hkept.take (o := .note (.took s._readableState.buffer.flatten)) rfl
      (by simp [taken]) (by simp)
    refine emitEndIfEmpty_end ⟨h'.eof, fun he => absurd he (by simp [hopen]), h'.once, h'.complete,
      h'.last⟩ hkept' fun t ht howed => ?_
    exact ⟨ht.record (by simp) (by simp) (by simp), fun _ => howed⟩
  · exact wp_afterReadBuffer_none.mpr
      (emitEndIfEmpty_end h.1 hkept fun t ht howed => ⟨ht, fun _ => howed⟩)

end specs

/-- Every call keeps the contract of 'end' when the listeners do not throw. -/
theorem ending_holds (P : Platform) :
    Contract.Holds (machine P) noThrow (conservation noThrow) ending new := by
  refine .intro ?_ fun i _ s hg hinv _ _ => ?_
  · refine ⟨by simp [new, ReadableState.new], fun he => ?_, rfl, always_nil _, always_nil _⟩
    simp [new, ReadableState.new] at he
  · have h : ending.Post s s := ⟨hinv, id⟩
    cases i with
    | push chunk => exact push_end h hg.toKept
    | read n =>
        simp only [machine, body, Prog.wp_bind]
        exact read_end h hg.toKept
    | pause => exact pause_end h
    | resume => exact resume_end h hg.toKept
    | on ev =>
        have h' : ending.Post s { s with errorListener := s.errorListener || ev = "error" } :=
          ⟨{ hinv with }, h.2⟩
        have hkept' : Kept { s with errorListener := s.errorListener || ev = "error" } :=
          { hg with }
        simp only [machine, body, on, Prog.wp_bind, Prog.wp_ite]
        exact ⟨fun _ => resume_end h' hkept', fun _ => h'⟩
    | error message => exact emit_end (e := .error message) (by simp) (by simp) h
    | removeAllListeners ev =>
        exact ⟨{ hinv with }, h.2⟩

/-! ### 'end' -/

/-- In every run of a `Readable` whose listeners do not throw, 'end' is emitted at most once,
after EOF was pushed and with every accepted byte taken; no 'data' event comes after it; and
at rest, once EOF was pushed and the buffer is empty, it has been emitted. -/
theorem end_after_all_data (P : Platform) {c : Config Readable ReadableEvent Empty}
    (hc : (machine P).Reach noThrow new c) :
    c.heap.log.count (.event .end_) ≤ 1 ∧
    (∀ pre post, c.heap.log = pre ++ .event .end_ :: post →
      .note .eof ∈ pre ∧ taken pre = accepted pre ∧ ∀ data, .event (.data data) ∉ post) ∧
    (c.stack = [] → .note .eof ∈ c.heap.log → c.heap._readableState.length = 0 →
      .event .end_ ∈ c.heap.log) := by
  have hholds := (conservation_holds P noThrow).and (ending_holds P)
  have h : EndInv c.heap := (hholds.inv_of_reach hc).2
  refine ⟨?_, fun pre post hlog => ?_, fun hrest heof hlength => ?_⟩
  · rw [h.once]
    split <;> omega
  · obtain ⟨heof, hall⟩ := h.complete pre _ post hlog rfl
    refine ⟨heof, hall, fun data hmem => ?_⟩
    -- a later 'data' would have this 'end' before it
    obtain ⟨before, after, rfl⟩ := List.append_of_mem hmem
    have hlate := h.last (pre ++ .event .end_ :: before) _ after (by rw [hlog]; simp) data rfl
    exact absurd (by simp) hlate
  · have hpaid : ¬ EndOwed c.heap := by
      refine (hholds.outer_of_rest hc hrest).2 fun howed => ?_
      simp [EndOwed, AtEnd, new, ReadableState.new] at howed
    have hemitted : c.heap._readableState.endEmitted = true := by
      by_contra he
      exact hpaid ⟨⟨h.eof.mpr heof, hlength⟩, by simpa using he⟩
    have hcount := h.once
    rw [hemitted] at hcount
    exact List.count_pos_iff.mp (by rw [hcount]; decide)

/-- `[1]` is buffered when EOF comes; `read` takes it, and emits 'end'. -/
theorem end_after_all_data_read :
    ∃ c : Config Readable ReadableEvent Empty,
      delivered c.heap.log = [1] ∧ .event .end_ ∈ c.heap.log := by
  obtain ⟨c, hc, hrun⟩ := Machine.exists_reach_of_run (machine (.ascii false)) noThrow new
    [.call (.push (.data (.buffer [1]))) [], .ret [], .call (.push .null) [],
      .call (.read none) [], .ret []]
    (fun c => decide (delivered c.heap.log = [1] ∧ .note .eof ∈ c.heap.log ∧
      c.heap._readableState.length = 0) && c.stack.isEmpty) rfl
  obtain ⟨hdec, hrest⟩ := Bool.and_eq_true_iff.mp hrun
  obtain ⟨hd, heof, hlength⟩ := of_decide_eq_true hdec
  exact ⟨c, hd, (end_after_all_data (.ascii false) hc).2.2 (List.isEmpty_iff.mp hrest) heof hlength⟩

end IotJs.Readable

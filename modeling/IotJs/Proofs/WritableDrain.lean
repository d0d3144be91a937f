import IotJs.Proofs.WritableHistory

/-!
# `IotJs.Proofs.WritableDrain`: the length of a `Writable`, and its 'drain' event

A `write` that returned `false` is owed a 'drain' event. The flag `needDrain` stands for that
debt: `write` sets it after the chunk has possibly left and completed again, and `emitDrain`
clears it before the listener runs, which may write at once. So neither moment may lose a
debt. The proof is a contract on top of `delivery` and `history`: at every point where outside
code has control, an unpaid debt shows in `needDrain` (or the stream is over), and `needDrain`
on a ready stream means that a chunk is in flight, whose completion will look at the flag.
-/

set_option autoImplicit false

namespace IotJs.Writable

open Reentrant History WritableObject

/-- A `write` returned `false`, and no 'drain' was emitted since. -/
def DrainOwed (log : List WritableObs) : Prop :=
  Owed (· = .note (.returned false)) (· = .event .drain) log

/-- Only a `write` that returns `false` raises a debt. -/
theorem DrainOwed.of_record {log : List WritableObs} {o : WritableObs}
    (ho : o ≠ .note (.returned false)) (h : DrainOwed (log ++ [o])) : DrainOwed log := by
  simp only [DrainOwed, owed_append, owed_cons, not_owed_nil, or_false] at h
  rcases h with ⟨h, -⟩ | ⟨h, -⟩
  · exact absurd h ho
  · exact h

/-- 'drain' pays every debt. -/
theorem not_drainOwed_drain (log : List WritableObs) :
    ¬ DrainOwed (log ++ [.event .drain]) := by
  simp [DrainOwed]

/-- What holds between two statements of the library too. -/
structure Debts (s : Writable) : Prop where
  mark : 0 < s._writableState.highWaterMark
  owed : DrainOwed s.log → s._writableState.needDrain = true ∨ s._writableState.ended = true

/-- The invariant whenever outside code has control: a debt on a ready stream waits for the
completion of a chunk. -/
structure DrainInv (s : Writable) : Prop extends Debts s where
  alive : s._writableState.needDrain = true → s._writableState.ready = true →
    s._writableState.writing = false → s._writableState.ending = true

/-- What the drain contract is built on. -/
abbrev basis : Contract Writable := delivery.and history

/-- The drain contract. -/
abbrev draining : Contract Writable := .ofInv DrainInv

section specs

variable {X : Writable → Prop} {Q : Unit → Writable → Prop} {s : Writable}

theorem Debts.record {o : WritableObs} (h : Debts s) (ho : o ≠ .note (.returned false)) :
    Debts { s with log := s.log ++ [o] } :=
  ⟨h.mark, fun hd => h.owed (hd.of_record ho)⟩

theorem DrainInv.record {o : WritableObs} (h : DrainInv s) (ho : o ≠ .note (.returned false)) :
    DrainInv { s with log := s.log ++ [o] } :=
  ⟨h.toDebts.record ho, h.alive⟩

theorem DrainInv.returned {res : Bool} (h : DrainInv s)
    (hres : res = false → s._writableState.needDrain = true ∨ s._writableState.ended = true) :
    DrainInv { s with log := s.log ++ [.note (.returned res)] } := by
  cases res with
  | true => exact h.record (by simp)
  | false => exact ⟨⟨h.mark, fun _ => hres rfl⟩, h.alive⟩

/-- Once the stream is ending, the debts end with it. -/
theorem DrainInv.of_ending (h : Debts s) (he : s._writableState.ending = true) : DrainInv s :=
  ⟨h, fun _ _ _ => he⟩

/-- A yield under the drain contract: what it is built on comes back too. -/
theorem wp_yieldTo_draining {u : WritableYield} (h : DrainInv s)
    (hQ : ∀ t, basis.Post s t → DrainInv t → Q () t) (hX : ∀ t, DrainInv t → X t) :
    (Prog.yieldTo u : Method Unit).wp anywhere basis draining X Q s :=
  ⟨h, fun t hg ht => ⟨fun _ => hQ t hg ht.1, fun _ => hX t ht.1⟩⟩

theorem emitDrain_drain (h : Debts s) (hn : s._writableState.needDrain = true)
    (hQ : ∀ t, DrainInv t → Q () t) (hX : ∀ t, DrainInv t → X t) :
    this.emitDrain.wp anywhere basis draining X Q s := by
  rw [wp_emitDrain]
  refine ⟨fun _ => ?_, fun hn' => absurd hn (by simpa using hn')⟩
  rw [wp_emit_drain]
  refine wp_yieldTo_draining ⟨⟨h.mark, fun hd => ?_⟩, fun hn' => ?_⟩ (fun t _ => hQ t) hX
  · exact absurd hd (not_drainOwed_drain _)
  · exact absurd hn' (by simp)

theorem emitFinish_drain (h : Debts s) (he : s._writableState.ending = true)
    (hQ : ∀ t, DrainInv t → Q () t) (hX : ∀ t, DrainInv t → X t) :
    this.emitFinish.wp anywhere basis draining X Q s := by
  rw [wp_emitFinish]
  refine ⟨fun _ => ?_, fun _ => hQ s (.of_ending h he)⟩
  rw [wp_emit_finish]
  exact wp_yieldTo_draining (.of_ending ⟨h.mark, fun _ => .inr rfl⟩ he) (fun t _ => hQ t) hX

theorem onEmptyBuffer_drain (h : Debts s) (hQ : ∀ t, DrainInv t → Q () t)
    (hX : ∀ t, DrainInv t → X t) :
    this.onEmptyBuffer.wp anywhere basis draining X Q s := by
  rw [wp_onEmptyBuffer]
  refine ⟨fun he => emitFinish_drain h he hQ hX, fun _ => ⟨fun hn => ?_, fun hn => ?_⟩⟩
  · exact emitDrain_drain h hn hQ hX
  · have hn : s._writableState.needDrain = false := hn
    exact hQ s ⟨h, fun hn' => absurd hn' (by simp [hn])⟩

/-- While the chunk is in flight, its completion will look at `needDrain`. -/
theorem doWrite_drain {req : WriteReq} (h : Debts s) (hw : s._writableState.writing = false)
    (hQ : ∀ t, Inv t → DrainInv t → Q () t) (hX : ∀ t, DrainInv t → X t) :
    (this.doWrite req).wp anywhere basis draining X Q s := by
  rw [wp_doWrite]
  refine ⟨fun _ => ?_, fun hw' => absurd hw' (by simp [hw])⟩
  rw [wp_handOver]
  refine wp_yieldTo_draining ⟨⟨h.mark, fun hd => h.owed (hd.of_record (by simp))⟩, ?_⟩
    (fun t hg => hQ t hg.1.1) hX
  exact fun _ _ hw' => absurd hw' (by simp)

/-- Whatever state the caller left, `writeBuffered` settles the debts. -/
theorem writeBuffered_drain (h : Debts s) (hQ : ∀ t, DrainInv t → Q () t)
    (hX : ∀ t, DrainInv t → X t) :
    this.writeBuffered.wp anywhere basis draining X Q s := by
  rw [wp_writeBuffered]
  refine ⟨fun hw => ?_, fun hw => ⟨fun _ => ?_, fun req rest _ => ?_⟩⟩
  · exact hQ s ⟨h, fun _ _ hw' => absurd hw (by simp [hw'])⟩
  · exact onEmptyBuffer_drain h hQ hX
  · exact doWrite_drain ⟨h.mark, h.owed⟩ hw (fun t _ => hQ t) hX

/-- On an idle, ready stream everything has completed. -/
theorem Inv.length_zero (h : Inv s) (hr : s._writableState.ready = true)
    (hw : s._writableState.writing = false) : s._writableState.length = 0 := by
  have hl := h.length
  rw [h.idle hw, h.flushed hr hw] at hl
  simpa [buffered] using hl

theorem writeOrBuffer_drain {P : Platform} {data : Data} {callback : Option Callback}
    {Q : Bool → Writable → Prop} (hg : Inv s) (h : DrainInv s)
    (hQ : ∀ b t, DrainInv t → (b = false → t._writableState.needDrain = true) → Q b t)
    (hX : ∀ t, DrainInv t → X t) :
    (this.writeOrBuffer P data callback).wp anywhere basis draining X Q s := by
  -- a full stream that is ready has a chunk in flight: it may owe a 'drain'
  have hfull : ∀ t, DrainInv t →
      (t._writableState.ready = true → t._writableState.writing = false →
        ¬ t._writableState.highWaterMark ≤ t._writableState.length) →
      (t._writableState.highWaterMark ≤ t._writableState.length →
        Q (!true) { t with _writableState := { t._writableState with needDrain := true } }) ∧
      (¬ t._writableState.highWaterMark ≤ t._writableState.length →
        Q (!t._writableState.needDrain) t) := by
    intro t ht hroom
    refine ⟨fun hfull => hQ _ _ ⟨⟨ht.mark, fun _ => .inl rfl⟩, fun _ hr hw => ?_⟩ fun _ => rfl,
      fun _ => hQ _ _ ht (by simp)⟩
    exact absurd hfull (hroom hr hw)
  have h' := h.record (o := .note (.accepted ⟨data.toBuffer P, callback⟩)) (by simp)
  rw [wp_writeOrBuffer, wp_note]
  simp only [this_state, this_setState]
  refine ⟨fun hc => ?_, fun hc => ?_⟩
  · have hbusy : s._writableState.ready = true → s._writableState.writing = true := by
      intro hr
      cases hw : s._writableState.writing with
      | true => rfl
      | false => simp [hr, hw, hg.flushed hr hw] at hc
    have hinv : DrainInv { s with
        _writableState :=
          { s._writableState with
            length := s._writableState.length + (data.toBuffer P).length
            buffer := s._writableState.buffer ++ [⟨data.toBuffer P, callback⟩] }
        log := s.log ++ [.note (.accepted ⟨data.toBuffer P, callback⟩)] } :=
      ⟨⟨h'.mark, h'.owed⟩, h'.alive⟩
    exact hfull _ hinv fun hr hw => absurd (hbusy hr) (by simpa using hw)
  · obtain ⟨⟨hr, hw⟩, hb⟩ := hc
    refine doWrite_drain ⟨h'.mark, h'.owed⟩ hw (fun t hgt ht => ?_) hX
    refine hfull t ht fun hr hw => ?_
    have hmark := ht.mark
    rw [hgt.length_zero hr hw]
    omega

theorem write_drain {P : Platform} {data : Data} {callback : Option Callback}
    {Q : Bool → Writable → Prop} (hg : Inv s) (h : DrainInv s) (hQ : ∀ b t, DrainInv t → Q b t)
    (hX : ∀ t, DrainInv t → X t) :
    (this.write P data callback).wp anywhere basis draining X Q s := by
  rw [wp_write]
  refine ⟨fun hended => ?_, fun _ => ?_⟩
  · -- the refusal raises a debt, on a stream that has ended and stays so
    have hret : ∀ t, DrainInv t → t._writableState.ended = true →
        (this.note (.returned false)).wp anywhere basis draining X (fun _ => Q false) t :=
      fun t ht hended => hQ _ _ (ht.returned fun _ => .inr hended)
    rw [wp_writeAfterEnd, wp_note, wp_emit_error]
    have h' := h.record (o := .note (.rejected callback)) (by simp)
    refine ⟨fun _ => ?_, fun _ => hX _ h'⟩
    refine wp_yieldTo_draining (h'.record (by simp)) (fun t hg ht => ?_) hX
    have hended' : t._writableState.ended = true := hg.2.2.ended hended
    exact ⟨fun _ => hret t ht hended',
      fun c _ => hret _ ⟨⟨ht.mark, ht.owed⟩, ht.alive⟩ hended'⟩
  · refine writeOrBuffer_drain hg h (fun b t ht hb => ?_) hX
    exact hQ _ _ (ht.returned fun hb' => .inl (hb hb'))

theorem end_drain {P : Platform} {chunk : Option Data} {callback : Option Callback} (hg : Inv s)
    (h : DrainInv s) (hQ : ∀ t, DrainInv t → Q () t) (hX : ∀ t, DrainInv t → X t) :
    (this.end_ P chunk callback).wp anywhere basis draining X Q s := by
  have hrest : ∀ t, DrainInv t →
      (t._writableState.ending = true → (this.note .endReturned).wp anywhere basis draining X Q t) ∧
      (t._writableState.ending = false → (this.endWritable callback).wp anywhere basis draining X
        (fun _ t => (this.note .endReturned).wp anywhere basis draining X Q t) t) := by
    intro t ht
    refine ⟨fun _ => hQ _ (ht.record (by simp)),
      fun _ => wp_endWritable.mpr ⟨fun _ => ?_, fun _ => ?_⟩⟩
    · exact hQ _ (.record (.of_ending ⟨ht.mark, ht.owed⟩ rfl) (by simp))
    · exact hQ _ (.record (.of_ending ⟨ht.mark, ht.owed⟩ rfl) (by simp))
  have h' := h.record (o := .note .endCalled) (by simp)
  rw [wp_end, wp_note]
  exact ⟨fun _ => hrest _ h', fun c _ => write_drain (hg.record rfl rfl rfl) h' (fun _ => hrest) hX⟩

end specs

/-! ### The contract of the machine -/

/-- Every call keeps the drain contract, in any surroundings. -/
theorem draining_holds (P : Platform) {highWaterMark : Option Int}
    (hmark : 0 < (WritableState.new highWaterMark).highWaterMark) :
    Contract.Holds (machine P) .free basis draining (new highWaterMark) := by
  refine .intro ?_ fun i _ s hg h he _ => ?_
  · refine ⟨⟨hmark, fun h => absurd h (not_owed_nil _ _)⟩, fun h => absurd h ?_⟩
    simp [new, WritableState.new]
  · have hPost : ∀ t, DrainInv t → draining.Post s t := fun t ht => ⟨ht, trivial⟩
    cases i with
    | write data callback =>
        simp only [machine, body, Prog.wp_bind]
        exact write_drain hg.1 h (fun _ => hPost) hPost
    | end_ chunk callback => exact end_drain hg.1 h hPost hPost
    | _readyToWrite => exact writeBuffered_drain ⟨h.mark, h.owed⟩ hPost hPost
    | _onwrite status =>
        refine writeBuffered_drain ⟨h.mark, fun hd => h.owed (hd.of_record ?_)⟩ hPost hPost
        simp
    | listenError present => exact hPost _ ⟨⟨h.mark, h.owed⟩, h.alive⟩
    | tick i =>
        have h' : DrainInv { s with ticks := s.ticks.eraseIdx i } :=
          ⟨⟨h.mark, h.owed⟩, h.alive⟩
        simp only [machine, body, Prog.wp_bind, Prog.wp_get, Prog.wp_modify]
        cases ht : s.ticks[i]? with
        | none => exact hPost _ h'
        | some t =>
            cases t with
            | emitFinish =>
                exact emitFinish_drain h'.toDebts
                  (hg.2.scheduled (List.mem_of_getElem? ht)) hPost hPost
            | callback c =>
                exact wp_yieldTo_draining (h'.record (by simp)) (fun t _ => hPost t) hPost

/-! ### No lost 'drain' -/

/-- In every run of a `Writable` with a positive high water mark, `length` is the length of the
chunk being written and of the buffered chunks; and after a `write` that returned `false`, when
`end` was not called, the stream is ready and nothing is in flight or buffered, 'drain' has
been emitted since. -/
theorem drain_since_refused (P : Platform) {highWaterMark : Option Int}
    (hmark : 0 < (WritableState.new highWaterMark).highWaterMark)
    {c : Config Writable WritableYield Empty}
    (hc : (machine P).Reach .free (new highWaterMark) c) :
    c.heap._writableState.length =
      c.heap._writableState.writingLength + buffered c.heap._writableState.buffer ∧
    ∀ pre post, c.heap.log = pre ++ .note (.returned false) :: post →
      .note .endCalled ∉ c.heap.log → c.heap._writableState.ready = true →
      c.heap.inFlight = 0 → c.heap._writableState.buffer = [] → .event .drain ∈ post := by
  have hbasis := (delivery_holds P highWaterMark).and (history_holds P highWaterMark).of_given
  obtain ⟨⟨hinv, hends⟩, hdrain⟩ := (hbasis.and (draining_holds P hmark)).inv_of_reach hc
  refine ⟨hinv.length, fun pre post hlog hend hr hin _ => ?_⟩
  by_contra hno
  have hending : c.heap._writableState.ending = false := by
    by_contra he
    exact hend (hends.ending (by simpa using he))
  have howed : DrainOwed c.heap.log :=
    ⟨pre, _, post, hlog, rfl, fun o ho hdrain => hno (hdrain ▸ ho)⟩
  rcases hdrain.owed howed with hn | hended
  · have := hdrain.alive hn hr (hinv.not_writing_of_inFlight hin)
    simp [hending] at this
  · have := hends.ended hended
    simp [hending] at this

/-- With a high water mark of one byte, writing one byte is refused, and 'drain' follows the
completion of that byte. -/
theorem drain_since_refused_full :
    ∃ (c : Config Writable WritableYield Empty) (pre post : List WritableObs),
      c.heap.log = pre ++ .note (.returned false) :: post ∧ .event .drain ∈ post := by
  obtain ⟨c, hc, hrun⟩ := Machine.exists_reach_of_run (machine (.ascii false)) .free (new (some 1))
    [.call ._readyToWrite [], .call (.write (.buffer [1]) none) [], .ret [],
      .call (._onwrite 0) []]
    (fun c => decide (c.heap.log = [.note (.accepted ⟨[1], none⟩), .handed [1]] ++
        .note (.returned false) :: [.completed 0, .event .drain] ∧
      c.heap._writableState.ready = true ∧ c.heap.inFlight = 0 ∧
      c.heap._writableState.buffer = [])) rfl
  obtain ⟨hlog, hr, hin, hb⟩ := of_decide_eq_true hrun
  have hmark : 0 < (WritableState.new (some 1)).highWaterMark := by decide
  have h := (drain_since_refused (.ascii false) hmark hc).2
  exact ⟨c, _, _, hlog, h _ _ hlog (by rw [hlog]; decide) hr hin hb⟩

end IotJs.Writable

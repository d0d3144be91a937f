import IotJs.Proofs.SocketRespects

/-!
# `IotJs.Proofs.SocketHandle`: native operations and the handle

`net.js` issues native operations from callbacks that were scheduled earlier: the tick that
`end` schedules, the tick of `readStart`, the listeners of 'lookup', and the completion of a
write. `afterConnect` looks at `destroyed` before it goes on; these four do not look whether
there is a handle, and whether it was closed.

`liveHandle` are the surroundings in which each of the four finds a live handle when it runs.
There every operation is issued on a live handle (`native_live`), since the others are
issued by code that knows: a socket that has not ended has not been closed, and one that is
ready has a handle. `native_missing` is a run that breaks the condition: `destroy` on a
socket that never connected ends with `shutdown` on no handle.
-/

set_option autoImplicit false

namespace IotJs.Socket

open Reentrant

/-- The calls that reach for the handle later than they were scheduled, and what they find. -/
def findsHandle (s : Socket) : Call → Bool
  | .tick i =>
      match s.ticks[i]? with
      | some (.writable .emitFinish) => s._writableState.ended || s.handleStatus = .live
      | some .readStart => s.handleStatus = .live
      | _ => true
  | .afterWrite _ => s._writableState.buffer.isEmpty || s.handleStatus = .live
  | _ => true

/-- What runs later finds a live handle. -/
def liveHandle : Surroundings where
  call i s := findsHandle s i = true
  answer _ _ _ := True
  returns v s := v = .event (.lookup none) → s.handleStatus = .live
  throws _ _ := True

instance : liveHandle.Testable where
  call i s := inferInstanceAs (Decidable (findsHandle s i = true))
  answer _ _ _ := .isTrue trivial
  returns v s := inferInstanceAs (Decidable (v = .event (.lookup none) → s.handleStatus = .live))
  throws _ _ := .isTrue trivial

/-- Every operation was issued on a live handle, and a stream that has ended has one. -/
structure LiveInv (log : List SocketObs) (isEnded hasHandle : Bool) : Prop where
  live : ∀ op status, .native op status ∈ log → status = .live
  handle : isEnded = true → hasHandle = true

/-- The contract of the handle. -/
def liveOps : Contract Socket :=
  .ofInv fun s => LiveInv s.log s._writableState.ended s._handle.isSome

section LiveInv

variable {log : List SocketObs} {isEnded hasHandle : Bool}

/-- An entry that is no native operation. -/
theorem LiveInv.record (h : LiveInv log isEnded hasHandle) {o : SocketObs}
    (ho : ∀ op status, o ≠ .native op status) : LiveInv (log ++ [o]) isEnded hasHandle where
  live op status hmem := by
    rw [List.mem_append, List.mem_singleton] at hmem
    rcases hmem with hmem | heq
    · exact h.live op status hmem
    · exact absurd heq.symm (ho op status)
  handle := h.handle

/-- An operation on a live handle. -/
theorem LiveInv.native (h : LiveInv log isEnded hasHandle) (op : NativeOp)
    {status : HandleStatus} (hs : status = .live) :
    LiveInv (log ++ [.native op status]) isEnded hasHandle where
  live op' status' hmem := by
    rw [List.mem_append, List.mem_singleton] at hmem
    rcases hmem with hmem | heq
    · exact h.live op' status' hmem
    · cases heq
      exact hs
  handle := h.handle

end LiveInv

section actions

variable {s t u : Socket}

/-- A socket with a handle that is not destroyed has a live one. -/
theorem HandleInv.live {isDestroyed isReady isAccepting : Bool} {pending : List Lookup}
    {attempts : Nat}
    (h : HandleInv s._handle isDestroyed isReady isAccepting pending attempts)
    (hh : s._handle.isSome = true) (hd : isDestroyed = false) : s.handleStatus = .live := by
  obtain ⟨handle, heq⟩ := Option.isSome_iff_exists.mp hh
  have hclosed := h.closed handle heq
  rw [hd] at hclosed
  simp [handleStatus, heq, hclosed]

theorem isSome_of_live (h : s.handleStatus = .live) : s._handle.isSome = true := by
  cases hh : s._handle with
  | some handle => rfl
  | none => simp [handleStatus, hh] at h

theorem Hands.liveOps {E : Surroundings} {req : WriteReq} (h : Hands E req s t)
    (hs : liveOps.inv s) (hlive : s.handleStatus = .live) : liveOps.inv t := by
  have hw : LiveInv (s.log ++ [.native .write s.handleStatus]) s._writableState.ended
      s._handle.isSome := LiveInv.native hs .write hlive
  cases h with
  | sent => exact hw
  | refused => exact hw.record (by simp)

theorem Flush.liveOps {E : Surroundings} (h : Flush E s t) (hs : liveOps.inv s)
    (hlive : s._writableState.buffer ≠ [] → s.handleStatus = .live) : liveOps.inv t := by
  cases h with
  | busy => exact hs
  | idle => exact hs
  | next hw hb h =>
      refine h.liveOps hs (hlive ?_)
      rw [hb]
      exact List.cons_ne_nil _ _

/-- A stream that has not ended has a live handle, if it has one. -/
theorem Finish.liveOps {E : Surroundings} (h : Finish E s t) (hs : liveOps.inv s)
    (hlive : s.handleStatus = .live) : liveOps.inv t := by
  have hhandle := isSome_of_live hlive
  have hfin : LiveInv (s.log ++ [.event .finish]) true s._handle.isSome :=
    ⟨(LiveInv.record hs (by simp)).live, fun _ => hhandle⟩
  cases h with
  | close timer =>
      have hcalled := hfin.record (o := .destroyCalled) (by simp)
      refine ⟨(hcalled.native .close hlive).live, fun _ => ?_⟩
      show (s._handle.map _).isSome = true
      rw [Option.isSome_map]
      exact hhandle
  | shutdown => exact hfin.native .shutdown hlive
  | refused => exact hfin.native .shutdown hlive

theorem liveOps_closeNow (hs : liveOps.inv s) (hlive : s.handleStatus = .live) :
    liveOps.inv (closeNow s) := by
  have hcalled := LiveInv.record hs (o := .destroyCalled) (by simp)
  refine ⟨(hcalled.native .close hlive).live, fun _ => ?_⟩
  show (s._handle.map _).isSome = true
  rw [Option.isSome_map]
  exact isSome_of_live hlive

/-- A socket whose connection is being established has a live handle. -/
theorem Establishes.live (h : Establishes s u) (hs : Base s) : u.handleStatus = .live := by
  have hd : u._socketState.destroyed = false := by
    cases h with
    | connected timer hc hd => exact hd
    | accepted timer hacc =>
        have hn := hs.life.accepting hacc
        refine hs.life.not_destroyed ?_
        cases he : s._writableState.ended with
        | false => rfl
        | true =>
            rw [hs.life.ended he] at hn
            cases hn
  exact (h.handleOk hs.handle).live ((h.handleOk hs.handle).ready h.ready) hd

theorem Establishes.liveOps (h : Establishes s u) (hs : liveOps.inv s) : liveOps.inv u := by
  cases h <;> exact hs

/-- Every action keeps the operations on a live handle, in surroundings where what runs later
finds one. -/
theorem Action.liveOps {k : Kind} (h : Action liveHandle k s t) (hs : Base s)
    (hl : liveOps.inv s) : liveOps.inv t := by
  have hlive := hs.handle.live
  cases h with
  | silent ho =>
      refine LiveInv.record hl fun op status heq => ?_
      rw [heq] at ho
      cases ho
  | error => exact LiveInv.record hl (by simp)
  | queue => exact LiveInv.record hl (by simp)
  | write req he hr hw hb h =>
      exact h.liveOps (LiveInv.record hl (by simp))
        (hlive (hs.handle.ready hr) (hs.life.not_destroyed he))
  | reject => exact LiveInv.record hl (by simp)
  | endIdle => exact LiveInv.record hl (by simp)
  | endBusy => exact LiveInv.record hl (by simp)
  | endAgain => exact LiveInv.record hl (by simp)
  | destroyAgain => exact LiveInv.record hl (by simp)
  | close hd he hh => exact liveOps_closeNow hl (hlive hh hd)
  | closeMissing hd he hnone =>
      have hsome := hl.handle he
      rw [hnone] at hsome
      cases hsome
  | defer => exact LiveInv.record hl (by simp)
  | newHandle => exact ⟨hl.live, fun _ => rfl⟩
  | afterLookup => exact LiveInv.record hl (by simp)
  | lookupFailed => exact (LiveInv.record hl (by simp)).record (by simp)
  | connectHandle timer connects hh hret => exact LiveInv.native hl .connect (hret rfl)
  | connectFailed => exact LiveInv.record hl (by simp)
  | establish h hf => exact hf.liveOps (h.liveOps hl) fun _ => h.live hs
  | establishFinish h hdue hf => exact hf.liveOps (h.liveOps hl) (h.live hs)
  | complete hw hcall hf =>
      refine hf.liveOps (LiveInv.record hl (by simp)) fun hne => ?_
      have hfinds : (s._writableState.buffer.isEmpty || s.handleStatus = .live) = true := hcall
      have hlive' : s.handleStatus = .live := by
        simpa [show s._writableState.buffer ≠ [] from hne] using hfinds
      exact hlive'
  | completeFinish hw hcall hdue hf =>
      have hready := hs.queue.ready_of_writes hw
      exact hf.liveOps (LiveInv.record hl (by simp))
        (hlive (hs.handle.ready hready) (hs.life.not_destroyed hdue.ended))
  | called => exact LiveInv.record hl (by simp)
  | shutdownClose timer he hd hh => exact liveOps_closeNow hl (hlive hh hd)
  | tickFinish hi hcall he hh hf => exact hf.liveOps hl (hlive hh (hs.life.not_destroyed he))
  | tickMissing hi hcall he hnone =>
      have hfinds : findsHandle s (.tick _) = true := hcall
      simp [findsHandle, hi, he, handleStatus, hnone] at hfinds
  | tickCallback => exact LiveInv.record hl (by simp)
  | tickLookupFailed => exact LiveInv.record hl (by simp)
  | readStart hi hcall hh =>
      have hfinds : findsHandle s (.tick _) = true := hcall
      simp only [findsHandle, hi, decide_eq_true_eq] at hfinds
      exact LiveInv.native hl .readStart hfinds
  | reading =>
      refine ⟨hl.live, fun he => ?_⟩
      show (s._handle.map _).isSome = true
      rw [Option.isSome_map]
      exact hl.handle he
  | eof => exact LiveInv.record hl (by simp)
  | end_ => exact LiveInv.record hl (by simp)
  | _ => exact hl

end actions

theorem liveOps_of_initial {s : Socket} (h : Initial s) : liveOps.inv s := by
  obtain ⟨_, _, rfl⟩ | ⟨_, rfl⟩ := h
  · exact ⟨fun op status hmem => by simp [new] at hmem, fun he => by cases he⟩
  · exact ⟨fun op status hmem => by simp [accepted, new] at hmem, fun he => by cases he⟩

/-- In every run in which the scheduled ticks, the listeners of 'lookup' and the completions of
writes find a live handle, every native operation is issued on a live handle. -/
theorem native_live (P : Platform) {s₀ : Socket} (hinit : Initial s₀)
    {c : Config Socket SocketYield SocketNative} (hc : (machine P).Reach liveHandle s₀ c)
    (op : NativeOp) (status : HandleStatus) (hmem : .native op status ∈ c.heap.log) :
    status = .live := by
  have hholds := holds_of_sound (P := P) hinit (liveOps_of_initial hinit)
    fun k _ _ hs hl ha => ⟨ha.liveOps hs hl, trivial⟩
  exact (hholds.inv_of_reach hc).2.live op status hmem

/-- A connection: connect, readStart, a write, and the end of both halves. -/
theorem native_live_connection :
    ∃ c : Config Socket SocketYield SocketNative, .native .close .live ∈ c.heap.log ∧
      ∀ op status, .native op status ∈ c.heap.log → status = .live := by
  obtain ⟨c, hc, hrun⟩ := Machine.exists_reach_of_run (machine (.ascii false)) liveHandle
    (new none false)
    [.call (.connect ⟨.absent, some 80, 0⟩) [], .call (.afterLookup 0) [], .ret [],
      .call (.afterConnect 0) [], .ret [], .call (.tick 0) [],
      .call (.end_ (some (.buffer [1])) none) [], .call (.afterWrite 0) [], .ret [],
      .call (.onread .eof) [], .ret []]
    (fun c => decide (.native .close .live ∈ c.heap.log)) rfl
  exact ⟨c, of_decide_eq_true hrun, native_live (.ascii false) (.inl ⟨_, _, rfl⟩) hc⟩

/-- Without the condition, an operation can find no handle: `destroy` on a socket that never
connected schedules 'finish', and the tick calls `shutdown`. -/
theorem native_missing :
    ¬ ∀ (P : Platform) (s₀ : Socket) (c : Config Socket SocketYield SocketNative), Initial s₀ →
      (machine P).Reach .free s₀ c →
        ∀ op status, .native op status ∈ c.heap.log → status = .live := by
  intro hall
  obtain ⟨c, hc, hrun⟩ := Machine.exists_reach_of_run (machine (.ascii false)) .free
    (new none false) [.call .destroy [], .call (.tick 0) []]
    (fun c => decide (.native .shutdown .missing ∈ c.heap.log)) rfl
  have := hall _ _ c (.inl ⟨_, _, rfl⟩) hc _ _ (of_decide_eq_true hrun)
  cases this

end IotJs.Socket

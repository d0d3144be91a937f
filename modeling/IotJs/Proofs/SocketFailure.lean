import IotJs.Lib.History
import IotJs.Proofs.SocketRespects
import Mathlib.Data.List.Basic

/-!
# `IotJs.Proofs.SocketFailure`: writes that fail

A native write can fail in two ways: the call returns an error, and no completion comes, or
the completion carries a status that is not zero. `Socket.prototype._write` does not look at
the return code, and `_onwrite` does not look at the status, though it has both: the status
is passed on to the callback of the write only. So nothing that a failed write does depends on
its failure.

`Entry` says what an action may append to the log, as far as failures and errors go. From it,
`failures_reported` shows where failed writes are reported: in runs where no write fails, and,
when nothing else in the run makes the stream emit 'error', in no other. `finish_after_failure`
is a run in which 'finish' follows a failed write.
-/

set_option autoImplicit false

namespace IotJs.Socket

open Reentrant History

/-- The native write returned an error, or completed with one. -/
def FailedWrite : SocketObs → Prop
  | .refused _ _ => True
  | .wrote _ status => status ≠ 0
  | _ => False

/-- An 'error' is emitted. -/
def IsError : SocketObs → Prop
  | .event (.error _) => True
  | _ => False

/-- A failed write is not reported as success: once nothing is pending, an 'error' has followed
it, and 'finish' never does. -/
structure FailuresReported (c : Config Socket SocketYield SocketNative) : Prop where
  error : c.stack = [] → Quiet c.heap → ¬ Owed FailedWrite IsError c.heap.log
  finish : Always (fun pre o => o = .event .finish → ∀ w ∈ pre, ¬ FailedWrite w) c.heap.log

/-- A completion that carries no error. -/
def succeeds : Call → Bool
  | .afterWrite status => status = 0
  | _ => true

/-- Every native write is accepted and succeeds. -/
def writesSucceed : Surroundings where
  call i _ := succeeds i = true
  answer q _ err := q = .write → err = 0
  returns _ _ := True
  throws _ _ := True

instance : writesSucceed.Testable where
  call i _ := inferInstanceAs (Decidable (succeeds i = true))
  answer q _ err := inferInstanceAs (Decidable (q = .write → err = 0))
  returns _ _ := .isTrue trivial
  throws _ _ := .isTrue trivial

/-- The calls that make the stream emit an 'error', whatever the writes do. -/
def causesError (s : Socket) : Call → Bool
  | .write _ _ => s._writableState.ended
  | .end_ data _ => data.isSome && s._writableState.ended
  | .afterLookup err => err ≠ 0
  | .afterConnect status => status ≠ 0
  | .onread (.error _) => true
  | .onread (.data _) => s._readableState.ended
  | _ => false

/-- Nothing but a write may fail. -/
def onlyWritesFail : Surroundings where
  call i s := causesError s i = false
  answer _ _ _ := True
  returns _ _ := True
  throws _ _ := True

instance : onlyWritesFail.Testable where
  call i s := inferInstanceAs (Decidable (causesError s i = false))
  answer _ _ _ := .isTrue trivial
  returns _ _ := .isTrue trivial
  throws _ _ := .isTrue trivial

/-- An entry that an action appends to the log of `s`, as far as failures and errors go. -/
inductive Entry (E : Surroundings) (s : Socket) : SocketObs → Prop
  | plain {o : SocketObs} (hf : ¬ FailedWrite o) (he : ¬ IsError o) : Entry E s o
  | refused {u : Socket} (req : WriteReq) {err : Int} (herr : err ≠ 0)
      (hans : E.answer .write u err) : Entry E s (.refused req err)
  | wrote (req : WriteReq) {status : Int} (hcall : E.call (.afterWrite status) s) :
      Entry E s (.wrote req status)
  | error (message : String) (h : ErrorCause E) : Entry E s (.event (.error message))
  | lookupFailed (message : String) (h : .lookupFailed message ∈ s.ticks) :
      Entry E s (.event (.error message))

/-- `t` extends the log of `s` with entries for which `s` accounts. -/
def Extends (E : Surroundings) (s t : Socket) (log : List SocketObs) : Prop :=
  ∃ new, t.log = log ++ new ∧ ∀ o ∈ new, Entry E s o

section actions

variable {E : Surroundings} {k : Kind} {s t u : Socket} {log : List SocketObs}

/-- A list of entries that are neither failures nor errors. -/
theorem Extends.plain (new : List SocketObs) (ht : t.log = log ++ new)
    (hnew : ∀ o ∈ new, ¬ FailedWrite o ∧ ¬ IsError o) : Extends E s t log :=
  ⟨new, ht, fun o ho => .plain (hnew o ho).1 (hnew o ho).2⟩

theorem Extends.trans (h₁ : Extends E s u log) (h₂ : Extends E s t u.log) :
    Extends E s t log := by
  obtain ⟨new₁, hu, hnew₁⟩ := h₁
  obtain ⟨new₂, ht, hnew₂⟩ := h₂
  refine ⟨new₁ ++ new₂, by rw [ht, hu, List.append_assoc], fun o ho => ?_⟩
  rcases List.mem_append.mp ho with ho | ho
  · exact hnew₁ o ho
  · exact hnew₂ o ho

theorem Hands.extends {req : WriteReq} {v : Socket} (h : Hands E req u t) :
    Extends E v t u.log := by
  cases h with
  | sent => exact .plain [.native .write _] rfl (by simp [FailedWrite, IsError])
  | refused timer err herr hans =>
      refine ⟨[.native .write _, .refused req err], List.append_assoc .., fun o ho => ?_⟩
      rcases List.mem_cons.mp ho with rfl | ho
      · exact .plain id id
      · cases List.mem_singleton.mp ho
        exact .refused req herr hans

theorem Flush.extends {v : Socket} (h : Flush E u t) : Extends E v t u.log := by
  cases h with
  | busy => exact .plain [] (by simp) (by simp)
  | idle => exact .plain [] (by simp) (by simp)
  | next hw hb h => exact h.extends

theorem Finish.extends {v : Socket} (h : Finish E u t) : Extends E v t u.log := by
  cases h with
  | close timer =>
      refine .plain [.event .finish, .destroyCalled, .native .close u.handleStatus] ?_
        (by simp [FailedWrite, IsError])
      show u.log ++ [_] ++ [_] ++ [_] = _
      rw [List.append_assoc, List.append_assoc]
      rfl
  | shutdown =>
      exact .plain [.event .finish, .native .shutdown _] (List.append_assoc ..)
        (by simp [FailedWrite, IsError])
  | refused =>
      exact .plain [.event .finish, .native .shutdown _] (List.append_assoc ..)
        (by simp [FailedWrite, IsError])

theorem not_failed_of_silent {o : SocketObs} (h : o.silent = true) :
    ¬ FailedWrite o ∧ ¬ IsError o := by
  cases o with
  | event e => cases e <;> first | exact ⟨id, id⟩ | cases h
  | refused => cases h
  | wrote => cases h
  | _ => exact ⟨id, id⟩

/-- What an action appends to the log. -/
theorem Action.extends (h : Action E k s t) : Extends E s t s.log := by
  cases h with
  | silent ho => exact .plain [_] rfl (by simpa using not_failed_of_silent ho)
  | error h => exact ⟨[_], rfl, by simpa using .error _ h⟩
  | queue => exact .plain [_] rfl (by simp [FailedWrite, IsError])
  | write req he hr hw hb h =>
      refine .trans (u := { s with log := s.log ++ [.note (.accepted req)] }) ?_ h.extends
      exact .plain [_] rfl (by simp [FailedWrite, IsError])
  | reject => exact .plain [_] rfl (by simp [FailedWrite, IsError])
  | endIdle => exact .plain [_] rfl (by simp [FailedWrite, IsError])
  | endBusy => exact .plain [_] rfl (by simp [FailedWrite, IsError])
  | endAgain => exact .plain [_] rfl (by simp [FailedWrite, IsError])
  | destroyAgain => exact .plain [_] rfl (by simp [FailedWrite, IsError])
  | close =>
      exact .plain [_, _] (List.append_assoc ..) (by simp [FailedWrite, IsError])
  | closeMissing =>
      exact .plain [_, _] (List.append_assoc ..) (by simp [FailedWrite, IsError])
  | defer => exact .plain [_] rfl (by simp [FailedWrite, IsError])
  | afterLookup => exact .plain [_] rfl (by simp [FailedWrite, IsError])
  | lookupFailed =>
      exact .plain [_, _] (List.append_assoc ..) (by simp [FailedWrite, IsError])
  | connectHandle => exact .plain [_] rfl (by simp [FailedWrite, IsError])
  | connectFailed => exact .plain [_] rfl (by simp [FailedWrite, IsError])
  | establish h hf => cases h <;> exact hf.extends
  | establishFinish h hdue hf => cases h <;> exact hf.extends
  | @complete _ _ req _ status hw hcall hf =>
      refine .trans (u := completed req status s) ⟨[_], rfl, ?_⟩ hf.extends
      simpa using .wrote req hcall
  | @completeFinish _ _ req _ status hw hcall hdue hf =>
      refine .trans (u := completed req status s) ⟨[_], rfl, ?_⟩ hf.extends
      simpa using .wrote req hcall
  | called => exact .plain [_] rfl (by simp [FailedWrite, IsError])
  | shutdownClose =>
      exact .plain [_, _] (List.append_assoc ..) (by simp [FailedWrite, IsError])
  | tickFinish hi hcall he hh hf => exact hf.extends
  | tickMissing =>
      exact .plain [_, _] (List.append_assoc ..) (by simp [FailedWrite, IsError])
  | tickCallback => exact .plain [_] rfl (by simp [FailedWrite, IsError])
  | tickLookupFailed hi =>
      exact ⟨[_], rfl, by simpa using .lookupFailed _ (List.mem_of_getElem? hi)⟩
  | readStart => exact .plain [_] rfl (by simp [FailedWrite, IsError])
  | eof => exact .plain [_] rfl (by simp [FailedWrite, IsError])
  | end_ => exact .plain [_] rfl (by simp [FailedWrite, IsError])
  | push => exact .plain [] (List.append_nil _).symm (by simp)
  | _ => exact .plain [] (by simp) (by simp)

theorem Hands.ticks {req : WriteReq} (h : Hands E req s t) : t.ticks = s.ticks := by
  cases h <;> rfl

theorem Flush.ticks (h : Flush E s t) : t.ticks = s.ticks := by
  cases h with
  | next _ _ h => exact h.ticks
  | _ => rfl

theorem Finish.ticks (h : Finish E s t) : t.ticks = s.ticks := by
  cases h <;> rfl

theorem Establishes.ticks (h : Establishes s u) : u.ticks = s.ticks := by
  cases h <;> rfl

/-- The error of a lookup is scheduled only after a lookup failed. -/
theorem Action.lookupFailed_mem (h : Action E k s t) {message : String}
    (hm : .lookupFailed message ∈ t.ticks) : .lookupFailed message ∈ s.ticks ∨
      ∃ u err, err ≠ 0 ∧ E.call (.afterLookup err) u := by
  cases h with
  | write req he hr hw hb h => exact .inl (h.ticks ▸ hm)
  | callBack => exact .inl (by simpa using hm)
  | endIdle => exact .inl (by simpa using hm)
  | @scheduleFailed _ u err _ herr hcall => exact .inr ⟨u, err, herr, hcall⟩
  | establish h hf => exact .inl (h.ticks ▸ hf.ticks ▸ hm)
  | establishFinish h hdue hf => exact .inl (h.ticks ▸ hf.ticks ▸ hm)
  | scheduleReadStart => exact .inl (by simpa using hm)
  | @complete _ _ req _ status hw hcall hf =>
      have hticks : t.ticks = s.ticks := hf.ticks
      exact .inl (hticks ▸ hm)
  | @completeFinish _ _ req _ status hw hcall hdue hf =>
      have hticks : t.ticks = s.ticks := hf.ticks
      exact .inl (hticks ▸ hm)
  | @tickFinish _ _ i hi hcall he hh hf =>
      have hticks : t.ticks = s.ticks.eraseIdx i := hf.ticks
      rw [hticks] at hm
      exact .inl (List.mem_of_mem_eraseIdx hm)
  | tickMissing => exact .inl (List.mem_of_mem_eraseIdx hm)
  | tickEnded => exact .inl (List.mem_of_mem_eraseIdx hm)
  | tickCallback => exact .inl (List.mem_of_mem_eraseIdx hm)
  | tickLookupFailed => exact .inl (List.mem_of_mem_eraseIdx hm)
  | tickLookupThrown => exact .inl (List.mem_of_mem_eraseIdx hm)
  | readStart => exact .inl (List.mem_of_mem_eraseIdx hm)
  | _ => exact .inl hm

end actions

/-! ### The two contracts -/

/-- No write has failed. -/
def noFailure : Contract Socket :=
  .ofInv fun s => ∀ o ∈ s.log, ¬ FailedWrite o

/-- No 'error' was emitted, and none is scheduled. -/
def noError : Contract Socket :=
  .ofInv fun s => (∀ o ∈ s.log, ¬ IsError o) ∧ ∀ message, .lookupFailed message ∉ s.ticks

/-- Where the native writes succeed, no action records a failure. -/
theorem Action.noFailure {k : Kind} {s t : Socket} (h : Action writesSucceed k s t)
    (hs : noFailure.inv s) : noFailure.inv t := by
  obtain ⟨new, hlog, hnew⟩ := h.extends
  intro o ho
  rw [hlog, List.mem_append] at ho
  rcases ho with ho | ho
  · exact hs o ho
  · cases hnew o ho with
    | plain hf he => exact hf
    | refused req herr hans => exact absurd (hans rfl) herr
    | wrote req hcall => exact not_not.mpr (of_decide_eq_true hcall)
    | error => exact id
    | lookupFailed => exact id

/-- Nothing in these surroundings is a reason for an 'error'. -/
theorem not_errorCause : ¬ ErrorCause onlyWritesFail := by
  rintro (@⟨i, _, s, hi, he, hcall⟩ | @⟨err, s, herr, hcall⟩ | ⟨hcall⟩ | @⟨buffer, s, he, hcall⟩)
  · cases i with
    | write => exact absurd (he.symm.trans hcall) (by simp)
    | end_ data callback =>
        have hdata : data.isSome = true := hi.1
        simp [onlyWritesFail, causesError, hdata, he] at hcall
    | _ => cases hi
  · simp [onlyWritesFail, causesError, herr] at hcall
  · cases hcall
  · exact absurd (he.symm.trans hcall) (by simp)

/-- Where nothing but a write fails, no action emits an 'error'. -/
theorem Action.noError {k : Kind} {s t : Socket} (h : Action onlyWritesFail k s t)
    (hs : noError.inv s) : noError.inv t := by
  refine ⟨fun o ho => ?_, fun message hm => ?_⟩
  · obtain ⟨new, hlog, hnew⟩ := h.extends
    rw [hlog, List.mem_append] at ho
    rcases ho with ho | ho
    · exact hs.1 o ho
    · cases hnew o ho with
      | plain hf he => exact he
      | refused => exact id
      | wrote => exact id
      | error message h => exact absurd h not_errorCause
      | lookupFailed message h => exact absurd h (hs.2 message)
  · rcases h.lookupFailed_mem hm with hm | ⟨u, err, herr, hcall⟩
    · exact hs.2 message hm
    · simp [onlyWritesFail, causesError, herr] at hcall

/-! ### Failed writes -/

/-- Where no write has failed there is nothing to report. -/
theorem reported_of_noFailure {c : Config Socket SocketYield SocketNative}
    (h : ∀ o ∈ c.heap.log, ¬ FailedWrite o) : FailuresReported c where
  error _ _ := not_owed_of_forall h
  finish pre o post hlog _ w hw := by
    refine h w ?_
    rw [hlog]
    exact List.mem_append_left _ hw

/-- In every run whose native writes all succeed, failed writes are reported (there are none).
And in a run in which nothing but a write fails, they are reported, once nothing is pending,
exactly if no write has failed. -/
theorem failures_reported (P : Platform) {s₀ : Socket} (hinit : Initial s₀)
    (c : Config Socket SocketYield SocketNative) :
    ((machine P).Reach writesSucceed s₀ c → FailuresReported c) ∧
    ((machine P).Reach onlyWritesFail s₀ c → c.stack = [] → Quiet c.heap →
      (FailuresReported c ↔ ∀ o ∈ c.heap.log, ¬ FailedWrite o)) := by
  have hlog := log_of_initial hinit
  constructor
  · intro hc
    have hinv : noFailure.inv s₀ := fun o ho => by
      rw [hlog] at ho
      cases ho
    have hholds := holds_of_sound (P := P) hinit hinv
      fun k _ _ _ hs ha => ⟨ha.noFailure hs, trivial⟩
    exact reported_of_noFailure (hholds.inv_of_reach hc).2
  · intro hc hrest hquiet
    have hinv : noError.inv s₀ := by
      refine ⟨fun o ho => ?_, fun message hm => ?_⟩
      · rw [hlog] at ho
        cases ho
      · rw [ticks_of_initial hinit] at hm
        cases hm
    have hholds := holds_of_sound (P := P) hinit hinv
      fun k _ _ _ hs ha => ⟨ha.noError hs, trivial⟩
    refine ⟨fun h => ?_, reported_of_noFailure⟩
    -- without an 'error', every failure is still owed one
    exact (not_owed_iff_of_forall (hholds.inv_of_reach hc).2.1).mp (h.error hrest hquiet)

/-- A write that succeeds on a connected socket, and one that fails while nothing else does. -/
theorem failures_reported_writes :
    (∃ c : Config Socket SocketYield SocketNative,
      .wrote ⟨[1], none⟩ 0 ∈ c.heap.log ∧ FailuresReported c) ∧
    ∃ c : Config Socket SocketYield SocketNative,
      .wrote ⟨[1], none⟩ (-1) ∈ c.heap.log ∧ ¬ FailuresReported c := by
  constructor
  · obtain ⟨c, hc, hrun⟩ := Machine.exists_reach_of_run (machine (.ascii false)) writesSucceed
      (accepted false) [.call .onconnection [], .ret [],
        .call (.write (.data (.buffer [1])) none) [], .call (.afterWrite 0) []]
      (fun c => decide (.wrote ⟨[1], none⟩ 0 ∈ c.heap.log)) rfl
    exact ⟨c, of_decide_eq_true hrun,
      (failures_reported (.ascii false) (.inr ⟨false, rfl⟩) c).1 hc⟩
  · obtain ⟨c, hc, hrun⟩ := Machine.exists_reach_of_run (machine (.ascii false)) onlyWritesFail
      (accepted false) [.call .onconnection [], .ret [],
        .call (.write (.data (.buffer [1])) none) [], .call (.afterWrite (-1)) [],
        .call (.tick 0) [], .call (.elapse 1) [], .call .onTimeout [], .ret []]
      (fun c => c.stack.isEmpty && decide (Quiet c.heap) &&
        decide (.wrote ⟨[1], none⟩ (-1) ∈ c.heap.log)) rfl
    simp only [Bool.and_eq_true, decide_eq_true_eq, List.isEmpty_iff] at hrun
    have hiff := (failures_reported (.ascii false) (.inr ⟨false, rfl⟩) c).2 hc hrun.1.1 hrun.1.2
    refine ⟨c, hrun.2, fun h => hiff.mp h _ hrun.2 ?_⟩
    show (-1 : Int) ≠ 0
    decide

/-- A write can fail and 'finish' follow: the completion of the only chunk carries an error, and
the stream was ending. -/
theorem finish_after_failure :
    ¬ ∀ (P : Platform) (s₀ : Socket) (c : Config Socket SocketYield SocketNative), Initial s₀ →
      (machine P).Reach .free s₀ c → FailuresReported c := by
  intro hall
  obtain ⟨c, hc, hrun⟩ := Machine.exists_reach_of_run (machine (.ascii false)) .free
    (accepted false) [.call .onconnection [], .ret [],
      .call (.end_ (some (.buffer [1])) none) [], .call (.afterWrite (-1)) []]
    (fun c => decide (.event .finish ∈ c.heap.log ∧
      .wrote ⟨[1], none⟩ (-1) ∈ c.heap.log.take (c.heap.log.idxOf (.event .finish)))) rfl
  obtain ⟨hfin, hwrote⟩ := of_decide_eq_true hrun
  have hidx := List.getElem?_idxOf hfin
  refine (hall _ _ c (.inr ⟨_, rfl⟩) hc).finish.getElem hidx rfl _ hwrote ?_
  show (-1 : Int) ≠ 0
  decide

end IotJs.Socket

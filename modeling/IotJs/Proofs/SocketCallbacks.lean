import IotJs.Proofs.SocketRespects
import Mathlib.Data.List.Perm.Basic

/-!
# `IotJs.Proofs.SocketCallbacks`: the callbacks of writes

The callback of an accepted write travels with its chunk: through the queue, with the native
write, and into `afterWrite`, which calls it after it has restarted the queue. The callback of
a rejected write is given to `process.nextTick` after 'error' was emitted.

A chunk leaves the queue in order, so `CallsInv` says that the accepted chunks are those that
completed, then the one in flight, then the queue. A callback of an accepted write is late
while the listeners of 'drain' and 'finish' run (`Settled` fails there), and that of a rejected
one while those of 'error' run (`owed` is positive there). A call from inside such a listener
changes neither debt, and only a native completion, which comes at rest, makes the first.

A socket that never connects calls none of the callbacks of its queue, whatever becomes of it.
In the surroundings `callsBack`, where nothing else goes wrong, `callbacks_called_iff` says
that this is the only way to lose one.
-/

set_option autoImplicit false

namespace IotJs.Socket

open Reentrant WritableObject

/-! ### What the log says -/

/-- The native writes that completed, with their status. -/
def wrote (log : List SocketObs) : List (WriteReq × Int) :=
  log.filterMap fun | .wrote req status => some (req, status) | _ => none

/-- The callbacks of accepted writes that were called, with their status. -/
def called (log : List SocketObs) : List (Callback × Int) :=
  log.filterMap fun | .called callback status => some (callback, status) | _ => none

/-- The callbacks of rejected writes. -/
def rejected (log : List SocketObs) : List Callback :=
  log.filterMap fun | .note (.rejected callback) => callback | _ => none

/-- The callbacks of rejected writes that were called. -/
def calledBack (log : List SocketObs) : List Callback :=
  log.filterMap fun | .calledBack callback => some callback | _ => none

/-- The callbacks that wait for a tick. -/
def tickCallbacks (ticks : List SocketTick) : List Callback :=
  ticks.filterMap fun | .writable (.callback callback) => some callback | _ => none

/-- The callbacks of the chunks. -/
def callbacks (reqs : List WriteReq) : List Callback :=
  reqs.filterMap WriteReq.callback

/-- What the callbacks of completed chunks are called with. -/
def completions (done : List (WriteReq × Int)) : List (Callback × Int) :=
  done.filterMap fun (req, status) => req.callback.map (·, status)

/-- Each callback was called exactly once: those of accepted writes in the order of the writes,
each with the status with which the native write of its chunk completed. -/
structure CallbacksCalled (log : List SocketObs) : Prop where
  accepted : (called log).map Prod.fst = callbacks (acceptedReqs log)
  status : called log = completions (wrote log)
  rejected : (calledBack log).Perm (rejected log)

/-- Every completed chunk had its callback called. -/
def Settled (s : Socket) : Prop := called s.log = completions (wrote s.log)

instance (s : Socket) : Decidable (Settled s) :=
  inferInstanceAs (Decidable (_ = _))

/-- The callback of every rejected write was called, or waits for its tick. -/
def RejectedSettled (s : Socket) : Prop :=
  (rejected s.log).Perm (calledBack s.log ++ tickCallbacks s.ticks)

instance (s : Socket) : Decidable (RejectedSettled s) :=
  inferInstanceAs (Decidable (List.Perm _ _))

/-- A rejected write with a callback finds an 'error' listener. -/
def rejectsQuietly (s : Socket) : Call → Bool
  | .write _ (some _) => !s._writableState.ended || s.errorListener
  | _ => true

/-- Native writes are accepted, and no exception comes between an event and the callbacks that are
called after it. -/
def callsBack : Surroundings where
  call i s := rejectsQuietly s i = true
  answer q _ err := q = .write → err = 0
  returns _ _ := True
  throws v s := (v = .event .drain ∨ v = .event .finish → Settled s) ∧
    (v = .event (.error "write after end") → RejectedSettled s)

instance : callsBack.Testable where
  call i s := inferInstanceAs (Decidable (rejectsQuietly s i = true))
  answer q _ err := inferInstanceAs (Decidable (q = .write → err = 0))
  returns _ _ := .isTrue trivial
  throws v s := inferInstanceAs (Decidable ((v = .event .drain ∨ v = .event .finish → Settled s) ∧
    (v = .event (.error "write after end") → RejectedSettled s)))

/-- The callbacks of rejected writes `callback` that were neither called nor scheduled. -/
def owed (log : List SocketObs) (ticks : List SocketTick) (callback : Callback) : Int :=
  (rejected log).count callback - (calledBack log).count callback -
    (tickCallbacks ticks).count callback

/-! ### The contract -/

/-- The way of the chunks: completed, in flight, in the queue. -/
structure CallsInv (log : List SocketObs) (w : WritableState) (inFlight : List WriteReq)
    (ticks : List SocketTick) : Prop where
  fifo : acceptedReqs log = (wrote log).map Prod.fst ++ inFlight ++ w.buffer
  writing : w.writing = true → inFlight ≠ []
  unready : w.ready = false → wrote log = []
  debt : ∀ callback, 0 ≤ owed log ticks callback

def CallsOk (s : Socket) : Prop :=
  CallsInv s.log s._writableState s.writes s.ticks

/-- What a call from inside a listener leaves as it was. -/
structure CallsRely (log : List SocketObs) (ticks : List SocketTick) (log' : List SocketObs)
    (ticks' : List SocketTick) : Prop where
  wrote : wrote log' = wrote log
  called : called log' = called log
  debt : ∀ callback, owed log' ticks' callback = owed log ticks callback

theorem CallsRely.refl (log : List SocketObs) (ticks : List SocketTick) :
    CallsRely log ticks log ticks :=
  ⟨rfl, rfl, fun _ => rfl⟩

theorem CallsRely.trans {log log' log'' : List SocketObs} {ticks ticks' ticks'' : List SocketTick}
    (h₁ : CallsRely log ticks log' ticks') (h₂ : CallsRely log' ticks' log'' ticks'') :
    CallsRely log ticks log'' ticks'' :=
  ⟨h₂.wrote.trans h₁.wrote, h₂.called.trans h₁.called,
    fun c => (h₂.debt c).trans (h₁.debt c)⟩

/-- A call at rest settles what it has completed. -/
structure CallsOuter (s t : Socket) : Prop where
  settled : Settled s → Settled t
  debt : ∀ callback, owed t.log t.ticks callback = owed s.log s.ticks callback

/-- The contract of the callbacks. -/
def calls : Contract Socket where
  inv := CallsOk
  rely s t := CallsRely s.log s.ticks t.log t.ticks
  outer := CallsOuter
  refl s := .refl s.log s.ticks
  trans := .trans
  outer_of_rely h := ⟨fun hs => by rw [Settled, h.called, h.wrote]; exact hs, h.debt⟩
  outer_trans h₁ h₂ := ⟨h₂.settled ∘ h₁.settled, fun c => (h₂.debt c).trans (h₁.debt c)⟩

/-! ### Entries that are not about writes -/

/-- Entries about the chunks and callbacks of writes. -/
def SocketObs.ofWrite : SocketObs → Bool
  | .note (.accepted _) | .note (.rejected _) | .wrote _ _ | .called _ _ | .calledBack _ => true
  | _ => false

/-- The two logs say the same of the writes. -/
structure SameWrites (log log' : List SocketObs) : Prop where
  accepted : acceptedReqs log' = acceptedReqs log
  wrote : wrote log' = wrote log
  called : called log' = called log
  rejected : rejected log' = rejected log
  calledBack : calledBack log' = calledBack log

section same

variable {log log' log'' : List SocketObs} {w : WritableState} {inFlight : List WriteReq}
variable {ticks ticks' : List SocketTick}

theorem SameWrites.trans (h₁ : SameWrites log log') (h₂ : SameWrites log' log'') :
    SameWrites log log'' :=
  ⟨h₂.accepted.trans h₁.accepted, h₂.wrote.trans h₁.wrote, h₂.called.trans h₁.called,
    h₂.rejected.trans h₁.rejected, h₂.calledBack.trans h₁.calledBack⟩

theorem SameWrites.append {new : List SocketObs} (h : ∀ o ∈ new, SocketObs.ofWrite o = false) :
    SameWrites log (log ++ new) := by
  induction new generalizing log with
  | nil => simp only [List.append_nil]; exact ⟨rfl, rfl, rfl, rfl, rfl⟩
  | cons o new ih =>
      have ho := h o List.mem_cons_self
      have hone : SameWrites log (log ++ [o]) := by
        cases o with
        | note n =>
            cases n with
            | accepted => cases ho
            | rejected => cases ho
            | _ => constructor <;> exact List.filterMap_append.trans (List.append_nil _)
        | wrote => cases ho
        | called => cases ho
        | calledBack => cases ho
        | _ => constructor <;> exact List.filterMap_append.trans (List.append_nil _)
      rw [← List.singleton_append, ← List.append_assoc]
      exact hone.trans (ih fun o' ho' => h o' (List.mem_cons_of_mem o ho'))

/-- The chunks stay where they are, and no debt becomes negative. -/
theorem CallsInv.owing (h : CallsInv log w inFlight ticks)
    (hacc : acceptedReqs log' = acceptedReqs log) (hwrote : wrote log' = wrote log)
    (hdebt : ∀ c, 0 ≤ owed log' ticks' c) : CallsInv log' w inFlight ticks' := by
  refine ⟨?_, h.writing, fun hr => hwrote.trans (h.unready hr), hdebt⟩
  rw [hacc, hwrote]
  exact h.fifo

/-- Neither the chunks nor the debts change. -/
theorem CallsInv.same (h : CallsInv log w inFlight ticks) (hlog : SameWrites log log')
    (hticks : ∀ c, (tickCallbacks ticks').count c = (tickCallbacks ticks).count c) :
    CallsInv log' w inFlight ticks' ∧ CallsRely log ticks log' ticks' := by
  have howed : ∀ c, owed log' ticks' c = owed log ticks c := by
    intro c
    rw [owed, hlog.rejected, hlog.calledBack, hticks]
    rfl
  refine ⟨h.owing hlog.accepted hlog.wrote fun c => ?_, hlog.wrote, hlog.called, howed⟩
  rw [howed]
  exact h.debt c

theorem CallsInv.record (h : CallsInv log w inFlight ticks) (new : List SocketObs)
    (hnew : ∀ o ∈ new, SocketObs.ofWrite o = false) :
    CallsInv (log ++ new) w inFlight ticks ∧ CallsRely log ticks (log ++ new) ticks :=
  h.same (.append hnew) fun _ => rfl

theorem tickCallbacks_append (ticks new : List SocketTick) :
    tickCallbacks (ticks ++ new) = tickCallbacks ticks ++ tickCallbacks new :=
  List.filterMap_append

/-- A tick that ran leaves the others. -/
theorem tickCallbacks_perm {i : Nat} {tick : SocketTick} (hi : ticks[i]? = some tick) :
    (tickCallbacks ticks).Perm (tickCallbacks [tick] ++ tickCallbacks (ticks.eraseIdx i)) := by
  obtain ⟨hlt, rfl⟩ := List.getElem?_eq_some_iff.mp hi
  have hperm : (ticks[i] :: ticks.eraseIdx i).Perm ticks := List.getElem_cons_eraseIdx_perm hlt
  rw [← tickCallbacks_append]
  exact (hperm.filterMap _).symm

/-- A tick that is no callback ran. -/
theorem count_eraseIdx {i : Nat} {tick : SocketTick} (hi : ticks[i]? = some tick)
    (hne : tickCallbacks [tick] = []) (c : Callback) :
    (tickCallbacks (ticks.eraseIdx i)).count c = (tickCallbacks ticks).count c := by
  have hperm := tickCallbacks_perm hi
  rw [hne, List.nil_append] at hperm
  exact (hperm.count_eq c).symm

/-- A tick that is no callback is scheduled. -/
theorem count_schedule {tick : SocketTick} (hne : tickCallbacks [tick] = []) (c : Callback) :
    (tickCallbacks (ticks ++ [tick])).count c = (tickCallbacks ticks).count c := by
  rw [tickCallbacks_append, hne, List.append_nil]

theorem CallsInv.schedule (h : CallsInv log w inFlight ticks) (tick : SocketTick)
    (hne : tickCallbacks [tick] = []) :
    CallsInv log w inFlight (ticks ++ [tick]) ∧ CallsRely log ticks log (ticks ++ [tick]) :=
  h.same ⟨rfl, rfl, rfl, rfl, rfl⟩ (count_schedule hne)

/-- A tick that is no callback runs, and appends entries that are not about writes. -/
theorem CallsInv.ran (h : CallsInv log w inFlight ticks) {i : Nat} {tick : SocketTick}
    (hi : ticks[i]? = some tick) (hne : tickCallbacks [tick] = []) (new : List SocketObs)
    (hnew : ∀ o ∈ new, SocketObs.ofWrite o = false) :
    CallsInv (log ++ new) w inFlight (ticks.eraseIdx i) ∧
      CallsRely log ticks (log ++ new) (ticks.eraseIdx i) :=
  h.same (.append hnew) (count_eraseIdx hi hne)

/-- A callback leaves the ticks for the log. -/
theorem CallsInv.calledBack (h : CallsInv log w inFlight ticks) {i : Nat} {c : Callback}
    (hi : ticks[i]? = some (.writable (.callback c))) :
    CallsInv (log ++ [.calledBack c]) w inFlight (ticks.eraseIdx i) ∧
      CallsRely log ticks (log ++ [.calledBack c]) (ticks.eraseIdx i) := by
  have hback : IotJs.Socket.calledBack (log ++ [.calledBack c]) =
      IotJs.Socket.calledBack log ++ [c] := List.filterMap_append
  have hrejected : rejected (log ++ [.calledBack c]) = rejected log :=
    List.filterMap_append.trans (List.append_nil _)
  have hacc : acceptedReqs (log ++ [.calledBack c]) = acceptedReqs log :=
    List.filterMap_append.trans (List.append_nil _)
  have hwrote : wrote (log ++ [.calledBack c]) = wrote log :=
    List.filterMap_append.trans (List.append_nil _)
  have howed : ∀ c', owed (log ++ [.calledBack c]) (ticks.eraseIdx i) c' = owed log ticks c' := by
    intro c'
    have hone : tickCallbacks [.writable (.callback c)] = [c] := rfl
    have hcount := (tickCallbacks_perm hi).count_eq c'
    rw [List.count_append, hone] at hcount
    rw [owed, owed, hback, hrejected, hcount, List.count_append]
    omega
  refine ⟨h.owing hacc hwrote fun c' => ?_, hwrote,
    List.filterMap_append.trans (List.append_nil _), howed⟩
  rw [howed]
  exact h.debt c'

/-- A chunk that is accepted is no debt yet. -/
theorem callsRely_accepted (log : List SocketObs) (ticks : List SocketTick) (req : WriteReq) :
    CallsRely log ticks (log ++ [.note (.accepted req)]) ticks := by
  refine ⟨List.filterMap_append.trans (List.append_nil _),
    List.filterMap_append.trans (List.append_nil _), fun c => ?_⟩
  simp [owed, rejected, IotJs.Socket.calledBack, List.filterMap_append]

/-- A chunk is queued. -/
theorem CallsInv.queue (h : CallsInv log w inFlight ticks) (req : WriteReq) (length : Int) :
    CallsInv (log ++ [.note (.accepted req)])
      { w with length := length, buffer := w.buffer ++ [req] } inFlight ticks := by
  have hrely := callsRely_accepted log ticks req
  have hacc : acceptedReqs (log ++ [.note (.accepted req)]) = acceptedReqs log ++ [req] :=
    acceptedReqs_append ..
  refine ⟨?_, h.writing, fun hn => hrely.wrote.trans (h.unready hn), fun c => ?_⟩
  · rw [hacc, hrely.wrote, h.fifo, List.append_assoc, List.append_assoc]
  · rw [hrely.debt]
    exact h.debt c

end same

/-! ### The actions -/

section actions

variable {k : Kind} {s t u : Socket}

/-- A chunk goes out. The native write is accepted, so it is in flight. -/
theorem Hands.calls {req : WriteReq} (h : Hands callsBack req s t)
    (hfifo : acceptedReqs s.log =
      (wrote s.log).map Prod.fst ++ (s.writes ++ [req]) ++ s._writableState.buffer)
    (hr : s._writableState.ready = true) (hdebt : ∀ c, 0 ≤ owed s.log s.ticks c) :
    CallsOk t ∧ CallsRely s.log s.ticks t.log t.ticks := by
  cases h with
  | sent timer =>
      have hlog : SameWrites s.log (s.log ++ [.native .write s.handleStatus]) :=
        .append (by simp [SocketObs.ofWrite])
      refine ⟨⟨?_, fun _ => by simp, fun hn => ?_, fun c => ?_⟩, hlog.wrote, hlog.called, fun c => ?_⟩
      · show acceptedReqs (s.log ++ [_]) = (wrote (s.log ++ [_])).map Prod.fst ++ _ ++ _
        rw [hlog.accepted, hlog.wrote]
        exact hfifo
      · rw [show s._writableState.ready = false from hn] at hr
        cases hr
      · show 0 ≤ owed (s.log ++ [_]) s.ticks c
        rw [owed, hlog.rejected, hlog.calledBack]
        exact hdebt c
      · show owed (s.log ++ [_]) s.ticks c = _
        rw [owed, hlog.rejected, hlog.calledBack]
        rfl
  | refused timer err herr hans => exact absurd (hans rfl) herr

/-- The queue goes on. Where nothing is in flight, the next chunk follows those that completed. -/
theorem Flush.calls (h : Flush callsBack s t)
    (hfifo : acceptedReqs s.log =
      (wrote s.log).map Prod.fst ++ s.writes ++ s._writableState.buffer)
    (hidle : s._writableState.writing = false → s.writes = [])
    (hbusy : s._writableState.writing = true → s.writes ≠ [])
    (hr : s._writableState.ready = true) (hdebt : ∀ c, 0 ≤ owed s.log s.ticks c) :
    CallsOk t ∧ CallsRely s.log s.ticks t.log t.ticks := by
  have hready : s._writableState.ready = false → IotJs.Socket.wrote s.log = [] := by
    intro hn
    rw [hn] at hr
    cases hr
  cases h with
  | busy => exact ⟨⟨hfifo, hbusy, hready, hdebt⟩, .refl s.log s.ticks⟩
  | idle => exact ⟨⟨hfifo, hbusy, hready, hdebt⟩, .refl s.log s.ticks⟩
  | @next req rest _ hw hb h =>
      refine h.calls ?_ hr hdebt
      rw [hfifo, hb, hidle hw]
      simp

/-- 'finish' is not about writes. -/
theorem Finish.calls (h : Finish callsBack s t) (hs : CallsOk s) :
    CallsOk t ∧ CallsRely s.log s.ticks t.log t.ticks := by
  have hadd : ∀ new : List SocketObs, (∀ o ∈ new, SocketObs.ofWrite o = false) →
      CallsInv (s.log ++ new) { s._writableState with ended := true } s.writes s.ticks ∧
        CallsRely s.log s.ticks (s.log ++ new) s.ticks := by
    intro new hnew
    obtain ⟨hi, hrely⟩ := CallsInv.record hs new hnew
    exact ⟨{ hi with }, hrely⟩
  cases h with
  | close timer =>
      have h := hadd [.event .finish, .destroyCalled, .native .close s.handleStatus]
        (by simp [SocketObs.ofWrite])
      rw [show s.log ++ [.event .finish, .destroyCalled, .native .close s.handleStatus] =
        s.log ++ [.event .finish] ++ [.destroyCalled] ++ [.native .close s.handleStatus] by simp] at h
      exact h
  | shutdown =>
      have h := hadd [.event .finish, .native .shutdown s.handleStatus] (by simp [SocketObs.ofWrite])
      rw [← List.singleton_append, ← List.append_assoc] at h
      exact h
  | refused =>
      have h := hadd [.event .finish, .native .shutdown s.handleStatus] (by simp [SocketObs.ofWrite])
      rw [← List.singleton_append, ← List.append_assoc] at h
      exact h

theorem Establishes.callsOk (h : Establishes s u) (hs : CallsOk s) :
    CallsOk u ∧ CallsRely s.log s.ticks u.log u.ticks := by
  cases h <;> exact ⟨⟨hs.fifo, hs.writing, fun hn => (by cases hn), hs.debt⟩, .refl s.log s.ticks⟩

theorem not_ofWrite_of_silent {o : SocketObs} (h : o.silent = true) :
    SocketObs.ofWrite o = false := by
  cases o with
  | note n => cases n <;> first | rfl | cases h
  | wrote => cases h
  | called => cases h
  | calledBack => cases h
  | _ => rfl

/-- Only a native completion and a rejected write change a debt. -/
theorem Action.calls (h : Action callsBack k s t) (hk : k ≠ .complete) (hk' : k ≠ .completeFinish)
    (hr : k ≠ .reject) (hb : Base s) (hs : CallsOk s) :
    CallsOk t ∧ CallsRely s.log s.ticks t.log t.ticks := by
  have hsame : CallsOk s ∧ CallsRely s.log s.ticks s.log s.ticks := ⟨hs, .refl s.log s.ticks⟩
  have hadd : ∀ {o : SocketObs}, SocketObs.ofWrite o = false →
      CallsInv (s.log ++ [o]) s._writableState s.writes s.ticks ∧
        CallsRely s.log s.ticks (s.log ++ [o]) s.ticks :=
    fun ho => CallsInv.record hs _ (by simpa using ho)
  have hadd₂ : ∀ {o o' : SocketObs}, SocketObs.ofWrite o = false → SocketObs.ofWrite o' = false →
      CallsInv (s.log ++ [o] ++ [o']) s._writableState s.writes s.ticks ∧
        CallsRely s.log s.ticks (s.log ++ [o] ++ [o']) s.ticks := by
    intro o o' ho ho'
    rw [List.append_assoc]
    exact CallsInv.record hs _ (by simpa using ⟨ho, ho'⟩)
  cases h with
  | needDrain => exact ⟨{ hs with }, hsame.2⟩
  | silent ho => exact hadd (not_ofWrite_of_silent ho)
  | error => exact hadd rfl
  | queue req he hb => exact ⟨CallsInv.queue hs req _, callsRely_accepted s.log s.ticks req⟩
  | write req he hr hw hb' h =>
      have hnone : s.writes = [] := hb.queue.idle hw
      have hrely := callsRely_accepted s.log s.ticks req
      have ht := h.calls (by
        show acceptedReqs (s.log ++ [_]) = (wrote (s.log ++ [_])).map Prod.fst ++ _ ++ _
        rw [acceptedReqs_append, hrely.wrote, hs.fifo, hb', hnone]
        simp [acceptedReqs]) hr fun c => (hrely.debt c).symm ▸ hs.debt c
      exact ⟨ht.1, hrely.trans ht.2⟩
  | reject => exact absurd rfl hr
  | callBack => exact absurd rfl hr
  | endIdle =>
      obtain ⟨hi, hrely⟩ := CallsInv.schedule hs (.writable .emitFinish) rfl
      obtain ⟨ht, hrely'⟩ := hi.record [.note .endReturned] (by simp [SocketObs.ofWrite])
      exact ⟨{ ht with }, hrely.trans hrely'⟩
  | endBusy =>
      obtain ⟨hi, hrely⟩ := hadd (o := .note .endReturned) rfl
      exact ⟨{ hi with }, hrely⟩
  | endAgain => exact hadd rfl
  | destroyAgain => exact hadd rfl
  | close => exact hadd₂ rfl rfl
  | closeMissing => exact hadd₂ rfl rfl
  | defer => exact hadd rfl
  | afterLookup => exact hadd rfl
  | lookupFailed => exact hadd₂ rfl rfl
  | scheduleFailed => exact CallsInv.schedule hs _ rfl
  | connectHandle => exact hadd rfl
  | connectFailed => exact hadd rfl
  | @establish _ u _ h hf =>
      obtain ⟨hu, hrely⟩ := h.callsOk hs
      have hidle : u._writableState.writing = false → u.writes = [] := by
        intro hw
        rcases h.writes hb.queue with hnil | ⟨req, -, hbusy⟩
        · exact hnil
        · rw [hw] at hbusy
          cases hbusy
      have ht := hf.calls hu.fifo hidle hu.writing h.ready hu.debt
      exact ⟨ht.1, hrely.trans ht.2⟩
  | establishFinish h hdue hf =>
      have hu := h.callsOk hs
      have ht := hf.calls hu.1
      exact ⟨ht.1, hu.2.trans ht.2⟩
  | scheduleReadStart => exact CallsInv.schedule hs _ rfl
  | complete => exact absurd rfl hk
  | completeFinish => exact absurd rfl hk'
  | called => exact absurd rfl hk
  | shutdownClose => exact hadd₂ rfl rfl
  | tickFinish hi hcall he hh hf =>
      have hstart := CallsInv.ran hs hi rfl [] (by simp)
      rw [List.append_nil] at hstart
      have ht := hf.calls hstart.1
      exact ⟨ht.1, hstart.2.trans ht.2⟩
  | tickMissing hi =>
      obtain ⟨ht, hrely⟩ := CallsInv.ran hs hi rfl
        [.event .finish, .native .shutdown s.handleStatus] (by simp [SocketObs.ofWrite])
      rw [← List.singleton_append, ← List.append_assoc] at ht hrely
      exact ⟨{ ht with }, hrely⟩
  | tickEnded hi =>
      have h := CallsInv.ran hs hi rfl [] (by simp)
      rw [List.append_nil] at h
      exact h
  | tickCallback c hi => exact CallsInv.calledBack hs hi
  | tickLookupFailed hi => exact CallsInv.ran hs hi rfl _ (by simp [SocketObs.ofWrite])
  | tickLookupThrown hi =>
      have h := CallsInv.ran hs hi rfl [] (by simp)
      rw [List.append_nil] at h
      exact h
  | readStart hi => exact CallsInv.ran hs hi rfl _ (by simp [SocketObs.ofWrite])
  | eof => exact hadd rfl
  | end_ => exact hadd rfl
  | _ => exact hsame

theorem calls_sound (hk : k ≠ .complete) (hk' : k ≠ .completeFinish) (hr : k ≠ .reject) :
    Sound callsBack calls k :=
  fun hb hi ha => ha.calls hk hk' hr hb hi

end actions

/-! ### Rejected writes -/

section reject

variable {log : List SocketObs} {ticks : List SocketTick} {s₀ s t : Socket}

theorem owed_reject (c c' : Callback) :
    owed (log ++ [.note (.rejected (some c))]) ticks c' = owed log ticks c' + [c].count c' := by
  have hrej : rejected (log ++ [.note (.rejected (some c))]) = rejected log ++ [c] :=
    List.filterMap_append
  have hback : calledBack (log ++ [.note (.rejected (some c))]) = calledBack log :=
    List.filterMap_append.trans (List.append_nil _)
  rw [owed, owed, hrej, hback, List.count_append]
  omega

theorem owed_callBack (c c' : Callback) :
    owed log (ticks ++ [.writable (.callback c)]) c' = owed log ticks c' - [c].count c' := by
  have hone : tickCallbacks [.writable (.callback c)] = [c] := rfl
  rw [owed, owed, tickCallbacks_append, hone, List.count_append]
  omega

theorem owed_of_settled (h : RejectedSettled s) (c : Callback) : owed s.log s.ticks c = 0 := by
  have hcount := h.count_eq c
  rw [List.count_append] at hcount
  rw [owed]
  omega

/-- A write with a callback that is rejected finds an 'error' listener. -/
theorem errorListener_of_quiet {i : Call} {c : Callback} (hi : i.Writes (some c))
    (hcall : callsBack.call i s) (he : s._writableState.ended = true) :
    s.errorListener = true := by
  cases i with
  | write chunk callback =>
      have hquiet : rejectsQuietly s (.write chunk callback) = true := hcall
      rw [show callback = some c from hi] at hquiet
      simpa [rejectsQuietly, he] using hquiet
  | end_ data callback => cases hi.2
  | _ => cases hi

/-- A write is rejected: its callback is scheduled after the listeners of 'error'. -/
theorem calls_reject {f : Method Unit} {i : Call} {u : Socket} {callback : Option Callback}
    (h : Kept calls s₀ s) (he : s._writableState.ended = true) (hi : i.Writes callback)
    (hcall : callsBack.call i u) (hs : s = { u with log := log }) :
    Keeps callsBack calls s₀ ((writableObject f).writeAfterEnd callback) s := by
  have hsound : Sound callsBack calls .common := calls_sound (by simp) (by simp) (by simp)
  have hcause : ErrorCause callsBack := by
    refine .rejected hi ?_ hcall
    rw [hs] at he
    exact he
  have ha : Action callsBack .reject s { s with log := s.log ++ [.note (.rejected callback)] } :=
    .reject callback he
  refine wp_writeAfterEnd.mpr ?_
  cases callback with
  | none =>
      have hsame : SameWrites s.log (s.log ++ [.note (.rejected none)]) := by
        constructor <;> exact List.filterMap_append.trans (List.append_nil _)
      obtain ⟨hinv, hrely⟩ := CallsInv.same h.1.2 hsame fun _ => rfl
      have hrej : Kept calls s₀ { s with log := s.log ++ [.note (.rejected none)] } :=
        ⟨⟨ha.base h.base, hinv⟩, h.mono.trans ha.mono, h.2.2.trans hrely⟩
      refine wp_emit_error.mpr ⟨fun _ => ?_, fun _ => hrej⟩
      have herr := hrej.act hsound (@Action.error callsBack _ "write after end" hcause)
      exact wp_yieldTo_kept herr fun t _ ht => ⟨fun _ => herr.trans ht, fun c hc => by cases hc⟩
  | some c =>
      have hlistener : s.errorListener = true := by
        rw [hs] at he ⊢
        exact errorListener_of_quiet hi hcall he
      -- from here the callback is owed, until it is scheduled
      have howe : ∀ c', owed (s.log ++ [.note (.rejected (some c))]) s.ticks c' =
          owed s.log s.ticks c' + [c].count c' := owed_reject c
      have hwrote : wrote (s.log ++ [.note (.rejected (some c))]) = wrote s.log :=
        List.filterMap_append.trans (List.append_nil _)
      have hcalled : called (s.log ++ [.note (.rejected (some c))]) = called s.log :=
        List.filterMap_append.trans (List.append_nil _)
      have hacc : acceptedReqs (s.log ++ [.note (.rejected (some c))]) = acceptedReqs s.log :=
        List.filterMap_append.trans (List.append_nil _)
      have hok : CallsOk s := h.1.2
      have hrej : Kept calls { s with log := s.log ++ [.note (.rejected (some c))] }
          { s with log := s.log ++ [.note (.rejected (some c))] } := by
        refine .refl (ha.base h.base) (CallsInv.owing hok hacc hwrote fun c' => ?_)
        have hnonneg := hok.debt c'
        rw [howe]
        omega
      refine wp_emit_error.mpr ⟨fun _ => ?_, fun hno => ?_⟩
      · have herr := hrej.act hsound (@Action.error callsBack _ "write after end" hcause)
        refine (Prog.wp_yieldTo ..).mpr ⟨herr.1, fun t _ ht => ⟨fun _ => ⟨fun hc => (by cases hc),
          fun c' hc' => ?_⟩, fun hthrow => ?_⟩⟩
        · cases hc'
          have hkept := herr.trans ht
          have hback : Action callsBack .reject t
              { t with ticks := t.ticks ++ [.writable (.callback c)] } := .callBack c
          have howed : ∀ c', owed t.log (t.ticks ++ [.writable (.callback c)]) c' =
              owed s.log s.ticks c' := by
            intro c'
            rw [owed_callBack, hkept.2.2.debt, howe]
            omega
          have htok : CallsOk t := hkept.1.2
          refine ⟨⟨hback.base hkept.base, htok.fifo, htok.writing, htok.unready, fun c' => ?_⟩,
            ((h.mono.trans ha.mono).trans hkept.mono).trans hback.mono,
            h.2.2.trans ⟨hkept.2.2.wrote.trans hwrote, hkept.2.2.called.trans hcalled, howed⟩⟩
          rw [howed]
          exact hok.debt c'
        · -- the callback is still owed, so this listener does not throw
          have hnone := owed_of_settled (hthrow.2 rfl) c
          have hsome := (herr.trans ht).2.2.debt c
          have hnonneg := hok.debt c
          rw [howe] at hsome
          simp only [List.count_singleton_self] at hsome
          omega
      · rw [show s.errorListener = false from hno] at hlistener
        cases hlistener

theorem calls_respects : Respects callsBack calls where
  common := calls_sound (by simp) (by simp) (by simp)
  reject h he hi hcall hs := calls_reject h he hi hcall hs

end reject

/-! ### Native completions -/

section complete

variable {P : Platform} {s : Socket}

theorem completions_append (done new : List (WriteReq × Int)) :
    completions (done ++ new) = completions done ++ completions new :=
  List.filterMap_append

/-- The native write of the oldest chunk has completed. -/
theorem callsOk_completed {req : WriteReq} {rest : List WriteReq} (hb : Base s) (hs : CallsOk s)
    (hw : s.writes = req :: rest) (status : Int) : CallsOk (completed req status s) := by
  have hwrote : wrote (s.log ++ [.wrote req status]) = wrote s.log ++ [(req, status)] :=
    List.filterMap_append
  have hacc : acceptedReqs (s.log ++ [.wrote req status]) = acceptedReqs s.log :=
    List.filterMap_append.trans (List.append_nil _)
  have hrest : rest = [] := by
    have htail := hb.queue.tail
    rw [hw] at htail
    exact htail
  show CallsInv (s.log ++ [.wrote req status]) (completed req status s)._writableState s.writes.tail
    s.ticks
  refine ⟨?_, fun hbusy => (by cases hbusy), fun hn => ?_, fun c => ?_⟩
  · rw [hacc, hwrote, hs.fifo, hw, hrest]
    simp [completed]
  · have hready := hb.queue.ready_of_writes hw
    rw [show s._writableState.ready = false from hn] at hready
    cases hready
  · have howed : owed (s.log ++ [.wrote req status]) s.ticks c = owed s.log s.ticks c := by
      simp [owed, rejected, calledBack, List.filterMap_append]
    rw [howed]
    exact hs.debt c

/-- After the queue went on and its events were emitted, the callback of the completed chunk is
called. Nothing else was completed meanwhile. -/
theorem afterWrite_calls {status : Int} (h : Kept calls s s) (hw : s.writes ≠ [])
    (hcall : callsBack.call (.afterWrite status) s) :
    (body P (.afterWrite status)).wp callsBack .nil (basis.and calls)
      ((basis.and calls).PostAt true s) (fun _ => (basis.and calls).PostAt true s) s := by
  obtain ⟨req, rest, hcons⟩ := List.exists_cons_of_ne_nil hw
  have hok : CallsOk s := h.1.2
  have hu := callsOk_completed h.base hok hcons status
  have hready := h.base.queue.ready_of_writes hcons
  have hidle : (completed req status s).writes = [] := h.base.queue.tail
  have hmono : Mono s (completed req status s) := .refl s
  -- what is known of the states after the completion, up to the callback
  have hwrote : ∀ {t}, Kept calls (completed req status s) t →
      wrote t.log = wrote s.log ++ [(req, status)] :=
    fun ht => ht.2.2.wrote.trans List.filterMap_append
  have hcalled : ∀ {t}, Kept calls (completed req status s) t → called t.log = called s.log :=
    fun ht => ht.2.2.called.trans (List.filterMap_append.trans (List.append_nil _))
  have howed : ∀ {t}, Kept calls (completed req status s) t →
      ∀ c, owed t.log t.ticks c = owed s.log s.ticks c := by
    intro t ht c
    refine (ht.2.2.debt c).trans ?_
    show owed (s.log ++ [.wrote req status]) s.ticks c = _
    simp [owed, rejected, calledBack, List.filterMap_append]
  simp only [body, Prog.wp_bind, Prog.wp_get, Prog.wp_modify]
  rw [show s.writes.head? = some req by rw [hcons]; rfl]
  simp only [afterWrite, Prog.wp_bind, wp_record, writable_eq, wp_onwrite]
  refine Prog.wp_mono (fun _ => id) (fun _ t (ht : Kept calls (completed req status s) t) => ?_) _
    (writeBuffered_total calls_respects
      (lifeOk_completed h.base.life req status) h.base.handle h.base.read hready
      (fun t ht => ?_) (fun hdue t ht => ?_) fun e t he hthrow ht => ?_)
  · cases hcb : req.callback with
    | none =>
        refine ⟨ht.1, hmono.trans ht.mono, fun hs => ?_, howed ht⟩
        rw [Settled, hcalled ht, hwrote ht, completions_append, hs]
        simp [completions, hcb]
    | some c =>
        have ha : Action callsBack .complete t { t with log := t.log ++ [.called c status] } :=
          .called c status
        have htok : CallsOk t := ht.1.2
        have hwrote' : wrote (t.log ++ [.called c status]) = wrote t.log :=
          List.filterMap_append.trans (List.append_nil _)
        have hacc' : acceptedReqs (t.log ++ [.called c status]) = acceptedReqs t.log :=
          List.filterMap_append.trans (List.append_nil _)
        have howed' : ∀ c', owed (t.log ++ [.called c status]) t.ticks c' =
            owed t.log t.ticks c' := by
          intro c'
          simp [owed, rejected, calledBack, List.filterMap_append]
        refine Prog.wp_yieldTo_at ⟨⟨ha.base ht.base, CallsInv.owing htok hacc' hwrote' fun c' => ?_⟩,
          (hmono.trans ht.mono).trans ha.mono, fun hs => ?_, fun c' => ?_⟩
        · rw [howed']
          exact htok.debt c'
        · have hdone : called (t.log ++ [.called c status]) = called t.log ++ [(c, status)] :=
            List.filterMap_append
          rw [Settled, hdone, hwrote', hcalled ht, hwrote ht, completions_append, hs]
          simp [completions, hcb]
        · exact (howed' c').trans (howed ht c')
  · have ha : Action callsBack .complete s t := .complete hcons hcall ht
    have hflush := ht.calls hu.fifo (fun _ => hidle) hu.writing hready hu.debt
    exact ⟨⟨ha.base h.base, hflush.1⟩, ht.mono, hflush.2⟩
  · have ha : Action callsBack .completeFinish s t := .completeFinish hcons hcall hdue ht
    have hfin := ht.calls hu
    exact ⟨⟨ha.base h.base, hfin.1⟩, ht.mono, hfin.2⟩
  · -- the surroundings let no listener throw before the callback is called
    refine ⟨ht.1, hmono.trans ht.mono, fun _ => hthrow.1 ?_, howed ht⟩
    rcases he with rfl | rfl
    · exact .inl rfl
    · exact .inr rfl

end complete

/-! ### Runs -/

section runs

variable {P : Platform} {s₀ : Socket}

theorem calls_of_initial (h : Initial s₀) : calls.inv s₀ := by
  obtain ⟨_, _, rfl⟩ | ⟨_, rfl⟩ := h <;>
    exact ⟨rfl, nofun, fun _ => rfl, fun _ => Int.le_refl 0⟩

theorem calls_holds (hinit : Initial s₀) :
    Contract.Holds (machine P) callsBack .nil (basis.and calls) s₀ := by
  have hD := calls_respects
  refine holds_of_keeps hinit (calls_of_initial hinit) hD
    (respectsFinish_of_sound hD (calls_sound (by simp) (by simp) (by simp)))
    (respectsConnect_of_sound hD (calls_sound (by simp) (by simp) (by simp)))
    fun hi hk hen hcall => native_keeps hD (calls_sound (by simp) (by simp) (by simp))
      (calls_sound (by simp) (by simp) (by simp)) ?_ hi hk hen hcall
  rintro status rfl
  exact afterWrite_calls hk (enabled_afterWrite hen) hcall

theorem callbacks_append (reqs reqs' : List WriteReq) :
    callbacks (reqs ++ reqs') = callbacks reqs ++ callbacks reqs' :=
  List.filterMap_append

/-- The callbacks of completed chunks, in the order of the chunks. -/
theorem map_completions (done : List (WriteReq × Int)) :
    (completions done).map Prod.fst = callbacks (done.map Prod.fst) := by
  induction done with
  | nil => rfl
  | cons d done ih =>
      rw [← List.singleton_append, completions_append, List.map_append, ih, List.map_append,
        callbacks_append]
      congr 1
      obtain ⟨req, status⟩ := d
      cases h : req.callback <;> simp [completions, callbacks, h]

/-- Where nothing is owed and no tick waits, the rejected callbacks were called. -/
theorem perm_of_owed {s : Socket} (hticks : s.ticks = [])
    (howed : ∀ c, owed s.log s.ticks c = 0) : (calledBack s.log).Perm (rejected s.log) := by
  refine List.perm_iff_count.mpr fun c => ?_
  have hc := howed c
  rw [hticks, owed] at hc
  have hnil : (tickCallbacks []).count c = 0 := rfl
  rw [hnil] at hc
  omega

/-- In every run in which nothing else goes wrong, once nothing is pending, every callback has
been called once, in order, with the status of its chunk, exactly if the socket connected or
no accepted write had a callback. -/
theorem callbacks_called_iff (P : Platform) {s₀ : Socket} (hinit : Initial s₀)
    {c : Config Socket SocketYield SocketNative} (hc : (machine P).Reach callsBack s₀ c)
    (hrest : c.stack = []) (hq : Quiet c.heap) :
    CallbacksCalled c.heap.log ↔
      c.heap._socketState.connected = true ∨ callbacks (acceptedReqs c.heap.log) = [] := by
  have hholds := calls_holds (P := P) hinit
  obtain ⟨hb, hok⟩ := hholds.inv_of_reach hc
  obtain ⟨-, hsettled, hdebt⟩ := hholds.outer_of_rest hc hrest
  obtain ⟨-, hticks, -, -, hwrites, -⟩ := hq
  have hlog₀ := log_of_initial hinit
  have hdone : called c.heap.log = completions (wrote c.heap.log) := by
    refine hsettled ?_
    rw [Settled, hlog₀]
    rfl
  have hrejected : (calledBack c.heap.log).Perm (rejected c.heap.log) := by
    refine perm_of_owed hticks fun callback => (hdebt callback).trans ?_
    rw [hlog₀, ticks_of_initial hinit]
    rfl
  -- nothing is in flight: a chunk has completed or waits in the queue
  have hfifo : acceptedReqs c.heap.log =
      (wrote c.heap.log).map Prod.fst ++ c.heap._writableState.buffer := by
    have h := CallsInv.fifo hok
    rw [hwrites, List.append_nil] at h
    exact h
  have hcompleted : (called c.heap.log).map Prod.fst =
      callbacks ((wrote c.heap.log).map Prod.fst) := by
    rw [hdone, map_completions]
  constructor
  · intro hall
    by_cases hconn : c.heap._socketState.connected = true
    · exact .inl hconn
    · have hready : c.heap._writableState.ready = false := by
        rw [hb.life.ready]
        simpa using hconn
      -- a socket that is not connected has completed nothing
      have hnone : wrote c.heap.log = [] := CallsInv.unready hok hready
      have haccepted := hall.accepted
      rw [hcompleted, hnone] at haccepted
      exact .inr haccepted.symm
  · intro hcan
    refine ⟨?_, hdone, hrejected⟩
    rw [hcompleted]
    rcases hcan with hconn | hnone
    · have hready : c.heap._writableState.ready = true := by rw [hb.life.ready, hconn]
      have hidle : c.heap._writableState.writing = false := by
        by_contra hne
        exact CallsInv.writing hok (by simpa using hne) hwrites
      rw [hfifo, hb.queue.flushed hready hidle, List.append_nil]
    · have hsplit := congrArg callbacks hfifo
      rw [hnone, callbacks_append] at hsplit
      rw [hnone]
      exact (List.append_eq_nil_iff.mp hsplit.symm).1

/-- A write on a connection, up to its callback. -/
theorem callbacks_called_connection :
    ∃ c : Config Socket SocketYield SocketNative, Quiet c.heap ∧
      called c.heap.log = [(7, 0)] ∧
      (CallbacksCalled c.heap.log ↔
        c.heap._socketState.connected = true ∨ callbacks (acceptedReqs c.heap.log) = []) := by
  obtain ⟨c, hc, hrun⟩ := Machine.exists_reach_of_run (machine (.ascii false)) callsBack
    (accepted false)
    [.call .onconnection [], .ret [], .call (.tick 0) [],
      .call (.write (.data (.buffer [1])) (some 7)) [], .call (.afterWrite 0) [], .ret [],
      .call (.elapse 1) [], .call .onTimeout [], .ret []]
    (fun c => c.stack.isEmpty && decide (Quiet c.heap) && decide (called c.heap.log = [(7, 0)]))
    rfl
  simp only [Bool.and_eq_true, decide_eq_true_eq, List.isEmpty_iff] at hrun
  exact ⟨c, hrun.1.2, hrun.2,
    callbacks_called_iff (.ascii false) (.inr ⟨false, rfl⟩) hc hrun.1.1 hrun.1.2⟩

/-- The callback of a chunk that waits for a refused connection is never called. -/
theorem callback_lost :
    ¬ ∀ (P : Platform) (s₀ : Socket) (c : Config Socket SocketYield SocketNative), Initial s₀ →
      (machine P).Reach .free s₀ c → c.stack = [] → Quiet c.heap → CallbacksCalled c.heap.log := by
  intro hall
  obtain ⟨c, hc, hrun⟩ := Machine.exists_reach_of_run (machine (.ascii false)) .free
    (new none false)
    [.call (.on "error") [], .call (.connect ⟨.absent, some 80, 0⟩) [],
      .call (.write (.data (.buffer [1])) (some 7)) [], .call (.afterLookup 0) [], .ret [],
      .call (.afterConnect (-111)) [], .ret []]
    (fun c => c.stack.isEmpty && decide (Quiet c.heap) && (called c.heap.log).isEmpty &&
      decide (callbacks (acceptedReqs c.heap.log) = [7])) rfl
  simp only [Bool.and_eq_true, decide_eq_true_eq, List.isEmpty_iff] at hrun
  have haccepted := (hall _ _ c (.inl ⟨_, _, rfl⟩) hc hrun.1.1.1 hrun.1.1.2).accepted
  rw [hrun.1.2, hrun.2] at haccepted
  cases haccepted

end runs

end IotJs.Socket

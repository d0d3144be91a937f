import IotJs.Core.Connection
import IotJs.Proofs.SocketRespects

/-!
# `IotJs.Proofs.SocketSent`: what is written goes out, in order

A chunk that `write` accepted is given to `uv_write`, or waits in the queue. `SentInv` says that
what was given and what waits are the chunks that were accepted, in order, and that the log counts
what was given. Each action keeps it (`Action.sentOk`). Since the log only grows, what was given is
a front part of what will have been given (`given_prefix`).
-/

set_option autoImplicit false

namespace IotJs.Socket

open Reentrant

/-- The code gives a chunk to `uv_write`. -/
def handsOver : SocketObs → Bool
  | .native .write _ => true
  | _ => false

/-- Entries about the way of a chunk. -/
def ofSent : SocketObs → Bool
  | .note (.accepted _) | .native .write _ | .refused _ _ | .wrote _ _ => true
  | _ => false

/-- The way of the chunks: settled, in flight, in the queue. -/
structure SentInv (log : List SocketObs) (inFlight buffer : List WriteReq) : Prop where
  fifo : acceptedReqs log = log.filterMap settled ++ inFlight ++ buffer
  count : (log.filterMap settled ++ inFlight).length = log.countP handsOver

def SentOk (s : Socket) : Prop := SentInv s.log s.writes s._writableState.buffer

section entries

variable {log new : List SocketObs} {inFlight buffer rest : List WriteReq} {req : WriteReq}
  {o : SocketObs}

theorem plain_of_silent (h : o.silent = true) : ofSent o = false := by
  cases o with
  | note n => cases n <;> first | rfl | cases h
  | native => cases h
  | refused => cases h
  | wrote => cases h
  | _ => rfl

theorem acceptedReqs_plain (h : ofSent o = false) : acceptedReqs [o] = [] := by
  cases o with
  | note n => cases n <;> first | rfl | cases h
  | _ => rfl

theorem settled_plain (h : ofSent o = false) : settled o = none := by
  cases o with
  | refused => cases h
  | wrote => cases h
  | _ => rfl

theorem handsOver_plain (h : ofSent o = false) : handsOver o = false := by
  cases o with
  | native op status => cases op <;> first | rfl | cases h
  | _ => rfl

/-- An entry that is not about the chunks may be appended. -/
theorem SentInv.record (h : SentInv log inFlight buffer) (ho : ofSent o = false) :
    SentInv (log ++ [o]) inFlight buffer := by
  have hsettled : (log ++ [o]).filterMap settled = log.filterMap settled := by
    rw [List.filterMap_append, List.filterMap_cons_none (settled_plain ho)]
    exact List.append_nil _
  constructor
  · rw [acceptedReqs_append, acceptedReqs_plain ho, List.append_nil, hsettled]
    exact h.fifo
  · rw [hsettled, List.countP_append, List.countP_singleton, handsOver_plain ho]
    exact h.count

theorem SentInv.record₂ {o' : SocketObs} (h : SentInv log inFlight buffer) (ho : ofSent o = false)
    (ho' : ofSent o' = false) : SentInv (log ++ [o] ++ [o']) inFlight buffer :=
  (h.record ho).record ho'

/-- A chunk is accepted and waits. -/
theorem SentInv.queue (h : SentInv log inFlight buffer) (req : WriteReq) :
    SentInv (log ++ [.note (.accepted req)]) inFlight (buffer ++ [req]) := by
  have hsettled : (log ++ [SocketObs.note (.accepted req)]).filterMap settled =
      log.filterMap settled :=
    List.filterMap_append.trans (List.append_nil _)
  constructor
  · rw [acceptedReqs_append, hsettled, h.fifo, ← List.append_assoc]
    rfl
  · rw [hsettled, List.countP_append]
    exact h.count

/-- The first chunk of the queue is in flight. -/
theorem SentInv.hand (h : SentInv log inFlight (req :: rest)) (status : HandleStatus) :
    SentInv (log ++ [.native .write status]) (inFlight ++ [req]) rest := by
  have hsettled : (log ++ [SocketObs.native .write status]).filterMap settled =
      log.filterMap settled :=
    List.filterMap_append.trans (List.append_nil _)
  have hcount := h.count
  rw [List.length_append] at hcount
  constructor
  · rw [acceptedReqs_append, hsettled, h.fifo]
    show _ ++ [] = _
    simp only [List.append_nil, List.append_assoc, List.singleton_append]
  · rw [hsettled, List.countP_append, ← hcount]
    simp only [List.length_append, List.length_singleton, List.countP_singleton, handsOver,
      if_true]
    omega

/-- The oldest chunk in flight is settled. -/
theorem SentInv.settle (h : SentInv log (req :: rest) buffer) (ho : settled o = some req)
    (hcount : handsOver o = false) (hacc : acceptedReqs [o] = []) :
    SentInv (log ++ [o]) rest buffer := by
  have hsettled : (log ++ [o]).filterMap settled = log.filterMap settled ++ [req] := by
    rw [List.filterMap_append, List.filterMap_cons_some ho]
    rfl
  constructor
  · rw [acceptedReqs_append, hacc, hsettled, h.fifo]
    simp only [List.append_nil, List.append_assoc, List.cons_append, List.nil_append]
  · rw [hsettled, List.countP_append, List.countP_singleton, hcount, ← h.count]
    simp only [List.length_append, List.length_cons, List.length_nil, Bool.false_eq_true, if_false]
    omega

end entries

/-! ### The actions -/

section actions

variable {E : Surroundings} {k : Kind} {s t u : Socket}

/-- A chunk goes out: it is in flight, or `uv_write` has refused it. -/
theorem Hands.sentOk {req : WriteReq} (h : Hands E req s t) (hnone : s.writes = [])
    (hs : SentInv s.log s.writes (req :: s._writableState.buffer)) : SentOk t := by
  have hhand := hs.hand s.handleStatus
  cases h with
  | sent => exact hhand
  | refused timer err =>
      rw [hnone] at hhand
      have hsettle : SentInv (s.log ++ [.native .write s.handleStatus] ++ [.refused req err]) []
          s._writableState.buffer := hhand.settle rfl rfl rfl
      rw [← hnone] at hsettle
      exact hsettle

theorem Flush.sentOk (h : Flush E s t)
    (hidle : s._writableState.writing = false → s.writes = []) (hs : SentOk s) : SentOk t := by
  cases h with
  | busy => exact hs
  | idle => exact hs
  | next hw hb h =>
      have hs : SentInv s.log s.writes s._writableState.buffer := hs
      rw [hb] at hs
      exact h.sentOk (hidle hw) hs

/-- 'finish' is not about the chunks. -/
theorem Finish.sentOk (h : Finish E s t) (hs : SentOk s) : SentOk t := by
  have hfinish := SentInv.record (o := .event .finish) hs rfl
  cases h with
  | close => exact hfinish.record₂ rfl rfl
  | shutdown => exact hfinish.record rfl
  | refused => exact hfinish.record rfl

theorem Establishes.sentOk (h : Establishes s u) (hs : SentOk s) : SentOk u := by
  cases h <;> exact hs

/-- The native write of the oldest chunk has completed. -/
theorem sentOk_completed {req : WriteReq} {rest : List WriteReq} {status : Int} (hs : SentOk s)
    (hw : s.writes = req :: rest) : SentOk (completed req status s) := by
  have hs : SentInv s.log s.writes s._writableState.buffer := hs
  rw [hw] at hs
  show SentInv (s.log ++ [.wrote req status]) s.writes.tail s._writableState.buffer
  rw [hw]
  exact hs.settle rfl rfl rfl

theorem Action.sentOk (h : Action E k s t) (hb : Base s) (hs : SentOk s) : SentOk t := by
  have hadd : ∀ {o : SocketObs}, ofSent o = false →
      SentInv (s.log ++ [o]) s.writes s._writableState.buffer := fun ho => SentInv.record hs ho
  have hadd₂ : ∀ {o o' : SocketObs}, ofSent o = false → ofSent o' = false →
      SentInv (s.log ++ [o] ++ [o']) s.writes s._writableState.buffer :=
    fun ho ho' => SentInv.record₂ hs ho ho'
  cases h with
  | silent ho => exact hadd (plain_of_silent ho)
  | error => exact hadd rfl
  | queue req he hb' => exact SentInv.queue hs req
  | write req he hr hw hb' h =>
      have hnone : s.writes = [] := hb.queue.idle hw
      refine h.sentOk hnone ?_
      have hqueue := SentInv.queue hs req
      rw [hb'] at hqueue
      show SentInv (s.log ++ [.note (.accepted req)]) s.writes (req :: s._writableState.buffer)
      rw [hb']
      exact hqueue
  | reject => exact hadd rfl
  | endIdle => exact hadd rfl
  | endBusy => exact hadd rfl
  | endAgain => exact hadd rfl
  | destroyAgain => exact hadd rfl
  | close => exact hadd₂ rfl rfl
  | closeMissing => exact hadd₂ rfl rfl
  | defer => exact hadd rfl
  | afterLookup => exact hadd rfl
  | lookupFailed => exact hadd₂ rfl rfl
  | connectHandle => exact hadd rfl
  | connectFailed => exact hadd rfl
  | @establish _ u _ h hf =>
      refine hf.sentOk (fun hw => ?_) (h.sentOk hs)
      rcases h.writes hb.queue with hnil | ⟨req, -, hbusy⟩
      · exact hnil
      · rw [hw] at hbusy
        cases hbusy
  | establishFinish h hdue hf => exact hf.sentOk (h.sentOk hs)
  | complete hw hcall hf =>
      refine hf.sentOk (fun _ => ?_) (sentOk_completed hs hw)
      exact hb.queue.tail
  | completeFinish hw hcall hdue hf => exact hf.sentOk (sentOk_completed hs hw)
  | called => exact hadd rfl
  | shutdownClose => exact hadd₂ rfl rfl
  | tickFinish hi hcall he hh hf => exact hf.sentOk hs
  | tickMissing => exact hadd₂ rfl rfl
  | tickCallback => exact hadd rfl
  | tickLookupFailed => exact hadd rfl
  | readStart => exact hadd rfl
  | eof => exact hadd rfl
  | end_ => exact hadd rfl
  | _ => exact hs

end actions

/-! ### Runs -/

theorem sentOk_of_initial {s : Socket} (h : Initial s) : SentOk s := by
  obtain ⟨_, _, rfl⟩ | ⟨_, rfl⟩ := h
  · exact ⟨rfl, rfl⟩
  · exact ⟨rfl, rfl⟩

/-- In every run, what was given to `uv_write` and what waits is what was accepted. -/
theorem sent_holds (P : Platform) (E : Surroundings) {s₀ : Socket} (hinit : Initial s₀) :
    Contract.Holds (machine P) E .nil (basis.and (.ofInv SentOk)) s₀ :=
  holds_of_sound hinit (sentOk_of_initial hinit) fun _ _ _ hb hs ha => ⟨ha.sentOk hb hs, trivial⟩

section given

variable {s t : Socket}

theorem SentOk.accepted (h : SentOk s) :
    acceptedReqs s.log = given s ++ s._writableState.buffer := h.fifo

/-- What was given stays given, and more is behind it. -/
theorem given_prefix (hs : SentOk s) (ht : SentOk t) (hlog : s.log <+: t.log) :
    given s <+: given t := by
  obtain ⟨new, hnew⟩ := hlog
  have hs' : given s <+: acceptedReqs t.log := by
    rw [← hnew, acceptedReqs_append, hs.accepted, List.append_assoc]
    exact List.prefix_append ..
  have ht' : given t <+: acceptedReqs t.log := by
    rw [ht.accepted]
    exact List.prefix_append ..
  refine List.prefix_of_prefix_length_le hs' ht' ?_
  have hcount : s.log.countP handsOver ≤ t.log.countP handsOver := by
    rw [← hnew, List.countP_append]
    exact Nat.le_add_right ..
  rw [← hs.count, ← ht.count] at hcount
  exact hcount

end given

end IotJs.Socket

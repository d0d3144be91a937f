import IotJs.Proofs.SocketActions

/-!
# `IotJs.Proofs.SocketBase`: what is true of every socket

Five groups of facts, each about a few fields of a socket: its handle, the order of its life,
its write queue, its readable half and its log. Each group is a structure over these
fields alone, so an action that touches none of them keeps the group as it stands.

`Action.base` proves the groups of every action, in any surroundings, and `Action.mono` that
some facts never go back. The contract `basis` puts both together. Two places of the source
look like they could break a group and do not: `_readyToWrite` runs again on a socket that
is ready, and a socket can be destroyed before its connection is established.
-/

set_option autoImplicit false

namespace IotJs.Socket

open Reentrant

/-! ### The groups -/

/-- The handle. -/
structure HandleInv (handle : Option Handle) (isDestroyed isReady isAccepting : Bool)
    (pending : List Lookup) (attempts : Nat) : Prop where
  closed : ∀ h, handle = some h → h.closed = isDestroyed
  destroyed : isDestroyed = true → handle.isSome = true
  ready : isReady = true → handle.isSome = true
  reading : ∀ h, handle = some h → h.reading = true → isReady = true
  lookups : pending ≠ [] → handle.isSome = true
  connects : 0 < attempts → handle.isSome = true
  accepting : isAccepting = true → handle.isSome = true

/-- The order of a socket's life: ending, ended, destroyed; connecting, connected. -/
structure LifeInv (w : WritableState) (st : SocketState) (ticks : List SocketTick)
    (pending : Nat) (isAccepting : Bool) : Prop where
  destroyed : st.destroyed = true → w.ended = true
  ended : w.ended = true → w.ending = true
  writable : st.writable = !w.ending
  scheduled : .writable .emitFinish ∈ ticks → w.ending = true
  shutdowns : 0 < pending → w.ended = true
  accepting : isAccepting = true → w.ending = false
  ready : w.ready = st.connected
  idle : st.connected = true → st.connecting = false
  readStart : .readStart ∈ ticks → w.ready = true

/-- The write queue: at most one native write is in flight, and a stream that is ending has
something that will finish it, or waits for a connection. -/
structure QueueInv (w : WritableState) (inFlight : List WriteReq) (ticks : List SocketTick) :
    Prop where
  ready : w.writing = true → w.ready = true
  flushed : w.ready = true → w.writing = false → w.buffer = []
  window : w.ending = true → w.ended = false →
    .writable .emitFinish ∈ ticks ∨ w.writing = true ∨ (w.ready = false ∧ w.buffer ≠ [])
  writes : inFlight = [] ∨ ∃ req, inFlight = [req] ∧ w.writing = true

/-- The readable half. -/
structure ReadInv (r : ReadableState) (isReadable isReady : Bool) : Prop where
  unreadable : isReadable = false → r.endEmitted = true
  endEmitted : r.endEmitted = true → r.ended = true
  drained : r.endEmitted = true → r.length = 0
  ended : r.ended = true → isReady = true

/-- What the log says of the state. -/
structure LogInv (log : List SocketObs) (isEnding isEnded isDestroyed endEmitted : Bool)
    (finishListeners : Nat) : Prop where
  finish : .event .finish ∈ log ↔ isEnded = true
  end_ : .event .end_ ∈ log → endEmitted = true
  deferred : .destroyCalled ∈ log → isEnded = false → isEnding = true ∧ 1 ≤ finishListeners
  destroyed : isDestroyed = true → .destroyCalled ∈ log

section groups
variable (s : Socket)

def HandleOk : Prop :=
  HandleInv s._handle s._socketState.destroyed s._writableState.ready s.accepting s.lookups
    s.connects

def LifeOk : Prop :=
  LifeInv s._writableState s._socketState s.ticks s.shutdowns s.accepting

def QueueOk : Prop := QueueInv s._writableState s.writes s.ticks

def ReadOk : Prop := ReadInv s._readableState s._socketState.readable s._writableState.ready

def LogOk : Prop :=
  LogInv s.log s._writableState.ending s._writableState.ended s._socketState.destroyed
    s._readableState.endEmitted s.finishListeners

/-- What is true of every socket whenever outside code has control. -/
structure Base : Prop where
  handle : HandleOk s
  life : LifeOk s
  queue : QueueOk s
  read : ReadOk s
  log : LogOk s

end groups

/-- The facts of a socket that change once. -/
structure Flags where
  handle : Bool
  ready : Bool
  ending : Bool
  ended : Bool
  readEnded : Bool
  endEmitted : Bool
  destroyed : Bool
  accepting : Bool

def flags (s : Socket) : Flags where
  handle := s._handle.isSome
  ready := s._writableState.ready
  ending := s._writableState.ending
  ended := s._writableState.ended
  readEnded := s._readableState.ended
  endEmitted := s._readableState.endEmitted
  destroyed := s._socketState.destroyed
  accepting := s.accepting

/-- No flag goes back. -/
structure Flags.Le (f g : Flags) : Prop where
  handle : f.handle = true → g.handle = true
  ready : f.ready = true → g.ready = true
  ending : f.ending = true → g.ending = true
  ended : f.ended = true → g.ended = true
  readEnded : f.readEnded = true → g.readEnded = true
  endEmitted : f.endEmitted = true → g.endEmitted = true
  destroyed : f.destroyed = true → g.destroyed = true
  accepting : f.accepting = false → g.accepting = false

/-- What never goes back. -/
def Mono (s t : Socket) : Prop := s.flags.Le t.flags

theorem Mono.refl (s : Socket) : Mono s s :=
  ⟨id, id, id, id, id, id, id, id⟩

theorem Mono.trans {s t u : Socket} (h₁ : Mono s t) (h₂ : Mono t u) : Mono s u :=
  ⟨h₂.handle ∘ h₁.handle, h₂.ready ∘ h₁.ready, h₂.ending ∘ h₁.ending, h₂.ended ∘ h₁.ended,
    h₂.readEnded ∘ h₁.readEnded, h₂.endEmitted ∘ h₁.endEmitted, h₂.destroyed ∘ h₁.destroyed,
    h₂.accepting ∘ h₁.accepting⟩

/-- The base contract. -/
def basis : Contract Socket := .plain Base Mono Mono.refl Mono.trans

/-! ### Small facts -/

/-- The chunks that `write` accepted, in order. -/
def acceptedReqs (log : List SocketObs) : List WriteReq :=
  log.filterMap fun | .note (.accepted req) => some req | _ => none

theorem acceptedReqs_append (log new : List SocketObs) :
    acceptedReqs (log ++ new) = acceptedReqs log ++ acceptedReqs new :=
  List.filterMap_append

/-- A tick that was not the one that ran is still there. -/
theorem mem_eraseIdx_of_ne {ticks : List SocketTick} {i : Nat} {t u : SocketTick}
    (hi : ticks[i]? = some t) (hu : u ∈ ticks) (hne : u ≠ t) : u ∈ ticks.eraseIdx i := by
  obtain ⟨j, hj⟩ := List.mem_iff_getElem?.mp hu
  refine List.mem_eraseIdx_iff_getElem?.mpr ⟨j, fun hji => hne ?_, hj⟩
  rw [hji, hi] at hj
  exact (Option.some.inj hj).symm

/-- Entries that the log group reads. -/
def SocketObs.marks : SocketObs → Bool
  | .event .finish | .event .end_ | .destroyCalled => true
  | _ => false

theorem marks_of_silent {o : SocketObs} (h : o.silent = true) :
    SocketObs.marks o = false := by
  cases o with
  | event e => cases e <;> first | rfl | cases h
  | destroyCalled => cases h
  | _ => rfl

/-- A socket that is not writable is ending. -/
theorem LifeInv.ending_of_not_writable {w : WritableState} {st : SocketState}
    {ticks : List SocketTick} {pending : Nat} {isAccepting : Bool}
    (h : LifeInv w st ticks pending isAccepting) (hw : st.writable = false) :
    w.ending = true := by
  have hnot := h.writable
  rw [hw] at hnot
  simpa using hnot.symm

/-- A socket that is writable has not ended. -/
theorem LifeInv.ended_of_writable {w : WritableState} {st : SocketState}
    {ticks : List SocketTick} {pending : Nat} {isAccepting : Bool}
    (h : LifeInv w st ticks pending isAccepting) (hw : st.writable = true) :
    w.ended = false := by
  have hnot := h.writable
  rw [hw] at hnot
  cases he : w.ended with
  | false => rfl
  | true =>
      rw [h.ended he] at hnot
      cases hnot

/-- A socket that is ending is no longer being accepted. -/
theorem LifeInv.not_accepting {w : WritableState} {st : SocketState} {ticks : List SocketTick}
    {pending : Nat} {isAccepting : Bool} (h : LifeInv w st ticks pending isAccepting)
    (he : w.ending = true) : isAccepting = false := by
  cases hacc : isAccepting with
  | false => rfl
  | true =>
      rw [h.accepting hacc] at he
      cases he

/-- A socket that has not ended is not destroyed. -/
theorem LifeInv.not_destroyed {w : WritableState} {st : SocketState} {ticks : List SocketTick}
    {pending : Nat} {isAccepting : Bool} (h : LifeInv w st ticks pending isAccepting)
    (he : w.ended = false) : st.destroyed = false := by
  cases hd : st.destroyed with
  | false => rfl
  | true =>
      rw [h.destroyed hd] at he
      cases he

section LogInv

variable {log : List SocketObs} {ending ended destroyed endEmitted : Bool} {n : Nat}

/-- An entry that the group does not read may be appended. -/
theorem LogInv.record (h : LogInv log ending ended destroyed endEmitted n) {o : SocketObs}
    (ho : SocketObs.marks o = false) :
    LogInv (log ++ [o]) ending ended destroyed endEmitted n := by
  have hne : ∀ {p : SocketObs}, SocketObs.marks p = true → (p ∈ log ++ [o] ↔ p ∈ log) := by
    intro p hp
    rw [List.mem_append, List.mem_singleton, or_iff_left]
    rintro rfl
    rw [ho] at hp
    cases hp
  refine ⟨?_, fun hend => h.end_ ((hne rfl).mp hend),
    fun hcalled => h.deferred ((hne rfl).mp hcalled), fun hd => (hne rfl).mpr (h.destroyed hd)⟩
  rw [hne rfl]
  exact h.finish

/-- `destroy` was called on a stream that has ended. -/
theorem LogInv.destroyCalled (h : LogInv log ending ended destroyed endEmitted n)
    (he : ended = true) (d : Bool) :
    LogInv (log ++ [.destroyCalled]) ending ended d endEmitted n where
  finish := by
    rw [List.mem_append, List.mem_singleton, h.finish]
    simp
  end_ hend := h.end_ (by simpa using hend)
  deferred _ hended := by
    rw [he] at hended
    cases hended
  destroyed _ := by simp

/-- 'finish' is emitted. -/
theorem LogInv.finished (h : LogInv log ending ended destroyed endEmitted n) :
    LogInv (log ++ [.event .finish]) ending true destroyed endEmitted n where
  finish := by simp
  end_ hend := h.end_ (by simpa using hend)
  deferred _ hended := by cases hended
  destroyed hd := List.mem_append_left _ (h.destroyed hd)

end LogInv

/-! ### The actions keep the groups -/

section actions

variable {E : Surroundings} {k : Kind} {s t u : Socket}

theorem Hands.handleOk {req : WriteReq} (h : Hands E req s t) (hs : HandleOk s) :
    HandleOk t := by
  cases h <;> exact hs

theorem Flush.handleOk (h : Flush E s t) (hs : HandleOk s) : HandleOk t := by
  cases h with
  | next _ _ h => exact h.handleOk hs
  | _ => exact hs

/-- Closing the handle, and marking the socket destroyed, go together. -/
theorem handleOk_closeNow (hs : HandleOk s) (hh : s._handle.isSome = true) :
    HandleOk (closeNow s) := by
  have hsome : (closeNow s)._handle.isSome = true := by
    rw [← hh]
    exact Option.isSome_map ..
  -- the handle stays in its field, closed; only `closed` and `reading` look at it
  refine ⟨?_, fun _ => hsome, fun _ => hsome, ?_, fun _ => hsome, fun _ => hsome,
    fun _ => hsome⟩
  · intro h heq
    obtain ⟨h₀, -, rfl⟩ := Option.map_eq_some_iff.mp heq
    rfl
  · intro h heq hreading
    obtain ⟨h₀, heq₀, rfl⟩ := Option.map_eq_some_iff.mp heq
    exact hs.reading h₀ heq₀ hreading

/-- A readable half that is done once was reading, so it has a handle. -/
theorem ReadInv.isSome {r : ReadableState} {readable ready : Bool} (h : ReadInv r readable ready)
    {handle : Option Handle} (hready : ready = true → handle.isSome = true)
    (hr : readable = false ∨ r.ended = true) : handle.isSome = true := by
  rcases hr with hr | hr
  · exact hready (h.ended (h.endEmitted (h.unreadable hr)))
  · exact hready (h.ended hr)

theorem Finish.handleOk (h : Finish E s t) (hs : HandleOk s) (hr : ReadOk s) : HandleOk t := by
  cases h with
  | close timer hread => exact handleOk_closeNow hs (hr.isSome hs.ready hread)
  | shutdown => exact hs
  | refused => exact hs

theorem Establishes.handleOk (h : Establishes s u) (hs : HandleOk s) : HandleOk u := by
  have hsome : s._handle.isSome = true := by
    cases h with
    | connected timer hc => exact hs.connects hc
    | accepted timer hacc => exact hs.accepting hacc
  cases h with
  | connected timer hc =>
      exact ⟨hs.closed, fun _ => hsome, fun _ => hsome, fun _ _ _ => rfl, fun _ => hsome,
        fun _ => hsome, fun _ => hsome⟩
  | accepted timer hacc =>
      exact ⟨hs.closed, fun _ => hsome, fun _ => hsome, fun _ _ _ => rfl, fun _ => hsome,
        fun _ => hsome, fun _ => hsome⟩

theorem Establishes.readOk (h : Establishes s u) (hs : ReadOk s) : ReadOk u := by
  cases h <;> exact { hs with ended := fun _ => rfl }

theorem Action.handleOk (h : Action E k s t) (hs : Base s) : HandleOk t := by
  have hh := hs.handle
  cases h with
  | write req he hr hw hb h => exact h.handleOk hh
  | close hd he hsome => exact handleOk_closeNow hh hsome
  | newHandle hnone =>
      refine ⟨?_, fun _ => rfl, fun _ => rfl, ?_, fun _ => rfl, fun _ => rfl, fun _ => rfl⟩
      · rintro h ⟨⟩
        -- a socket without a handle is not destroyed
        cases hd : s._socketState.destroyed with
        | false => rfl
        | true =>
            have hsome := hh.destroyed hd
            rw [hnone] at hsome
            cases hsome
      · rintro h ⟨⟩ hreading
        cases hreading
  | lookup l hsome =>
      exact { hh with lookups := fun _ => hsome }
  | afterLookup =>
      exact { hh with lookups := fun hne => hh.lookups fun hnil => hne (congrArg List.tail hnil) }
  | lookupFailed =>
      exact { hh with lookups := fun hne => hh.lookups fun hnil => hne (congrArg List.tail hnil) }
  | connectHandle timer connects hsome =>
      exact { hh with connects := fun _ => hsome }
  | connectFailed =>
      exact { hh with
        connects := fun hpos => hh.connects (Nat.lt_of_lt_of_le hpos (Nat.sub_le ..)) }
  | connectIgnored =>
      exact { hh with
        connects := fun hpos => hh.connects (Nat.lt_of_lt_of_le hpos (Nat.sub_le ..)) }
  | establish h hf => exact hf.handleOk (h.handleOk hh)
  | establishFinish h hdue hf => exact hf.handleOk (h.handleOk hh) (h.readOk hs.read)
  | complete hw hcall hf => exact hf.handleOk hh
  | completeFinish hw hcall hdue hf => exact hf.handleOk hh hs.read
  | shutdownClose timer he hd hsome => exact handleOk_closeNow hh hsome
  | tickFinish hi hcall he hsome hf => exact hf.handleOk hh hs.read
  | reading hready =>
      have hsome : (s._handle.map fun h => { h with reading := true }).isSome = true := by
        rw [Option.isSome_map]
        exact hh.ready hready
      refine ⟨?_, fun _ => hsome, fun _ => hsome, fun _ _ _ => hready, fun _ => hsome,
        fun _ => hsome, fun _ => hsome⟩
      intro h heq
      obtain ⟨h₀, heq₀, rfl⟩ := Option.map_eq_some_iff.mp heq
      exact hh.closed h₀ heq₀
  | _ => exact hh

/-! The order of life. -/

theorem Hands.lifeOk {req : WriteReq} (h : Hands E req s t) (hs : LifeOk s) : LifeOk t := by
  cases h <;> exact { hs with }

theorem Flush.lifeOk (h : Flush E s t) (hs : LifeOk s) : LifeOk t := by
  cases h with
  | next _ _ h => exact h.lifeOk { hs with }
  | _ => exact hs

/-- A stream that is ending may end. -/
theorem Finish.lifeOk (h : Finish E s t) (hs : LifeOk s)
    (he : s._writableState.ending = true) : LifeOk t := by
  cases h with
  | close timer hread | shutdown | refused =>
      exact { hs with
        destroyed := fun _ => rfl
        ended := fun _ => he
        shutdowns := fun _ => rfl }

theorem Establishes.lifeOk (h : Establishes s u) (hs : LifeOk s) : LifeOk u := by
  cases h with
  | connected =>
      exact { hs with ready := rfl, idle := fun _ => rfl, readStart := fun _ => rfl }
  | accepted =>
      exact { hs with
        accepting := fun hacc => Bool.noConfusion hacc
        ready := rfl
        idle := fun _ => rfl
        readStart := fun _ => rfl }

theorem lifeOk_closeNow (hs : LifeOk s) (he : s._writableState.ended = true) :
    LifeOk (closeNow s) :=
  { hs with destroyed := fun _ => he }

theorem lifeOk_completed (hs : LifeOk s) (req : WriteReq) (status : Int) :
    LifeOk (completed req status s) :=
  { hs with }

/-- Fewer ticks, or new ones that the order of life does not read. -/
theorem LifeInv.ticks {w : WritableState} {st : SocketState} {ticks ticks' : List SocketTick}
    {shutdowns : Nat} {accepting : Bool} (h : LifeInv w st ticks shutdowns accepting)
    (hfin : .writable .emitFinish ∈ ticks' → .writable .emitFinish ∈ ticks)
    (hread : .readStart ∈ ticks' → .readStart ∈ ticks) :
    LifeInv w st ticks' shutdowns accepting :=
  { h with scheduled := h.scheduled ∘ hfin, readStart := h.readStart ∘ hread }

theorem LifeInv.eraseIdx {w : WritableState} {st : SocketState} {ticks : List SocketTick}
    {shutdowns : Nat} {accepting : Bool} (h : LifeInv w st ticks shutdowns accepting) (i : Nat) :
    LifeInv w st (ticks.eraseIdx i) shutdowns accepting :=
  h.ticks List.mem_of_mem_eraseIdx List.mem_of_mem_eraseIdx

theorem Action.lifeOk (h : Action E k s t) (hs : Base s) : LifeOk t := by
  have hl := hs.life
  cases h with
  | needDrain => exact { hl with }
  | queue req => exact { hl with }
  | write req he hr hw hb h => exact h.lifeOk { hl with }
  | callBack => exact hl.ticks (by simp) (by simp)
  | endIdle hacc he hw hb =>
      -- `end` is no call of a socket that is still being accepted
      have hnot : ¬ s.accepting = true := by simp [hacc]
      exact { hl with
        ended := fun _ => rfl
        writable := rfl
        scheduled := fun _ => rfl
        accepting := fun h => absurd h hnot
        readStart := fun hread => hl.readStart (by simpa using hread) }
  | endBusy hacc he hb =>
      have hnot : ¬ s.accepting = true := by simp [hacc]
      exact { hl with
        ended := fun _ => rfl
        writable := rfl
        scheduled := fun _ => rfl
        accepting := fun h => absurd h hnot }
  | endAgain he =>
      have hwritable : false = !s._writableState.ending := by
        rw [he]
        rfl
      exact { hl with writable := hwritable }
  | close hd he => exact lifeOk_closeNow hl he
  | connecting hc =>
      have hnot : ¬ s._socketState.connected = true := by simp [hc]
      exact { hl with idle := fun hconn => absurd hconn hnot }
  | scheduleFailed => exact hl.ticks (by simp) (by simp)
  | connectFailed => exact { hl with idle := fun _ => rfl }
  | connectIgnored => exact { hl with idle := fun _ => rfl }
  | establish h hf => exact hf.lifeOk (h.lifeOk hl)
  | establishFinish h hdue hf => exact hf.lifeOk (h.lifeOk hl) hdue.ending
  | scheduleReadStart hr =>
      exact { hl with
        scheduled := fun h => hl.scheduled (by simpa using h)
        readStart := fun _ => hr }
  | complete hw hcall hf => exact hf.lifeOk (lifeOk_completed hl _ _)
  | completeFinish hw hcall hdue hf => exact hf.lifeOk (lifeOk_completed hl _ _) hdue.ending
  | shutdownDone =>
      exact { hl with
        shutdowns := fun hpos => hl.shutdowns (Nat.lt_of_lt_of_le hpos (Nat.sub_le ..)) }
  | shutdownClose timer he =>
      have hlife : LifeInv s._writableState s._socketState s.ticks (s.shutdowns - 1)
          s.accepting := { hl with shutdowns := fun _ => he }
      exact lifeOk_closeNow hlife he
  | tickFinish hi hcall he hsome hf =>
      exact hf.lifeOk (hl.eraseIdx _) (hl.scheduled (List.mem_of_getElem? hi))
  | tickMissing hi =>
      -- the tick of 'finish' sets `ended`, and throws for want of a handle
      have he := hl.scheduled (List.mem_of_getElem? hi)
      have hended : LifeInv { s._writableState with ended := true } s._socketState s.ticks
          s.shutdowns s.accepting :=
        { hl with destroyed := fun _ => rfl, ended := fun _ => he, shutdowns := fun _ => rfl }
      exact hended.eraseIdx _
  | tickEnded => exact hl.eraseIdx _
  | tickCallback => exact hl.eraseIdx _
  | tickLookupFailed => exact hl.eraseIdx _
  | tickLookupThrown => exact hl.eraseIdx _
  | readStart => exact hl.eraseIdx _
  | unreadable => exact { hl with }
  | _ => exact hl

/-! The write queue. -/

/-- A chunk goes out on a ready stream that had nothing in flight. -/
theorem Hands.queueOk {req : WriteReq} (h : Hands E req s t)
    (hr : s._writableState.ready = true) (hw : s.writes = []) : QueueOk t := by
  cases h with
  | sent timer =>
      refine ⟨fun _ => hr, fun _ hidle => (by cases hidle), fun _ _ => .inr (.inl rfl), .inr ?_⟩
      refine ⟨req, ?_, rfl⟩
      rw [hw]
      rfl
  | refused timer err herr =>
      exact ⟨fun _ => hr, fun _ hidle => (by cases hidle), fun _ _ => .inr (.inl rfl), .inl hw⟩

/-- An idle stream has no native write in flight. -/
theorem QueueInv.idle {w : WritableState} {inFlight : List WriteReq} {ticks : List SocketTick}
    (h : QueueInv w inFlight ticks) (hw : w.writing = false) : inFlight = [] := by
  rcases h.writes with hnil | ⟨req, -, hbusy⟩
  · exact hnil
  · rw [hw] at hbusy
    cases hbusy

/-- After `writeBuffered` a ready stream is writing, or has nothing to write. -/
theorem Flush.queueOk (h : Flush E s t) (hr : s._writableState.ready = true)
    (hw : s.writes = [] ∨ ∃ req, s.writes = [req] ∧ s._writableState.writing = true) :
    QueueOk t := by
  cases h with
  | busy hbusy =>
      refine ⟨fun _ => hr, fun _ hidle => ?_, fun _ _ => .inr (.inl hbusy), hw⟩
      rw [hbusy] at hidle
      cases hidle
  | idle hidle hb he =>
      refine ⟨fun _ => hr, fun _ _ => hb, fun hending hended => ?_, hw⟩
      rw [he hending] at hended
      cases hended
  | next hidle hb h =>
      refine h.queueOk hr ?_
      rcases hw with hnil | ⟨req, -, hbusy⟩
      · exact hnil
      · rw [hidle] at hbusy
        cases hbusy

/-- An ended stream needs nothing that will finish it. -/
theorem Finish.queueOk (h : Finish E s t)
    (hr : s._writableState.writing = true → s._writableState.ready = true)
    (hf : s._writableState.ready = true → s._writableState.writing = false →
      s._writableState.buffer = [])
    (hw : s.writes = [] ∨ ∃ req, s.writes = [req] ∧ s._writableState.writing = true) :
    QueueOk t := by
  cases h with
  | close => exact ⟨hr, hf, fun _ hended => (by cases hended), hw⟩
  | shutdown => exact ⟨hr, hf, fun _ hended => (by cases hended), hw⟩
  | refused => exact ⟨hr, hf, fun _ hended => (by cases hended), hw⟩

/-- The write that completed was the only one in flight. -/
theorem QueueInv.tail {w : WritableState} {inFlight : List WriteReq} {ticks : List SocketTick}
    (h : QueueInv w inFlight ticks) : inFlight.tail = [] := by
  rcases h.writes with hnil | ⟨req, hone, -⟩
  · rw [hnil]
    rfl
  · rw [hone]
    rfl

/-- While a native write is in flight the stream is ready. -/
theorem QueueInv.ready_of_writes {w : WritableState} {inFlight rest : List WriteReq}
    {req : WriteReq} {ticks : List SocketTick} (h : QueueInv w inFlight ticks)
    (hw : inFlight = req :: rest) : w.ready = true := by
  rcases h.writes with hnil | ⟨-, -, hbusy⟩
  · rw [hnil] at hw
    cases hw
  · exact h.ready hbusy

/-- New ticks, with 'finish' among them if it was scheduled before. -/
theorem QueueInv.ticks {w : WritableState} {inFlight : List WriteReq}
    {ticks ticks' : List SocketTick} (h : QueueInv w inFlight ticks)
    (hfin : .writable .emitFinish ∈ ticks → .writable .emitFinish ∈ ticks') :
    QueueInv w inFlight ticks' :=
  { h with window := fun hending hended => (h.window hending hended).imp_left hfin }

/-- A tick other than 'finish' has run. -/
theorem QueueInv.eraseIdx {w : WritableState} {inFlight : List WriteReq}
    {ticks : List SocketTick} {i : Nat} {tick : SocketTick} (h : QueueInv w inFlight ticks)
    (hi : ticks[i]? = some tick) (hne : SocketTick.writable .emitFinish ≠ tick) :
    QueueInv w inFlight (ticks.eraseIdx i) :=
  h.ticks fun hfin => mem_eraseIdx_of_ne hi hfin hne

theorem Establishes.writes (h : Establishes s u) (hs : QueueOk s) :
    u.writes = [] ∨ ∃ req, u.writes = [req] ∧ u._writableState.writing = true := by
  cases h <;> exact hs.writes

theorem Establishes.ready (h : Establishes s u) : u._writableState.ready = true := by
  cases h <;> rfl

theorem Action.queueOk (h : Action E k s t) (hs : Base s) : QueueOk t := by
  have hq := hs.queue
  cases h with
  | needDrain => exact { hq with }
  | queue req he hb =>
      refine ⟨hq.ready, fun hready hidle => ?_, fun hending hended => ?_, hq.writes⟩
      · -- only a stream that cannot write queues a chunk
        rcases hb with (hr | hw) | hne
        · rw [show s._writableState.ready = true from hready] at hr
          cases hr
        · rw [show s._writableState.writing = false from hidle] at hw
          cases hw
        · exact absurd (hq.flushed hready hidle) hne
      · exact (hq.window hending hended).imp_right
          (Or.imp_right fun hwait => ⟨hwait.1, List.append_ne_nil_of_right_ne_nil _ (by simp)⟩)
  | write req he hr hw hb h => exact h.queueOk hr (hq.idle hw)
  | callBack => exact hq.ticks (List.mem_append_left _)
  | endIdle => exact { hq with window := fun _ _ => .inl (by simp) }
  | endBusy hacc he hb =>
      refine ⟨hq.ready, hq.flushed, fun _ _ => .inr ?_, hq.writes⟩
      -- what is left over goes out when the stream gets ready, or is in flight
      cases hw : s._writableState.writing with
      | true => exact .inl rfl
      | false =>
          have hne : s._writableState.buffer ≠ [] := fun hnil => hb ⟨hw, hnil⟩
          refine .inr ⟨?_, hne⟩
          cases hr : s._writableState.ready with
          | false => rfl
          | true => exact absurd (hq.flushed hr hw) hne
  | scheduleFailed => exact hq.ticks (List.mem_append_left _)
  | establish h hf => exact hf.queueOk h.ready (h.writes hq)
  | establishFinish h hdue hf =>
      exact hf.queueOk (fun _ => h.ready) (fun _ _ => hdue.buffer) (h.writes hq)
  | scheduleReadStart => exact hq.ticks (List.mem_append_left _)
  | complete hw hcall hf =>
      exact hf.queueOk (hq.ready_of_writes hw) (.inl hq.tail)
  | completeFinish hw hcall hdue hf =>
      exact hf.queueOk (fun hbusy => (by cases hbusy)) (fun _ _ => hdue.buffer) (.inl hq.tail)
  | tickFinish hi hcall he hsome hf => exact hf.queueOk hq.ready hq.flushed hq.writes
  | tickMissing => exact ⟨hq.ready, hq.flushed, fun _ hended => (by cases hended), hq.writes⟩
  | tickEnded hi he =>
      refine ⟨hq.ready, hq.flushed, fun _ hended => ?_, hq.writes⟩
      rw [show s._writableState.ended = false from hended] at he
      cases he
  | tickCallback c hi => exact hq.eraseIdx hi (by simp)
  | tickLookupFailed hi => exact hq.eraseIdx hi (by simp)
  | tickLookupThrown hi => exact hq.eraseIdx hi (by simp)
  | readStart hi => exact hq.eraseIdx hi (by simp)
  | _ => exact hq

/-! The readable half. -/

theorem Hands.readOk {req : WriteReq} (h : Hands E req s t) (hs : ReadOk s) : ReadOk t := by
  cases h <;> exact hs

theorem Flush.readOk (h : Flush E s t) (hs : ReadOk s) : ReadOk t := by
  cases h with
  | next _ _ h => exact h.readOk hs
  | _ => exact hs

theorem Finish.readOk (h : Finish E s t) (hs : ReadOk s) : ReadOk t := by
  cases h <;> exact hs

theorem Action.readOk (h : Action E k s t) (hs : Base s) : ReadOk t := by
  have hr := hs.read
  cases h with
  | write req he hready hw hb h => exact h.readOk hr
  | establish h hf => exact hf.readOk (h.readOk hr)
  | establishFinish h hdue hf => exact hf.readOk (h.readOk hr)
  | complete hw hcall hf => exact hf.readOk hr
  | completeFinish hw hcall hdue hf => exact hf.readOk hr
  | tickFinish hi hcall he hsome hf => exact hf.readOk hr
  | push data he =>
      -- `push` refuses a chunk after EOF, so 'end' was not emitted
      refine ⟨hr.unreadable, hr.endEmitted, fun hem => ?_, hr.ended⟩
      rw [show s._readableState.ended = true from hr.endEmitted hem] at he
      cases he
  | take => exact { hr with drained := fun _ => rfl }
  | flowing => exact { hr with }
  | eof hready => exact { hr with endEmitted := fun _ => rfl, ended := fun _ => hready }
  | end_ he hl =>
      exact { hr with
        unreadable := fun _ => rfl
        endEmitted := fun _ => he
        drained := fun _ => hl }
  | unreadable he => exact { hr with unreadable := fun _ => he }
  | _ => exact hr

/-! The log. -/

theorem Hands.logOk {req : WriteReq} (h : Hands E req s t) (hs : LogOk s) : LogOk t := by
  cases h with
  | sent => exact hs.record rfl
  | refused => exact LogInv.record (hs.record rfl) rfl

theorem Flush.logOk (h : Flush E s t) (hs : LogOk s) : LogOk t := by
  cases h with
  | next _ _ h => exact h.logOk hs
  | _ => exact hs

theorem logOk_closeNow (hs : LogOk s) (he : s._writableState.ended = true) :
    LogOk (closeNow s) := by
  exact (hs.destroyCalled he true).record rfl

theorem Finish.logOk (h : Finish E s t) (hs : LogOk s) : LogOk t := by
  cases h with
  | close timer => exact logOk_closeNow (s := { finishing s with _timer := timer }) hs.finished rfl
  | shutdown => exact hs.finished.record rfl
  | refused => exact hs.finished.record rfl

theorem Establishes.logOk (h : Establishes s u) (hs : LogOk s) : LogOk u := by
  cases h <;> exact hs

theorem Action.logOk (h : Action E k s t) (hs : Base s) : LogOk t := by
  have hl := hs.log
  cases h with
  | silent ho => exact hl.record (marks_of_silent ho)
  | error => exact hl.record rfl
  | queue => exact hl.record rfl
  | write req he hr hw hb h => exact h.logOk (hl.record rfl)
  | reject => exact hl.record rfl
  | endIdle hacc he =>
      have h := hl.record (o := .note .endReturned) rfl
      exact { h with deferred := fun hcalled hended => ⟨rfl, (h.deferred hcalled hended).2⟩ }
  | endBusy hacc he =>
      have h := hl.record (o := .note .endReturned) rfl
      exact { h with deferred := fun hcalled hended => ⟨rfl, (h.deferred hcalled hended).2⟩ }
  | endAgain => exact hl.record rfl
  | destroyAgain hd =>
      exact hl.destroyCalled (hs.life.destroyed hd) _
  | close hd he => exact logOk_closeNow hl he
  | closeMissing hd he =>
      exact (hl.destroyCalled he _).record rfl
  | defer he hn =>
      refine ⟨?_, fun hend => hl.end_ (by simpa using hend), fun _ _ => ⟨he, Nat.le_add_left ..⟩,
        fun _ => by simp⟩
      rw [List.mem_append, List.mem_singleton, or_iff_left (by simp)]
      exact hl.finish
  | once =>
      exact { hl with
        deferred := fun hcalled hended =>
          (hl.deferred hcalled hended).imp_right Nat.le_succ_of_le }
  | fire he =>
      refine ⟨hl.finish, hl.end_, fun _ hended => ?_, hl.destroyed⟩
      rw [he] at hended
      cases hended
  | afterLookup => exact hl.record rfl
  | lookupFailed => exact LogInv.record (hl.record rfl) rfl
  | connectHandle => exact hl.record rfl
  | connectFailed => exact hl.record rfl
  | establish h hf => exact hf.logOk (h.logOk hl)
  | establishFinish h hdue hf => exact hf.logOk (h.logOk hl)
  | complete hw hcall hf => exact hf.logOk (hl.record rfl)
  | completeFinish hw hcall hdue hf => exact hf.logOk (hl.record rfl)
  | called => exact hl.record rfl
  | shutdownClose timer he =>
      exact logOk_closeNow (s := { s with shutdowns := s.shutdowns - 1, _timer := timer }) hl he
  | tickFinish hi hcall he hsome hf => exact hf.logOk hl
  | tickMissing => exact hl.finished.record rfl
  | tickCallback => exact hl.record rfl
  | tickLookupFailed => exact hl.record rfl
  | readStart => exact hl.record rfl
  | eof => exact hl.record rfl
  | end_ he =>
      refine ⟨?_, fun _ => rfl, fun hcalled hended => hl.deferred (by simpa using hcalled) hended,
        fun hd => List.mem_append_left _ (hl.destroyed hd)⟩
      rw [List.mem_append, List.mem_singleton, or_iff_left (by simp)]
      exact hl.finish
  | _ => exact hl

/-- Every action keeps what is true of every socket. -/
theorem Action.base (h : Action E k s t) (hs : Base s) : Base t :=
  ⟨h.handleOk hs, h.lifeOk hs, h.queueOk hs, h.readOk hs, h.logOk hs⟩

/-! ### What never goes back -/

theorem Hands.mono {req : WriteReq} (h : Hands E req s t) : Mono s t := by
  cases h <;> exact .refl s

theorem Flush.mono (h : Flush E s t) : Mono s t := by
  cases h with
  | next _ _ h => exact h.mono
  | _ => exact .refl s

theorem mono_closeNow : Mono s (closeNow s) where
  handle h := by
    rw [← h]
    exact Option.isSome_map ..
  ready := id
  ending := id
  ended := id
  readEnded := id
  endEmitted := id
  destroyed _ := rfl
  accepting := id

theorem Finish.mono (h : Finish E s t) : Mono s t := by
  have hfin : Mono s (finishing s) := ⟨id, id, id, fun _ => rfl, id, id, id, id⟩
  cases h with
  | close timer => exact hfin.trans (mono_closeNow (s := { finishing s with _timer := timer }))
  | shutdown => exact hfin
  | refused => exact hfin

theorem Establishes.mono (h : Establishes s u) : Mono s u := by
  cases h with
  | connected => exact ⟨id, fun _ => rfl, id, id, id, id, id, id⟩
  | accepted => exact ⟨id, fun _ => rfl, id, id, id, id, id, fun _ => rfl⟩

/-- Every action leaves what never goes back. -/
theorem Action.mono (h : Action E k s t) : Mono s t := by
  cases h with
  | write req he hr hw hb h => exact h.mono
  | endIdle => exact ⟨id, id, fun _ => rfl, id, id, id, id, id⟩
  | endBusy => exact ⟨id, id, fun _ => rfl, id, id, id, id, id⟩
  | close => exact mono_closeNow
  | newHandle => exact ⟨fun _ => rfl, id, id, id, id, id, id, id⟩
  | establish h hf => exact h.mono.trans hf.mono
  | establishFinish h hdue hf => exact h.mono.trans hf.mono
  | complete hw hcall hf => exact hf.mono
  | completeFinish hw hcall hdue hf => exact hf.mono
  | shutdownClose timer =>
      exact mono_closeNow (s := { s with shutdowns := s.shutdowns - 1, _timer := timer })
  | tickFinish hi hcall he hsome hf => exact hf.mono
  | tickMissing => exact ⟨id, id, id, fun _ => rfl, id, id, id, id⟩
  | reading =>
      refine ⟨fun h => ?_, id, id, id, id, id, id, id⟩
      rw [← h]
      exact Option.isSome_map ..
  | eof => exact ⟨id, id, id, id, fun _ => rfl, id, id, id⟩
  | end_ => exact ⟨id, id, id, id, id, fun _ => rfl, id, id⟩
  | _ => exact .refl s

end actions

/-! ### The start of a run -/

/-- A socket as it is made. -/
theorem base_of_initial {s : Socket} (h : Initial s) : Base s := by
  obtain ⟨highWaterMark, allowHalfOpen, rfl⟩ | ⟨allowHalfOpen, rfl⟩ := h
  · refine ⟨⟨?_, ?_, ?_, ?_, ?_, ?_, ?_⟩, ⟨?_, ?_, ?_, ?_, ?_, ?_, ?_, ?_, ?_⟩, ⟨?_, ?_, ?_, ?_⟩,
      ⟨?_, ?_, ?_, ?_⟩, ⟨?_, ?_, ?_, ?_⟩⟩ <;>
      simp [new, WritableState.new, ReadableState.new, SocketState.new]
  · refine ⟨⟨?_, ?_, ?_, ?_, ?_, ?_, ?_⟩, ⟨?_, ?_, ?_, ?_, ?_, ?_, ?_, ?_, ?_⟩, ⟨?_, ?_, ?_, ?_⟩,
      ⟨?_, ?_, ?_, ?_⟩, ⟨?_, ?_, ?_, ?_⟩⟩ <;>
      simp [accepted, new, WritableState.new, ReadableState.new, SocketState.new]

theorem log_of_initial {s : Socket} (h : Initial s) : s.log = [] := by
  obtain ⟨_, _, rfl⟩ | ⟨_, rfl⟩ := h
  · rfl
  · rfl

theorem ticks_of_initial {s : Socket} (h : Initial s) : s.ticks = [] := by
  obtain ⟨_, _, rfl⟩ | ⟨_, rfl⟩ := h
  · rfl
  · rfl

end IotJs.Socket

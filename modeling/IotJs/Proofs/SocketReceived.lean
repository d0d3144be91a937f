import IotJs.Core.Connection
import IotJs.Proofs.SocketAside
import IotJs.Proofs.SocketWp

/-!
# `IotJs.Proofs.SocketReceived`: what comes in goes out, in order

The readable half of a `Socket` keeps the bytes of the blocks that came in: what was taken out of it
and what it still has are the blocks, in order, whenever outside code has control (`ReceivedOk`).
The functions of `stream_readable.js` are proved one by one, with `onSocketEnd` inside of 'end'.
All the others stay aside.

A call takes at most one block in, before its first yield (`exec_onread_data`). So a run tells block
for block what came in.
-/

set_option autoImplicit false

namespace IotJs.Socket

open Reentrant ReadableObject

/-- The bytes of the blocks that came in. -/
def pushedBytes (log : List SocketObs) : Bytes :=
  log.flatMap fun | .readNote (.pushed data) => data | _ => []

/-- The bytes that 'data' and `read` have taken out. -/
def takenBytes (log : List SocketObs) : Bytes :=
  log.flatMap fun | .event (.data (some data)) => data | .readNote (.took data) => data | _ => []

structure ReceivedOk (s : Socket) : Prop where
  conserved : takenBytes s.log ++ s._readableState.buffer.flatten = pushedBytes s.log
  length : s._readableState.length = s._readableState.buffer.flatten.length
  flowing : s._readableState.flowing = true → s._readableState.length = 0
  met : .readNote .eof ∈ s.log ↔ s._readableState.ended = true

/-! ### The log -/

theorem pushedBytes_append (log new : List SocketObs) :
    pushedBytes (log ++ new) = pushedBytes log ++ pushedBytes new := List.flatMap_append

theorem takenBytes_append (log new : List SocketObs) :
    takenBytes (log ++ new) = takenBytes log ++ takenBytes new := List.flatMap_append

theorem pushedBytes_of_noBlock {new : List SocketObs} (h : new.all noBlock = true) :
    pushedBytes new = [] := by
  refine List.flatMap_eq_nil_iff.mpr fun o ho => ?_
  have hblock := List.all_eq_true.mp h o ho
  match o with
  | .readNote (.pushed data) => cases hblock
  | .readNote .eof => rfl
  | .readNote (.took data) => rfl
  | .readNote (.returned data) => rfl
  | .readNote .assertionFailed => rfl
  | .note n => rfl
  | .event e => rfl
  | .native op status => rfl
  | .refused req err => rfl
  | .wrote req status => rfl
  | .called callback status => rfl
  | .calledBack callback => rfl
  | .destroyCalled => rfl
  | .connectFailed => rfl

theorem takenBytes_of_aside {new : List SocketObs} (h : new.all aside = true) :
    takenBytes new = [] := by
  refine List.flatMap_eq_nil_iff.mpr fun o ho => ?_
  have hbeside := List.all_eq_true.mp h o ho
  match o with
  | .readNote n => cases hbeside
  | .event (.data data) => cases hbeside
  | .event .drain => rfl
  | .event .finish => rfl
  | .event .readable => rfl
  | .event .pause => rfl
  | .event .end_ => rfl
  | .event (.lookup err) => rfl
  | .event .connect => rfl
  | .event .timeout => rfl
  | .event .close => rfl
  | .event .connection => rfl
  | .event (.error message) => rfl
  | .note n => rfl
  | .native op status => rfl
  | .refused req err => rfl
  | .wrote req status => rfl
  | .called callback status => rfl
  | .calledBack callback => rfl
  | .destroyCalled => rfl
  | .connectFailed => rfl

theorem Grows.pushedBytes_eq {s t : Socket} (h : Grows s t) :
    pushedBytes t.log = pushedBytes s.log := by
  obtain ⟨new, hlog, hnew⟩ := h
  rw [hlog, pushedBytes_append, pushedBytes_of_noBlock hnew, List.append_nil]

/-! ### The functions of the readable half -/

section specs

variable {P : Platform} {E : Env Socket SocketYield SocketNative Call} {s t : Socket}

/-- The method, started in `s`, keeps what was received. -/
def Passes {α : Type} (E : Env Socket SocketYield SocketNative Call) (m : Method α) (s : Socket) :
    Prop :=
  m.wp E .nil (.ofInv ReceivedOk) ReceivedOk (fun _ => ReceivedOk) s

theorem Aside.received (h : ReceivedOk s) (hst : Aside s t) : ReceivedOk t := by
  obtain ⟨hstate, new, hlog, hnew⟩ := hst
  have hmem : .readNote .eof ∉ new := fun hmem =>
    Bool.false_ne_true (List.all_eq_true.mp hnew _ hmem)
  constructor
  · rw [hstate, hlog, takenBytes_append, takenBytes_of_aside hnew, pushedBytes_append,
      pushedBytes_of_noBlock (List.all_eq_true.mpr fun o ho =>
        noBlock_of_aside (List.all_eq_true.mp hnew o ho)), List.append_nil, List.append_nil]
    exact h.conserved
  · rw [hstate]
    exact h.length
  · rw [hstate]
    exact h.flowing
  · rw [hstate, hlog, List.mem_append, or_iff_left hmem]
    exact h.met

/-- What stays aside keeps what was received. -/
theorem passes_of_aside {α : Type} {m : Method α} (hm : m.ChangesBy Aside) (h : ReceivedOk s) :
    Passes E m s := by
  have hpost : ∀ s t, ReceivedOk s → Aside s t → (Contract.ofInv ReceivedOk).Post s t :=
    fun _ _ hs hst => (Contract.ofInv_post ..).mpr (hst.received hs)
  have hwp : m.wp E .nil (.ofInv ReceivedOk) ((Contract.ofInv ReceivedOk).Post s)
      (fun _ => (Contract.ofInv ReceivedOk).Post s) s :=
    (hm s).wp hpost m ((Contract.ofInv_post ..).mpr h)
  exact Prog.wp_mono (fun _ ht => ht.1) (fun _ _ ht => ht.1) _ hwp

/-- Nothing is known after an event but that it was received. -/
theorem passes_yieldTo (h : ReceivedOk s) (v : SocketYield) : Passes E (Prog.yieldTo v) s :=
  Prog.wp_yieldTo_inv h (fun _ ht => ht) fun _ ht => ht

theorem ReceivedOk.record {o : SocketObs} (h : ReceivedOk s) (ho : aside o = true) :
    ReceivedOk { s with log := s.log ++ [o] } := by
  refine Aside.received h ⟨rfl, [o], rfl, ?_⟩
  rw [List.all_cons, ho]
  rfl

theorem emitEnd_passes (h : ReceivedOk s) : Passes E (readable P).emitEnd s := by
  refine wp_emitEnd.mpr ⟨fun _ => h, fun _ => ⟨fun _ => ?_, fun _ => h⟩⟩
  refine (Prog.wp_bind ..).mpr (wp_record.mpr ((Prog.wp_bind ..).mpr ?_))
  have hend : ReceivedOk { s with
      _readableState := { s._readableState with endEmitted := true }
      log := s.log ++ [.event .end_] } := by
    have hrecord := h.record (o := .event .end_) rfl
    exact ⟨hrecord.conserved, hrecord.length, hrecord.flowing, hrecord.met⟩
  have hlisten : Passes E (onSocketEnd P) _ := passes_of_aside onSocketEnd_aside hend
  exact Prog.wp_mono (fun _ ht => ht) (fun _ _ ht => passes_yieldTo ht _) _ hlisten

theorem emitEndIfEmpty_passes (h : ReceivedOk s) : Passes E (readable P).emitEndIfEmpty s :=
  wp_emitEndIfEmpty.mpr ⟨fun _ => emitEnd_passes h, fun _ => h⟩

/-- The bytes of a 'data' event are taken out when its listeners run. -/
theorem emitData_passes {data : Option Bytes} (hlength : s._readableState.length = 0)
    (h : ReceivedOk { s with log := s.log ++ [.event (.data data)] }) :
    Passes E ((readable P).emitData P data) s := by
  refine (wp_emitData hlength).mpr ((wp_emit (e := .data data) (by simp)).mpr ?_)
  exact Prog.wp_yieldTo_inv h (fun _ ht => emitEndIfEmpty_passes ht) fun _ ht => ht

theorem onEof_passes (h : ReceivedOk s) : Passes E (readable P).onEof s := by
  refine wp_onEof.mpr (wp_readable_note.mpr ?_)
  have hmet : ReceivedOk { s with
      _readableState := { s._readableState with ended := true }
      log := s.log ++ [.readNote .eof] } := by
    refine ⟨?_, h.length, h.flowing, iff_of_true ?_ rfl⟩
    · rw [takenBytes_append, pushedBytes_append]
      show takenBytes s.log ++ [] ++ _ = pushedBytes s.log ++ []
      rw [List.append_nil, List.append_nil]
      exact h.conserved
    · exact List.mem_append_right _ List.mem_cons_self
  exact ⟨fun _ => emitEnd_passes hmet, fun _ => hmet⟩

theorem pause_passes (h : ReceivedOk s) : Passes E (readable P).pause s := by
  have hrecord := h.record (o := .event .pause) rfl
  have hpaused : ReceivedOk { s with
      _readableState := { s._readableState with flowing := false }
      log := s.log ++ [.event .pause] } :=
    ⟨hrecord.conserved, hrecord.length, nofun, hrecord.met⟩
  exact wp_pause.mpr
    ⟨fun _ => (wp_emit (e := .pause) (by simp)).mpr (passes_yieldTo hpaused _), fun _ => h⟩

/-- What the stream has is taken out as a whole. -/
theorem ReceivedOk.take {o : SocketObs} (flowing : Bool) (h : ReceivedOk s)
    (ho : takenBytes [o] = s._readableState.buffer.flatten) (hblock : noBlock o = true)
    (hne : o ≠ .readNote .eof) :
    ReceivedOk { s with
      _readableState := { s._readableState with flowing := flowing, buffer := [], length := 0 }
      log := s.log ++ [o] } := by
  refine ⟨?_, rfl, fun _ => rfl, ?_⟩
  · have hnone : pushedBytes [o] = [] :=
      pushedBytes_of_noBlock (List.all_eq_true.mpr fun o' ho' => by
        rw [List.mem_singleton.mp ho']
        exact hblock)
    rw [takenBytes_append, pushedBytes_append, ho, hnone, ← h.conserved, List.append_nil]
    exact List.append_nil _
  · rw [List.mem_append, List.mem_singleton, or_iff_left hne.symm]
    exact h.met

/-- A stream that has bytes has a buffer. -/
theorem ReceivedOk.nonempty (h : ReceivedOk s) (hlength : 0 < s._readableState.length) :
    ¬ (s._readableState.buffer = [] ∨ s._readableState.length = 0) := by
  rintro (hbuffer | hzero)
  · have hempty := h.length
    rw [hbuffer] at hempty
    exact absurd hempty (Nat.pos_iff_ne_zero.mp hlength)
  · exact absurd hzero (Nat.pos_iff_ne_zero.mp hlength)

theorem resume_passes (h : ReceivedOk s) : Passes E ((readable P).resume P) s := by
  refine wp_resume.mpr ⟨fun _ => ⟨fun hlength => ?_, fun hlength => ?_⟩, fun _ => h⟩
  · have hlength : 0 < s._readableState.length := hlength
    refine wp_readBuffer_none.mpr ⟨fun hnone => absurd hnone (h.nonempty hlength), fun _ => ?_⟩
    refine emitData_passes rfl (h.take true ?_ rfl nofun)
    exact List.append_nil _
  · have hzero : s._readableState.length = 0 := by
      have hnot : ¬ 0 < s._readableState.length := hlength
      omega
    exact ⟨h.conserved, h.length, fun _ => hzero, h.met⟩

theorem on_passes (ev : String) (h : ReceivedOk s) : Passes E ((readable P).on P ev) s := by
  refine (Prog.wp_bind ..).mpr ?_
  have hlistens : ReceivedOk { s with errorListener := s.errorListener || ev = "error" } :=
    ⟨h.conserved, h.length, h.flowing, h.met⟩
  exact (Prog.wp_ite ..).mpr ⟨fun _ => resume_passes hlistens, fun _ => hlistens⟩

/-- `read` takes everything or nothing. -/
theorem read_passes (n : Option Int) (h : ReceivedOk s) : Passes E ((readable P).read n) s := by
  refine wp_read.mpr ⟨fun hn => ?_, fun _ => wp_afterReadBuffer_none.mpr (emitEndIfEmpty_passes h)⟩
  have hle := readLength_le s._readableState.length n
  have hn : 0 < readLength s._readableState.length n := hn
  have hlength : 0 < s._readableState.length := by omega
  refine (wp_readBuffer_some hn).mpr ⟨fun hnone => absurd hnone (h.nonempty hlength), fun _ =>
    ⟨fun _ => wp_afterReadBuffer_some.mpr (wp_readable_note.mpr ?_), fun _ => h⟩⟩
  have htake := h.take (o := .readNote (.took s._readableState.buffer.flatten))
    s._readableState.flowing (List.append_nil _) rfl nofun
  refine Prog.wp_mono (fun _ ht => ht) (fun _ t ht => ?_) _ (emitEndIfEmpty_passes htake)
  refine wp_readable_note.mpr ⟨?_, ht.length, ht.flowing, ?_⟩
  · rw [takenBytes_append, pushedBytes_append]
    show takenBytes t.log ++ [] ++ _ = pushedBytes t.log ++ []
    rw [List.append_nil, List.append_nil]
    exact ht.conserved
  · rw [List.mem_append, List.mem_singleton, or_iff_left nofun]
    exact ht.met

theorem emit_error_passes (message : String) (h : ReceivedOk s) :
    Passes E ((readable P).emit (.error message)) s :=
  passes_of_aside (emit_aside (e := .error message) rfl) h

theorem push_passes (data : Data) (h : ReceivedOk s) :
    Passes E ((readable P).push P (.data data)) s := by
  refine wp_push.mpr ⟨nofun, nofun, fun data' heq => ?_⟩
  obtain rfl := Chunk.data.inj heq
  refine ⟨fun _ => emit_error_passes _ h, fun hended => wp_readable_note.mpr ?_⟩
  have hmet : ∀ o : SocketObs, o ≠ .readNote .eof →
      (.readNote .eof ∈ s.log ++ [.readNote (.pushed (data.toBuffer P))] ++ [o] ↔
        s._readableState.ended = true) := by
    intro o ho
    rw [List.mem_append, List.mem_append, List.mem_singleton, List.mem_singleton,
      or_iff_left ho.symm, or_iff_left nofun]
    exact h.met
  refine ⟨fun hflowing => ?_, fun hflowing => ?_⟩
  · -- a flowing stream is empty, so the block overtakes nothing
    have hzero := h.flowing hflowing
    have hempty : s._readableState.buffer.flatten = [] :=
      List.length_eq_zero_iff.mp (h.length ▸ hzero)
    have hall := h.conserved
    rw [hempty, List.append_nil] at hall
    refine emitData_passes hzero ⟨?_, h.length, h.flowing, hmet (.event (.data _)) nofun⟩
    show takenBytes (s.log ++ _ ++ _) ++ s._readableState.buffer.flatten =
      pushedBytes (s.log ++ _ ++ _)
    rw [takenBytes_append, takenBytes_append, pushedBytes_append, pushedBytes_append, hall, hempty]
    show pushedBytes s.log ++ [] ++ (data.toBuffer P ++ []) ++ [] =
      pushedBytes s.log ++ (data.toBuffer P ++ []) ++ []
    rw [List.append_nil (pushedBytes s.log)]
  · refine (wp_emit (e := .readable) (by simp)).mpr
      (passes_yieldTo ⟨?_, ?_, fun hf => ?_, hmet (.event .readable) nofun⟩ _)
    · show takenBytes (s.log ++ _ ++ _) ++ (s._readableState.buffer ++ [data.toBuffer P]).flatten =
        pushedBytes (s.log ++ _ ++ _)
      rw [takenBytes_append, takenBytes_append, pushedBytes_append, pushedBytes_append,
        ← h.conserved, List.flatten_append, List.flatten_singleton]
      show takenBytes s.log ++ [] ++ [] ++ _ =
        takenBytes s.log ++ _ ++ (data.toBuffer P ++ []) ++ []
      simp only [List.append_nil, List.append_assoc]
    · show s._readableState.length + (data.toBuffer P).length =
        (s._readableState.buffer ++ [data.toBuffer P]).flatten.length
      rw [List.flatten_append, List.flatten_singleton, List.length_append, ← h.length]
    · have hf : s._readableState.flowing = true := hf
      rw [show s._readableState.flowing = false from hflowing] at hf
      cases hf

theorem onreadEof_passes (h : ReceivedOk s) : Passes E (onreadEof P) s := by
  have hrest : (do
      modifyState fun state => { state with readable := false }
      maybeDestroy P : Method Unit).ChangesBy Aside :=
    (modifyState_aside _).bind fun _ => maybeDestroy_aside
  have hreset := passes_of_aside (E := E) resetSocketTimeout_aside h
  refine (Prog.wp_bind ..).mpr (Prog.wp_mono (fun _ ht => ht) (fun _ t ht => ?_) _ hreset)
  refine (Prog.wp_bind ..).mpr (Prog.wp_mono (fun _ hu => hu) (fun _ u hu => ?_) _
    (onEof_passes ht))
  exact (Prog.wp_ite ..).mpr ⟨fun _ => passes_of_aside hrest hu, fun _ => hu⟩

theorem onread_passes (result : ReadResult) (h : ReceivedOk s) : Passes E (onread P result) s := by
  have hreset := passes_of_aside (E := E) resetSocketTimeout_aside h
  cases result with
  | eof => exact onreadEof_passes h
  | error nread =>
      refine (Prog.wp_bind ..).mpr (Prog.wp_mono (fun _ ht => ht) (fun _ t ht => ?_) _ hreset)
      exact emit_error_passes _ ht
  | data buffer =>
      refine (Prog.wp_bind ..).mpr (Prog.wp_mono (fun _ ht => ht) (fun _ t ht => ?_) _ hreset)
      refine (Prog.wp_ite ..).mpr ⟨fun _ => ?_, fun _ => push_passes _ ht⟩
      cases hsplit : splitEof P buffer with
      | mk payload eofNeeded =>
          have heof : ∀ u, ReceivedOk u →
              Passes E (if eofNeeded then onreadEof P else pure ()) u := by
            intro u hu
            exact (Prog.wp_ite ..).mpr ⟨fun _ => onreadEof_passes hu, fun _ => hu⟩
          cases payload with
          | none => exact heof t ht
          | some payload =>
              exact (Prog.wp_bind ..).mpr (Prog.wp_mono (fun _ hu => hu) (fun _ => heof) _
                (push_passes _ ht))

end specs

theorem received_of_initial {s : Socket} (h : Initial s) : ReceivedOk s := by
  obtain ⟨_, _, rfl⟩ | ⟨_, rfl⟩ := h
  · exact ⟨rfl, rfl, nofun, iff_of_false List.not_mem_nil nofun⟩
  · exact ⟨rfl, rfl, nofun, iff_of_false List.not_mem_nil nofun⟩

/-- In every run, what came in is what was taken and what is still there. -/
theorem received_holds (P : Platform) (E : Env Socket SocketYield SocketNative Call)
    {s₀ : Socket} (hinit : Initial s₀) :
    Contract.Holds (machine P) E .nil (.ofInv ReceivedOk) s₀ := by
  refine .intro (received_of_initial hinit) fun i _ s _ h _ _ => ?_
  have hpass : Passes E (body P i) s := by
    cases i with
    | read n =>
        exact (Prog.wp_bind ..).mpr (Prog.wp_mono (fun _ ht => ht) (fun _ _ ht => ht) _
          (read_passes n h))
    | pause => exact pause_passes h
    | resume => exact resume_passes h
    | on ev => exact on_passes ev h
    | onread result => exact onread_passes result h
    | _ => exact passes_of_aside (body_aside rfl) h
  have hpost : ∀ t, ReceivedOk t → (Contract.ofInv ReceivedOk).Post s t :=
    fun _ ht => (Contract.ofInv_post ..).mpr ht
  exact Prog.wp_mono hpost (fun _ => hpost) _ hpass

/-! ### What one call takes in -/

/-- A stream that has met EOF takes nothing in. -/
def blockNote (ended : Bool) (block : Bytes) : List SocketObs :=
  if ended then [] else [.readNote (.pushed block)]

theorem pushedBytes_blockNote (ended : Bool) (block : Bytes) :
    pushedBytes (blockNote ended block) = if ended then [] else block := by
  cases ended with
  | true => rfl
  | false => exact List.append_nil block

section onread

variable {P : Platform}

theorem exec_resetSocketTimeout (rs : List Int) (s : Socket) :
    ∃ t, resetSocketTimeout.exec rs s = .done () t ∧ t.log = s.log ∧
      t._readableState = s._readableState := by
  show ∃ t, Prog.exec (if !s._socketState.destroyed then _ else _) rs s = _ ∧ _
  split
  · exact ⟨_, rfl, rfl, rfl⟩
  · exact ⟨_, rfl, rfl, rfl⟩

/-- What `push` of a block does first, and what it does then. -/
theorem exec_push (data : Data) (rs : List Int) (s : Socket) :
    ∃ (rest : Method Unit) (t : Socket), rest.ChangesBy Grows ∧
      t.log = s.log ++ blockNote s._readableState.ended (data.toBuffer P) ∧
      ((readable P).push P (.data data)).exec rs s = rest.exec rs t := by
  cases hended : s._readableState.ended with
  | true =>
      refine ⟨(readable P).emitError "stream.push() after EOF", s, readable_grows.emit _,
        (List.append_nil _).symm, ?_⟩
      show Prog.exec (if s._readableState.ended then _ else _) rs s = _
      rw [hended]
      rfl
  | false =>
      let rest : Method Unit := do
        if (← (readable P).getState).flowing then
          (readable P).emitData P (some (data.toBuffer P))
        else
          (readable P).modifyState fun state =>
            { state with
              length := state.length + (data.toBuffer P).length
              buffer := state.buffer ++ [data.toBuffer P] }
          (readable P).emitReadable
      refine ⟨rest, { s with log := s.log ++ [.readNote (.pushed (data.toBuffer P))] }, ?_, rfl, ?_⟩
      · refine ReadableObject.ChangesBy.getState.bind fun state => .ite ?_ ?_
        · exact readable_grows.emitData _
        · exact (readable_grows.modifyState _).bind fun _ => readable_grows.emit _
      · show Prog.exec (if s._readableState.ended then _ else _) rs s = _
        rw [hended]
        rfl

/-- A block is taken in before outside code runs, and nothing else is. -/
theorem exec_onread_data (hnuttx : P.nuttx = false) (buffer : Bytes) (rs : List Int) (s : Socket) :
    ∃ (rest : Method Unit) (rs' : List Int) (t : Socket), rest.ChangesBy Grows ∧
      t.log = s.log ++ blockNote s._readableState.ended buffer ∧
      (onread P (.data buffer)).exec rs s = rest.exec rs' t := by
  obtain ⟨u, hu, hsame, hstate⟩ := exec_resetSocketTimeout rs s
  obtain ⟨n, hn⟩ := Prog.exec_bind_done
    (fun _ => (readable P).push P (.data (.buffer buffer))) hu
  obtain ⟨rest, t, hrest, hlog, hpush⟩ := exec_push (P := P) (.buffer buffer) (rs.drop n) u
  refine ⟨rest, rs.drop n, t, hrest, ?_, ?_⟩
  · rw [hlog, hstate, hsame]
    rfl
  · rw [← hpush, ← hn, onread, hnuttx]
    rfl

end onread

/-! ### What one step of a run takes in -/

/-- A write that leaves what the log says. -/
def LogExtends (s t : Socket) : Prop := s.log <+: t.log

section runs

variable {P : Platform} {E : Env Socket SocketYield SocketNative Call} {s₀ : Socket}
  {c c' : Config Socket SocketYield SocketNative} {m : Move Call}

theorem LogExtends.refl (s : Socket) : LogExtends s s := List.prefix_refl _

theorem LogExtends.trans {s t u : Socket} (h₁ : LogExtends s t) (h₂ : LogExtends t u) :
    LogExtends s u :=
  List.IsPrefix.trans h₁ h₂

theorem Grows.logExtends {s t : Socket} (h : Grows s t) : LogExtends s t := by
  obtain ⟨new, hlog, -⟩ := h
  exact ⟨new, hlog.symm⟩

theorem push_logExtends (chunk : Chunk) : ((readable P).push P chunk).ChangesBy LogExtends := by
  have hobject : (readable P).ChangesBy LogExtends :=
    { setState := fun state s => (readable_grows.setState state s).logExtends
      emit := fun e => (readable_grows.emit e).mono fun _ _ h => h.logExtends
      addListener := fun ev => (readable_grows.addListener ev).mono fun _ _ h => h.logExtends
      note := fun n _ _ s => (Prog.changes_modify _).mpr ⟨[.readNote n], rfl⟩ }
  refine fun s => hobject.push chunk (fun data => ?_) ?_
  · exact (Prog.changes_modify _).mpr ⟨[.readNote (.pushed data)], rfl⟩
  · exact (Prog.changes_modify _).mpr ⟨[.readNote .eof], rfl⟩

theorem body_logExtends (i : Call) : (body P i).ChangesBy LogExtends := by
  by_cases hi : ∃ buffer, i = .onread (.data buffer)
  · obtain ⟨buffer, rfl⟩ := hi
    have hreset : resetSocketTimeout.ChangesBy LogExtends :=
      resetSocketTimeout_aside.mono fun _ _ h => h.grows.logExtends
    have heof : (onreadEof P).ChangesBy LogExtends := onreadEof_grows.mono fun _ _ h => h.logExtends
    refine hreset.bind fun _ => .ite ?_ (push_logExtends _)
    cases splitEof P buffer with
    | mk payload eofNeeded =>
        have hrest : (if eofNeeded then onreadEof P else pure () : Method Unit).ChangesBy
            LogExtends :=
          .ite heof fun _ => trivial
        cases payload with
        | none => exact hrest
        | some payload => exact (push_logExtends _).bind fun _ => hrest
  · exact (body_grows fun buffer heq => hi ⟨buffer, heq⟩).mono fun _ _ h => h.logExtends

/-- The log of a socket only grows. -/
theorem step_logExtends (hc : (machine P).Reach E s₀ c) (hstep : (machine P).step c m = some c') :
    c.heap.log <+: c'.heap.log := by
  have hwaits : c.ChangesBy LogExtends :=
    Machine.reach_changesBy (fun i s _ _ _ _ ho => (body_logExtends i s).waiting ho) hc
  exact Machine.step_changes LogExtends.refl LogExtends.trans hwaits hstep
    fun i _ _ => body_logExtends i c.heap

/-- Whatever waits takes no block in. -/
theorem waits_grow (hnuttx : P.nuttx = false) (hc : (machine P).Reach E s₀ c) :
    c.ChangesBy Grows := by
  refine Machine.reach_changesBy (fun i s rs u k t ho => ?_) hc
  by_cases hi : ∃ buffer, i = .onread (.data buffer)
  · obtain ⟨buffer, rfl⟩ := hi
    obtain ⟨rest, rs', s', hrest, -, hexec⟩ := exec_onread_data hnuttx buffer rs s
    have ho : (onread P (.data buffer)).exec rs s = .yielded u k t := ho
    rw [hexec] at ho
    exact (hrest s').waiting ho
  · exact (body_grows (fun buffer heq => hi ⟨buffer, heq⟩) s).waiting ho

/-- A step takes in the block that it reports, and nothing else. -/
theorem step_pushed (hnuttx : P.nuttx = false) (hc : (machine P).Reach E s₀ c)
    (hstep : (machine P).step c m = some c') :
    pushedBytes c'.heap.log = pushedBytes c.heap.log ++
      if c.heap._readableState.ended then [] else Connection.block m := by
  by_cases hm : ∃ buffer rs, m = .call (.onread (.data buffer)) rs
  · obtain ⟨buffer, rs, rfl⟩ := hm
    obtain ⟨-, rfl⟩ := Machine.step_call hstep
    obtain ⟨rest, rs', t, hrest, hlog, hexec⟩ := exec_onread_data hnuttx buffer rs c.heap
    have hgrows : Grows t (rest.exec rs' t).heap := (hrest t).exec Grows.refl Grows.trans rs'
    have hbody : ((machine P).body (.onread (.data buffer))).exec rs c.heap = rest.exec rs' t :=
      hexec
    rw [settle_heap, hbody, hgrows.pushedBytes_eq, hlog, pushedBytes_append,
      pushedBytes_blockNote]
    rfl
  · have hgrows : Grows c.heap c'.heap := by
      refine Machine.step_changes Grows.refl Grows.trans (waits_grow hnuttx hc) hstep
        fun i rs heq => body_grows (fun buffer hi => hm ⟨buffer, rs, ?_⟩) c.heap
      rw [heq, hi]
    have hblock : Connection.block m = [] := by
      unfold Connection.block
      split
      · exact absurd ⟨_, _, rfl⟩ hm
      · rfl
    rw [hgrows.pushedBytes_eq, hblock, ite_self, List.append_nil]

end runs

end IotJs.Socket

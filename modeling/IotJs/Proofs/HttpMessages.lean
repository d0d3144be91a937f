import IotJs.Core.HttpMessages
import IotJs.Lib.Reentrant.Parts
import IotJs.Proofs.ReadableEnd
import IotJs.Proofs.StreamChanges

/-!
# `IotJs.Proofs.HttpMessages`: each message gets its own body

The stream of a message keeps its bytes whatever is done with the other streams, so what is known of
one `Readable` is known of each message (`messages_hold`). What remains is that the right
bytes go in. A function of `stream_readable.js` notes a chunk, or the end, once and before outside
code runs, and does neither later on (`Beside`). So whenever outside code has control, every stream
has taken in what was reported of its message (`Delivered`).
-/

set_option autoImplicit false

namespace IotJs.Readable

open Reentrant ReadableObject

/-! ### The end of a stream -/

/-- A stream has ended if the end has come in. -/
def Met (s : Readable) : Prop := .note .eof ∈ s.log ↔ s._readableState.ended = true

section met

variable {P : Platform} {E : Env Readable ReadableEvent Empty Call} {s : Readable}

def KeepsMet {α : Type} (E : Env Readable ReadableEvent Empty Call) (m : Method α)
    (s : Readable) : Prop :=
  m.wp E .nil (.ofInv Met) Met (fun _ => Met) s

theorem Met.record {o : ReadableObs} (h : Met s) (ho : o ≠ .note .eof) :
    Met { s with log := s.log ++ [o] } := by
  show .note .eof ∈ s.log ++ [o] ↔ _
  rw [List.mem_append, List.mem_singleton, or_iff_left ho.symm]
  exact h

theorem emit_met {e : ReadableEvent} (h : Met s) : KeepsMet E (this.emit e) s := by
  have hyield : ∀ e, KeepsMet E (do record (.event e); Prog.yieldTo e) s := fun e =>
    (Prog.wp_bind ..).mpr (wp_record.mpr
      (Prog.wp_yieldTo_inv (h.record (o := .event e) nofun) (fun _ ht => ht) fun _ ht => ht))
  cases e with
  | error message => exact (Prog.wp_ite ..).mpr ⟨fun _ => hyield _, fun _ => h⟩
  | _ => exact hyield _

theorem emitEnd_met (h : Met s) : KeepsMet E this.emitEnd s :=
  wp_emitEnd.mpr ⟨fun _ => h, fun _ => ⟨fun _ => emit_met h, fun _ => h⟩⟩

theorem emitEndIfEmpty_met (h : Met s) : KeepsMet E this.emitEndIfEmpty s :=
  wp_emitEndIfEmpty.mpr ⟨fun _ => emitEnd_met h, fun _ => h⟩

theorem emitData_met {data : Option Bytes} (h : Met s) : KeepsMet E (this.emitData P data) s := by
  refine (Prog.wp_bind ..).mpr ((Prog.wp_bind ..).mpr (wp_readBuffer_none.mpr
    ⟨fun _ => ?_, fun _ => ?_⟩))
  · refine (Prog.wp_bind ..).mpr (Prog.wp_mono (fun _ ht => ht) (fun _ t ht => ?_) _ (emit_met h))
    exact emitEndIfEmpty_met ht
  · exact h.record (o := .note .assertionFailed) nofun

theorem onEof_met : KeepsMet E this.onEof s := by
  have hmet : Met { s with
      _readableState := { s._readableState with ended := true }
      log := s.log ++ [.note .eof] } :=
    iff_of_true (List.mem_append_right _ List.mem_cons_self) rfl
  exact wp_onEof.mpr ⟨fun _ => emitEnd_met hmet, fun _ => hmet⟩

theorem resume_met (h : Met s) : KeepsMet E (this.resume P) s := by
  refine wp_resume.mpr ⟨fun _ => ⟨fun _ => wp_readBuffer_none.mpr ⟨fun _ => ?_, fun _ => ?_⟩,
    fun _ => h⟩, fun _ => h⟩
  · exact emitData_met h
  · exact emitData_met h

theorem afterReadBuffer_met {res : Option Bytes} (h : Met s) :
    KeepsMet E (this.afterReadBuffer res) s := by
  cases res with
  | none => exact wp_afterReadBuffer_none.mpr (emitEndIfEmpty_met h)
  | some data =>
      refine wp_afterReadBuffer_some.mpr (wp_note.mpr ?_)
      have hend := emitEndIfEmpty_met (E := E) (h.record (o := .note (.took data)) nofun)
      exact Prog.wp_mono (fun _ ht => ht)
        (fun _ t ht => wp_note.mpr (Met.record ht (o := .note (.returned data)) nofun)) _ hend

theorem read_met {n : Option Int} (h : Met s) : KeepsMet E (this.read n) s := by
  refine wp_read.mpr ⟨fun hn => (wp_readBuffer_some hn).mpr ⟨fun _ => ?_, fun _ => ⟨fun _ => ?_,
    fun _ => h⟩⟩, fun _ => afterReadBuffer_met h⟩
  · exact afterReadBuffer_met h
  · exact afterReadBuffer_met h

theorem push_met {chunk : Chunk} (h : Met s) : KeepsMet E (this.push P chunk) s := by
  refine wp_push.mpr ⟨fun _ => emit_met h, fun _ => onEof_met, fun data _ =>
    ⟨fun _ => emit_met h, fun _ => wp_note.mpr ⟨fun _ => ?_, fun _ => ?_⟩⟩⟩
  · exact emitData_met (h.record (o := .note (.pushed (data.toBuffer P))) nofun)
  · exact emit_met (h.record (o := .note (.pushed (data.toBuffer P))) nofun)

theorem met_holds (P : Platform) (E : Env Readable ReadableEvent Empty Call) :
    Contract.Holds (machine P) E .nil (.ofInv Met) new := by
  refine .intro (iff_of_false List.not_mem_nil nofun) fun i _ s _ h _ _ => ?_
  have hkeeps : KeepsMet E (body P i) s := by
    cases i with
    | push chunk => exact push_met h
    | read n =>
        exact (Prog.wp_bind ..).mpr (Prog.wp_mono (fun _ ht => ht) (fun _ _ ht => ht) _
          (read_met h))
    | pause => exact wp_pause.mpr ⟨fun _ => emit_met h, fun _ => h⟩
    | resume => exact resume_met h
    | on ev =>
        exact (Prog.wp_bind ..).mpr ((Prog.wp_ite ..).mpr ⟨fun _ => resume_met h, fun _ => h⟩)
    | error message => exact emit_met h
    | removeAllListeners ev => exact h
  have hpost : ∀ t, Met t → (Contract.ofInv Met).Post s t :=
    fun _ ht => (Contract.ofInv_post ..).mpr ht
  exact Prog.wp_mono hpost (fun _ => hpost) _ hkeeps

end met

/-! ### Writes beside what comes in -/

/-- A write that takes nothing in. -/
def Beside (s t : Readable) : Prop :=
  accepted t.log = accepted s.log ∧ (.note .eof ∈ t.log ↔ .note .eof ∈ s.log)

section beside

variable {P : Platform}

theorem Beside.refl (s : Readable) : Beside s s := ⟨rfl, Iff.rfl⟩

theorem record_beside {o : ReadableObs} (hacc : accepted [o] = []) (ho : o ≠ .note .eof) :
    (record o).ChangesBy Beside := by
  refine fun s => (Prog.changes_modify _).mpr ⟨?_, ?_⟩
  · rw [accepted_append, hacc, List.append_nil]
  · rw [List.mem_append, List.mem_singleton, or_iff_left ho.symm]

theorem this_beside : this.ChangesBy Beside where
  setState state s := .refl s
  emit e := by
    have hyield : ∀ e, (do record (.event e); Prog.yieldTo e : Method Unit).ChangesBy Beside :=
      fun e => (record_beside (o := .event e) rfl nofun).bind fun _ _ _ => trivial
    cases e with
    | error message =>
        exact fun s => (Prog.changes_ite ..).mpr ⟨fun _ => hyield _ s, fun _ => trivial⟩
    | _ => exact hyield _
  addListener ev s := (Prog.changes_modify _).mpr (.refl s)
  note n hpushed heof := by
    cases n with
    | pushed data => exact absurd rfl (hpushed data)
    | eof => exact absurd rfl heof
    | _ => exact record_beside rfl nofun

/-- What an application calls takes nothing in. -/
theorem body_beside {i : Call} (hi : HttpMessages.ofApplication i = true) :
    (body P i).ChangesBy Beside := by
  cases i with
  | push chunk => cases hi
  | read n => exact (this_beside.read n).bind fun _ _ => trivial
  | pause => exact this_beside.pause
  | resume => exact this_beside.resume
  | on ev => exact this_beside.on ev
  | error message => exact this_beside.emit _
  | removeAllListeners ev => exact fun s => (Prog.changes_modify _).mpr (.refl s)

end beside

end IotJs.Readable

/-! ### What was reported -/

namespace IotJs.HttpReport

theorem all_append (log : List HttpEvent) (e : HttpEvent) :
    all (log ++ [e]) = next (all log) e := List.foldl_append

/-- A change of the last message is one of that message alone. -/
theorem getD_modify_last (ms : List HttpReport) (f : HttpReport → HttpReport) (k : Nat)
    (m : HttpReport) : (ms.modify (ms.length - 1) f)[k]?.getD m =
      if k + 1 = ms.length then f (ms[k]?.getD m) else ms[k]?.getD m := by
  rw [List.getElem?_modify]
  by_cases hk : k < ms.length
  · rw [List.getElem?_eq_getElem hk]
    show (if ms.length - 1 = k then f ms[k] else ms[k]) = _
    by_cases hlast : k + 1 = ms.length
    · have hindex : ms.length - 1 = k := by omega
      rw [if_pos hlast, if_pos hindex]
      rfl
    · have hindex : ¬ ms.length - 1 = k := by omega
      rw [if_neg hlast, if_neg hindex]
      rfl
  · have hlast : ¬ k + 1 = ms.length := by omega
    rw [List.getElem?_eq_none (Nat.le_of_not_lt hk), if_neg hlast]
    rfl

variable (log : List HttpEvent) (k : Nat)

theorem length_all_headersComplete :
    (all (log ++ [.headersComplete])).length = (all log).length + 1 := by
  rw [all_append]
  exact List.length_append

theorem length_all_body (data : Bytes) :
    (all (log ++ [.body data])).length = (all log).length := by
  rw [all_append]
  exact List.length_modify ..

theorem length_all_messageComplete :
    (all (log ++ [.messageComplete])).length = (all log).length := by
  rw [all_append]
  exact List.length_modify ..

/-- A message has no body yet. -/
theorem message_headersComplete : message (log ++ [.headersComplete]) k = message log k := by
  rw [message, message, all_append]
  show (all log ++ [_])[k]?.getD _ = _
  by_cases hk : k < (all log).length
  · rw [List.getElem?_append_left hk]
  · have hk : (all log).length ≤ k := Nat.le_of_not_lt hk
    rw [List.getElem?_append_right hk, List.getElem?_eq_none hk]
    cases k - (all log).length with
    | zero => rfl
    | succ n => rfl

theorem message_body (data : Bytes) : message (log ++ [.body data]) k =
    if k + 1 = (all log).length ∧ (message log k).complete = false
    then ⟨(message log k).body ++ data, false⟩ else message log k := by
  rw [message, all_append]
  refine (getD_modify_last ..).trans ?_
  by_cases hk : k + 1 = (all log).length
  · rw [if_pos hk]
    show (if (message log k).complete = true then message log k else _) = _
    by_cases hdone : (message log k).complete = true
    · rw [if_pos hdone, hdone, if_neg (fun h => nomatch h.2)]
    · rw [if_neg hdone, if_pos ⟨hk, Bool.eq_false_iff.mpr hdone⟩]
      rfl
  · rw [if_neg hk, if_neg (fun h => hk h.1)]
    rfl

theorem message_messageComplete : message (log ++ [.messageComplete]) k =
    if k + 1 = (all log).length then ⟨(message log k).body, true⟩ else message log k := by
  rw [message, all_append]
  exact getD_modify_last ..

end IotJs.HttpReport

/-! ### The streams of the messages -/

namespace IotJs.HttpMessages

open Reentrant
open Readable (Beside Met conservation ending)

/-- `http_parser` has reported the event. -/
def reported (e : HttpEvent) (s : HttpMessages) : HttpMessages := { s with log := s.log ++ [e] }

section wp

variable {P : Platform} {E : Env HttpMessages HttpMessagesYield Empty Call}
  {G C : Contract HttpMessages} {X : HttpMessages → Prop} {Q : Unit → HttpMessages → Prop}
  {s : HttpMessages}

theorem wp_on_body {cur_buf : Bytes} {start len : Nat} :
    (body P (.on_body cur_buf start len)).wp E G C X Q s ↔
      (s.incoming = none → Q () (reported (.body ((cur_buf.drop start).take len)) s)) ∧
      ∀ k, s.incoming = some k → (onMessage k (Readable.this.push P
        (.data (.buffer (slice cur_buf start (start + len)))))).wp E G C X Q
          (reported (.body ((cur_buf.drop start).take len)) s) := by
  cases hincoming : s.incoming with
  | none => simp [body, report, parserOnBody, reported, hincoming]
  | some k => simp [body, report, parserOnBody, reported, hincoming]

theorem wp_on_message_complete :
    (body P .on_message_complete).wp E G C X Q s ↔
      (s.incoming = none → X (reported .messageComplete s)) ∧
      ∀ k, s.incoming = some k → (onMessage k (Readable.this.push P .null)).wp E G C X
        (fun _ t => (Prog.yieldTo .resume : Method Unit).wp E G C X Q t)
        { reported .messageComplete s with complete := Function.update s.complete k true } := by
  cases hincoming : s.incoming with
  | none => simp [body, report, parserOnMessageComplete, reported, hincoming]
  | some k => simp [body, report, parserOnMessageComplete, reported, hincoming]

end wp

theorem apart : Apart messageFocus := by
  intro i j hij message s
  exact Function.update_of_ne hij message s.messages

section each

variable {P : Platform} {C : Contract Readable}
  {D : Env Readable ReadableEvent Empty Readable.Call}
  {E : Env HttpMessages HttpMessagesYield Empty Call}

/-- A contract of a `Readable` is one of each message. -/
theorem messages_hold (hE : ∀ k, E.Covers (messageFocus k) (.message k) id D)
    (hcall : ∀ i s, D.call i s) (h : Contract.Holds (Readable.machine P) D .nil C .new) :
    Contract.Holds (machine P) E .nil (.each messageFocus C) new := by
  refine .intro (fun _ => h.init) fun i _ s _ hinv _ _ => ?_
  have hothers : ∀ k, Others messageFocus C k s s := fun k j _ => ⟨hinv j, C.refl _⟩
  -- a method of one message, from a state in which the streams are those of `s`
  have hmethod : ∀ k i (t : HttpMessages), t.messages = s.messages →
      (onMessage k (Readable.body P i)).wp E .nil (.each messageFocus C)
        ((Contract.each messageFocus C).PostAt false s)
        (fun _ => (Contract.each messageFocus C).PostAt false s) t := by
    intro k i t ht
    have hget : ∀ j, (messageFocus j).get t = (messageFocus j).get s := fun j => congrFun ht j
    refine Prog.wp_zoom_postAt apart (hE k) ?_ fun j hj => ?_
    · rw [hget]
      exact h.body i false _ trivial (hinv k) rfl (hcall i _) nofun
    · rw [hget]
      exact hothers k j hj
  cases i with
  | on_headers_complete =>
      exact Prog.wp_yieldTo_post ⟨hinv, fun j => C.refl _⟩
  | on_body cur_buf start len =>
      refine wp_on_body.mpr ⟨fun _ => ⟨hinv, fun j => C.refl _⟩, fun k _ => ?_⟩
      let chunk : Chunk := .data (.buffer (slice cur_buf start (start + len)))
      exact hmethod k (.push chunk) (reported _ s) rfl
  | on_message_complete =>
      refine wp_on_message_complete.mpr ⟨fun _ => ⟨hinv, fun j => C.refl _⟩, fun k _ => ?_⟩
      exact Prog.wp_mono (fun _ ht => ht) (fun _ t ht => Prog.wp_yieldTo_post ht) _
        (hmethod k (.push .null) _ rfl)
  | message k i => exact hmethod k i s rfl

end each

/-! ### What comes in -/

/-- Each stream has taken in what was reported of its message. -/
structure Delivered (s : HttpMessages) : Prop where
  created : s.created = (HttpReport.all s.log).length
  incoming : ∀ k, s.incoming = some k ↔ k + 1 = s.created
  accepted : ∀ k, Readable.accepted (s.messages k).log = (HttpReport.message s.log k).body
  eof : ∀ k, .note .eof ∈ (s.messages k).log ↔ (HttpReport.message s.log k).complete = true
  complete : ∀ k, s.complete k = (HttpReport.message s.log k).complete

/-- A write beside what comes in. -/
structure Still (s t : HttpMessages) : Prop where
  created : t.created = s.created
  incoming : t.incoming = s.incoming
  complete : t.complete = s.complete
  log : t.log = s.log
  messages : ∀ k, Beside (s.messages k) (t.messages k)

theorem Delivered.still {s t : HttpMessages} (h : Delivered s) (hst : Still s t) :
    Delivered t where
  created := by rw [hst.created, hst.log, h.created]
  incoming k := by rw [hst.incoming, hst.created, h.incoming]
  accepted k := by rw [(hst.messages k).1, hst.log, h.accepted]
  eof k := by rw [(hst.messages k).2, hst.log, h.eof]
  complete k := by rw [hst.complete, hst.log, h.complete]

theorem onMessage_still {α : Type} {p : Readable.Method α} (hp : p.ChangesBy Beside) (k : Nat) :
    (onMessage k p).ChangesBy Still := by
  refine hp.zoom fun s message h => ⟨rfl, rfl, rfl, rfl, fun j => ?_⟩
  show Beside (s.messages j) (Function.update s.messages k message j)
  by_cases hj : j = k
  · rw [hj, Function.update_self]
    exact h
  · rw [Function.update_of_ne hj]
    exact .refl _

/-- What `push` does with a chunk once it is taken in. -/
def afterPush (P : Platform) (chunk : Bytes) : Readable.Method Unit := do
  if (← Readable.this.getState).flowing then
    Readable.this.emitData P (some chunk)
  else
    Readable.this.modifyState fun state =>
      { state with length := state.length + chunk.length, buffer := state.buffer ++ [chunk] }
    Readable.this.emitReadable

/-- What it does once the end has come in. -/
def afterEof : Readable.Method Unit := do
  Readable.this.modifyState fun state => { state with ended := true }
  if (← Readable.this.getState).length == 0 then
    Readable.this.emitEnd

theorem afterPush_beside (P : Platform) (chunk : Bytes) :
    (afterPush P chunk).ChangesBy Beside := by
  refine ReadableObject.ChangesBy.getState.bind fun state => .ite ?_ ?_
  · exact Readable.this_beside.emitData _
  · exact (Readable.this_beside.modifyState _).bind fun _ => Readable.this_beside.emit _

theorem afterEof_beside : afterEof.ChangesBy Beside := by
  refine (Readable.this_beside.modifyState _).bind fun _ =>
    ReadableObject.ChangesBy.getState.bind fun state => .ite ?_ fun _ => trivial
  exact Readable.this_beside.emitEnd

/-- The stream of a message has noted something. -/
def noted (k : Nat) (n : ReadableNote) (s : HttpMessages) : HttpMessages :=
  let message := s.messages k
  (messageFocus k).put { message with log := message.log ++ [.note n] } s

section wp

variable {P : Platform} {E : Env HttpMessages HttpMessagesYield Empty Call}
  {G C : Contract HttpMessages} {X : HttpMessages → Prop} {Q : Unit → HttpMessages → Prop}
  {s : HttpMessages} {k : Nat}

theorem wp_push_data {chunk : Bytes} :
    (onMessage k (Readable.this.push P (.data (.buffer chunk)))).wp E G C X Q s ↔
      ((s.messages k)._readableState.ended = true →
        (onMessage k (Readable.this.emitError "stream.push() after EOF")).wp E G C X Q s) ∧
      ((s.messages k)._readableState.ended = false →
        (onMessage k (afterPush P chunk)).wp E G C X Q (noted k (.pushed chunk) s)) := by
  have hpush : (onMessage k (Readable.this.push P (.data (.buffer chunk)))).wp E G C X Q s ↔
      (Prog.zoom (messageFocus k) (.message k) id (if (s.messages k)._readableState.ended then
        Readable.this.emitError "stream.push() after EOF"
        else do
          Readable.this.note (.pushed chunk)
          afterPush P chunk)).wp E G C X Q s := Iff.rfl
  rw [hpush]
  cases (s.messages k)._readableState.ended with
  | true => exact ⟨fun h => ⟨fun _ => h, nofun⟩, fun h => h.1 rfl⟩
  | false => exact ⟨fun h => ⟨nofun, fun _ => h⟩, fun h => h.2 rfl⟩

theorem wp_push_null :
    (onMessage k (Readable.this.push P .null)).wp E G C X Q s ↔
      (onMessage k afterEof).wp E G C X Q (noted k .eof s) := Iff.rfl

end wp

/-- The slice of the buffer that is pushed is the piece that was reported. -/
theorem slice_eq (buf : Bytes) (start len : Nat) :
    slice buf start (start + len) = (buf.drop start).take len := by
  rw [slice, List.drop_take, Nat.add_sub_cancel_left]

section delivered

variable {s : HttpMessages} {k : Nat} {n : ReadableNote}

theorem noted_self : ((noted k n s).messages k).log = (s.messages k).log ++ [.note n] :=
  congrArg Readable.log (Function.update_self k _ s.messages)

theorem noted_of_ne {j : Nat} (hj : j ≠ k) : (noted k n s).messages j = s.messages j :=
  Function.update_of_ne hj ..

/-- The parser has an `incoming` once a message was reported: the last one. -/
theorem Delivered.none_created (h : Delivered s) (hnone : s.incoming = none) (k : Nat) :
    ¬ k + 1 = (HttpReport.all s.log).length := by
  intro hk
  rw [← h.created, ← h.incoming, hnone] at hk
  cases hk

theorem Delivered.last (h : Delivered s) (hk : s.incoming = some k) (j : Nat) :
    j + 1 = (HttpReport.all s.log).length ↔ j = k := by
  have hlast := (h.incoming k).mp hk
  rw [← h.created]
  omega

theorem Delivered.headersComplete (h : Delivered s) :
    Delivered { reported .headersComplete s with
      created := s.created + 1, incoming := some s.created } where
  created := by
    show s.created + 1 = (HttpReport.all (s.log ++ [.headersComplete])).length
    rw [HttpReport.length_all_headersComplete, h.created]
  incoming k := by
    show some s.created = some k ↔ k + 1 = s.created + 1
    rw [Option.some.injEq]
    omega
  accepted k := (h.accepted k).trans
    (congrArg HttpReport.body (HttpReport.message_headersComplete s.log k).symm)
  eof k := by
    show _ ↔ (HttpReport.message (s.log ++ [.headersComplete]) k).complete = true
    rw [HttpReport.message_headersComplete]
    exact h.eof k
  complete k := (h.complete k).trans
    (congrArg HttpReport.complete (HttpReport.message_headersComplete s.log k).symm)

/-- What is reported is about no message. -/
theorem Delivered.report (h : Delivered s) {e : HttpEvent}
    (hlength : (HttpReport.all (s.log ++ [e])).length = (HttpReport.all s.log).length)
    (hsame : ∀ j, HttpReport.message (s.log ++ [e]) j = HttpReport.message s.log j) :
    Delivered (reported e s) where
  created := h.created.trans hlength.symm
  incoming := h.incoming
  accepted j := (h.accepted j).trans (congrArg HttpReport.body (hsame j).symm)
  eof j := by
    show _ ↔ (HttpReport.message (s.log ++ [e]) j).complete = true
    rw [hsame]
    exact h.eof j
  complete j := (h.complete j).trans (congrArg HttpReport.complete (hsame j).symm)

/-- A piece that comes before the first message, or after its own one is complete, is dropped. -/
theorem Delivered.skip (h : Delivered s) (data : Bytes)
    (hlate : ∀ j, j + 1 = (HttpReport.all s.log).length →
      (HttpReport.message s.log j).complete = true) : Delivered (reported (.body data) s) := by
  refine h.report (HttpReport.length_all_body s.log data) fun j => ?_
  rw [HttpReport.message_body]
  refine if_neg fun hopen => ?_
  rw [hlate j hopen.1] at hopen
  cases hopen.2

/-- Without a message, the report of an end is about none. -/
theorem Delivered.missing (h : Delivered s) (hnone : s.incoming = none) :
    Delivered (reported .messageComplete s) := by
  refine h.report (HttpReport.length_all_messageComplete s.log) fun j => ?_
  rw [HttpReport.message_messageComplete, if_neg (h.none_created hnone j)]

/-- A piece of the body is taken in. -/
theorem Delivered.push (h : Delivered s) (data : Bytes) (hk : s.incoming = some k)
    (hopen : (HttpReport.message s.log k).complete = false) :
    Delivered (noted k (.pushed data) (reported (.body data) s)) := by
  have hself : HttpReport.message (s.log ++ [.body data]) k =
      ⟨(HttpReport.message s.log k).body ++ data, false⟩ := by
    rw [HttpReport.message_body, if_pos ⟨(h.last hk k).mpr rfl, hopen⟩]
  have hother : ∀ j, j ≠ k →
      HttpReport.message (s.log ++ [.body data]) j = HttpReport.message s.log j := by
    intro j hj
    rw [HttpReport.message_body, if_neg fun h' => hj ((h.last hk j).mp h'.1)]
  constructor
  · exact h.created.trans (HttpReport.length_all_body s.log data).symm
  · exact h.incoming
  · intro j
    show _ = (HttpReport.message (s.log ++ [.body data]) j).body
    by_cases hj : j = k
    · rw [hj, noted_self, Readable.accepted_append, hself]
      show Readable.accepted (s.messages k).log ++ (data ++ []) = _
      rw [h.accepted, List.append_nil]
    · rw [noted_of_ne hj, hother j hj]
      exact h.accepted j
  · intro j
    show _ ↔ (HttpReport.message (s.log ++ [.body data]) j).complete = true
    by_cases hj : j = k
    · rw [hj, noted_self, hself, List.mem_append, List.mem_singleton, or_iff_left nofun]
      show .note .eof ∈ (s.messages k).log ↔ false = true
      rw [h.eof, hopen]
    · rw [noted_of_ne hj, hother j hj]
      exact h.eof j
  · intro j
    show s.complete j = (HttpReport.message (s.log ++ [.body data]) j).complete
    rw [h.complete]
    by_cases hj : j = k
    · rw [hj, hself, hopen]
    · rw [hother j hj]

/-- The end of a message comes in. -/
theorem Delivered.end_ (h : Delivered s) (hk : s.incoming = some k) :
    Delivered (noted k .eof { reported .messageComplete s with
      complete := Function.update s.complete k true }) := by
  have hself : HttpReport.message (s.log ++ [.messageComplete]) k =
      ⟨(HttpReport.message s.log k).body, true⟩ := by
    rw [HttpReport.message_messageComplete, if_pos ((h.last hk k).mpr rfl)]
  have hother : ∀ j, j ≠ k →
      HttpReport.message (s.log ++ [.messageComplete]) j = HttpReport.message s.log j := by
    intro j hj
    rw [HttpReport.message_messageComplete, if_neg fun h' => hj ((h.last hk j).mp h')]
  constructor
  · exact h.created.trans (HttpReport.length_all_messageComplete s.log).symm
  · exact h.incoming
  · intro j
    show _ = (HttpReport.message (s.log ++ [.messageComplete]) j).body
    by_cases hj : j = k
    · rw [hj, noted_self, Readable.accepted_append, hself]
      show Readable.accepted (s.messages k).log ++ [] = _
      rw [h.accepted, List.append_nil]
    · rw [noted_of_ne hj, hother j hj]
      exact h.accepted j
  · intro j
    show _ ↔ (HttpReport.message (s.log ++ [.messageComplete]) j).complete = true
    by_cases hj : j = k
    · rw [hj, noted_self, hself]
      exact iff_of_true (List.mem_append_right _ List.mem_cons_self) rfl
    · rw [noted_of_ne hj, hother j hj]
      exact h.eof j
  · intro j
    show Function.update s.complete k true j =
      (HttpReport.message (s.log ++ [.messageComplete]) j).complete
    by_cases hj : j = k
    · rw [hj, Function.update_self, hself]
    · rw [Function.update_of_ne hj, hother j hj]
      exact h.complete j

end delivered

section runs

variable {P : Platform} {E : Env HttpMessages HttpMessagesYield Empty Call}
  {c : Config HttpMessages HttpMessagesYield Empty}

theorem delivered_new : Delivered new where
  created := rfl
  incoming _ := iff_of_false nofun nofun
  accepted _ := rfl
  eof _ := iff_of_false nofun nofun
  complete _ := rfl

theorem delivered_holds (P : Platform) (E : Env HttpMessages HttpMessagesYield Empty Call) :
    Contract.Holds (machine P) E (.each messageFocus (.ofInv Met)) (.ofInv Delivered) new := by
  refine .intro delivered_new fun i _ s hmet h hen _ => ?_
  have hpost : ∀ {s t}, Delivered t → (Contract.ofInv Delivered).Post s t :=
    fun ht => (Contract.ofInv_post ..).mpr ht
  -- what follows once a chunk or the end is taken in
  have hrest : ∀ {p : Readable.Method Unit} {t : HttpMessages} (k : Nat), p.ChangesBy Beside →
      Delivered t → (onMessage k p).wp E (.each messageFocus (.ofInv Met)) (.ofInv Delivered)
        Delivered (fun _ => Delivered) t := by
    intro p t k hp ht
    have hwp : (onMessage k p).wp E (.each messageFocus (.ofInv Met)) (.ofInv Delivered)
        ((Contract.ofInv Delivered).Post t) (fun _ => (Contract.ofInv Delivered).Post t) t :=
      (onMessage_still hp k t).wp (fun _ _ hs hst => hpost (hs.still hst)) _ (hpost ht)
    exact Prog.wp_mono (fun _ hu => hu.1) (fun _ _ hu => hu.1) _ hwp
  refine Prog.wp_mono (fun _ => hpost) (fun _ _ => hpost) _ ?_
  cases i with
  | on_headers_complete =>
      exact Prog.wp_yieldTo_inv h.headersComplete (fun _ ht => ht) fun _ ht => ht
  | on_body cur_buf start len =>
      let data : Bytes := (cur_buf.drop start).take len
      refine wp_on_body.mpr ⟨fun hnone => ?_, fun k hk => ?_⟩
      · exact h.skip data fun j hj => absurd hj (h.none_created hnone j)
      rw [slice_eq]
      have hended : (s.messages k)._readableState.ended = true ↔
          (HttpReport.message s.log k).complete = true := (hmet k).symm.trans (h.eof k)
      refine wp_push_data.mpr ⟨fun hdone => ?_, fun hopen => ?_⟩
      · refine hrest k (Readable.this_beside.emit _) (h.skip data fun j hj => ?_)
        rw [(h.last hk j).mp hj]
        exact hended.mp hdone
      · refine hrest k (afterPush_beside P data) (h.push data hk ?_)
        refine Bool.eq_false_iff.mpr fun hdone => ?_
        exact Bool.false_ne_true (hopen.symm.trans (hended.mpr hdone))
  | on_message_complete =>
      refine wp_on_message_complete.mpr ⟨fun hnone => h.missing hnone, fun k hk => ?_⟩
      refine wp_push_null.mpr (Prog.wp_mono (fun _ ht => ht) (fun _ t ht => ?_) _
        (hrest k afterEof_beside (h.end_ hk)))
      exact Prog.wp_yieldTo_inv ht (fun _ hu => hu) fun _ hu => hu
  | message k i =>
      have hi : ofApplication i = true := (Bool.and_eq_true_iff.mp hen).2
      exact hrest k (Readable.body_beside hi) h

/-- What holds of one `Readable` in its surroundings holds of each message, with what comes in. -/
theorem holds_of_messages {C : Contract Readable}
    {D : Env Readable ReadableEvent Empty Readable.Call}
    (hE : ∀ k, E.Covers (messageFocus k) (.message k) id D) (hcall : ∀ i s, D.call i s)
    (h : Contract.Holds (Readable.machine P) D .nil C .new) :
    Contract.Holds (machine P) E .nil (((Contract.each messageFocus (.ofInv Met)).and
      (.ofInv Delivered)).and (.each messageFocus C)) new :=
  ((messages_hold hE hcall (Readable.met_holds P D)).and (delivered_holds P E)).and
    (messages_hold hE hcall h).of_given

theorem free_covers (k : Nat) : (Env.free : Env HttpMessages HttpMessagesYield Empty Call).Covers
    (messageFocus k) (.message k) id (.free : Env Readable ReadableEvent Empty Readable.Call) :=
  ⟨fun _ _ _ _ => trivial, fun _ _ _ => trivial, fun _ _ _ => trivial⟩

/-- Control goes to the listeners of a message. -/
def ofMessage : HttpMessagesYield → Bool
  | .message _ _ => true
  | _ => false

/-- Surroundings in which no listener of a message throws. -/
def noThrow : Env HttpMessages HttpMessagesYield Empty Call where
  call _ _ := True
  answer _ _ _ := True
  returns _ _ := True
  throws u _ := ofMessage u = false

instance : noThrow.Testable where
  call _ _ := .isTrue trivial
  answer _ _ _ := .isTrue trivial
  returns _ _ := .isTrue trivial
  throws _ _ := inferInstanceAs (Decidable (_ = false))

theorem noThrow_covers (k : Nat) :
    noThrow.Covers (messageFocus k) (.message k) id Readable.noThrow :=
  ⟨fun _ _ _ _ => trivial, fun _ _ _ => trivial, fun _ _ h => Bool.noConfusion h⟩

end runs

/-- Two requests on one connection. The application reads the first one from inside of a
listener of the second one. -/
def pipelined : List (Move Call) :=
  [.call .on_headers_complete [], .ret [], .call (.on_body [7, 1, 2, 7] 1 2) [], .ret [],
    .call .on_message_complete [], .ret [],
    .call .on_headers_complete [], .call (.message 1 (.on "data")) [], .ret [],
    .call (.on_body [3] 0 1) [], .call (.message 0 .resume) [], .ret [], .ret [], .ret [],
    .call .on_message_complete [], .ret [], .ret []]

end IotJs.HttpMessages

import IotJs.Core.Socket
import IotJs.Lib.Reentrant.Play
import IotJs.Proofs.HttpOutgoingWire
import IotJs.Proofs.WritableDelivery
import Mathlib.Data.List.Basic

/-!
# `IotJs.Proofs.SocketFraming`: the end of a stream on NuttX

NuttX cannot poll for the end of a stream, so `end` writes the six characters `\e\n\d` behind the
last chunk, and `onread` looks for them at the end of each block it gets. A block is compared as a
string: what stands behind a NUL, and what is no character, is lost on the way, and a block is
whatever TCP makes of the stream. `transparent_iff` says when the payload comes through all the
same.
-/

set_option autoImplicit false

namespace IotJs.Writable

open Reentrant WritableObject

/-! ### What `write` and `end` accept -/

/-- Writes that are ended. -/
def writeAndEnd (P : Platform) : List Data → Option Data → Method Unit
  | [], last => this.end_ P last none
  | data :: writes, last => do
      let _ ← this.write P data none
      writeAndEnd P writes last

/-- Outside code that writes and ends nothing itself. -/
def silent : Contract Writable :=
  .plain (fun s => s._writableState.ending = false ∧ s._writableState.ended = false)
    (fun s t => accepted t.log = accepted s.log) (fun _ => rfl) fun h₁ h₂ => h₂.trans h₁

section silent

variable {s₀ s t : Writable} {P : Platform}

theorem silent_frame (h : silent.Post s₀ s) (hlog : accepted t.log = accepted s.log)
    (hending : t._writableState.ending = s._writableState.ending)
    (hended : t._writableState.ended = s._writableState.ended) : silent.Post s₀ t :=
  ⟨⟨hending.trans h.1.1, hended.trans h.1.2⟩, hlog.trans h.2⟩

theorem doWrite_silent {req : WriteReq} (h : silent.Post s₀ s) :
    (this.doWrite req).wp anywhere .nil silent (silent.Post s₀) (fun _ => silent.Post s₀) s := by
  refine wp_doWrite.mpr ⟨fun _ => wp_handOver.mpr (Prog.wp_yieldTo_post ?_), fun _ => h⟩
  exact silent_frame h (by simp [accepted]) rfl rfl

/-- `write` accepts the bytes of its chunk, and no others. -/
theorem write_accepts {data : Data} {callback : Option Callback} (h : silent.inv s) :
    (this.write P data callback).wp anywhere .nil silent (fun _ => True)
      (fun _ t => silent.inv t ∧ accepted t.log = accepted s.log ++ [data.toBuffer P]) s := by
  let req : WriteReq := ⟨data.toBuffer P, callback⟩
  let s₀ : Writable := { s with log := s.log ++ [.note (.accepted req)] }
  have hs₀ : accepted s₀.log = accepted s.log ++ [data.toBuffer P] := accepted_append ..
  have hpost : ∀ {res : Bool} {t : Writable}, silent.Post s₀ t →
      (this.note (.returned res)).wp anywhere .nil silent (fun _ => True)
        (fun _ t => silent.inv t ∧ accepted t.log = accepted s.log ++ [data.toBuffer P]) t := by
    intro res t ht
    exact ⟨ht.1, (accepted_append ..).trans (by rw [ht.2, hs₀]; exact List.append_nil _)⟩
  have hstart : ∀ {state : WritableState}, state.ending = s._writableState.ending →
      state.ended = s._writableState.ended →
      silent.Post s₀ { s₀ with _writableState := state } := fun hending hended =>
    ⟨⟨hending.trans h.1, hended.trans h.2⟩, rfl⟩
  have hmark : ∀ {t : Writable}, silent.Post s₀ t → silent.Post s₀
      { t with _writableState := { t._writableState with needDrain := true } } := fun ht =>
    silent_frame ht rfl rfl rfl
  refine wp_write.mpr ⟨fun hended => ?_, fun _ => ?_⟩
  · exact absurd (h.2.symm.trans hended) Bool.noConfusion
  · rw [wp_writeOrBuffer, wp_note]
    refine ⟨fun _ => ?_, fun _ => ?_⟩
    · exact ⟨fun _ => hpost (hmark (hstart rfl rfl)), fun _ => hpost (hstart rfl rfl)⟩
    · -- the chunk is handed over at once, and outside code runs before `write` returns
      refine Prog.wp_mono (fun _ _ => trivial) (fun _ t ht => ?_) _
        (doWrite_silent (hstart rfl rfl))
      exact ⟨fun _ => hpost (hmark ht), fun _ => hpost ht⟩

/-- `end` accepts what `endChunk` makes of the last chunk. -/
theorem end_accepts {last : Option Data} {callback : Option Callback} (h : silent.inv s) :
    (this.end_ P last callback).wp anywhere .nil silent (fun _ => True)
      (fun _ t => accepted t.log =
        accepted s.log ++ ((endChunk P false last).map (Data.toBuffer P)).toList) s := by
  let R : Writable → Prop := fun t => silent.inv t ∧ accepted t.log =
    accepted s.log ++ ((endChunk P false last).map (Data.toBuffer P)).toList
  have hcalled : accepted (s.log ++ [.note .endCalled]) = accepted s.log :=
    (accepted_append ..).trans (List.append_nil _)
  have hquiet : ∀ t, R t → accepted (t.log ++ [.note .endReturned]) =
      accepted s.log ++ ((endChunk P false last).map (Data.toBuffer P)).toList := fun t ht =>
    (accepted_append ..).trans ((List.append_nil _).trans ht.2)
  refine wp_end_of (R := R) ?_ (fun t ht _ => hquiet t ht) fun t ht _ =>
    wp_endWritable.mpr ⟨fun _ => hquiet t ht, fun _ => hquiet t ht⟩
  rw [wp_note, this_state]
  have hending : s._writableState.ending = false := h.1
  refine ⟨fun hnone => ⟨h, ?_⟩, fun c hc => ?_⟩
  · rw [hending] at hnone
    rw [hnone]
    exact hcalled.trans (List.append_nil _).symm
  · rw [hending] at hc
    refine Prog.wp_mono (fun _ => id) (fun _ t ht => ⟨ht.1, ?_⟩) _ (write_accepts h)
    rw [hc, ht.2, hcalled]
    rfl

/-- Writes that are ended: what is accepted is the bytes of the chunks, and those of `endChunk`. -/
theorem writeAndEnd_accepts {writes : List Data} {last : Option Data} (h : silent.inv s) :
    (writeAndEnd P writes last).wp anywhere .nil silent (fun _ => True)
      (fun _ t => accepted t.log = accepted s.log ++ (writes.map (Data.toBuffer P) ++
        ((endChunk P false last).map (Data.toBuffer P)).toList)) s := by
  induction writes generalizing s with
  | nil => exact end_accepts h
  | cons data writes ih =>
      rw [writeAndEnd, Prog.wp_bind]
      refine Prog.wp_mono (fun _ => id) (fun _ t ht => ?_) _ (write_accepts h)
      have hrest := ih ht.1
      rw [ht.2, List.append_assoc] at hrest
      exact hrest

end silent
end IotJs.Writable

namespace IotJs.Socket

open Reentrant
open OutgoingMessage (bytes Intact Plain)

/-! ### The receiver -/

/-- What `onread` hands on. -/
inductive Received where
  | data (payload : Bytes)
  | eof
deriving DecidableEq, Repr

/-- What it hands on of one block. -/
def blockReceived (P : Platform) (block : Bytes) : List Received :=
  (splitEof P block).1.toList.map .data ++ if (splitEof P block).2 then [.eof] else []

def received (P : Platform) (blocks : List Bytes) : List Received :=
  blocks.flatMap (blockReceived P)

def deliver (P : Platform) : Received → Method Unit
  | .data payload => (readable P).push P (.data (.buffer payload))
  | .eof => onreadEof P

/-- Either the block does not end in the mark, or the mark is taken off. -/
theorem splitEof_cases (P : Platform) (block : Bytes) :
    splitEof P block = (some block, false) ∨
      6 ≤ P.stringLength (bufferToString P block) ∧
        splitEof P block = (if P.stringLength (bufferToString P block) = 6 then none
          else some (block.take (P.stringLength (bufferToString P block) - 6)), true) := by
  by_cases hends : 6 ≤ P.stringLength (bufferToString P block) ∧
      eofMark.toList.isSuffixOf (bufferToString P block).toList
  · exact Or.inr ⟨hends.1, if_pos hends⟩
  · exact Or.inl (if_neg hends)

/-- `onread` of a block pushes what `blockReceived` says. -/
theorem onread_nuttx {P : Platform} (hnuttx : P.nuttx = true) (block : Bytes) :
    onread P (.data block) =
      resetSocketTimeout >>= fun _ => (blockReceived P block).forM (deliver P) := by
  have heof : (onreadEof P >>= fun _ => pure ()) = onreadEof P := Prog.bind_pure _
  rw [onread, hnuttx, blockReceived]
  rcases splitEof_cases P block with hsplit | ⟨-, hsplit⟩
  · rw [hsplit]
    rfl
  · rw [hsplit]
    by_cases hsix : P.stringLength (bufferToString P block) = 6
    · -- the block is the mark and nothing else: nothing is pushed
      rw [if_pos hsix]
      show resetSocketTimeout >>= (fun _ => onreadEof P) =
        resetSocketTimeout >>= fun _ => onreadEof P >>= fun _ => pure ()
      rw [heof]
    · rw [if_neg hsix]
      let rest : Chunk := .data (.buffer (block.take (P.stringLength (bufferToString P block) - 6)))
      show resetSocketTimeout >>= (fun _ => (readable P).push P rest >>= fun _ => onreadEof P) =
        resetSocketTimeout >>= fun _ => (readable P).push P rest >>= fun _ =>
          onreadEof P >>= fun _ => pure ()
      rw [heof]

/-- The string of the block ends in the mark. -/
def Marked (P : Platform) (block : Bytes) : Prop :=
  eofMark.toList <:+ (bufferToString P block).toList

instance (P : Platform) (block : Bytes) : Decidable (Marked P block) :=
  inferInstanceAs (Decidable (_ <:+ _))

section received

variable {P : Platform} {blocks : List Bytes}

theorem received_append (blocks blocks' : List Bytes) :
    received P (blocks ++ blocks') = received P blocks ++ received P blocks' :=
  List.flatMap_append

/-- A block without the mark is handed on as it is. -/
theorem blockReceived_of_not {block : Bytes} (hmark : ¬ Marked P block) :
    blockReceived P block = [.data block] := by
  have hsplit : splitEof P block = (some block, false) := by
    refine if_neg fun hends => hmark ?_
    exact List.isSuffixOf_iff_suffix.mp hends.2
  rw [blockReceived, hsplit]
  rfl

theorem received_of_not (hno : ∀ block ∈ blocks, ¬ Marked P block) :
    received P blocks = blocks.map .data := by
  induction blocks with
  | nil => rfl
  | cons block blocks ih =>
      have hrest := ih fun b hb => hno b (List.mem_cons_of_mem block hb)
      show blockReceived P block ++ received P blocks = _
      rw [blockReceived_of_not (hno block List.mem_cons_self), hrest]
      rfl

theorem eof_not_mem_map (pieces : List Bytes) : .eof ∉ pieces.map Received.data := by
  intro hmem
  obtain ⟨piece, -, heq⟩ := List.mem_map.mp hmem
  exact Received.noConfusion heq

section

variable (encodes : P.Encodes) (hsix : P.stringLength eofMark = 6)

include encodes hsix

/-- The mark has six characters, so the test of the length is always passed. -/
theorem six_le_of_marked {block : Bytes} (hmark : Marked P block) :
    6 ≤ P.stringLength (bufferToString P block) := by
  obtain ⟨front, hfront⟩ := hmark
  have hstring : bufferToString P block = String.ofList front ++ eofMark := by
    apply String.toList_injective
    rw [String.toList_append, String.toList_ofList, hfront]
  rw [hstring, encodes.length_append, hsix]
  omega

/-- Of a block with the mark, the mark is taken off, and nothing is pushed if nothing is left. -/
theorem blockReceived_of_marked {block : Bytes} (hmark : Marked P block) :
    ∃ pieces : List Bytes, blockReceived P block = pieces.map .data ++ [.eof] ∧
      pieces.flatten = block.take (P.stringLength (bufferToString P block) - 6) := by
  have hends : 6 ≤ P.stringLength (bufferToString P block) ∧
      eofMark.toList.isSuffixOf (bufferToString P block).toList :=
    ⟨six_le_of_marked encodes hsix hmark, List.isSuffixOf_iff_suffix.mpr hmark⟩
  rw [blockReceived, splitEof]
  simp only [if_pos hends]
  by_cases hlength : P.stringLength (bufferToString P block) = 6
  · refine ⟨[], by rw [if_pos hlength]; rfl, ?_⟩
    rw [hlength]
    rfl
  · refine ⟨[block.take (P.stringLength (bufferToString P block) - 6)], ?_, ?_⟩
    · rw [if_neg hlength]
      rfl
    · exact List.flatten_singleton

theorem eof_mem_received_of_marked {block : Bytes} (hmem : block ∈ blocks)
    (hmark : Marked P block) : .eof ∈ received P blocks := by
  obtain ⟨pieces, hblock, -⟩ := blockReceived_of_marked encodes hsix hmark
  apply List.mem_flatMap.mpr
  refine ⟨block, hmem, ?_⟩
  rw [hblock]
  exact List.mem_append_right _ (List.mem_singleton.mpr rfl)

/-- The end is reported once, and last: only the last block has the mark. -/
theorem received_eq_iff (whole : Bytes) :
    (∃ pieces : List Bytes, received P blocks = pieces.map .data ++ [.eof] ∧
        pieces.flatten = whole) ↔
      ∃ init z, blocks = init ++ [z] ∧ (∀ block ∈ init, ¬ Marked P block) ∧ Marked P z ∧
        init.flatten ++ z.take (P.stringLength (bufferToString P z) - 6) = whole := by
  constructor
  · rintro ⟨pieces, hreceived, hwhole⟩
    rcases List.eq_nil_or_concat' blocks with hnil | ⟨init, z, hblocks⟩
    · rw [hnil] at hreceived
      exact absurd hreceived.symm (List.append_ne_nil_of_right_ne_nil _ (List.cons_ne_nil _ _))
    have hz : received P [z] = blockReceived P z := List.flatMap_singleton ..
    rw [hblocks, received_append, hz] at hreceived
    -- what is handed on last is the end, so the last block has the mark
    have hmark : Marked P z := by
      by_contra hnot
      rw [blockReceived_of_not hnot] at hreceived
      have hlast := (List.append_inj' hreceived rfl).2
      exact Received.noConfusion (List.cons.inj hlast).1
    obtain ⟨last, hlast, hrest⟩ := blockReceived_of_marked encodes hsix hmark
    rw [hlast, ← List.append_assoc] at hreceived
    have hfront := List.append_cancel_right hreceived
    -- one end is all there is, so no block before it has the mark
    have hinit : ∀ block ∈ init, ¬ Marked P block := by
      intro block hmem hmarked
      apply eof_not_mem_map pieces
      rw [← hfront]
      exact List.mem_append_left _ (eof_mem_received_of_marked encodes hsix hmem hmarked)
    rw [received_of_not hinit, ← List.map_append] at hfront
    have hpieces : init ++ last = pieces :=
      List.map_injective_iff.mpr (fun _ _ h => Received.data.inj h) hfront
    refine ⟨init, z, hblocks, hinit, hmark, ?_⟩
    rw [← hrest, ← List.flatten_append, hpieces, hwhole]
  · rintro ⟨init, z, hblocks, hinit, hmark, hwhole⟩
    obtain ⟨last, hlast, hrest⟩ := blockReceived_of_marked encodes hsix hmark
    refine ⟨init ++ last, ?_, ?_⟩
    · have hz : received P [z] = blockReceived P z := List.flatMap_singleton ..
      rw [hblocks, received_append, hz, received_of_not hinit, hlast, List.map_append,
        List.append_assoc]
    · rw [List.flatten_append, hrest, hwhole]

end

end received

/-! ### The sender -/

/-- The string that `end` appends the mark to. -/
def lastText (P : Platform) (last : Option Data) : String :=
  (last.map (Data.toString P)).getD ""

/-- What `end` writes on NuttX. -/
def endSent (P : Platform) (last : Option Data) : Bytes :=
  ((WritableObject.endChunk P false last).map (Data.toBuffer P)).getD []

/-- The bytes of a stream that is written and ended. -/
def sent (P : Platform) (writes : List Data) (last : Option Data) : Bytes :=
  writes.flatMap (Data.toBuffer P) ++ endSent P last

/-- The bytes that the application means. -/
def payload (P : Platform) (writes : List Data) (last : Option Data) : Bytes :=
  writes.flatMap (bytes P) ++ (last.map (bytes P)).getD []

/-- The framing does its work: the payload comes and then the end of the stream, and no end is
reported of what was sent before `end`. -/
structure Transparent (P : Platform) (writes : List Data) (last : Option Data)
    (blocks : List Bytes) : Prop where
  arrives : ∃ pieces : List Bytes, received P blocks = pieces.map .data ++ [.eof] ∧
    pieces.flatten = payload P writes last
  notBefore : ∀ past, past <+: blocks → past.flatten <+: writes.flatMap (Data.toBuffer P) →
    .eof ∉ received P past

section sent

variable {P : Platform}

/-- These are the bytes that a new stream accepts when it is written and ended. -/
theorem writeAndEnd_sent (highWaterMark : Option Int) (writes : List Data) (last : Option Data) :
    (Writable.writeAndEnd P writes last).wp Writable.anywhere .nil Writable.silent (fun _ => True)
      (fun _ t => (Writable.accepted t.log).flatten = sent P writes last)
      (Writable.new highWaterMark) := by
  refine Prog.wp_mono (fun _ => id) (fun _ t ht => ?_) _
    (Writable.writeAndEnd_accepts ⟨rfl, rfl⟩)
  have hend : ((WritableObject.endChunk P false last).map (Data.toBuffer P)).toList.flatten =
      endSent P last := by
    unfold endSent
    cases WritableObject.endChunk P false last with
    | none => rfl
    | some chunk => exact List.flatten_singleton
  rw [ht, List.flatten_append, List.flatten_append, hend, ← List.flatMap_def]
  rfl

theorem endSent_eq (hnuttx : P.nuttx = true) (last : Option Data) :
    endSent P last = newBuffer P (lastText P last ++ eofMark) := by
  unfold endSent WritableObject.endChunk
  rw [hnuttx]
  cases last with
  | none =>
      show newBuffer P eofMark = newBuffer P ("" ++ eofMark)
      rw [String.empty_append]
  | some chunk => rfl

section

variable (encodes : P.Encodes)

include encodes

theorem toBuffer_length_le (chunk : Data) :
    (chunk.toBuffer P).length ≤ (bytes P chunk).length := by
  cases chunk with
  | string s =>
      show (newBuffer P s).length ≤ _
      rw [OutgoingMessage.length_newBuffer encodes]
      exact encodes.length_le s
  | buffer b => exact Nat.le_refl _

/-- A string is sent in as many bytes as it has characters. -/
theorem toBuffer_length_eq_iff (chunk : Data) :
    (chunk.toBuffer P).length = (bytes P chunk).length ↔ ∀ s, chunk = .string s → Plain P s := by
  cases chunk with
  | string s =>
      show (newBuffer P s).length = (P.stringToBytes s).length ↔ _
      rw [OutgoingMessage.length_newBuffer encodes]
      constructor
      · intro hplain t heq
        rw [← Data.string.inj heq]
        exact hplain
      · intro hplain
        exact hplain s rfl
  | buffer b => exact ⟨fun _ _ heq => Data.noConfusion heq, fun _ => rfl⟩

theorem writes_length_le (writes : List Data) :
    (writes.flatMap (Data.toBuffer P)).length ≤ (writes.flatMap (bytes P)).length := by
  induction writes with
  | nil => exact Nat.le_refl _
  | cons chunk writes ih =>
      have hchunk := toBuffer_length_le encodes chunk
      rw [List.flatMap_cons, List.flatMap_cons, List.length_append, List.length_append]
      omega

/-- What is written arrives in full length only if each chunk does. -/
theorem writes_plain_of_length {writes : List Data}
    (hlength : (writes.flatMap (Data.toBuffer P)).length = (writes.flatMap (bytes P)).length) :
    ∀ s, .string s ∈ writes → Plain P s := by
  induction writes with
  | nil => exact fun s hmem => absurd hmem List.not_mem_nil
  | cons chunk writes ih =>
      have hchunk := toBuffer_length_le encodes chunk
      have hrest := writes_length_le encodes writes
      rw [List.flatMap_cons, List.flatMap_cons, List.length_append, List.length_append] at hlength
      intro s hmem
      rcases List.mem_cons.mp hmem with heq | hmem
      · exact (toBuffer_length_eq_iff encodes chunk).mp (by omega) s heq.symm
      · exact ih (by omega) s hmem

theorem writes_eq_of_plain {writes : List Data} (hplain : ∀ s, .string s ∈ writes → Plain P s) :
    writes.flatMap (Data.toBuffer P) = writes.flatMap (bytes P) := by
  apply List.flatMap_congr
  intro chunk hmem
  cases chunk with
  | string s => exact (OutgoingMessage.newBuffer_eq_bytes_iff encodes s).mpr (hplain s hmem)
  | buffer b => rfl

/-- What stands in front in a string comes first in its buffer. -/
theorem take_newBuffer (text more : String) :
    (newBuffer P (text ++ more)).take (P.stringLength text) = newBuffer P text := by
  rw [OutgoingMessage.newBuffer_eq_take encodes, OutgoingMessage.newBuffer_eq_take encodes,
    encodes.bytes_append, encodes.length_append, List.take_take,
    Nat.min_eq_left (Nat.le_add_right _ _), List.take_append_of_le_length (encodes.length_le text)]

theorem lastText_length_le (last : Option Data) :
    P.stringLength (lastText P last) ≤ ((last.map (bytes P)).getD []).length := by
  cases last with
  | none => exact Nat.le_of_eq (OutgoingMessage.stringLength_empty encodes)
  | some chunk => exact OutgoingMessage.toString_length_le encodes chunk

theorem lastText_intact_iff (last : Option Data) :
    newBuffer P (lastText P last) = (last.map (bytes P)).getD [] ↔
      ∀ chunk ∈ last, Intact P chunk := by
  cases last with
  | none => exact ⟨fun _ _ hmem => absurd hmem (Option.not_mem_none _),
      fun _ => OutgoingMessage.newBuffer_empty encodes⟩
  | some chunk =>
      show newBuffer P (chunk.toString P) = bytes P chunk ↔ _
      rw [OutgoingMessage.newBuffer_toString_iff encodes]
      constructor
      · intro hintact other hmem
        rw [← Option.some.inj hmem]
        exact hintact
      · intro hall
        exact hall chunk rfl

variable (hnuttx : P.nuttx = true) (hsix : P.stringLength eofMark = 6)

include hnuttx hsix

theorem length_endSent (last : Option Data) :
    (endSent P last).length = P.stringLength (lastText P last) + 6 := by
  rw [endSent_eq hnuttx, OutgoingMessage.length_newBuffer encodes, encodes.length_append, hsix]

/-- The stream in front of the last `length` bytes but six is the payload: a string that loses
bytes makes the stream too short, and so does a last block that decodes to fewer characters. -/
theorem front_eq_payload_iff {writes : List Data} {last : Option Data} {front z : Bytes}
    {length : Nat} (hstream : front ++ z = sent P writes last) (hle : 6 ≤ length)
    (hlength : length ≤ z.length) :
    front ++ z.take (length - 6) = payload P writes last ↔
      (∀ s, .string s ∈ writes → Plain P s) ∧ (∀ chunk ∈ last, Intact P chunk) ∧
      length = z.length := by
  have hend := length_endSent encodes hnuttx hsix last
  have htake : (endSent P last).take (P.stringLength (lastText P last)) =
      newBuffer P (lastText P last) := by
    rw [endSent_eq hnuttx]
    exact take_newBuffer encodes _ _
  have htext := OutgoingMessage.length_newBuffer encodes (lastText P last)
  have hsent := congrArg List.length hstream
  unfold sent at hstream hsent
  rw [List.length_append, List.length_append, hend] at hsent
  rw [← lastText_intact_iff encodes]
  unfold payload
  constructor
  · intro hwhole
    have hsum := congrArg List.length hwhole
    rw [List.length_append, List.length_append, List.length_take] at hsum
    have hwrites := writes_length_le encodes writes
    have hlast := lastText_length_le encodes last
    -- no chunk gets longer on the way, so each one has its full length if the sum has
    have hfull : (writes.flatMap (Data.toBuffer P)).length =
        (writes.flatMap (bytes P)).length := by omega
    have hplain := writes_plain_of_length encodes hfull
    refine ⟨hplain, ?_, by omega⟩
    -- the payload and the stream begin alike, and the writes are the same in both
    have hprefix : front ++ z.take (length - 6) <+: front ++ z :=
      (List.prefix_append_right_inj front).mpr (List.take_prefix _ _)
    rw [hwhole, hstream, writes_eq_of_plain encodes hplain,
      List.prefix_append_right_inj, List.prefix_iff_eq_take] at hprefix
    have hsame : ((last.map (bytes P)).getD []).length = P.stringLength (lastText P last) := by
      omega
    rw [hsame, htake] at hprefix
    exact hprefix.symm
  · rintro ⟨hplain, hintact, heq⟩
    rw [writes_eq_of_plain encodes hplain] at hstream hsent
    rw [hintact] at htake htext
    have hcut : front ++ z.take (length - 6) = (front ++ z).take (front.length + (length - 6)) :=
      List.take_length_add_append _ |>.symm
    rw [hcut, hstream, heq]
    have hfar : front.length + (z.length - 6) =
        (writes.flatMap (bytes P)).length + P.stringLength (lastText P last) := by
      omega
    rw [hfar, List.take_length_add_append, htake]

end

end sent

/-! ### When the framing is transparent -/

end IotJs.Socket

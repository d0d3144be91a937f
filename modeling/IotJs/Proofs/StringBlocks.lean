import IotJs.Core.IotjsString
import Mathlib.Data.List.TakeWhile

/-!
# `IotJs.Proofs.StringBlocks`: strings and the blocks they own

`WellFormed` is what the code relies on of a string: its capacity says how long its block is, and a
capacity of zero stands for `iotjs_empty_string`. `Moves` are the changes that one call makes to the
heap, seen from the string of the call, and `CallKeeps` says of a call that it comes back with a
string that is well formed again. The calls other than `append` have their `CallKeeps` here, with
the arguments for which they do not keep the string well formed.
-/

set_option autoImplicit false

namespace IotJs

/-! ### Numbers -/

@[simp]
theorem toUnsigned_natCast (n : Nat) : toUnsigned n = n % 4294967296 := by
  rw [toUnsigned]
  omega

theorem toUnsigned_of_lt {n : Nat} (hn : n < 4294967296) : toUnsigned n = n := by
  rw [toUnsigned_natCast, Nat.mod_eq_of_lt hn]

theorem toUnsigned_lt (n : Int) : toUnsigned n < 4294967296 := by
  rw [toUnsigned]
  omega

theorem toUnsigned_add_one {n : Nat} (hn : n + 1 < 4294967296) : toUnsigned (n + 1) = n + 1 :=
  toUnsigned_of_lt hn

theorem toSizeT_of_lt {n : Nat} (hn : n < 4294967296) : toSizeT n = n := by
  rw [toSizeT]
  omega

/-! ### Bytes -/

namespace CharHeap

variable {offset n : Nat} {bytes old : Bytes}

theorem length_overwrite (h : offset + bytes.length ≤ old.length) :
    (overwrite offset bytes old).length = old.length := by
  simp only [overwrite, List.length_append, List.length_take, List.length_drop]
  omega

/-- What lies in front of the bytes stays. -/
theorem take_overwrite_of_le (hn : n ≤ offset) (hold : offset ≤ old.length) :
    (overwrite offset bytes old).take n = old.take n := by
  have hlength : (old.take offset).length = offset := List.length_take_of_le hold
  rw [overwrite, List.append_assoc, List.take_append_of_le_length (by omega), List.take_take,
    Nat.min_eq_left hn]

theorem take_overwrite (hold : offset ≤ old.length) :
    (overwrite offset bytes old).take (offset + bytes.length) = old.take offset ++ bytes := by
  have hlength : (old.take offset ++ bytes).length = offset + bytes.length := by
    rw [List.length_append, List.length_take_of_le hold]
  rw [overwrite, ← hlength, List.take_left]

/-- The byte that ends a string. -/
theorem getElem?_overwrite_self (b : UInt8) (hold : offset ≤ old.length) :
    (overwrite offset [b] old)[offset]? = some b := by
  have hlength : (old.take offset).length = offset := List.length_take_of_le hold
  rw [overwrite, List.append_assoc, List.getElem?_append_right (by omega), hlength, Nat.sub_self]
  rfl

theorem length_reallocated (fresh : Nat → UInt8) (old : Bytes) (size : Nat) :
    (reallocated fresh old size).length = size := by
  rw [reallocated, List.length_map, List.length_range]

theorem getElem?_reallocated (fresh : Nat → UInt8) {old : Bytes} {size k : Nat} (hk : k < size)
    (hold : k < old.length) : (reallocated fresh old size)[k]? = old[k]? := by
  rw [reallocated, List.getElem?_map, List.getElem?_range hk, Option.map_some,
    List.getD_eq_getElem?_getD, List.getElem?_eq_getElem hold, Option.getD_some]

/-- The old bytes are in front. -/
theorem take_reallocated (fresh : Nat → UInt8) {old : Bytes} {size : Nat} (hn : n ≤ size)
    (hold : n ≤ old.length) : (reallocated fresh old size).take n = old.take n := by
  apply List.ext_getElem?
  intro k
  by_cases hk : k < n
  · rw [List.getElem?_take_of_lt hk, List.getElem?_take_of_lt hk,
      getElem?_reallocated fresh (by omega) (by omega)]
  · rw [List.getElem?_eq_none (by rw [List.length_take]; omega),
      List.getElem?_eq_none (by rw [List.length_take]; omega)]

/-! ### Blocks -/

variable {h h' : CharHeap} {b : Nat} {block : HeapBlock}

theorem lt_length (hb : h[b]? = some block) : b < h.length :=
  (List.getElem?_eq_some_iff.mp hb).1

theorem getD_eq (hb : h[b]? = some block) : h.getD b ⟨[], 0⟩ = block := by
  rw [List.getD_eq_getElem?_getD, hb, Option.getD_some]

theorem bytesAt_block (hb : h[b]? = some block) : h.bytesAt (.block b) = block.bytes :=
  congrArg HeapBlock.bytes (getD_eq hb)

theorem edit_self (hb : h[b]? = some block) (f : Bytes → Bytes) :
    (h.edit b f)[b]? = some { block with bytes := f block.bytes } := by
  rw [edit, List.getElem?_modify_eq, hb]
  rfl

theorem edit_edit (f g : Bytes → Bytes) : (h.edit b f).edit b g = h.edit b (g ∘ f) :=
  List.modify_modify_eq _ _ _ _

theorem write_block (hb : h[b]? = some block) (hlive : block.released = 0)
    (hfits : offset + bytes.length ≤ block.bytes.length) :
    h.write (.block b) offset bytes = .ok (h.edit b (overwrite offset bytes)) := by
  rw [write, getD_eq hb, bytesAt_block hb, if_neg (not_not.mpr hlive), if_neg (by omega)]

theorem write_outOfBounds (hb : h[b]? = some block) (hlive : block.released = 0)
    (hlong : block.bytes.length < offset + bytes.length) :
    h.write (.block b) offset bytes = .error .outOfBounds := by
  rw [write, getD_eq hb, bytesAt_block hb, if_neg (not_not.mpr hlive), if_pos hlong]

theorem getElem?_last (h : CharHeap) (block : HeapBlock) :
    (h ++ [block])[h.length]? = some block :=
  List.getElem?_concat_length

theorem edit_last (h : CharHeap) (block : HeapBlock) (f : Bytes → Bytes) :
    (h ++ [block]).edit h.length f = h ++ [{ block with bytes := f block.bytes }] := by
  induction h with
  | nil => rfl
  | cons first h ih => exact congrArg (first :: ·) ih

theorem length_release (h : CharHeap) (b : Nat) : (h.release b).length = h.length :=
  List.length_modify _ _ _

theorem getElem?_moved (h : CharHeap) (b : Nat) (block : HeapBlock) :
    (h.release b ++ [block])[h.length]? = some block := by
  have hlast := getElem?_last (h.release b) block
  rwa [length_release] at hlast

theorem edit_moved (h : CharHeap) (b : Nat) (block : HeapBlock) (f : Bytes → Bytes) :
    CharHeap.edit (h.release b ++ [block]) h.length f =
      h.release b ++ [{ block with bytes := f block.bytes }] := by
  have hlast := edit_last (h.release b) block f
  rwa [length_release] at hlast

theorem bufferReallocate_eq (fresh : Nat → Nat → UInt8) (hb : h[b]? = some block) (size : Nat) :
    h.bufferReallocate fresh (.block b) size =
      .ok (h.release b ++ [⟨reallocated (fresh h.length) block.bytes size, 0⟩],
        .block h.length) := by
  rw [← bytesAt_block hb]
  rfl

/-- A block that was just allocated is written to. -/
theorem write_last (h : CharHeap) (hlive : block.released = 0)
    (hfits : offset + bytes.length ≤ block.bytes.length) :
    (h ++ [block]).write (.block h.length) offset bytes =
      .ok (h ++ [{ block with bytes := overwrite offset bytes block.bytes }]) := by
  rw [write_block (getElem?_last h block) hlive hfits, edit_last]

theorem overwrite_zeros (data : Bytes) :
    overwrite 0 data (List.replicate (data.length + 1) 0) = data ++ [0] := by
  rw [overwrite, List.take_zero, List.nil_append, Nat.zero_add, List.drop_replicate,
    Nat.add_sub_cancel_left]
  rfl

theorem overwrite_terminator (data : Bytes) :
    overwrite data.length [0] (data ++ [0]) = data ++ [0] := by
  rw [overwrite, List.take_left, List.drop_eq_nil_of_le (by simp), List.append_nil]

/-- The characters are written to a new block that has room for a zero behind them. -/
theorem write_chars (h : CharHeap) (data : Bytes) :
    (h ++ [⟨List.replicate (data.length + 1) 0, 0⟩] : CharHeap).write (.block h.length) 0 data =
      .ok (h ++ [⟨data ++ [0], 0⟩]) := by
  rw [write_last h rfl (by rw [List.length_replicate]; omega)]
  exact congrArg (fun bytes => Except.ok (h ++ [⟨bytes, 0⟩])) (overwrite_zeros data)

theorem write_terminator (h : CharHeap) (data : Bytes) :
    (h ++ [⟨data ++ [0], 0⟩] : CharHeap).write (.block h.length) data.length [0] =
      .ok (h ++ [⟨data ++ [0], 0⟩]) := by
  rw [write_last h rfl (by rw [List.length_append])]
  exact congrArg (fun bytes => Except.ok (h ++ [⟨bytes, 0⟩])) (overwrite_terminator data)

end CharHeap

/-! ### Strings -/

/-- The block of a string: it was not released, it is one byte longer than the capacity, and there
is a zero behind the characters. -/
structure HeapBlock.Backs (block : HeapBlock) (s : IotjsString) : Prop where
  live : block.released = 0
  length : block.bytes.length = s.cap + 1
  terminated : block.bytes[s.size]? = some 0

namespace IotjsString

/-- The characters. -/
def contents (h : CharHeap) (s : IotjsString) : Bytes := (h.bytesAt s.data).take s.size

structure WellFormed (h : CharHeap) (s : IotjsString) : Prop where
  size_le : s.size ≤ s.cap
  /-- the size of the allocation is an `unsigned` -/
  cap_lt : s.cap + 1 < 4294967296
  cap_eq_zero_iff : s.cap = 0 ↔ s.data = .iotjsEmptyString
  backed : ∀ b, s.data = .block b → ∃ block, h[b]? = some block ∧ block.Backs s

variable {h h' : CharHeap} {s : IotjsString}

theorem WellFormed.cases (hs : s.WellFormed h) :
    s = ⟨0, 0, .iotjsEmptyString⟩ ∨
      0 < s.cap ∧ ∃ b block, s.data = .block b ∧ h[b]? = some block ∧ block.Backs s := by
  obtain ⟨size, cap, data⟩ := s
  cases data with
  | iotjsEmptyString =>
      obtain rfl : cap = 0 := hs.cap_eq_zero_iff.mpr rfl
      obtain rfl : size = 0 := Nat.le_zero.mp hs.size_le
      exact Or.inl rfl
  | block b =>
      obtain ⟨block, hb, hbacks⟩ := hs.backed b rfl
      have hcap : cap ≠ 0 := fun hzero => CharPointer.noConfusion (hs.cap_eq_zero_iff.mp hzero)
      exact Or.inr ⟨Nat.pos_of_ne_zero hcap, b, block, rfl, hb, hbacks⟩

theorem wellFormed_empty (h : CharHeap) : WellFormed h ⟨0, 0, .iotjsEmptyString⟩ where
  size_le := Nat.le_refl 0
  cap_lt := by decide
  cap_eq_zero_iff := iff_of_true rfl rfl
  backed _ hdata := CharPointer.noConfusion hdata

theorem wellFormed_of_block {b : Nat} {block : HeapBlock} (hsize : s.size ≤ s.cap)
    (hpos : 0 < s.cap) (hcap : s.cap + 1 < 4294967296) (hdata : s.data = .block b)
    (hb : h[b]? = some block) (hbacks : block.Backs s) : s.WellFormed h where
  size_le := hsize
  cap_lt := hcap
  cap_eq_zero_iff := by
    rw [hdata]
    exact iff_of_false (Nat.ne_of_gt hpos) CharPointer.noConfusion
  backed b' hb' := by
    obtain rfl : b = b' := CharPointer.block.inj (hdata.symm.trans hb')
    exact ⟨block, hb, hbacks⟩

end IotjsString

/-! ### Calls -/

/-- What one call makes of the heap, and of what the pointer of its string points to. -/
inductive CharHeap.Moves (h : CharHeap) : CharPointer → CharHeap → CharPointer → Prop
  | keep (data : CharPointer) : Moves h data h data
  | allocate (bytes : Bytes) :
      Moves h .iotjsEmptyString (h ++ [{ bytes := bytes }]) (.block h.length)
  | edit (b : Nat) (f : Bytes → Bytes) : Moves h (.block b) (h.edit b f) (.block b)
  | reallocate (b : Nat) (bytes : Bytes) :
      Moves h (.block b) (h.release b ++ [{ bytes := bytes }]) (.block h.length)
  | release (b : Nat) : Moves h (.block b) (h.release b) .iotjsEmptyString

/-- The blocks of other strings stay as they are. -/
theorem CharHeap.Moves.others {h h' : CharHeap} {data data' : CharPointer}
    (hmoves : h.Moves data h' data') {b : Nat} {block : HeapBlock} (hb : h[b]? = some block)
    (hne : data ≠ .block b) : h'[b]? = some block ∧ data' ≠ .block b := by
  have hlt := lt_length hb
  have hnew : ∀ {h₁ : CharHeap}, h₁.length = h.length → CharPointer.block h₁.length ≠ .block b :=
    fun hlength hsame => Nat.ne_of_gt hlt (hlength.symm.trans (CharPointer.block.inj hsame))
  cases hmoves with
  | keep => exact ⟨hb, hne⟩
  | allocate bytes =>
      rw [List.getElem?_append_left hlt]
      exact ⟨hb, hnew rfl⟩
  | edit c f =>
      have hcb : c ≠ b := fun hsame => hne (congrArg CharPointer.block hsame)
      exact ⟨(List.getElem?_modify_ne _ _ hcb).trans hb, hne⟩
  | reallocate c bytes =>
      have hcb : c ≠ b := fun hsame => hne (congrArg CharPointer.block hsame)
      rw [List.getElem?_append_left (by rw [length_release]; exact hlt)]
      exact ⟨(List.getElem?_modify_ne _ _ hcb).trans hb, hnew rfl⟩
  | release c =>
      have hcb : c ≠ b := fun hsame => hne (congrArg CharPointer.block hsame)
      exact ⟨(List.getElem?_modify_ne _ _ hcb).trans hb, CharPointer.noConfusion⟩

/-- The call comes back with a well-formed string, whose pointer was `data` before. -/
def CallKeeps (h : CharHeap) (data : CharPointer)
    (result : Except StringFailure (CharHeap × IotjsString)) : Prop :=
  ∃ h' s, result = .ok (h', s) ∧ h.Moves data h' s.data ∧ s.WellFormed h'

/-- The call fails, or its string is not well formed. -/
def CallSpoils (result : Except StringFailure (CharHeap × IotjsString)) : Prop :=
  ∀ h s, result = .ok (h, s) → ¬ s.WellFormed h

theorem callSpoils_error (failure : StringFailure) : CallSpoils (.error failure) := by
  rintro h s ⟨⟩

theorem callSpoils_bind {α : Type} {first : Except StringFailure α} {failure : StringFailure}
    (hfirst : first = .error failure) (next : α → Except StringFailure (CharHeap × IotjsString)) :
    CallSpoils (first >>= next) := by
  rw [hfirst]
  exact callSpoils_error failure

namespace IotjsString

variable {h : CharHeap} {s : IotjsString}

/-- A string whose bytes are these ones, in a block of the heap. -/
structure FitsIn (s : IotjsString) (bytes : Bytes) : Prop where
  size_le : s.size ≤ s.cap
  cap_pos : 0 < s.cap
  cap_lt : s.cap + 1 < 4294967296
  length : bytes.length = s.cap + 1
  terminated : bytes[s.size]? = some 0

theorem FitsIn.wellFormed {bytes : Bytes} (hfits : s.FitsIn bytes) {b : Nat}
    (hdata : s.data = .block b) (hb : h[b]? = some ⟨bytes, 0⟩) : s.WellFormed h :=
  wellFormed_of_block hfits.size_le hfits.cap_pos hfits.cap_lt hdata hb
    ⟨rfl, hfits.length, hfits.terminated⟩

theorem callKeeps_allocate (h : CharHeap) {bytes : Bytes} (hfits : s.FitsIn bytes)
    (hdata : s.data = .block h.length) :
    CallKeeps h .iotjsEmptyString (.ok (h ++ [⟨bytes, 0⟩], s)) :=
  ⟨_, s, rfl, hdata ▸ .allocate bytes, hfits.wellFormed hdata (CharHeap.getElem?_last h _)⟩

theorem callKeeps_reallocate (h : CharHeap) (b : Nat) {bytes : Bytes} (hfits : s.FitsIn bytes)
    (hdata : s.data = .block h.length) :
    CallKeeps h (.block b) (.ok (h.release b ++ [⟨bytes, 0⟩], s)) :=
  ⟨_, s, rfl, hdata ▸ .reallocate b bytes, hfits.wellFormed hdata (CharHeap.getElem?_moved h b _)⟩

theorem callKeeps_edit {b : Nat} {block : HeapBlock} (hb : h[b]? = some block)
    (hlive : block.released = 0) {f : Bytes → Bytes} (hfits : s.FitsIn (f block.bytes))
    (hdata : s.data = .block b) : CallKeeps h (.block b) (.ok (h.edit b f, s)) := by
  obtain ⟨bytes, released⟩ := block
  obtain rfl : released = 0 := hlive
  refine ⟨_, s, rfl, ?_, hfits.wellFormed hdata (CharHeap.edit_self hb f)⟩
  rw [hdata]
  exact .edit b f

/-- A block that was made for these characters. -/
theorem callKeeps_chars (h : CharHeap) (data : Bytes) (hne : data ≠ [])
    (hlength : data.length + 1 < 4294967296) :
    CallKeeps h .iotjsEmptyString
      (.ok (h ++ [⟨data ++ [0], 0⟩], ⟨data.length, data.length, .block h.length⟩)) :=
  callKeeps_allocate h
    ⟨Nat.le_refl _, List.length_pos_iff.mpr hne, hlength, List.length_append,
      List.getElem?_concat_length⟩ rfl

theorem callKeeps_empty (h : CharHeap) :
    CallKeeps h .iotjsEmptyString (.ok (h, ⟨0, 0, .iotjsEmptyString⟩)) :=
  ⟨h, _, rfl, .keep _, wellFormed_empty h⟩

/-- How three of the calls make a string. -/
theorem write_both (h : CharHeap) (data : Bytes) (s : IotjsString) :
    ((h ++ [⟨List.replicate (data.length + 1) 0, 0⟩] : CharHeap).write (.block h.length) 0 data >>=
      fun h₁ => h₁.write (.block h.length) data.length [0] >>= fun h₂ => pure (h₂, s)) =
        .ok (h ++ [⟨data ++ [0], 0⟩], s) := by
  rw [CharHeap.write_chars]
  show (CharHeap.write (h ++ [⟨data ++ [0], 0⟩]) _ _ _ >>= _) = _
  rw [CharHeap.write_terminator]
  rfl

/-- An allocation that is too small has no room for the characters. -/
theorem write_too_many (h : CharHeap) (data : Bytes) {size : Nat} (hsize : size < data.length) :
    (h ++ [⟨List.replicate size 0, 0⟩] : CharHeap).write (.block h.length) 0 data =
      .error .outOfBounds := by
  apply CharHeap.write_outOfBounds (CharHeap.getElem?_last h _) rfl
  rw [List.length_replicate]
  omega

theorem untilNul_eq {data : Bytes} (hnul : 0 ∉ data) : untilNul data = data := by
  rw [untilNul, List.takeWhile_eq_self_iff]
  intro b hb
  exact decide_eq_true fun hzero => hnul (hzero ▸ hb)

/-! ### `create_with_size` -/

section

variable {data : Bytes}

/-- The first characters of the data, as many as an `unsigned` has of their number. -/
theorem createWithSize_keeps (h : CharHeap) (hnul : 0 ∉ data)
    (hlength : data.length % 4294967296 ≠ 4294967295) :
    CallKeeps h .iotjsEmptyString (createWithSize h data data.length) := by
  have hle : data.length % 4294967296 ≤ data.length := Nat.mod_le _ _
  have hlt : data.length % 4294967296 + 1 < 4294967296 := by omega
  rw [createWithSize, toUnsigned_natCast]
  generalize data.length % 4294967296 = n at hlt hle
  have htake : (data.take n).length = n := List.length_take_of_le hle
  simp only [untilNul_eq hnul, htake, ne_eq, not_true_eq_false, if_false]
  split
  · rename_i hpos
    have hkeeps := callKeeps_chars h (data.take n)
      (List.length_pos_iff.mp (by omega)) (by omega)
    have hwrites := write_both h (data.take n) ⟨n, n, .block h.length⟩
    rw [htake] at hkeeps hwrites
    rw [toUnsigned_add_one hlt]
    exact (congrArg (CallKeeps h .iotjsEmptyString) hwrites).mpr hkeeps
  · rename_i hzero
    obtain rfl : n = 0 := by omega
    exact callKeeps_empty h

/-- The size of the allocation is zero. -/
theorem createWithSize_spoils (h : CharHeap) (hnul : 0 ∉ data)
    (hlength : data.length % 4294967296 = 4294967295) :
    CallSpoils (createWithSize h data data.length) := by
  have hle : data.length % 4294967296 ≤ data.length := Nat.mod_le _ _
  have hround : toUnsigned ((data.length % 4294967296 : Nat) + 1) = 0 := by
    rw [toUnsigned]
    omega
  rw [createWithSize, toUnsigned_natCast]
  generalize data.length % 4294967296 = n at hlength hle hround
  have htake : (data.take n).length = n := List.length_take_of_le hle
  simp only [untilNul_eq hnul, htake, ne_eq, not_true_eq_false, if_false]
  rw [if_pos (by omega), hround]
  exact callSpoils_bind (write_too_many h (data.take n) (by omega)) _

theorem create_eq (h : CharHeap) (hnul : 0 ∉ data) :
    create h data = createWithSize h data data.length := by
  rw [create, untilNul_eq hnul]

end

/-! ### `create_with_buffer` -/

section

variable {data : Bytes}

/-- A buffer with characters in it, in the two calls that hand over one. -/
theorem write_both_buffer (h : CharHeap) (data : Bytes) (hlength : data.length + 1 < 4294967296) :
    ((h ++ [⟨List.replicate (data.length + 1) 0, 0⟩] : CharHeap).write (.block h.length) 0 data >>=
      fun h₁ => h₁.write (.block h.length) data.length [0] >>=
        fun h₂ => pure (h₂, createWithBuffer (.block h.length) data.length)) =
      .ok (h ++ [⟨data ++ [0], 0⟩], ⟨data.length, data.length, .block h.length⟩) := by
  rw [write_both, createWithBuffer, toUnsigned_of_lt (by omega)]

theorem fileRead_keeps (h : CharHeap) (hne : data ≠ []) (hlength : data.length + 1 < 4294967296) :
    CallKeeps h .iotjsEmptyString (fileRead h data) := by
  rw [fileRead, toUnsigned_add_one hlength]
  exact (congrArg (CallKeeps h .iotjsEmptyString) (write_both_buffer h data hlength)).mpr
    (callKeeps_chars h data hne hlength)

/-- The capacity is zero, and the buffer is not `iotjs_empty_string`. -/
theorem fileRead_empty (h : CharHeap) :
    fileRead h [] = .ok (h ++ [⟨[0], 0⟩], ⟨0, 0, .block h.length⟩) := by
  rw [fileRead]
  exact write_both_buffer h [] (by decide)

theorem fileRead_spoils (h : CharHeap) (hbad : data = [] ∨ 4294967296 ≤ data.length + 1) :
    CallSpoils (fileRead h data) := by
  rcases hbad with rfl | hlong
  · rw [fileRead_empty]
    rintro h' s ⟨⟩ hs
    exact CharPointer.noConfusion (hs.cap_eq_zero_iff.mp rfl)
  · have hround : toUnsigned (data.length + 1) < data.length := by
      rw [toUnsigned]
      omega
    exact callSpoils_bind (write_too_many h data hround) _

theorem jvalAsString_keeps (h : CharHeap) (hlength : data.length + 1 < 4294967296) :
    CallKeeps h .iotjsEmptyString (jvalAsString h data) := by
  rw [jvalAsString]
  split
  · exact callKeeps_empty h
  · rename_i hpos
    rw [toUnsigned_add_one hlength]
    exact (congrArg (CallKeeps h .iotjsEmptyString) (write_both_buffer h data hlength)).mpr
      (callKeeps_chars h data (fun hnil => hpos (congrArg List.length hnil)) hlength)

theorem jvalAsString_spoils (h : CharHeap) (hlength : data.length = 4294967295) :
    CallSpoils (jvalAsString h data) := by
  have hround : toUnsigned (data.length + 1) < data.length := by
    rw [toUnsigned]
    omega
  rw [jvalAsString, if_neg (by omega)]
  exact callSpoils_bind (write_too_many h data hround) _

end

/-! ### `make_empty` and `destroy` -/

theorem makeEmpty_keeps (hs : s.WellFormed h) : CallKeeps h s.data (s.makeEmpty h) := by
  rw [makeEmpty]
  split
  · rename_i hdata
    obtain ⟨size, cap, data⟩ := s
    cases data with
    | iotjsEmptyString => exact absurd rfl hdata
    | block b => exact ⟨_, _, rfl, .release b, wellFormed_empty _⟩
  · exact ⟨h, s, rfl, .keep _, hs⟩

theorem destroy_moves (h : CharHeap) (s : IotjsString) :
    ∃ h', s.destroy h = .ok h' ∧ h.Moves s.data h' .iotjsEmptyString := by
  rw [destroy]
  split
  · rename_i hdata
    obtain ⟨size, cap, data⟩ := s
    cases data with
    | iotjsEmptyString => exact absurd rfl hdata
    | block b => exact ⟨_, rfl, .release b⟩
  · rename_i hdata
    rw [not_not.mp hdata]
    exact ⟨h, rfl, .keep _⟩

/-! ### `reserve` -/

section

variable {fresh : Nat → Nat → UInt8} {capacity : Int}

/-- A new block has zeros in it, and a block that moves takes its characters along. -/
theorem reserve_keeps (hs : s.WellFormed h) (hcapacity : toUnsigned capacity ≠ 4294967295) :
    CallKeeps h s.data (s.reserve h fresh capacity) := by
  have hlt := toUnsigned_lt capacity
  rw [reserve]
  generalize toUnsigned capacity = n at hcapacity hlt
  by_cases henough : n ≤ s.cap
  · rw [if_pos henough]
    exact ⟨h, s, rfl, .keep _, hs⟩
  rw [if_neg henough, toUnsigned_add_one (by omega)]
  obtain rfl | ⟨hpos, b, block, hdata, hb, hbacks⟩ := hs.cases
  · have hpos : 0 < n := Nat.lt_of_not_le henough
    refine callKeeps_allocate (s := ⟨0, n, .block h.length⟩) h
      ⟨Nat.zero_le n, hpos, ?_, List.length_replicate, ?_⟩ rfl
    · show n + 1 < 4294967296
      omega
    · exact List.getElem?_replicate_of_lt (Nat.succ_pos n)
  · have hsize := hs.size_le
    have hlength := hbacks.length
    have hterminated : (CharHeap.reallocated (fresh h.length) block.bytes (n + 1))[s.size]? =
        some 0 := by
      rw [CharHeap.getElem?_reallocated _ (by omega) (by omega)]
      exact hbacks.terminated
    rw [if_neg (Nat.ne_of_gt hpos), hdata, CharHeap.bufferReallocate_eq fresh hb]
    refine callKeeps_reallocate (s := ⟨s.size, n, .block h.length⟩) h b
      ⟨?_, ?_, ?_, CharHeap.length_reallocated _ _ _, hterminated⟩ rfl
    · show s.size ≤ n
      omega
    · show 0 < n
      omega
    · show n + 1 < 4294967296
      omega

/-- The size of the allocation is zero. -/
theorem reserve_spoils (hs : s.WellFormed h) (hcapacity : toUnsigned capacity = 4294967295) :
    CallSpoils (s.reserve h fresh capacity) := by
  have hcap := hs.cap_lt
  have hround : toUnsigned ((4294967295 : Nat) + 1) = 0 := by decide
  -- a well-formed string has a smaller capacity than it gets
  have hspoilt : ∀ {h' : CharHeap} {t : IotjsString}, t.cap = 4294967295 → ¬ t.WellFormed h' := by
    intro h' t ht hwell
    have hlt := hwell.cap_lt
    omega
  rw [reserve, hcapacity, if_neg (by omega), hround]
  obtain rfl | ⟨hpos, b, block, hdata, hb, -⟩ := hs.cases
  · rintro h' t ⟨⟩
    exact hspoilt rfl
  · rw [if_neg (Nat.ne_of_gt hpos), hdata, CharHeap.bufferReallocate_eq fresh hb]
    rintro h' t ⟨⟩
    exact hspoilt rfl

end

end IotjsString

end IotJs

import IotJs.Core.DgramSlice
import IotJs.Proofs.BufferAssertions

/-!
# `IotJs.Proofs.DgramSlice`: which bytes a datagram holds

`sliceBuffer` makes its two numbers unsigned, and `Buffer.prototype.slice` makes the offset and the
end signed again. From 2 GiB on they come out below zero, and count from the end of the Buffer.
`sendsRange_iff` says for which of the 2^64 pairs the datagram holds the bytes from the offset on,
as many as the length says and no more than there are.
-/

set_option autoImplicit false

namespace IotJs

open Fs (toInt)
open FsRange (IsInt Number)
open Buffer (Failure)
open BufferHeap (argument sliceBytes sliceClip)

namespace Dgram

/-! ### The two indices -/

/-- The offsets and lengths for which `slice` finds the range in `n` bytes. -/
def InRange (n offset length : Nat) : Prop :=
  if offset < 2147483648 then n ≤ offset ∨ offset + length < 2147483648
  else if offset + length < 4294967296 then length = 0 ∨ n + offset + length ≤ 4294967296
  else offset + length = 4294967296 ∨ n = 0 ∨ length ≤ n ∨ 6442450944 ≤ offset + length

theorem argument_eq (n : Nat) (other : Int) : argument (some (.int n)) other = toInt n := by
  rw [argument, Option.map_some, Option.getD_some, Number.int, Number.toInt32, Rat.ofInt_num,
    Rat.ofInt_den, Int.natCast_one, Int.tdiv_one]

/-- Where an unsigned number, or the sum of two, ends up as an index. -/
theorem sliceClip_toInt {n length : Nat} (hn : n < 8589934592) :
    sliceClip (toInt n) length =
      if n < 2147483648 then min n length
      else if n < 4294967296 then length - (4294967296 - n)
      else if n < 6442450944 then min (n - 4294967296) length
      else length - (8589934592 - n) := by
  have hint : toInt n = if n < 2147483648 then (n : Int)
      else if n < 6442450944 then (n : Int) - 4294967296 else (n : Int) - 8589934592 := by
    rw [toInt, Int.bmod_def]
    split_ifs <;> omega
  rw [sliceClip, BufferHeap.clip, hint]
  split_ifs <;> omega

theorem sliceBytes_eq_iff {block : Bytes} (hblock : block.length < 2147483648)
    {offset length : Nat} (hoffset : offset < 4294967296) (hlength : length < 4294967296) :
    sliceBytes block (some (.int offset)) (some (.int (offset + length : Nat))) =
        (block.drop offset).take length ↔ InRange block.length offset length := by
  rw [sliceBytes, argument_eq, argument_eq, sliceClip_toInt (by omega), sliceClip_toInt (by omega)]
  by_cases hbehind : block.length ≤ offset
  · -- the range is empty, and so is the slice unless it begins before it ends
    have hempty : ∀ start stop : Nat, (block.drop start).take (stop - start) =
        (block.drop offset).take length ↔ stop ≤ start ∨ block.length ≤ start := by
      intro start stop
      rw [List.drop_eq_nil_of_le hbehind, List.take_nil, ← List.length_eq_zero_iff,
        List.length_take, List.length_drop]
      omega
    rw [hempty, InRange]
    split_ifs <;> omega
  · -- the slice begins at the offset, and only its end can be wrong
    have hsame : ∀ stop : Nat, (block.drop offset).take (stop - offset) =
        (block.drop offset).take length ↔
          min (stop - offset) (block.length - offset) = min length (block.length - offset) := by
      intro stop
      rw [List.take_eq_take_iff, List.length_drop]
    have hoffset' : offset < 2147483648 := by omega
    have hmin : min offset block.length = offset := by omega
    rw [if_pos hoffset', hmin, hsame, InRange, if_pos hoffset']
    split_ifs <;> omega

/-! ### The datagram -/

section

variable (T : BufferTarget) (h : BufferHeap)

/-- The `length` of what is sent. -/
def chunkLength : DgramChunk → Nat
  | .buffer this => (h.wrap this).length
  | .string string => T.stringLength string
  | .other => 0

/-- The bytes of what is sent, for a string those of its Buffer. -/
def chunkBytes : DgramChunk → Bytes
  | .buffer this => (h.wrap this).block
  | .string string => newBuffer T.toPlatform string
  | .other => []

/-- A Buffer of the program, or a string. The engine has no string of 2 GiB. -/
def Valid : DgramChunk → Prop
  | .buffer this => this < h.length
  | .string string => (T.stringToBytes string).length < 2147483648
  | .other => False

/-- The datagram holds the range that was asked for, whatever has happened to the other Buffers
when it is put together. -/
def SendsRange (chunk : DgramChunk) (offset length : Number) : Prop :=
  ∃ slice h', sliceBuffer T h chunk offset length = .ok (slice, h') ∧
    ∀ s, Runs.Reach (Buffers.step T) (Buffers.Spares slice) ⟨h', false⟩ s →
      datagram T s.heap [slice] =
        .ok (((chunkBytes T h chunk).drop offset.toUint32).take length.toUint32)

end

variable {T : BufferTarget} {h : BufferHeap} {chunk : DgramChunk}

theorem toUint32_lt (n : Number) : n.toUint32 < 4294967296 := by
  cases n with
  | finite q =>
      rw [Number.toUint32]
      omega
  | infinite negative | nan => exact Nat.zero_lt_succ _

/-- The Buffer that is sliced. -/
theorem chunkBuffer_eq (hw : h.WellFormed) (hvalid : Valid T h chunk)
    (hlt : chunkLength T h chunk < 2147483648) :
    ∃ this h₁, chunkBuffer T h chunk = .ok (this, h₁) ∧ this < h₁.length ∧ (h₁.wrap this).Sound ∧
      (h₁.wrap this).block = chunkBytes T h chunk ∧
      (chunkBytes T h chunk).length = chunkLength T h chunk := by
  cases chunk with
  | buffer this =>
      have hthis := (hw this).sound hlt
      exact ⟨this, h, if_pos (BufferHeap.isBuffer_iff.mpr hvalid), hvalid, hthis, rfl,
        hthis.length.symm⟩
  | string string =>
      have hlength : (newBuffer T.toPlatform string).length = T.stringLength string := by
        rw [newBuffer, List.length_append, List.length_take, List.length_replicate]
        omega
      refine ⟨_, _, BufferHeap.newString_eq hlt hvalid, by simp, ?_, ?_, hlength⟩
      · rw [BufferHeap.wrap_push_self]
        exact ⟨hlength.symm, hlength.symm ▸ hlt⟩
      · rw [BufferHeap.wrap_push_self]
        rfl
  | other => exact hvalid.elim

/-- A slice that nobody writes to is what the datagram holds. -/
theorem datagram_eq {bytes : Bytes} (hbytes : bytes.length < 2147483648) {h₁ : BufferHeap}
    {s : Buffers} (hreach : Runs.Reach (Buffers.step T) (Buffers.Spares h₁.length)
      ⟨h₁ ++ [⟨bytes.length, bytes⟩], false⟩ s) :
    datagram T s.heap [h₁.length] = .ok bytes := by
  obtain ⟨hbuffer, hwrap⟩ := Buffers.spared_of_reach (by simp) hreach
  rw [BufferHeap.wrap_push_self] at hwrap
  have hcontents : s.heap.contents [h₁.length] = bytes := by
    show (s.heap.wrap h₁.length).block ++ [] = bytes
    rw [hwrap, List.append_nil]
  have hconcat : s.heap.concat T [h₁.length] = _ :=
    BufferHeap.concat_eq (fun r hr => List.mem_singleton.mp hr ▸ hbuffer)
      (fun r hr => by rw [List.mem_singleton.mp hr, hwrap]; exact ⟨rfl, hbytes⟩)
      (by rw [hcontents]; exact hbytes)
  rw [datagram, hconcat, hcontents]
  show Except.ok (BufferHeap.wrap (s.heap ++ [_]) s.heap.length).block = _
  rw [BufferHeap.wrap_push_self]

theorem sliceBuffer_eq {this : Nat} {h₁ : BufferHeap} (offset length : Number)
    (hchunk : chunkBuffer T h chunk = .ok (this, h₁)) (hbuffer : this < h₁.length)
    (hthis : (h₁.wrap this).Sound) :
    let bytes := sliceBytes (h₁.wrap this).block (some (.int offset.toUint32))
      (some (.int (offset.toUint32 + length.toUint32 : Nat)))
    sliceBuffer T h chunk offset length =
      .ok (h₁.length, h₁ ++ [⟨bytes.length, bytes⟩]) := by
  have hslice : h₁.slice T this (some (.int offset.toUint32))
      (some (.int (offset.toUint32 + length.toUint32 : Nat))) = _ :=
    BufferHeap.slice_eq hbuffer hthis ..
  rw [sliceBuffer, hchunk]
  rw [Int.natCast_add] at hslice ⊢
  exact hslice

/-- The native side has no length for 2 GiB, and its assertion fails. -/
theorem sliceBuffer_aborts (hw : h.WellFormed) (hvalid : Valid T h chunk)
    (hlarge : ¬ chunkLength T h chunk < 2147483648) (offset length : Number) :
    sliceBuffer T h chunk offset length = .error .aborted := by
  cases chunk with
  | buffer this =>
      have hunsound : ¬ (h.wrap this).Sound := fun hsound => hlarge ((hw this).sound_iff.mp hsound)
      have hchunk : chunkBuffer T h (.buffer this) = .ok (this, h) :=
        if_pos (BufferHeap.isBuffer_iff.mpr hvalid)
      rw [sliceBuffer, hchunk]
      show h.slice T this _ _ = _
      rw [BufferHeap.slice, BufferHeap.Slice,
        BufferHeap.bufferwrapLength_aborts (hw this) hunsound]
      rfl
  | string string =>
      have hchunk : chunkBuffer T h (.string string) = .error .aborted :=
        BufferHeap.newString_aborts (Nat.not_lt.mp hlarge)
      rw [sliceBuffer, hchunk]
      rfl
  | other => exact hvalid.elim

/-- For every Buffer or string, and for all offsets and lengths. -/
theorem sendsRange_iff (hw : h.WellFormed) (hvalid : Valid T h chunk) (offset length : Number) :
    SendsRange T h chunk offset length ↔ chunkLength T h chunk < 2147483648 ∧
      InRange (chunkLength T h chunk) offset.toUint32 length.toUint32 := by
  by_cases hlt : chunkLength T h chunk < 2147483648
  · obtain ⟨this, h₁, hchunk, hbuffer, hthis, hblock, hlength⟩ := chunkBuffer_eq hw hvalid hlt
    have hiff := sliceBytes_eq_iff hthis.lt (toUint32_lt offset) (toUint32_lt length)
    have hslice := sliceBuffer_eq offset length hchunk hbuffer hthis
    dsimp only at hslice
    have hbytes := Nat.lt_of_le_of_lt (BufferHeap.length_sliceBytes_le (h₁.wrap this).block
      (some (.int offset.toUint32)) (some (.int (offset.toUint32 + length.toUint32 : Nat))))
      hthis.lt
    rw [and_iff_right hlt, ← hlength, ← hblock, ← hiff, SendsRange, ← hblock]
    generalize sliceBytes (h₁.wrap this).block (some (.int offset.toUint32))
      (some (.int (offset.toUint32 + length.toUint32 : Nat))) = bytes at hslice hbytes
    constructor
    · rintro ⟨slice, h', hresult, hsends⟩
      cases hslice.symm.trans hresult
      -- the datagram that is put together at once
      exact Except.ok.inj ((datagram_eq hbytes .start).symm.trans (hsends _ .start))
    · intro heq
      exact ⟨_, _, hslice, fun s hreach => heq ▸ datagram_eq hbytes hreach⟩
  · refine iff_of_false ?_ fun h => hlt h.1
    rintro ⟨slice, h', hresult, -⟩
    cases (sliceBuffer_aborts hw hvalid hlt offset length).symm.trans hresult

theorem sendsRange_middle :
    SendsRange (.ascii true) [⟨4, [97, 98, 99, 100]⟩] (.buffer 0) (.int 1) (.int 2) := by
  have hvalid : Valid (.ascii true) [⟨4, [97, 98, 99, 100]⟩] (.buffer 0) := Nat.zero_lt_one
  refine (sendsRange_iff (BufferHeap.wellFormed_of_mem (by decide)) hvalid _ _).mpr
    ⟨by decide, ?_⟩
  have hoffset : (Number.int 1).toUint32 = 1 := by decide +kernel
  have hlength : (Number.int 2).toUint32 = 2 := by decide +kernel
  rw [hoffset, hlength, InRange, if_pos (by decide)]
  exact .inr (by decide)

/-- The offset 4294967294 is two bytes before the end. -/
theorem send_before_end :
    ¬ SendsRange (.ascii true) [⟨4, [97, 98, 99, 100]⟩] (.buffer 0) (.int 4294967294)
      (.int 1) := by
  have hslice : sliceBuffer (.ascii true) [⟨4, [97, 98, 99, 100]⟩] (.buffer 0) (.int 4294967294)
      (.int 1) = .ok (1, [⟨4, [97, 98, 99, 100]⟩, ⟨1, [99]⟩]) := by decide +kernel
  rintro ⟨slice, h', hresult, hsends⟩
  cases hslice.symm.trans hresult
  exact absurd (hsends _ .start) (by decide +kernel)

end Dgram

end IotJs

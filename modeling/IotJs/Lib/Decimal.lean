import Mathlib.Algebra.Group.Nat.Defs

/-!
# `IotJs.Lib.Decimal`: decimal texts of integers

`decimal n` is the text of an integer in base ten, with a sign where it is negative, and `value`
reads such a text back. An empty text has no value. `snprintf size n` is the text that is cut to a
buffer of `size` characters, one of which ends it, and `value_snprintf` says when nothing is lost.
-/

set_option autoImplicit false

namespace Decimal

def decimal (n : Int) : List Char :=
  if n < 0 then '-' :: Nat.toDigits 10 n.natAbs else Nat.toDigits 10 n.natAbs

def value : List Char → Option Int
  | [] => none
  | '-' :: digits => some (-(Nat.ofDigitChars 10 digits 0 : Int))
  | c :: digits => some (Nat.ofDigitChars 10 (c :: digits) 0)

/-- The text that a buffer of `size` characters has room for. -/
def snprintf (size : Nat) (n : Int) : List Char := (decimal n).take (size - 1)

theorem value_toDigits (n : Nat) : value (Nat.toDigits 10 n) = some (n : Int) := by
  cases hdigits : Nat.toDigits 10 n with
  | nil => exact absurd hdigits Nat.toDigits_ne_nil
  | cons c digits =>
      have hdigit : c.isDigit :=
        Nat.isDigit_of_mem_toDigits (by decide) (by decide) (hdigits ▸ List.mem_cons_self)
      have hc : c ≠ '-' := by
        rintro rfl
        exact absurd hdigit (by decide)
      rw [value.eq_3 c digits hc, ← hdigits, Nat.ofDigitChars_ten_toDigits]

theorem value_decimal (n : Int) : value (decimal n) = some n := by
  unfold decimal
  split
  · rw [value, Nat.ofDigitChars_ten_toDigits]
    exact congrArg some (by omega)
  · rw [value_toDigits]
    exact congrArg some (by omega)

theorem length_decimal_le {n : Int} {k : Nat} (hk : 0 < k) (hn : n.natAbs < 10 ^ k) :
    (decimal n).length ≤ k + 1 := by
  have hdigits := (Nat.length_toDigits_le_iff (by decide : 1 < 10) hk).mpr hn
  unfold decimal
  split
  · rw [List.length_cons]
    omega
  · omega

theorem value_snprintf {n : Int} {k size : Nat} (hk : 0 < k) (hn : n.natAbs < 10 ^ k)
    (hsize : k + 2 ≤ size) : value (snprintf size n) = some n := by
  have hlength := length_decimal_le hk hn
  rw [snprintf, List.take_of_length_le (by omega), value_decimal]

/-- Where there is room only for the end, the text has no value. -/
theorem value_snprintf_one (n : Int) : value (snprintf 1 n) = none := rfl

end Decimal

import Mathlib.Tactic.Common

/-!
# `IotJs.Lib.Utf8`: how long a string is in UTF-8 and in UTF-16

`encode` gives the bytes of a string in UTF-8, and `decode` reads them back (`decode_encode`, and
`encode_of_decode` for the other way round).
`utf16Length` counts the code units of UTF-16, which is what some languages call the length of a
string. There are never more code units than bytes, and as many of them exactly if the string is
ASCII (`utf16Length_eq_iff`). A byte is zero only where a character is (`zero_mem_encode`).
-/

set_option autoImplicit false

namespace Utf8

def encode (s : String) : List UInt8 := s.toList.flatMap String.utf8EncodeChar

/-- Bytes that are no UTF-8 have no string. -/
def decode (b : List UInt8) : Option String := String.fromUTF8? b.toByteArray

/-- A character outside the basic plane is a surrogate pair. -/
def utf16Size (c : Char) : Nat := if c.val ≤ 0xFFFF then 1 else 2

/-- The sizes of some characters together. -/
def total (size : Char → Nat) : List Char → Nat
  | [] => 0
  | c :: l => size c + total size l

def utf16Length (s : String) : Nat := total utf16Size s.toList

def Ascii (s : String) : Prop := ∀ c ∈ s.toList, c.val ≤ 127

instance (s : String) : Decidable (Ascii s) :=
  List.decidableBAll (fun c : Char => c.val ≤ 127) s.toList

theorem toByteArray_encode (s : String) : (encode s).toByteArray = s.toByteArray := by
  rw [encode, ← String.utf8Encode_toList]
  rfl

theorem decode_encode (s : String) : decode (encode s) = some s := by
  rw [decode, toByteArray_encode, String.fromUTF8?, dif_pos s.isValidUTF8]
  rfl

theorem encode_of_decode {b : List UInt8} {s : String} (h : decode b = some s) : encode s = b := by
  unfold decode String.fromUTF8? at h
  split at h
  · rw [← List.toByteArray_inj, toByteArray_encode, ← Option.some.inj h]
    rfl
  · cases h

theorem encode_append (s t : String) : encode (s ++ t) = encode s ++ encode t := by
  rw [encode, String.toList_append, List.flatMap_append]
  rfl

theorem total_append (size : Char → Nat) (l m : List Char) :
    total size (l ++ m) = total size l + total size m := by
  induction l with
  | nil => exact (Nat.zero_add _).symm
  | cons c l ih => rw [List.cons_append, total, total, ih, Nat.add_assoc]

theorem utf16Length_append (s t : String) :
    utf16Length (s ++ t) = utf16Length s + utf16Length t := by
  rw [utf16Length, String.toList_append, total_append]
  rfl

theorem length_flatMap_utf8EncodeChar (l : List Char) :
    (l.flatMap String.utf8EncodeChar).length = total Char.utf8Size l := by
  induction l with
  | nil => rfl
  | cons c l ih =>
      rw [List.flatMap_cons, List.length_append, String.length_utf8EncodeChar, ih, total]

theorem length_encode (s : String) : (encode s).length = total Char.utf8Size s.toList :=
  length_flatMap_utf8EncodeChar s.toList

theorem utf16Size_le (c : Char) : utf16Size c ≤ c.utf8Size := by
  have hpos := c.utf8Size_pos
  unfold utf16Size
  split
  · exact hpos
  · next h =>
      rw [Char.utf8Size_eq_four_iff.mpr (UInt32.not_le.mp h)]
      decide

theorem utf16Size_eq_iff (c : Char) : utf16Size c = c.utf8Size ↔ c.val ≤ 127 := by
  rw [← Char.utf8Size_eq_one_iff]
  unfold utf16Size
  split
  · exact eq_comm
  · next h =>
      rw [Char.utf8Size_eq_four_iff.mpr (UInt32.not_le.mp h)]
      decide

theorem total_utf16Size_le (l : List Char) : total utf16Size l ≤ total Char.utf8Size l := by
  induction l with
  | nil => exact Nat.le_refl _
  | cons c l ih => exact Nat.add_le_add (utf16Size_le c) ih

/-- No character makes up for another that takes more bytes than code units. -/
theorem total_utf16Size_eq_iff (l : List Char) :
    total utf16Size l = total Char.utf8Size l ↔ ∀ c ∈ l, c.val ≤ 127 := by
  induction l with
  | nil => exact iff_of_true rfl fun c hc => absurd hc List.not_mem_nil
  | cons c l ih =>
      have hhead := utf16Size_le c
      have htail := total_utf16Size_le l
      rw [total, total, List.forall_mem_cons, ← ih, ← utf16Size_eq_iff]
      omega

theorem utf16Length_le (s : String) : utf16Length s ≤ (encode s).length := by
  rw [length_encode]
  exact total_utf16Size_le s.toList

theorem utf16Length_eq_iff (s : String) : utf16Length s = (encode s).length ↔ Ascii s := by
  rw [length_encode]
  exact total_utf16Size_eq_iff s.toList

theorem encode_eq_nil_iff (s : String) : encode s = [] ↔ s = "" := by
  rw [encode, List.flatMap_eq_nil_iff, ← String.toList_eq_nil_iff]
  constructor
  · intro h
    exact List.eq_nil_iff_forall_not_mem.mpr fun c hc => String.utf8EncodeChar_ne_nil (h c hc)
  · intro h c hc
    exact absurd (h ▸ hc) List.not_mem_nil

theorem ofNat_ne_zero {n : Nat} (hn : n % 256 ≠ 0) : (0 : UInt8) ≠ UInt8.ofNat n := by
  intro heq
  have hnat := congrArg UInt8.toNat heq
  rw [UInt8.toNat_ofNat'] at hnat
  exact hn hnat.symm

/-- The bytes of a character beyond ASCII begin at 128. -/
theorem zero_mem_utf8EncodeChar {c : Char} (h : (0 : UInt8) ∈ String.utf8EncodeChar c) :
    c = '\x00' := by
  by_contra hne
  have hval : c.val.toNat ≠ 0 := fun hzero => hne (Char.ext (UInt32.toNat_inj.mp hzero))
  simp only [String.utf8EncodeChar] at h
  split at h
  · exact ofNat_ne_zero (by omega) (List.mem_singleton.mp h)
  · -- each byte has its own remainder, and none of them is zero
    split at h
    · simp only [List.mem_cons, List.not_mem_nil, or_false] at h
      rcases h with h | h <;> exact ofNat_ne_zero (by omega) h
    · split at h <;> simp only [List.mem_cons, List.not_mem_nil, or_false] at h
      · rcases h with h | h | h <;> exact ofNat_ne_zero (by omega) h
      · rcases h with h | h | h | h <;> exact ofNat_ne_zero (by omega) h

theorem zero_mem_encode {s : String} (h : (0 : UInt8) ∈ encode s) : '\x00' ∈ s.toList := by
  obtain ⟨c, hc, hzero⟩ := List.mem_flatMap.mp h
  exact zero_mem_utf8EncodeChar hzero ▸ hc

end Utf8

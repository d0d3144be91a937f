import IotJs.Core.BufferHeap
import IotJs.Lib.ForwardCopy
import IotJs.Proofs.BufferRoundTrip
import IotJs.Proofs.FsRange

/-!
# `IotJs.Proofs.BufferHeap`: what the calls do to the Buffers

A Buffer is sound if both of its lengths are the same and an `int` holds them. On sound Buffers no
conversion of a number loses anything, and each function has one equation here, in which the indices
are clipped to the lengths as natural numbers: `copy_eq`, `write_eq`, `slice_eq`, `toString_eq`,
`concat_eq`, `newNumber_eq`, `newString_eq` and `newBuffer_eq`. A Buffer of 2 GiB or more is well
formed only, and on it the functions that ask for its length fail their assertion.

`edit` is the only way in which a block changes, and a new Buffer comes behind all others.
`copyLoop_other` is the native loop between two Buffers, which is the loop on lists of
`Buffer.lean`, and `copyLoop_self` the one from a Buffer to itself.
-/

set_option autoImplicit false

namespace IotJs

open Fs (toInt)
open FsRange (IsInt Number toInt_eq_self isInt_toInt)
open Buffer (Failure)

/-! ### Numbers -/

theorem isInt_toInt32 (n : Number) : IsInt n.toInt32 := by
  have hzero : IsInt 0 := by decide
  cases n with
  | finite q => exact isInt_toInt _
  | infinite negative | nan => exact hzero

theorem toInt32_int {n : Int} (hn : IsInt n) : (Number.int n).toInt32 = n := by
  rw [Number.int, Number.toInt32, Rat.ofInt_num, Rat.ofInt_den, Int.natCast_one, Int.tdiv_one,
    toInt_eq_self hn]

theorem toUint32_int (n : Nat) : (Number.int n).toUint32 = n % 4294967296 := by
  rw [Number.int, Number.toUint32, Rat.ofInt_num, Rat.ofInt_den, Int.natCast_one, Int.tdiv_one]
  omega

theorem positive_int (n : Int) : (Number.int n).positive = decide (0 < n) := by
  rw [Number.int, Number.positive, decide_eq_decide, Rat.lt_iff]
  simp

theorem isInt_natCast {n : Nat} (hn : n < 2147483648) : IsInt n := by
  rw [IsInt]
  omega

namespace BufferTarget

/-- A target whose strings hold one byte a character. -/
def ascii (charSigned : Bool) : BufferTarget where
  toPlatform := .ascii false
  cast := .wrapping
  charSigned := charSigned
  wide := true

variable {T : BufferTarget} {z : Int}

theorem int_eq (hz : IsInt z) : T.int z = z := by
  have htdiv : (Rat.ofInt z).num.tdiv (Rat.ofInt z).den = z := Int.tdiv_one z
  rw [int, Number.int, FsRange.Cast.int, htdiv, if_pos hz]

theorem isInt_int (T : BufferTarget) (n : Int) : IsInt (T.int n) := FsRange.isInt_int T.cast _

theorem size_eq (hz : IsInt z) (hpos : 0 ≤ z) : T.size z = z.toNat := by
  obtain ⟨-, hlt⟩ := hz
  unfold size
  split <;> omega

theorem size_natCast {n : Nat} (hn : n < 2147483648) : T.size n = n := by
  rw [size_eq (isInt_natCast hn) (Int.natCast_nonneg n), Int.toNat_natCast]

end BufferTarget

/-! ### Buffers -/

/-- Both lengths of a Buffer are the same, and an `int` holds them. -/
structure BufferWrap.Sound (w : BufferWrap) : Prop where
  length : w.length = w.block.length
  lt : w.block.length < 2147483648

/-- What holds of all Buffers: the native length is that of an `int`, and the property is the same
if an `int` holds it. -/
structure BufferWrap.WellFormed (w : BufferWrap) : Prop where
  lt : w.block.length < 2147483648
  length : w.length < 2147483648 → w.length = w.block.length

namespace BufferWrap

variable {w : BufferWrap}

instance (w : BufferWrap) : Decidable w.WellFormed :=
  decidable_of_iff
    (w.block.length < 2147483648 ∧ (w.length < 2147483648 → w.length = w.block.length))
    ⟨fun h => ⟨h.1, h.2⟩, fun h => ⟨h.lt, h.length⟩⟩

theorem Sound.wellFormed (hw : w.Sound) : w.WellFormed := ⟨hw.lt, fun _ => hw.length⟩

theorem WellFormed.sound (hw : w.WellFormed) (hlt : w.length < 2147483648) : w.Sound :=
  ⟨hw.length hlt, hw.lt⟩

theorem WellFormed.sound_iff (hw : w.WellFormed) : w.Sound ↔ w.length < 2147483648 :=
  ⟨fun hsound => hsound.length ▸ hw.lt, hw.sound⟩

end BufferWrap

namespace BufferHeap

def Sound (h : BufferHeap) : Prop := ∀ r, (h.wrap r).Sound

def WellFormed (h : BufferHeap) : Prop := ∀ r, (h.wrap r).WellFormed

variable {T : BufferTarget} {h : BufferHeap} {r this target : Nat}

theorem isBuffer_iff : h.isBuffer r = true ↔ r < h.length := decide_eq_true_iff

theorem not_isBuffer_iff : (!h.isBuffer r) = true ↔ ¬ r < h.length := by
  rw [Bool.not_eq_true', ← Bool.not_eq_true, isBuffer_iff]

theorem wrap_of_le (hr : h.length ≤ r) : h.wrap r = ⟨0, []⟩ := by
  rw [wrap, List.getD_eq_getElem?_getD, List.getElem?_eq_none hr]
  rfl

theorem wrap_push_of_lt {w : BufferWrap} (hr : r < h.length) :
    BufferHeap.wrap (h ++ [w]) r = h.wrap r := by
  rw [wrap, wrap, List.getD_eq_getElem?_getD, List.getD_eq_getElem?_getD,
    List.getElem?_append_left hr]

theorem wrap_push_self (w : BufferWrap) : BufferHeap.wrap (h ++ [w]) h.length = w := by
  rw [wrap, List.getD_eq_getElem?_getD, List.getElem?_concat_length]
  rfl

theorem sound_nil : BufferHeap.Sound [] := by
  intro r
  rw [wrap_of_le (Nat.zero_le r)]
  exact ⟨rfl, by decide⟩

theorem wellFormed_of_mem (hall : ∀ w ∈ h, w.WellFormed) : h.WellFormed := by
  intro r
  by_cases hr : r < h.length
  · have hget : h.wrap r = h[r] := by
      rw [wrap, List.getD_eq_getElem?_getD, List.getElem?_eq_getElem hr]
      rfl
    rw [hget]
    exact hall _ (List.getElem_mem hr)
  · rw [wrap_of_le (Nat.not_lt.mp hr)]
    exact ⟨by decide, fun _ => rfl⟩

/-- What holds of all Buffers holds when there is one more that it holds of. -/
theorem forall_push {P : BufferWrap → Prop} (hP : ∀ r, P (h.wrap r)) {w : BufferWrap} (hw : P w) :
    ∀ r, P (BufferHeap.wrap (h ++ [w]) r) := by
  intro r
  rcases Nat.lt_trichotomy r h.length with hlt | rfl | hgt
  · rw [wrap_push_of_lt hlt]
    exact hP r
  · rw [wrap_push_self]
    exact hw
  · have hnone := hP h.length
    rw [wrap_of_le (Nat.le_refl _)] at hnone
    rwa [wrap_of_le (by rw [List.length_append, List.length_singleton]; exact hgt)]

theorem bufferwrapLength_sound (hr : (h.wrap r).Sound) :
    bufferwrapLength (h.wrap r) = .ok (h.wrap r).block.length := if_pos hr.length

theorem bufferwrapLength_aborts (hr : (h.wrap r).WellFormed) (hne : ¬ (h.wrap r).Sound) :
    bufferwrapLength (h.wrap r) = .error .aborted :=
  if_neg fun hlength => hne ⟨hlength, hr.lt⟩

/-! ### `edit` -/

section edit

variable {f g : Bytes → Bytes}

@[simp]
theorem length_edit (h : BufferHeap) (r : Nat) (f : Bytes → Bytes) :
    (h.edit r f).length = h.length := List.length_modify ..

theorem wrap_edit_self (hr : r < h.length) :
    (h.edit r f).wrap r = { h.wrap r with block := f (h.wrap r).block } := by
  simp [wrap, edit, hr]

theorem wrap_edit_ne (hne : r ≠ target) : (h.edit target f).wrap r = h.wrap r := by
  simp [wrap, edit, Ne.symm hne]

theorem edit_edit (h : BufferHeap) (r : Nat) (f g : Bytes → Bytes) :
    (h.edit r f).edit r g = h.edit r fun block => g (f block) :=
  List.modify_modify_eq ..

theorem edit_id (h : BufferHeap) (r : Nat) : h.edit r (fun block => block) = h :=
  List.modify_id r h

/-- A function that is applied to one block only needs to be known there. -/
theorem edit_congr (hfg : f (h.wrap r).block = g (h.wrap r).block) : h.edit r f = h.edit r g := by
  refine List.ext_getElem? fun i => ?_
  rw [edit, edit, List.getElem?_modify, List.getElem?_modify]
  by_cases hi : r = i
  · subst hi
    cases hr : h[r]? with
    | none => rfl
    | some w =>
        have hw : h.wrap r = w := by
          rw [wrap, List.getD_eq_getElem?_getD, hr]
          rfl
        rw [hw] at hfg
        simp [hfg]
  · simp [hi]

theorem edit_push (h : BufferHeap) (w : BufferWrap) (f : Bytes → Bytes) :
    BufferHeap.edit (h ++ [w]) h.length f = h ++ [{ w with block := f w.block }] := by
  simp [edit, List.modify_eq_take_cons_drop]

theorem forall_edit {P : BufferWrap → Prop} (hP : ∀ r, P (h.wrap r))
    (hf : P (h.wrap r) → P { h.wrap r with block := f (h.wrap r).block }) :
    ∀ i, P ((h.edit r f).wrap i) := by
  intro i
  by_cases hi : i = r
  · subst hi
    by_cases hlt : i < h.length
    · rw [wrap_edit_self hlt]
      exact hf (hP i)
    · have hnone := hP i
      rw [wrap_of_le (Nat.not_lt.mp hlt)] at hnone
      rwa [wrap_of_le ((length_edit h i f).symm ▸ Nat.not_lt.mp hlt)]
  · rw [wrap_edit_ne hi]
    exact hP i

theorem Sound.edit (hs : h.Sound) (hf : (f (h.wrap r).block).length = (h.wrap r).block.length) :
    (h.edit r f).Sound :=
  forall_edit hs fun hr => ⟨hr.length.trans hf.symm, hf.symm ▸ hr.lt⟩

theorem WellFormed.edit (hs : h.WellFormed)
    (hf : (f (h.wrap r).block).length = (h.wrap r).block.length) : (h.edit r f).WellFormed :=
  forall_edit hs fun hr => ⟨hf.symm ▸ hr.lt, fun hlt => (hr.length hlt).trans hf.symm⟩

end edit

/-! ### The native loop -/

section copyLoop

variable {src dst n i j : Nat}

/-- The loop stops where the target ends. -/
theorem copyLoop_min (n i j copied : Nat) (h : BufferHeap) :
    copyLoop src dst n i j copied h =
      copyLoop src dst (min n ((h.wrap dst).block.length - j)) i j copied h := by
  induction n generalizing i j copied h with
  | zero => rw [Nat.zero_min]
  | succ n ih =>
      rw [copyLoop]
      by_cases hj : j < (h.wrap dst).block.length
      · -- a byte that is written does not change the length
        have hlength : ((h.edit dst fun block => block.set j
            ((h.wrap src).block.getD i 0)).wrap dst).block.length =
              (h.wrap dst).block.length := by
          by_cases hdst : dst < h.length
          · rw [wrap_edit_self hdst, List.length_set]
          · rw [wrap_of_le (Nat.not_lt.mp hdst)] at hj
            exact absurd hj (Nat.not_lt_zero j)
        have hmin : min (n + 1) ((h.wrap dst).block.length - j) =
            min n ((h.wrap dst).block.length - (j + 1)) + 1 := by omega
        rw [if_pos hj, ih, hlength, hmin, copyLoop, if_pos hj]
      · have hzero : (h.wrap dst).block.length - j = 0 := by omega
        rw [if_neg hj, hzero, Nat.min_zero, copyLoop]

/-- From another Buffer. -/
theorem copyLoop_other (hne : src ≠ dst) (hdst : dst < h.length) (copied : Nat)
    (hsource : i + n ≤ (h.wrap src).block.length)
    (htarget : j + n ≤ (h.wrap dst).block.length) :
    copyLoop src dst n i j copied h = (copied + n, h.edit dst fun block =>
      block.take j ++ ((h.wrap src).block.drop i).take n ++ block.drop (j + n)) := by
  have hloop : copyLoop src dst n i j copied h = (copied + n, h.edit dst fun block =>
      (Buffer.copyLoop (h.wrap src).block n i j copied block).1) := by
    induction n generalizing i j copied h with
    | zero => rw [copyLoop, Nat.add_zero]; exact Prod.ext rfl (edit_id h dst).symm
    | succ n ih =>
        let x := (h.wrap src).block.getD i 0
        -- the source is another Buffer, and stays as it is
        have hsrc : (h.edit dst fun block => block.set j x).wrap src = h.wrap src :=
          wrap_edit_ne hne
        have hj : j < (h.wrap dst).block.length := by omega
        rw [copyLoop, if_pos hj, ih (by rwa [length_edit]) (copied + 1)
          (by rw [hsrc]; omega) (by rw [wrap_edit_self hdst, List.length_set]; omega),
          hsrc, edit_edit, Nat.add_right_comm, Nat.add_assoc]
        refine congrArg (Prod.mk _) (edit_congr ?_)
        rw [Buffer.copyLoop, if_pos hj]
  rw [hloop]
  refine congrArg (Prod.mk _) (edit_congr ?_)
  rw [Buffer.copyLoop_eq _ _ copied hsource htarget]

/-- From the Buffer itself. -/
theorem copyLoop_self (hr : r < h.length) (copied : Nat)
    (hsource : i + n ≤ (h.wrap r).block.length) (htarget : j + n ≤ (h.wrap r).block.length) :
    copyLoop r r n i j copied h = (copied + n, h.edit r (ForwardCopy.copy n i j)) := by
  induction n generalizing i j copied h with
  | zero => rw [copyLoop, Nat.add_zero]; exact Prod.ext rfl (edit_id h r).symm
  | succ n ih =>
      let x := (h.wrap r).block.getD i 0
      have hlength : ((h.edit r fun block => block.set j x).wrap r).block.length =
          (h.wrap r).block.length := by rw [wrap_edit_self hr, List.length_set]
      have hi : i < (h.wrap r).block.length := by omega
      -- the rest of the loop reads what this turn has written
      rw [copyLoop, if_pos (by omega), ih (by rwa [length_edit]) (copied + 1)
        (by rw [hlength]; omega) (by rw [hlength]; omega), edit_edit, Nat.add_right_comm,
        Nat.add_assoc]
      refine congrArg (Prod.mk _) (edit_congr ?_)
      rw [ForwardCopy.copy, ForwardCopy.copyCell, List.getElem?_eq_getElem hi,
        List.getD_eq_getElem?_getD, List.getElem?_eq_getElem hi]
      rfl

end copyLoop

/-! ### Bytes that are written over -/

section splice

variable {block bytes : Bytes} {j k n : Nat}

theorem getElem?_splice_inside (hn : bytes.length = n) (hj : j + n ≤ block.length) (hk : k < n) :
    (block.take j ++ bytes ++ block.drop (j + n))[j + k]? = bytes[k]? := by
  have htake : (block.take j).length = j := by rw [List.length_take]; omega
  rw [List.append_assoc, List.getElem?_append_right (by omega), htake, Nat.add_sub_cancel_left,
    List.getElem?_append_left (by omega)]

theorem getElem?_splice_outside (hn : bytes.length = n) (hj : j + n ≤ block.length)
    (hk : k < j ∨ j + n ≤ k) :
    (block.take j ++ bytes ++ block.drop (j + n))[k]? = block[k]? := by
  have htake : (block.take j).length = j := by rw [List.length_take]; omega
  rcases hk with hbelow | habove
  · rw [List.append_assoc, List.getElem?_append_left (by omega), List.getElem?_take_of_lt hbelow]
  · have hfront : (block.take j ++ bytes).length = j + n := by rw [List.length_append, htake, hn]
    rw [List.getElem?_append_right (by omega), hfront, List.getElem?_drop,
      Nat.add_sub_cancel' habove]

/-- A new block that is filled from the front. -/
theorem splice_create (done bytes : Bytes) (n : Nat) :
    let block := done ++ Buffer.create (bytes.length + n)
    block.take done.length ++ bytes ++ block.drop (done.length + bytes.length) =
      done ++ bytes ++ Buffer.create n := by
  simp only
  rw [List.take_left, ← List.drop_drop, List.drop_left, Buffer.create, List.drop_replicate,
    Nat.add_sub_cancel_left]
  rfl

end splice

/-! ### Indices -/

/-- An index that is moved into a range. -/
def clip (index : Int) (length : Nat) : Nat := min index.toNat length

/-- An index of `slice`, where a negative one counts from the end. -/
def sliceClip (index : Int) (length : Nat) : Nat :=
  clip (if index < 0 then index + length else index) length

section indices

variable {index : Int} {length : Nat}

theorem clip_le (index : Int) (length : Nat) : clip index length ≤ length := Nat.min_le_right ..

theorem sliceClip_le (index : Int) (length : Nat) : sliceClip index length ≤ length := clip_le ..

theorem clip_natCast (n length : Nat) : clip n length = min n length := rfl

theorem sliceClip_natCast (n length : Nat) : sliceClip n length = min n length := by
  rw [sliceClip, if_neg (Int.not_lt.mpr (Int.natCast_nonneg n)), clip_natCast]

theorem boundRange_eq (hi : IsInt index) (hlength : length < 2147483648) :
    boundRange index 0 length = clip index length := by
  have hzero : toInt ((0 : Nat) : Int) = 0 := by decide
  rw [boundRange, hzero, toInt_eq_self (isInt_natCast hlength), clip]
  split
  · rw [toInt_eq_self (by decide)]
    omega
  · split
    · rw [toInt_eq_self (isInt_natCast hlength)]
      omega
    · rw [toInt_eq_self hi]
      omega

theorem size_toNat_clip (T : BufferTarget) (index : Int) (hlength : length < 2147483648) :
    T.size (clip index length) = clip index length :=
  T.size_natCast (Nat.lt_of_le_of_lt (clip_le index length) hlength)

/-- An end before the start is moved to it. -/
theorem end_eq (start stop : Nat) : (if (stop : Int) < start then (start : Int) else stop) =
    ((start + (stop - start) : Nat) : Int) := by
  split <;> omega

theorem toInt_count {start stop : Nat} (hstop : stop < 2147483648) :
    toInt (((start + (stop - start) : Nat) : Int) - start) = ((stop - start : Nat) : Int) := by
  have hcount : ((start + (stop - start) : Nat) : Int) - start = ((stop - start : Nat) : Int) := by
    omega
  rw [hcount, toInt_eq_self (isInt_natCast (by omega))]

/-- The sum of `Slice` wraps around in a `size_t`, and comes back as an `int`. -/
theorem toInt_sum (T : BufferTarget) (hi : IsInt index) (hneg : index < 0)
    (hlength : length < 2147483648) :
    toInt (T.size (T.size index + length)) = index + length := by
  obtain ⟨hlow, -⟩ := hi
  rw [toInt, Int.bmod_def]
  unfold BufferTarget.size
  cases T.wide <;> simp only [Bool.false_eq_true, if_false, if_true] <;> omega

theorem isInt_sum (hi : IsInt index) (hneg : index < 0) (hlength : length < 2147483648) :
    IsInt (index + length) := by
  obtain ⟨hlow, -⟩ := hi
  exact ⟨by omega, by omega⟩

theorem sliceIndex_eq (hi : IsInt index) (hlength : length < 2147483648) :
    sliceIndex T index length = sliceClip index length := by
  rw [sliceIndex, sliceClip]
  split
  · rename_i hneg
    rw [toInt_sum T hi hneg hlength]
    exact boundRange_eq (isInt_sum hi hneg hlength) hlength
  · exact boundRange_eq hi hlength

theorem argument_int {n : Int} (hn : IsInt n) (other : Int) :
    argument (some (.int n)) other = n := by
  rw [argument, Option.map_some, Option.getD_some, toInt32_int hn]

theorem isInt_argument (n : Option Number) {other : Int} (hother : IsInt other) :
    IsInt (argument n other) := by
  cases n with
  | none => exact hother
  | some n => exact isInt_toInt32 n

end indices

/-! ### `copy` -/

/-- Where the bytes of a `copy` come from and go to, and how many they are. -/
structure CopyRange where
  source : Nat
  target : Nat
  count : Nat

def copyRange (h : BufferHeap) (this target : Nat)
    (targetStart sourceStart sourceEnd : Option Number) : CopyRange :=
  let length := (h.wrap this).block.length
  let room := (h.wrap target).block.length
  let source := clip (argument sourceStart 0) length
  let start := clip (argument targetStart 0) room
  ⟨source, start, min (clip (argument sourceEnd length) length - source) (room - start)⟩

theorem copyRange_source_le (h : BufferHeap) (this target : Nat)
    (targetStart sourceStart sourceEnd : Option Number) :
    let range := h.copyRange this target targetStart sourceStart sourceEnd
    range.source + range.count ≤ (h.wrap this).block.length := by
  have hsource := clip_le (argument sourceStart 0) (h.wrap this).block.length
  have hend := clip_le (argument sourceEnd (h.wrap this).block.length) (h.wrap this).block.length
  simp only [copyRange]
  omega

theorem copyRange_target_le (h : BufferHeap) (this target : Nat)
    (targetStart sourceStart sourceEnd : Option Number) :
    let range := h.copyRange this target targetStart sourceStart sourceEnd
    range.target + range.count ≤ (h.wrap target).block.length := by
  have hstart := clip_le (argument targetStart 0) (h.wrap target).block.length
  simp only [copyRange]
  omega

theorem copy_of_isBuffer (hbuffer : target < h.length)
    (targetStart sourceStart sourceEnd : Option Number) :
    h.copy T this target targetStart sourceStart sourceEnd =
      if argument sourceEnd (h.wrap this).length > argument sourceStart 0 ∧
          argument targetStart 0 < 0 then
        .error (.rangeError "Attempt to write outside buffer bounds")
      else
        h.Copy T this target (argument targetStart 0) (argument sourceStart 0)
          (argument sourceEnd (h.wrap this).length) := by
  rw [copy, if_neg fun hno => not_isBuffer_iff.mp hno hbuffer]

theorem Copy_eq (hthis : (h.wrap this).Sound) (htarget : (h.wrap target).Sound)
    {dstStart srcStart srcEnd : Int} (hdst : IsInt dstStart) (hsrc : IsInt srcStart)
    (hend : IsInt srcEnd) :
    h.Copy T this target dstStart srcStart srcEnd =
      let length := (h.wrap this).block.length
      .ok (copyLoop this target (clip srcEnd length - clip srcStart length) (clip srcStart length)
        (clip dstStart (h.wrap target).block.length) 0 h) := by
  have hlength := hthis.lt
  have hroom := htarget.lt
  simp only [Copy, bufferwrapLength_sound hthis, bufferwrapLength_sound htarget,
    BufferTarget.int_eq hdst, BufferTarget.int_eq hsrc,
    BufferTarget.int_eq hend]
  show Except.ok _ = Except.ok _
  rw [boundRange_eq hdst hroom, boundRange_eq hsrc hlength, boundRange_eq hend hlength,
    size_toNat_clip T _ hlength, size_toNat_clip T _ hroom]
  congr 2
  -- an end before the start is moved to it, and then nothing is copied
  split
  · rw [size_toNat_clip T _ hlength]
    omega
  · rw [size_toNat_clip T _ hlength]

theorem copy_eq (hbuffer : target < h.length) (hthis : (h.wrap this).Sound)
    (htarget : (h.wrap target).Sound)
    (targetStart sourceStart sourceEnd : Option Number) :
    h.copy T this target targetStart sourceStart sourceEnd =
      if argument sourceEnd (h.wrap this).block.length > argument sourceStart 0 ∧
          argument targetStart 0 < 0 then
        .error (.rangeError "Attempt to write outside buffer bounds")
      else
        let range := h.copyRange this target targetStart sourceStart sourceEnd
        .ok (copyLoop this target range.count range.source range.target 0 h) := by
  rw [copy_of_isBuffer hbuffer, hthis.length]
  split
  · rfl
  · rw [Copy_eq hthis htarget (isInt_argument targetStart (by decide))
      (isInt_argument sourceStart (by decide))
      (isInt_argument sourceEnd (isInt_natCast hthis.lt))]
    show Except.ok _ = Except.ok _
    rw [copyLoop_min]
    rfl

/-! ### New Buffers -/

/-- The length of a Buffer that is made of a number. -/
def newSize (size : Number) : Nat := if size.positive then size.toUint32 else 0

theorem newSize_int (n : Nat) : newSize (.int n) = n % 4294967296 := by
  rw [newSize, toUint32_int, positive_int]
  by_cases hn : 0 < (n : Int)
  · rw [if_pos (decide_eq_true hn)]
  · rw [if_neg (by simpa using hn)]
    omega

theorem create_eq {length : Nat} (hlength : length < 2147483648) :
    h.create T length = .ok (h.length, h ++ [⟨length, Buffer.create length⟩]) := by
  rw [create, T.int_eq (isInt_natCast hlength), if_neg (Int.not_lt.mpr (Int.natCast_nonneg _)),
    T.size_natCast hlength]

theorem newNumber_eq {size : Number} (hsize : newSize size < 2147483648) :
    h.newNumber T size = .ok (h.length, h ++ [⟨newSize size, Buffer.create (newSize size)⟩]) :=
  create_eq hsize

theorem sound_created {length : Nat} (hlength : length < 2147483648) :
    BufferWrap.Sound ⟨length, Buffer.create length⟩ :=
  have hcreate : (Buffer.create length).length = length := List.length_replicate
  ⟨hcreate.symm, hcreate.symm ▸ hlength⟩

/-- A copy of all of a Buffer to a place in another one. -/
theorem copy_whole (hne : this ≠ target) (hbuffer : target < h.length)
    (hthis : (h.wrap this).Sound) (htarget : (h.wrap target).Sound) {pos : Nat}
    (hroom : pos + (h.wrap this).block.length ≤ (h.wrap target).block.length) :
    h.copy T this target (some (.int pos)) none none =
      .ok ((h.wrap this).block.length, h.edit target fun block => block.take pos ++
        (h.wrap this).block ++ block.drop (pos + (h.wrap this).block.length)) := by
  have hlt := htarget.lt
  have hstart : argument (some (.int pos)) 0 = pos :=
    argument_int (isInt_natCast (by omega)) 0
  have hrange : h.copyRange this target (some (.int pos)) none none =
      ⟨0, pos, (h.wrap this).block.length⟩ := by
    have hfirst : clip (argument none 0) (h.wrap this).block.length = 0 := Nat.zero_min _
    have hlast : clip (argument none (h.wrap this).block.length) (h.wrap this).block.length =
        (h.wrap this).block.length := Nat.min_self _
    rw [copyRange, hstart, hfirst, hlast, clip_natCast, Nat.min_eq_left (by omega),
      Nat.min_eq_left (by omega)]
    rfl
  rw [copy_eq hbuffer hthis htarget, if_neg (fun hthrows => ?_), hrange]
  · simp only
    rw [copyLoop_other hne hbuffer 0 (by omega) hroom, Nat.zero_add, List.drop_zero,
      List.take_length]
  · rw [hstart] at hthrows
    omega

/-- The same, where the other one is the newest. -/
theorem copy_push {w : BufferWrap} (hbuffer : this < h.length) (hthis : (h.wrap this).Sound)
    (hw : w.Sound) {pos : Nat} (hroom : pos + (h.wrap this).block.length ≤ w.block.length) :
    BufferHeap.copy T (h ++ [w]) this h.length (some (.int pos)) none none =
      .ok ((h.wrap this).block.length, h ++ [⟨w.length, w.block.take pos ++
        (h.wrap this).block ++ w.block.drop (pos + (h.wrap this).block.length)⟩]) := by
  have hold : BufferHeap.wrap (h ++ [w]) this = h.wrap this := wrap_push_of_lt hbuffer
  have hnew : BufferHeap.wrap (h ++ [w]) h.length = w := wrap_push_self w
  rw [copy_whole (Nat.ne_of_lt hbuffer) (by simp) (hold ▸ hthis) (hnew.symm ▸ hw)
    (by rwa [hold, hnew]), hold, edit_push]

theorem newBuffer_eq {subject : Nat} (hbuffer : subject < h.length)
    (hsubject : (h.wrap subject).Sound) :
    h.newBuffer T subject = .ok (h.length, h ++ [h.wrap subject]) := by
  have hlength := hsubject.length
  have hlt : (h.wrap subject).length < 2147483648 := hlength ▸ hsubject.lt
  have hblock : (Buffer.create (h.wrap subject).length).length = (h.wrap subject).block.length :=
    List.length_replicate.trans hlength
  have hcopy : BufferHeap.copy T (h ++ [_]) subject h.length (some (.int (0 : Nat))) none none =
      _ := copy_push hbuffer hsubject (sound_created hlt) (by rw [Nat.zero_add, hblock])
  rw [List.take_zero, List.nil_append, Nat.zero_add, ← hblock, List.drop_length,
    List.append_nil] at hcopy
  rw [newBuffer, if_neg fun hno => not_isBuffer_iff.mp hno hbuffer, create_eq hlt]
  show (BufferHeap.copy T (h ++ [_]) subject h.length none none none >>= fun _ => _) = _
  exact congrArg (· >>= fun result => Except.ok (h.length, result.2)) hcopy

/-! ### `slice` and `concat` -/

/-- The bytes that a `slice` takes. -/
def sliceBytes (block : Bytes) (first last : Option Number) : Bytes :=
  let start := sliceClip (argument first 0) block.length
  let stop := sliceClip (argument last block.length) block.length
  (block.drop start).take (stop - start)

theorem length_sliceBytes_le (block : Bytes) (first last : Option Number) :
    (sliceBytes block first last).length ≤ block.length := by
  rw [sliceBytes, List.length_take, List.length_drop]
  omega

/-- The native loop that fills a new Buffer. -/
theorem copyLoop_push {i n : Nat} (hbuffer : this < h.length)
    (hsource : i + n ≤ (h.wrap this).block.length) :
    copyLoop this h.length n i 0 0 (h ++ [⟨n, Buffer.create n⟩]) =
      (n, h ++ [⟨n, ((h.wrap this).block.drop i).take n⟩]) := by
  have hold : BufferHeap.wrap (h ++ [⟨n, Buffer.create n⟩]) this = h.wrap this :=
    wrap_push_of_lt hbuffer
  have hnew : (Buffer.create n).length = n := List.length_replicate
  rw [copyLoop_other (Nat.ne_of_lt hbuffer) (by simp) 0 (by rwa [hold])
    (by rw [wrap_push_self, Nat.zero_add, hnew]), hold, edit_push]
  simp only [List.take_zero, List.nil_append, Nat.zero_add]
  rw [List.drop_of_length_le hnew.le, List.append_nil]

theorem slice_eq (hbuffer : this < h.length) (hthis : (h.wrap this).Sound)
    (first last : Option Number) :
    h.slice T this first last = .ok (h.length,
      h ++ [⟨(sliceBytes (h.wrap this).block first last).length,
        sliceBytes (h.wrap this).block first last⟩]) := by
  have hlt := hthis.lt
  have hfirst : IsInt (argument first 0) := isInt_argument first (by decide)
  have hlast := isInt_argument last (isInt_natCast hlt)
  have hstart := sliceClip_le (argument first 0) (h.wrap this).block.length
  have hstop := sliceClip_le (argument last (h.wrap this).block.length) (h.wrap this).block.length
  rw [slice, hthis.length]
  simp only [Slice, bufferwrapLength_sound hthis, BufferTarget.int_eq hfirst,
    BufferTarget.int_eq hlast, sliceBytes]
  show (if toInt ((if sliceIndex T _ _ < sliceIndex T _ _ then _ else _) - _) < 0 then _ else _) = _
  rw [sliceIndex_eq hfirst hlt, sliceIndex_eq hlast hlt]
  -- from here on, the two indices are natural numbers up to the length
  generalize sliceClip (argument first 0) (h.wrap this).block.length = start at hstart
  generalize sliceClip (argument last (h.wrap this).block.length) (h.wrap this).block.length = stop
    at hstop
  rw [end_eq, toInt_count (by omega), if_neg (by omega),
    newNumber_eq (by rw [newSize_int]; omega), newSize_int, Nat.mod_eq_of_lt (by omega),
    T.size_natCast (by omega), T.size_natCast (by omega), Nat.add_sub_cancel_left]
  have hloop := copyLoop_push hbuffer (i := start) (n := stop - start) (by omega)
  show Except.ok (h.length, (copyLoop this h.length _ start 0 0 (h ++ [_])).2) = _
  rw [hloop, List.length_take, List.length_drop, Nat.min_eq_left (by omega)]

/-- The bytes of some Buffers, one after the other. -/
def contents (h : BufferHeap) (list : List Nat) : Bytes := list.flatMap fun r => (h.wrap r).block

theorem totalLength_eq {list : List Nat} (hlist : ∀ r ∈ list, (h.wrap r).Sound) :
    h.totalLength list = (h.contents list).length := by
  induction list with
  | nil => rfl
  | cons r list ih =>
      obtain ⟨hr, hrest⟩ := List.forall_mem_cons.mp hlist
      rw [totalLength, ih hrest, hr.length, contents, contents, List.flatMap_cons,
        List.length_append]

/-- The second loop of `concat`, when the first `done` bytes have been copied. -/
theorem concatLoop_eq {list : List Nat} (hbuffers : ∀ r ∈ list, r < h.length)
    (hlist : ∀ r ∈ list, (h.wrap r).Sound) {total : Nat} (htotal : total < 2147483648)
    (done : Bytes)
    (hroom : done.length + (h.contents list).length = total) :
    concatLoop T h.length list done.length
        (h ++ [⟨total, done ++ Buffer.create (h.contents list).length⟩]) =
      .ok (h ++ [⟨total, done ++ h.contents list⟩]) := by
  induction list generalizing done with
  | nil => rw [concatLoop]; rfl
  | cons r list ih =>
      obtain ⟨hbuffer, hbuffers⟩ := List.forall_mem_cons.mp hbuffers
      obtain ⟨hr, hrest⟩ := List.forall_mem_cons.mp hlist
      have hcons : h.contents (r :: list) = (h.wrap r).block ++ h.contents list := rfl
      rw [hcons, List.length_append] at hroom ⊢
      have hblock : (done ++ Buffer.create
          ((h.wrap r).block.length + (h.contents list).length)).length = total := by
        rw [List.length_append]
        exact (congrArg (done.length + ·) List.length_replicate).trans hroom
      have hcopy : BufferHeap.copy T (h ++ [_]) r h.length (some (.int done.length)) none none =
          _ := copy_push (w := ⟨total, _⟩) hbuffer hr ⟨hblock.symm, hblock ▸ htotal⟩
            (by rw [hblock]; omega)
      rw [concatLoop, hcopy, splice_create]
      -- the loop asks for the length of the element after it was copied
      have hlast : BufferHeap.wrap (h ++ [⟨total, done ++ (h.wrap r).block ++
          Buffer.create (h.contents list).length⟩]) r = h.wrap r := wrap_push_of_lt hbuffer
      show concatLoop T h.length list (done.length + (BufferHeap.wrap (h ++ [⟨total, _⟩]) r).length)
        (h ++ [⟨total, _⟩]) = _
      rw [hlast, hr.length, ← List.length_append, ih hbuffers hrest (done ++ (h.wrap r).block)
        (by rw [List.length_append]; omega), List.append_assoc]

theorem concat_eq {list : List Nat} (hbuffers : ∀ r ∈ list, r < h.length)
    (hlist : ∀ r ∈ list, (h.wrap r).Sound)
    (htotal : (h.contents list).length < 2147483648) :
    h.concat T list = .ok (h.length, h ++ [⟨(h.contents list).length, h.contents list⟩]) := by
  have hno : (!list.all h.isBuffer) = false := by
    simpa [isBuffer_iff] using hbuffers
  have hsize : newSize (.int (h.totalLength list)) = (h.contents list).length := by
    rw [newSize_int, totalLength_eq hlist, Nat.mod_eq_of_lt (by omega)]
  have hloop := concatLoop_eq (T := T) hbuffers hlist htotal [] (Nat.zero_add _)
  rw [concat, hno, newNumber_eq (by rwa [hsize]), hsize]
  simp only [Bool.false_eq_true, if_false]
  show (concatLoop T h.length list 0 _ >>= fun h' => _) = _
  rw [List.nil_append, List.nil_append] at hloop
  exact (congrArg (· >>= fun h' => Except.ok (h.length, h')) hloop)

/-! ### `write` and `toString` -/

theorem length_copyInternal (this src : Bytes) (srcFrom srcTo dstFrom : Nat) :
    (Buffer.copyInternal this src srcFrom srcTo dstFrom).1.length = this.length := by
  have hloop : ∀ n i j copied (dst : Bytes),
      (Buffer.copyLoop src n i j copied dst).1.length = dst.length := by
    intro n
    induction n with
    | zero => exact fun _ _ _ _ => rfl
    | succ n ih =>
        intro i j copied dst
        rw [Buffer.copyLoop]
        split
        · rw [ih, List.length_set]
        · rfl
  exact hloop ..

/-- How many bytes of a string `Write` writes. -/
def writeCount (T : BufferTarget) (room bytes : Nat) (length : Int) : Nat :=
  clip (clip (T.int length) room) bytes

theorem writeCount_le (T : BufferTarget) (room bytes : Nat) (length : Int) :
    writeCount T room bytes length ≤ room ∧ writeCount T room bytes length ≤ bytes := by
  have hroom := clip_le (T.int length) room
  have hcount : writeCount T room bytes length = min (clip (T.int length) room) bytes :=
    clip_natCast ..
  omega

theorem size_writeCount (T : BufferTarget) {room bytes : Nat} (hroom : room < 2147483648)
    (hbytes : bytes < 2147483648) (length : Int) :
    T.size (boundRange (boundRange (T.int length) 0 room) 0 bytes) =
      writeCount T room bytes length := by
  have hclip : clip (T.int length) room < 2147483648 := Nat.lt_of_le_of_lt (clip_le ..) hroom
  rw [boundRange_eq (T.isInt_int length) hroom, boundRange_eq (isInt_natCast hclip) hbytes,
    size_toNat_clip T _ hbytes, writeCount]

theorem Write_eq (hthis : (h.wrap this).Sound) {string : String}
    (hstring : (T.stringToBytes string).length < 2147483648) {offset : Int}
    (hoffset : IsInt offset) (length : Int) :
    h.Write T this string offset length =
      let block := (h.wrap this).block
      let start := clip offset block.length
      let n := writeCount T (block.length - start) (T.stringToBytes string).length length
      .ok (n, h.edit this fun block =>
        block.take start ++ (T.stringToBytes string).take n ++ block.drop (start + n)) := by
  have hlt := hthis.lt
  have hstart := clip_le offset (h.wrap this).block.length
  simp only [Write, bufferwrapLength_sound hthis, BufferTarget.int_eq hoffset]
  show Except.ok _ = Except.ok _
  rw [boundRange_eq hoffset hlt, size_toNat_clip T _ hlt]
  generalize clip offset (h.wrap this).block.length = start at hstart
  rw [← Int.natCast_sub hstart, T.size_natCast (by omega), size_writeCount T (by omega) hstring]
  obtain ⟨hroom, hbytes⟩ := writeCount_le T ((h.wrap this).block.length - start)
    (T.stringToBytes string).length length
  generalize writeCount T ((h.wrap this).block.length - start)
    (T.stringToBytes string).length length = n at hroom hbytes
  have hcopy : Buffer.copyInternal (h.wrap this).block (T.stringToBytes string) 0 n start =
      ((h.wrap this).block.take start ++ (T.stringToBytes string).take n ++
        (h.wrap this).block.drop (start + n), n) := by
    rw [Buffer.copyInternal, Nat.sub_zero, Buffer.copyLoop_eq _ _ 0 (by omega) (by omega),
      List.drop_zero, Nat.zero_add]
  rw [hcopy]
  exact congrArg (fun h' => Except.ok (n, h')) (edit_congr (congrArg Prod.fst hcopy))

theorem write_eq (hthis : (h.wrap this).Sound) {string : String}
    (hstring : (T.stringToBytes string).length < 2147483648) (offset length : Option Number) :
    h.write T this string offset length =
      let block := (h.wrap this).block
      let offset := argument offset 0
      if T.stringLength string > 0 ∧ (offset < 0 ∨ offset ≥ block.length) then
        .error (.rangeError "Attempt to write outside buffer bounds")
      else
        let start := clip offset block.length
        let n := writeCount T (block.length - start) (T.stringToBytes string).length
          (argument length (block.length - offset))
        .ok (n, h.edit this fun block =>
          block.take start ++ (T.stringToBytes string).take n ++ block.drop (start + n)) := by
  rw [write, hthis.length]
  simp only
  rw [Write_eq hthis hstring (isInt_argument offset (by decide))]

theorem writeCount_natCast (T : BufferTarget) {room : Nat} (hroom : room < 2147483648)
    (bytes : Nat) : writeCount T room bytes room = min room bytes := by
  rw [writeCount, T.int_eq (isInt_natCast hroom), clip_natCast, clip_natCast, Nat.min_self]

/-- `write` of a whole string to a block of its length. -/
theorem write_created {string : String} (hlength : T.stringLength string < 2147483648)
    (hstring : (T.stringToBytes string).length < 2147483648) :
    let n := min (T.stringLength string) (T.stringToBytes string).length
    let block := Buffer.create (T.stringLength string)
    BufferHeap.write T (h ++ [⟨T.stringLength string, block⟩]) h.length string none none =
      .ok (n, h ++ [⟨T.stringLength string,
        (T.stringToBytes string).take n ++ block.drop n⟩]) := by
  let w : BufferWrap := ⟨T.stringLength string, Buffer.create (T.stringLength string)⟩
  have hblock : w.block.length = T.stringLength string := List.length_replicate
  have hnew : BufferHeap.wrap (h ++ [w]) h.length = w := wrap_push_self w
  -- the offset is 0, and inside of a block that has the length of the string
  have hinside : ¬(T.stringLength string > 0 ∧
      (argument none 0 < 0 ∨ argument none 0 ≥ (w.block.length : Int))) := by
    rw [hblock]
    rintro ⟨hpos, hneg | hfull⟩
    · exact absurd hneg (by decide)
    · have hzero : argument none 0 = 0 := rfl
      omega
  have hwritten : BufferHeap.write T (h ++ [w]) h.length string none none = _ :=
    write_eq (by rw [hnew]; exact sound_created hlength) hstring none none
  have hstart : clip (argument none 0) w.block.length = 0 := Nat.zero_min _
  have hcount : writeCount T w.block.length (T.stringToBytes string).length
      (argument none (w.block.length - argument none 0)) =
        min (T.stringLength string) (T.stringToBytes string).length := by
    show writeCount T w.block.length _ ((w.block.length : Int) - 0) = _
    rw [Int.sub_zero, hblock, writeCount_natCast T hlength]
  rw [hnew] at hwritten
  simp only at hwritten
  rw [if_neg hinside, hstart, Nat.sub_zero, hcount, Nat.zero_add, edit_push] at hwritten
  exact hwritten

/-- The Buffer of a string is the one that the streams have. -/
theorem newString_eq {string : String}
    (hlength : T.stringLength string < 2147483648)
    (hstring : (T.stringToBytes string).length < 2147483648) :
    h.newString T string = .ok (h.length, h ++ [⟨T.stringLength string,
      IotJs.newBuffer T.toPlatform string⟩]) := by
  have hwritten := write_created (h := h) hlength hstring
  simp only at hwritten
  have hrest : ∀ n m : Nat, n - min n m = n - m := fun n m => by omega
  rw [Buffer.create, List.drop_replicate, ← List.take_eq_take_min, hrest] at hwritten
  rw [newString, create_eq hlength]
  show (BufferHeap.write T (h ++ [_]) h.length string none none >>= fun _ => _) = _
  exact congrArg (· >>= fun result => Except.ok (h.length, result.2)) hwritten

/-- `toString` fails its assertion for a Buffer without bytes, which has no block. -/
theorem toString_eq (hthis : (h.wrap this).Sound) (first last : Option Number) :
    h.toString T this first last =
      let block := (h.wrap this).block
      if block = [] then .error .aborted
      else
        let start := clip (argument first 0) block.length
        let stop := clip (argument last block.length) block.length
        .ok (bufferToString T.toPlatform ((block.drop start).take (stop - start))) := by
  have hlt := hthis.lt
  have hfirst : IsInt (argument first 0) := isInt_argument first (by decide)
  have hlast := isInt_argument last (isInt_natCast hlt)
  rw [toString, hthis.length]
  have hstart := clip_le (argument first 0) (h.wrap this).block.length
  have hstop := clip_le (argument last (h.wrap this).block.length) (h.wrap this).block.length
  simp only [ToString, bufferwrapLength_sound hthis, BufferTarget.int_eq hfirst,
    BufferTarget.int_eq hlast, boundRange_eq hfirst hlt, boundRange_eq hlast hlt, bind, Except.bind]
  generalize clip (argument first 0) (h.wrap this).block.length = start at hstart
  generalize clip (argument last (h.wrap this).block.length) (h.wrap this).block.length = stop
    at hstop
  rw [end_eq, toInt_count (by omega), if_neg (by omega), T.size_natCast (by omega),
    Int.toNat_natCast, Buffer.stringCreateWithSize_strnlen]
  -- a Buffer without bytes has no block, whatever the indices are
  by_cases hempty : (h.wrap this).block = []
  · rw [if_pos hempty, hempty, if_pos ⟨rfl, rfl⟩]
  · have hblock : Buffer.block (h.wrap this).block = some (h.wrap this).block :=
      if_pos (List.length_pos_iff.mpr hempty)
    have hdata : ¬(false = false ∧
        (some (h.wrap this).block).map (List.drop start) = none) := fun hnull => nomatch hnull.2
    rw [if_neg hempty, hblock, if_neg hdata]
    rfl

end BufferHeap

end IotJs

import IotJs.Proofs.BufferRuns

/-!
# `IotJs.Proofs.BufferSlice`: `slice` and `concat`

`Sliced` says what a `slice` gives for all indices, and `Concatenated` what a `concat` gives for all
lists. Both make a new Buffer and leave the others alone, and what is written to a Buffer afterwards
is seen in no other one, which is `Buffers.spared_of_reach`. `concat` of the two parts of a Buffer
has the bytes of the Buffer (`Rejoined`).
-/

set_option autoImplicit false

namespace IotJs

open Fs (toInt)
open FsRange (IsInt Number)

namespace BufferHeap

variable {T : BufferTarget} {h : BufferHeap} {this : Nat}

/-! ### `slice` -/

/-- The sum that an index below zero is replaced by. -/
structure SumFits (T : BufferTarget) (index : Int) (length : Nat) : Prop where
  isInt : IsInt (index + length)
  exact : toInt (T.size (T.size index + length)) = index + length

/-- `new` is a Buffer of its own with the bytes from the one index to the other. -/
structure Sliced (T : BufferTarget) (h : BufferHeap) (this : Nat) (first last : Option Number)
    (new : Nat) (h' : BufferHeap) : Prop where
  fresh : h.length ≤ new ∧ new < h'.length
  bytes :
    let block := (h.wrap this).block
    let start := sliceClip (argument first 0) block.length
    let stop := sliceClip (argument last block.length) block.length
    h'.wrap new = ⟨stop - start, (block.drop start).take (stop - start)⟩
  unchanged : ∀ r < h.length, h'.wrap r = h.wrap r
  sums : ∀ index ∈ [argument first 0, argument last (h.wrap this).block.length], index < 0 →
    SumFits T index (h.wrap this).block.length
  apart : ∀ r ∈ [this, new], ∀ t,
    Runs.Reach (Buffers.step T) (Buffers.Spares r) ⟨h', false⟩ t → t.heap.wrap r = h'.wrap r

theorem sumFits (T : BufferTarget) {index : Int} {length : Nat} (hi : IsInt index)
    (hneg : index < 0) (hlength : length < 2147483648) : SumFits T index length :=
  ⟨isInt_sum hi hneg hlength, toInt_sum T hi hneg hlength⟩

/-- For every Buffer of a program that is shorter than 2 GiB, and for all arguments. -/
theorem slice_sliced (hw : h.WellFormed) (hbuffer : this < h.length)
    (hlt : (h.wrap this).length < 2147483648) (first last : Option Number) :
    ∃ new h', h.slice T this first last = .ok (new, h') ∧
      Sliced T h this first last new h' := by
  have hthis := (hw this).sound hlt
  have hstart := sliceClip_le (argument first 0) (h.wrap this).block.length
  have hstop := sliceClip_le (argument last (h.wrap this).block.length) (h.wrap this).block.length
  refine ⟨_, _, slice_eq hbuffer hthis first last, ⟨Nat.le_refl _, by simp⟩, ?_,
    fun r hr => wrap_push_of_lt hr, ?_, ?_⟩
  · rw [wrap_push_self, sliceBytes, List.length_take, List.length_drop]
    simp only
    rw [Nat.min_eq_left (by omega)]
  · intro index hindex hneg
    have hi : IsInt index := by
      rcases List.mem_cons.mp hindex with rfl | hlast
      · exact isInt_argument first (by decide)
      · rw [List.mem_singleton.mp hlast]
        exact isInt_argument last (isInt_natCast hthis.lt)
    exact sumFits T hi hneg hthis.lt
  · intro r hr t hreach
    -- both Buffers are there when the run begins
    refine (Buffers.spared_of_reach ?_ hreach).2
    show r < (h ++ [_]).length
    rw [List.length_append, List.length_singleton]
    rcases List.mem_cons.mp hr with rfl | hnew
    · exact Nat.lt_succ_of_lt hbuffer
    · rw [List.mem_singleton.mp hnew]
      exact Nat.lt_succ_self _

theorem slice_sliced_from_end :
    let h : BufferHeap := [⟨4, [97, 98, 99, 100]⟩]
    ∃ new h', h.slice (.ascii true) 0 (some (.int (-3))) (some (.int (-1))) = .ok (new, h') ∧
      Sliced (.ascii true) h 0 (some (.int (-3))) (some (.int (-1))) new h' := by
  exact slice_sliced (wellFormed_of_mem (by decide)) (by decide) (by decide) _ _

/-! ### `concat` -/

/-- A new Buffer holds the bytes of the list, and is as long as its elements together. -/
structure Concatenated (h : BufferHeap) (list : List Nat) (new : Nat) (h' : BufferHeap) : Prop where
  fresh : h.length ≤ new ∧ new < h'.length
  bytes : (h'.wrap new).block = list.flatMap fun r => (h.wrap r).block
  length : (h'.wrap new).length = h.totalLength list
  unchanged : ∀ r < h.length, h'.wrap r = h.wrap r

/-- The two parts of a Buffer, put together again. -/
def Rejoined (T : BufferTarget) (h : BufferHeap) (this k : Nat) : Prop :=
  ∃ front h₁ back h₂ new h₃, h.slice T this (some (.int 0)) (some (.int k)) = .ok (front, h₁) ∧
    h₁.slice T this (some (.int k)) none = .ok (back, h₂) ∧
    h₂.concat T [front, back] = .ok (new, h₃) ∧ (h₃.wrap new).block = (h.wrap this).block

theorem length_le_totalLength {list : List Nat} {r : Nat} (hr : r ∈ list) :
    (h.wrap r).length ≤ h.totalLength list := by
  induction list with
  | nil => cases hr
  | cons x list ih =>
      rw [totalLength]
      rcases List.mem_cons.mp hr with rfl | hrest
      · exact Nat.le_add_right _ _
      · exact Nat.le_add_left_of_le (ih hrest)

theorem concat_concatenated (hw : h.WellFormed) {list : List Nat}
    (hbuffers : ∀ r ∈ list, r < h.length) (htotal : h.totalLength list < 2147483648) :
    ∃ new h', h.concat T list = .ok (new, h') ∧ Concatenated h list new h' := by
  have hlist : ∀ r ∈ list, (h.wrap r).Sound := fun r hr =>
    (hw r).sound (Nat.lt_of_le_of_lt (length_le_totalLength hr) htotal)
  have hlength := totalLength_eq hlist
  refine ⟨_, _, concat_eq hbuffers hlist (hlength ▸ htotal), ⟨Nat.le_refl _, by simp⟩, ?_, ?_,
    fun r hr => wrap_push_of_lt hr⟩
  · rw [wrap_push_self]
    rfl
  · rw [wrap_push_self, hlength]

theorem sliceBytes_front (block : Bytes) {k : Nat} (hk : k ≤ block.length)
    (hlt : block.length < 2147483648) :
    sliceBytes block (some (.int (0 : Nat))) (some (.int k)) = block.take k := by
  have hstart : argument (some (.int (0 : Nat))) 0 = (0 : Nat) := argument_int (by decide) 0
  have hstop : argument (some (.int k)) block.length = k :=
    argument_int (isInt_natCast (by omega)) _
  rw [sliceBytes, hstart, hstop, sliceClip_natCast, sliceClip_natCast, Nat.zero_min,
    List.drop_zero, Nat.sub_zero, Nat.min_eq_left hk]

theorem sliceBytes_back (block : Bytes) {k : Nat} (hk : k ≤ block.length)
    (hlt : block.length < 2147483648) :
    sliceBytes block (some (.int k)) none = block.drop k := by
  have hstart : argument (some (.int k)) 0 = k := argument_int (isInt_natCast (by omega)) 0
  have hstop : argument none block.length = (block.length : Int) := rfl
  rw [sliceBytes, hstart, hstop, sliceClip_natCast, sliceClip_natCast, Nat.min_self,
    Nat.min_eq_left hk, ← List.length_drop, List.take_length]

theorem rejoined (hw : h.WellFormed) (hbuffer : this < h.length)
    (hlt : (h.wrap this).length < 2147483648) {k : Nat} (hk : k ≤ (h.wrap this).length) :
    Rejoined T h this k := by
  have hthis := (hw this).sound hlt
  rw [hthis.length] at hk
  let front : BufferWrap := ⟨((h.wrap this).block.take k).length, (h.wrap this).block.take k⟩
  let back : BufferWrap := ⟨((h.wrap this).block.drop k).length, (h.wrap this).block.drop k⟩
  have hfront : h.slice T this (some (.int 0)) (some (.int k)) = .ok (h.length, h ++ [front]) := by
    have hslice := slice_eq (T := T) hbuffer hthis (some (.int (0 : Nat))) (some (.int k))
    rwa [sliceBytes_front _ hk hthis.lt] at hslice
  -- the first slice leaves the Buffer to the second one as it was
  have hsame : BufferHeap.wrap (h ++ [front]) this = h.wrap this := wrap_push_of_lt hbuffer
  have hback : BufferHeap.slice T (h ++ [front]) this (some (.int k)) none =
      .ok ((h ++ [front]).length, h ++ [front] ++ [back]) := by
    have hslice : BufferHeap.slice T (h ++ [front]) this (some (.int k)) none = _ :=
      slice_eq (by simp; omega) (by rw [hsame]; exact hthis) (some (.int k)) none
    rwa [hsame, sliceBytes_back _ hk hthis.lt] at hslice
  let h₂ : BufferHeap := h ++ [front] ++ [back]
  have hwrapFront : h₂.wrap h.length = front := by
    rw [wrap_push_of_lt (by simp), wrap_push_self]
  have hwrapBack : h₂.wrap (h ++ [front]).length = back := wrap_push_self back
  have hcontents : h₂.contents [h.length, (h ++ [front]).length] = (h.wrap this).block := by
    show (h₂.wrap h.length).block ++ ((h₂.wrap (h ++ [front]).length).block ++ []) = _
    rw [hwrapFront, hwrapBack, List.append_nil]
    exact List.take_append_drop k _
  have hsound : ∀ r ∈ [h.length, (h ++ [front]).length], (h₂.wrap r).Sound := by
    intro r hr
    rcases List.mem_cons.mp hr with rfl | hlast
    · rw [hwrapFront]
      exact ⟨rfl, Nat.lt_of_le_of_lt (List.length_take_le' ..) hthis.lt⟩
    · rw [List.mem_singleton.mp hlast, hwrapBack]
      exact ⟨rfl, Nat.lt_of_le_of_lt (List.drop_sublist ..).length_le hthis.lt⟩
  have hconcat := concat_eq (T := T) (h := h₂) (by simp [h₂]) hsound (hcontents ▸ hthis.lt)
  refine ⟨_, _, _, _, _, _, hfront, hback, hconcat, ?_⟩
  rw [wrap_push_self, hcontents]

/-- For all lists that are shorter than 2 GiB together, and for all places to split a Buffer. -/
theorem concat_law (T : BufferTarget) (hw : h.WellFormed) :
    (∀ list, (∀ r ∈ list, r < h.length) → h.totalLength list < 2147483648 →
      ∃ new h', h.concat T list = .ok (new, h') ∧ Concatenated h list new h') ∧
    ∀ this < h.length, (h.wrap this).length < 2147483648 → ∀ k ≤ (h.wrap this).length,
      Rejoined T h this k :=
  ⟨fun _ hbuffers htotal => concat_concatenated hw hbuffers htotal,
    fun _ hbuffer hlt _ hk => rejoined hw hbuffer hlt hk⟩

/-- A Buffer twice and an empty one. -/
theorem concat_law_repeated :
    let h : BufferHeap := [⟨2, [97, 98]⟩, ⟨0, []⟩]
    ∃ new h', h.concat (.ascii true) [0, 1, 0] = .ok (new, h') ∧
      Concatenated h [0, 1, 0] new h' := by
  exact (concat_law (.ascii true) (wellFormed_of_mem (by decide))).1 [0, 1, 0] (by decide)
    (by decide)

end BufferHeap

end IotJs

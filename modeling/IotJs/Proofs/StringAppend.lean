import IotJs.Proofs.StringBlocks
import Mathlib.Algebra.Ring.Nat

/-!
# `IotJs.Proofs.StringAppend`: `iotjs_string_append` appends

Each of the three branches has its equation: `append_new` for a string without a buffer,
`append_room` for one with enough capacity, and `append_grow` for one that gets a larger buffer. The
loop for the larger capacity ends before it reaches `2^32` where the new size is no more than
`2^31`, as a capacity below the new size can be doubled then (`growCapacity_eq`).
`appendAll_appends` puts the calls together.
-/

set_option autoImplicit false

namespace IotJs

open Fs (toInt)
open CharHeap (overwrite)

namespace IotjsString

/-! ### The loop -/

theorem growCapacity_eq (fuel : Nat) {cap target : Nat} (hcap : cap < 4294967296)
    (htarget : target ≤ 2147483648) (hfuel : target ≤ cap * 2 ^ fuel) :
    ∃ i, growCapacity (fuel + 1) cap target = some (cap * 2 ^ i) ∧ target ≤ cap * 2 ^ i ∧
      cap * 2 ^ i < 4294967296 := by
  induction fuel generalizing cap with
  | zero =>
      rw [Nat.pow_zero, Nat.mul_one] at hfuel
      refine ⟨0, ?_, by omega, by omega⟩
      rw [growCapacity, if_neg (by omega), Nat.pow_zero, Nat.mul_one]
  | succ fuel ih =>
      rw [growCapacity]
      by_cases hsmall : cap < target
      · have hdouble : toUnsigned (cap * kCapacityIncreaseFactor) = cap * 2 :=
          toUnsigned_of_lt (n := cap * 2) (by omega)
        have hpow : ∀ i, cap * 2 * 2 ^ i = cap * 2 ^ (i + 1) := by
          intro i
          rw [Nat.pow_succ', Nat.mul_assoc]
        obtain ⟨i, hgrow, hle, hlt⟩ := @ih (cap * 2) (by omega) (by rwa [hpow])
        rw [hpow] at hgrow hle hlt
        exact ⟨i + 1, by rw [if_pos hsmall, hdouble, hgrow], hle, hlt⟩
      · refine ⟨0, ?_, by omega, by omega⟩
        rw [if_neg hsmall, Nat.pow_zero, Nat.mul_one]

/-- What the loop ends with is enough, and it is even where the capacity was not enough before. -/
theorem growCapacity_some {fuel cap target c : Nat} (hcap : cap < 4294967296)
    (hgrow : growCapacity fuel cap target = some c) :
    target ≤ c ∧ c < 4294967296 ∧ (c = cap ∨ c % 2 = 0) := by
  induction fuel generalizing cap with
  | zero => cases hgrow
  | succ fuel ih =>
      rw [growCapacity] at hgrow
      split at hgrow
      · have hdouble : toUnsigned (cap * kCapacityIncreaseFactor) = cap * 2 % 4294967296 :=
          toUnsigned_natCast (cap * 2)
        rw [hdouble] at hgrow
        obtain ⟨hle, hlt, heven⟩ := ih (by omega) hgrow
        exact ⟨hle, hlt, by omega⟩
      · obtain rfl := Option.some.inj hgrow
        exact ⟨by omega, hcap, Or.inl rfl⟩

theorem growCapacity_eq_none_iff {fuel cap target : Nat} (hcap : cap < 4294967296) :
    growCapacity fuel cap target = none ↔ ∀ i < fuel, cap * 2 ^ i % 4294967296 < target := by
  induction fuel generalizing cap with
  | zero => exact iff_of_true rfl fun i hi => absurd hi (Nat.not_lt_zero i)
  | succ fuel ih =>
      have hfirst : cap * 2 ^ 0 % 4294967296 = cap := by
        rw [Nat.pow_zero, Nat.mul_one, Nat.mod_eq_of_lt hcap]
      rw [growCapacity, Nat.forall_lt_succ_left, hfirst]
      split
      · rename_i hsmall
        have hdouble : toUnsigned (cap * kCapacityIncreaseFactor) = cap * 2 % 4294967296 :=
          toUnsigned_natCast (cap * 2)
        have hpow : ∀ i, cap * 2 % 4294967296 * 2 ^ i % 4294967296 =
            cap * 2 ^ (i + 1) % 4294967296 := by
          intro i
          rw [Nat.mod_mul_mod, Nat.mul_assoc, ← Nat.pow_succ']
        rw [hdouble, ih (Nat.mod_lt _ (by decide))]
        simp only [hpow, hsmall, true_and]
      · rename_i henough
        exact iff_of_false (Option.some_ne_none _) fun hall => henough hall.1

/-- More rounds change nothing. -/
theorem growCapacity_endless {cap target : Nat} (hcap : cap < 4294967296)
    (hnone : growCapacity growthFuel cap target = none) (fuel : Nat) :
    growCapacity fuel cap target = none := by
  have hall := (growCapacity_eq_none_iff hcap).mp hnone
  have hpos : 0 < target := Nat.lt_of_le_of_lt (Nat.zero_le _) (hall 0 (by decide))
  refine (growCapacity_eq_none_iff hcap).mpr fun i hi => ?_
  by_cases hfirst : i < growthFuel
  · exact hall i hfirst
  · -- 32 factors of two are left of the capacity
    obtain ⟨k, rfl⟩ : ∃ k, i = 32 + k := ⟨i - 32, by unfold growthFuel at hfirst; omega⟩
    have hzero : cap * 2 ^ (32 + k) = 4294967296 * (cap * 2 ^ k) := by
      rw [Nat.pow_add, Nat.mul_left_comm]
    rw [hzero, Nat.mul_mod_right]
    exact hpos

/-! ### The bytes -/

/-- The bytes of a block after the characters and the zero behind them were written. -/
def appended (size : Nat) (added old : Bytes) : Bytes :=
  overwrite (size + added.length) [0] (overwrite size added old)

section

variable {size cap : Nat} {added old : Bytes}

theorem length_appended (hroom : size + added.length + 1 ≤ old.length) :
    (appended size added old).length = old.length := by
  have hinner : (overwrite size added old).length = old.length :=
    CharHeap.length_overwrite (by omega)
  rw [appended, CharHeap.length_overwrite, hinner]
  rw [hinner]
  exact hroom

theorem take_appended (hroom : size + added.length + 1 ≤ old.length) :
    (appended size added old).take (size + added.length) = old.take size ++ added := by
  have hinner : (overwrite size added old).length = old.length :=
    CharHeap.length_overwrite (by omega)
  rw [appended, CharHeap.take_overwrite_of_le (Nat.le_refl _) (by omega),
    CharHeap.take_overwrite (by omega)]

theorem getElem?_appended (hroom : size + added.length + 1 ≤ old.length) :
    (appended size added old)[size + added.length]? = some 0 := by
  have hinner : (overwrite size added old).length = old.length :=
    CharHeap.length_overwrite (by omega)
  exact CharHeap.getElem?_overwrite_self 0 (by omega)

theorem fitsIn_appended (added : Bytes) (data : CharPointer) (hroom : size + added.length ≤ cap)
    (hpos : 0 < cap) (hcap : cap + 1 < 4294967296) (hlength : old.length = cap + 1) :
    FitsIn ⟨size + added.length, cap, data⟩ (appended size added old) where
  size_le := hroom
  cap_pos := hpos
  cap_lt := hcap
  length := by rw [length_appended (by omega), hlength]
  terminated := getElem?_appended (by omega)

theorem length_strncpyBytes (data : Bytes) (n : Nat) : (strncpyBytes data n).length = n := by
  have hle : ((untilNul data).take n).length ≤ n := List.length_take_le n _
  rw [strncpyBytes, List.length_append, List.length_replicate]
  omega

/-- Characters without a zero are copied as they are. -/
theorem strncpyBytes_eq {data : Bytes} (hnul : 0 ∉ data) :
    strncpyBytes data data.length = data := by
  rw [strncpyBytes, untilNul_eq hnul, List.take_length, Nat.sub_self]
  exact List.append_nil data

end

/-! ### The branches -/

section

variable {h : CharHeap} {fresh : Nat → Nat → UInt8} {s : IotjsString} {data : Bytes} {size : Int}

theorem append_eq (hle : s.size ≤ s.cap) (hsize : appendSize data size ≠ 0) :
    s.append h fresh data size =
      (s.appendData h fresh data (appendSize data size) >>= fun result =>
        result.1.write result.2.data result.2.size [0] >>= fun h' => pure (h', result.2)) := by
  rw [append, if_neg (by omega)]
  exact if_neg hsize

theorem append_zero (hle : s.size ≤ s.cap) (hsize : appendSize data size = 0) :
    s.append h fresh data size = .ok (h, s) := by
  rw [append, if_neg (by omega)]
  exact if_pos hsize

/-- A string without a buffer gets one for the characters. -/
theorem append_new (h : CharHeap) (fresh : Nat → Nat → UInt8) {n : Nat}
    (hn : toUnsigned (appendSize data size) = n) (hsize : appendSize data size ≠ 0)
    (hlt : n + 1 < 4294967296) :
    append h ⟨0, 0, .iotjsEmptyString⟩ fresh data size =
      .ok (h ++ [⟨strncpyBytes data n ++ [0], 0⟩], ⟨n, n, .block h.length⟩) := by
  have hwrites := write_both h (strncpyBytes data n) ⟨n, n, .block h.length⟩
  rw [length_strncpyBytes] at hwrites
  rw [append_eq (Nat.le_refl 0) hsize, ← hwrites, appendData, if_pos rfl, if_neg (by simp)]
  dsimp only [CharHeap.bufferAllocate]
  rw [hn, toUnsigned_add_one hlt, bind_assoc]
  simp only [pure_bind]

/-- The two writes of the other branches, to a block with room for the characters. -/
theorem write_added {b : Nat} {block : HeapBlock} (start : Nat) (added : Bytes) (t : IotjsString)
    (hb : h[b]? = some block) (hlive : block.released = 0)
    (hroom : start + added.length + 1 ≤ block.bytes.length) :
    (h.write (.block b) start added >>= fun h₁ =>
      h₁.write (.block b) (start + added.length) [0] >>= fun h₂ => pure (h₂, t)) =
        .ok (h.edit b (appended start added), t) := by
  rw [CharHeap.write_block hb hlive (by omega)]
  show (CharHeap.write _ _ _ _ >>= _) = _
  rw [CharHeap.write_block (CharHeap.edit_self hb _) hlive, CharHeap.edit_edit]
  · rfl
  · rw [CharHeap.length_overwrite (by omega)]
    exact hroom

variable {b n : Nat} {block : HeapBlock}

/-- The capacity is enough. -/
theorem append_room (fresh : Nat → Nat → UInt8) (hs : s.WellFormed h)
    (hdata : s.data = .block b) (hb : h[b]? = some block) (hbacks : block.Backs s)
    (hn : appendSize data size = n) (hpos : 0 < n) (hroom : s.size + n ≤ s.cap) :
    s.append h fresh data size =
      .ok (h.edit b (appended s.size (strncpyBytes data n)), ⟨s.size + n, s.cap, .block b⟩) := by
  have hcap := hs.cap_lt
  have hlength := hbacks.length
  have hsum : toUnsigned (s.size + n) = s.size + n := toUnsigned_of_lt (n := s.size + n) (by omega)
  have hadded := length_strncpyBytes data n
  have hwrites := write_added s.size (strncpyBytes data n) ⟨s.size + n, s.cap, .block b⟩ hb
    hbacks.live (by omega)
  rw [hadded] at hwrites
  rw [append_eq hs.size_le (by omega), ← hwrites, hn, appendData, if_neg (by omega), hsum,
    if_pos hroom, toSizeT_of_lt (by omega), hdata, bind_assoc]
  simp only [pure_bind]

/-- The characters move to a larger block. -/
theorem append_grow (fresh : Nat → Nat → UInt8) (hs : s.WellFormed h)
    (hdata : s.data = .block b) (hb : h[b]? = some block) (hn : appendSize data size = n)
    (hpos : 0 < n) (hlt : s.size + n < 4294967296) (hroom : s.cap < s.size + n) {cap : Nat}
    (hgrow : growCapacity growthFuel s.cap (s.size + n) = some cap) (hle : s.size + n ≤ cap)
    (hcap : cap + 1 < 4294967296) :
    s.append h fresh data size =
      .ok (h.release b ++ [⟨appended s.size (strncpyBytes data n)
          (CharHeap.reallocated (fresh h.length) block.bytes (cap + 1)), 0⟩],
        ⟨s.size + n, cap, .block h.length⟩) := by
  have hsum : toUnsigned (s.size + n) = s.size + n := toUnsigned_of_lt hlt
  have hadded := length_strncpyBytes data n
  have hpositive := Nat.pos_of_ne_zero fun hzero : s.cap = 0 =>
    CharPointer.noConfusion (hdata.symm.trans (hs.cap_eq_zero_iff.mp hzero))
  generalize hold : CharHeap.reallocated (fresh h.length) block.bytes (cap + 1) = old
  have hlength : old.length = cap + 1 := by rw [← hold, CharHeap.length_reallocated]
  have hwrites := write_added s.size (strncpyBytes data n)
    ⟨s.size + n, cap, .block h.length⟩ (CharHeap.getElem?_moved h b ⟨old, 0⟩) rfl
    (by show _ ≤ old.length; omega)
  rw [hadded, CharHeap.edit_moved] at hwrites
  rw [append_eq hs.size_le (by omega), hn, appendData, if_neg (by omega), hsum,
    if_neg (by omega), hgrow]
  dsimp only
  rw [toUnsigned_add_one hcap, toSizeT_of_lt (by omega), hdata,
    CharHeap.bufferReallocate_eq fresh hb, hold, ← hwrites]
  simp only [bind_assoc, pure_bind]
  rfl

end

/-! ### Appending -/

/-- What appending these characters makes of a string and its heap. -/
structure Appends (h : CharHeap) (s : IotjsString) (data : Bytes) (h' : CharHeap)
    (s' : IotjsString) : Prop where
  contents : s'.contents h' = s.contents h ++ data
  terminated : (h'.bytesAt s'.data)[s'.size]? = some 0
  size : s'.size = s.size + data.length
  wellFormed : s'.WellFormed h'
  /-- without a wrap-around: these are natural numbers -/
  doubled : 0 < s.cap → ∃ i, s'.cap = s.cap * 2 ^ i
  /-- the blocks of other strings stay as they are -/
  others : ∀ b block, h[b]? = some block → s.data ≠ .block b →
    h'[b]? = some block ∧ s'.data ≠ .block b

section

variable {h h' h'' : CharHeap} {s s' s'' : IotjsString} {data data' : Bytes} {size : Int}
variable {fresh : Nat → Nat → UInt8}

theorem WellFormed.terminated (hs : s.WellFormed h) : (h.bytesAt s.data)[s.size]? = some 0 := by
  obtain rfl | ⟨-, b, block, hdata, hb, hbacks⟩ := hs.cases
  · rfl
  · rw [hdata, CharHeap.bytesAt_block hb]
    exact hbacks.terminated

theorem Appends.refl (hs : s.WellFormed h) : Appends h s [] h s where
  contents := (List.append_nil _).symm
  terminated := hs.terminated
  size := rfl
  wellFormed := hs
  doubled _ := ⟨0, (Nat.mul_one _).symm⟩
  others _ _ hb hne := ⟨hb, hne⟩

theorem Appends.trans (hfirst : Appends h s data h' s') (hsecond : Appends h' s' data' h'' s'') :
    Appends h s (data ++ data') h'' s'' where
  contents := by rw [hsecond.contents, hfirst.contents, List.append_assoc]
  terminated := hsecond.terminated
  size := by
    rw [hsecond.size, hfirst.size, List.length_append, Nat.add_assoc]
  wellFormed := hsecond.wellFormed
  doubled hpos := by
    obtain ⟨i, hi⟩ := hfirst.doubled hpos
    have hpos' : 0 < s'.cap := hi ▸ Nat.mul_pos hpos (Nat.two_pow_pos i)
    obtain ⟨j, hj⟩ := hsecond.doubled hpos'
    exact ⟨i + j, by rw [hj, hi, Nat.pow_add, Nat.mul_assoc]⟩
  others b block hb hne := by
    obtain ⟨hb', hne'⟩ := hfirst.others b block hb hne
    exact hsecond.others b block hb' hne'

/-- What a call that keeps its string well formed has to show of it. -/
theorem appends_of_keeps {h₁ : CharHeap} {s₁ : IotjsString}
    (hkeeps : CallKeeps h s.data (.ok (h₁, s₁))) (hcontents : s₁.contents h₁ = s.contents h ++ data)
    (hsize : s₁.size = s.size + data.length) (hdoubled : 0 < s.cap → ∃ i, s₁.cap = s.cap * 2 ^ i) :
    Appends h s data h₁ s₁ := by
  obtain ⟨h', s', hsame, hmoves, hwell⟩ := hkeeps
  cases hsame
  exact ⟨hcontents, hwell.terminated, hsize, hwell, hdoubled,
    fun b block hb hne => hmoves.others hb hne⟩

/-- The characters of a block of their own. -/
theorem contents_block {b : Nat} {block : HeapBlock} (hb : h[b]? = some block)
    (hdata : s.data = .block b) : s.contents h = block.bytes.take s.size := by
  rw [contents, hdata, CharHeap.bytesAt_block hb]

theorem append_appends (fresh : Nat → Nat → UInt8) (hs : s.WellFormed h) (hnul : 0 ∉ data)
    (hsize : appendSize data size = data.length)
    (hbound : s.size + data.length < 2147483648) :
    ∃ h' s', s.append h fresh data size = .ok (h', s') ∧ Appends h s data h' s' := by
  by_cases hnil : data.length = 0
  · obtain rfl := List.eq_nil_of_length_eq_zero hnil
    exact ⟨h, s, append_zero hs.size_le hsize, .refl hs⟩
  have hpos : 0 < data.length := Nat.pos_of_ne_zero hnil
  obtain rfl | ⟨hcap, b, block, hdata, hb, hbacks⟩ := hs.cases
  · have hn : toUnsigned (appendSize data size) = data.length := by
      rw [hsize, toUnsigned_of_lt (by omega)]
    have hnew := append_new h fresh hn (by omega) (by omega)
    rw [strncpyBytes_eq hnul] at hnew
    refine ⟨_, _, hnew, appends_of_keeps (callKeeps_chars h data ?_ (by omega)) ?_ ?_ ?_⟩
    · exact List.length_pos_iff.mp hpos
    · exact (contents_block (CharHeap.getElem?_last h _) rfl).trans List.take_left
    · exact (Nat.zero_add _).symm
    · exact fun hzero => absurd hzero (Nat.lt_irrefl 0)
  have hlength := hbacks.length
  have hcaplt := hs.cap_lt
  have hsizele := hs.size_le
  by_cases hroom : s.size + data.length ≤ s.cap
  · have heq := append_room fresh hs hdata hb hbacks hsize hpos hroom
    rw [strncpyBytes_eq hnul] at heq
    refine ⟨_, _, heq, appends_of_keeps ?_ ?_ rfl fun _ => ⟨0, (Nat.mul_one _).symm⟩⟩
    · rw [hdata]
      exact callKeeps_edit hb hbacks.live (fitsIn_appended data _ hroom hcap hcaplt hlength) rfl
    · rw [contents_block hb hdata]
      exact (contents_block (CharHeap.edit_self hb _) rfl).trans (take_appended (by omega))
  · obtain ⟨i, hgrow, hle, hlt⟩ := @growCapacity_eq 32 s.cap
      (s.size + data.length) (by omega) (by omega) (by omega)
    -- the capacity has been doubled, so it is even
    have heven := (growCapacity_some (by omega) hgrow).2.2
    generalize hcap' : s.cap * 2 ^ i = cap at hgrow hle hlt heven
    have heq := append_grow fresh hs hdata hb hsize hpos (by omega) (by omega) hgrow hle
      (by omega)
    rw [strncpyBytes_eq hnul] at heq
    have hold : (CharHeap.reallocated (fresh h.length) block.bytes (cap + 1)).length = cap + 1 :=
      CharHeap.length_reallocated _ _ _
    refine ⟨_, _, heq, appends_of_keeps ?_ ?_ rfl fun _ => ⟨i, hcap'.symm⟩⟩
    · rw [hdata]
      exact callKeeps_reallocate h b (fitsIn_appended data _ hle (by omega) (by omega) hold) rfl
    · rw [contents_block hb hdata, contents_block (CharHeap.getElem?_moved h b _) rfl]
      refine (take_appended (by omega)).trans ?_
      rw [CharHeap.take_reallocated _ (by omega) (by omega)]

/-- The number of characters as the parameter. -/
theorem appendSize_length (hlength : data.length < 2147483648) :
    appendSize data data.length = data.length := by
  have hint : toInt data.length = data.length := Int.bmod_eq_of_le (by omega) (by omega)
  rw [appendSize, hint, if_neg (by omega)]

/-- A negative number asks for the length. -/
theorem appendSize_neg (hnul : 0 ∉ data) (hlength : data.length < 2147483648)
    (hsize : toInt size < 0) : appendSize data size = data.length := by
  rw [appendSize, if_pos hsize, untilNul_eq hnul]
  exact Int.bmod_eq_of_le (by omega) (by omega)

/-- A negative number in the place of the size, which `iotjs_string_append_without_size` gives. -/
theorem append_without_size (fresh : Nat → Nat → UInt8) (hs : s.WellFormed h) (hnul : 0 ∉ data)
    (hsize : toInt size < 0) (hbound : s.size + data.length < 2147483648) :
    ∃ h' s', s.append h fresh data size = .ok (h', s') ∧ Appends h s data h' s' :=
  append_appends fresh hs hnul (appendSize_neg hnul (by omega) hsize) hbound

/-- A sequence of calls. -/
def appendAll (fresh : Nat → Nat → UInt8) (h : CharHeap) (s : IotjsString) :
    List Bytes → Except StringFailure (CharHeap × IotjsString)
  | [] => .ok (h, s)
  | data :: rest =>
      s.append h fresh data data.length >>= fun result => appendAll fresh result.1 result.2 rest

theorem appendAll_appends {blocks : List Bytes} (hs : s.WellFormed h)
    (hnul : ∀ data ∈ blocks, 0 ∉ data)
    (hbound : s.size + blocks.flatten.length < 2147483648) :
    ∃ h' s', appendAll fresh h s blocks = .ok (h', s') ∧ Appends h s blocks.flatten h' s' := by
  induction blocks generalizing h s with
  | nil => exact ⟨h, s, rfl, .refl hs⟩
  | cons data rest ih =>
      rw [List.flatten_cons, List.length_append] at hbound
      obtain ⟨h₁, s₁, hfirst, happends⟩ := append_appends fresh hs
        (hnul data List.mem_cons_self) (appendSize_length (by omega)) (by omega)
      have hsize := happends.size
      obtain ⟨h₂, s₂, hrest, happends'⟩ := ih happends.wellFormed
        (fun other hmem => hnul other (List.mem_cons_of_mem _ hmem)) (by omega)
      refine ⟨h₂, s₂, ?_, happends.trans happends'⟩
      rw [appendAll, hfirst]
      exact hrest

end

/-- One call with a block of characters, and a sequence of such calls. -/
theorem append_concatenates (fresh : Nat → Nat → UInt8) {h : CharHeap} {s : IotjsString}
    (hs : s.WellFormed h) :
    (∀ data : Bytes, 0 ∉ data → s.size + data.length < 2147483648 →
      ∃ h' s', s.append h fresh data data.length = .ok (h', s') ∧ Appends h s data h' s') ∧
    (∀ blocks : List Bytes, (∀ data ∈ blocks, 0 ∉ data) →
      s.size + blocks.flatten.length < 2147483648 →
        ∃ h' s', appendAll fresh h s blocks = .ok (h', s') ∧ Appends h s blocks.flatten h' s') :=
  ⟨fun _ hnul hbound => append_appends fresh hs hnul (appendSize_length (by omega)) hbound,
    fun _ hnul hbound => appendAll_appends hs hnul hbound⟩

/-- Five characters, then two and none, in a string that was empty. -/
theorem append_concatenates_three :
    ∃ h' s', appendAll (fun _ _ => 7) [] ⟨0, 0, .iotjsEmptyString⟩
        [[104, 101, 108, 108, 111], [44, 32], []] = .ok (h', s') ∧
      Appends [] ⟨0, 0, .iotjsEmptyString⟩ [104, 101, 108, 108, 111, 44, 32] h' s' :=
  (append_concatenates (fun _ _ => 7) (wellFormed_empty [])).2
    [[104, 101, 108, 108, 111], [44, 32], []] (by decide) (by decide)

end IotjsString

end IotJs

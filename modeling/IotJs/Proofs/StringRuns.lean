import IotJs.Lib.Runs
import IotJs.Proofs.StringAppend

/-!
# `IotJs.Proofs.StringRuns`: which calls keep the strings well formed

`Good` is what holds between two calls: each string is well formed, no two of them have the same
block, and a block without a string has been released once. `Tame` are the calls that keep it so.
`good_along_strings_iff` says that this condition is exact.

The call that is not tame in practice is `iotjs_file_read` of an empty file: it hands a buffer of
one byte to `iotjs_string_create_with_buffer`, and the capacity of the string is zero then. The
others need sizes near `2^32`.
-/

set_option autoImplicit false

namespace IotJs

open Fs (toInt)

namespace IotjsString

/-! ### `append` -/

/-- The sizes that `append` gets along with: none, any for a string without a buffer but for the
one whose block would have no bytes, and otherwise a positive one whose sum is an `unsigned`. -/
def TakesAppend (s : IotjsString) (size : Int) : Prop :=
  size = 0 ∨ (s.cap = 0 ∧ size ≠ -1) ∨ (0 < size ∧ s.size + size < 4294967296)

instance (s : IotjsString) (size : Int) : Decidable (s.TakesAppend size) :=
  inferInstanceAs (Decidable (_ ∨ _ ∨ _))

section

variable {h : CharHeap} {fresh : Nat → Nat → UInt8} {s : IotjsString} {data : Bytes} {size : Int}

theorem appendSize_bounds (data : Bytes) (size : Int) :
    -2147483648 ≤ appendSize data size ∧ appendSize data size < 2147483648 := by
  have hint : ∀ n : Int, -2147483648 ≤ toInt n ∧ toInt n < 2147483648 := by
    intro n
    have hlower : -(((4294967296 : Nat) : Int) / 2) ≤ toInt n := Int.le_bmod (by decide)
    have hupper : toInt n < (((4294967296 : Nat) : Int) + 1) / 2 := Int.bmod_lt (by decide)
    omega
  unfold appendSize
  split
  · exact hint _
  · exact hint _

/-- A string that gets its first buffer. -/
theorem append_new_keeps (h : CharHeap) (hzero : appendSize data size ≠ 0)
    (hone : appendSize data size ≠ -1) :
    CallKeeps h .iotjsEmptyString (append h ⟨0, 0, .iotjsEmptyString⟩ fresh data size) := by
  obtain ⟨hlower, hupper⟩ := appendSize_bounds data size
  have hn : 0 < toUnsigned (appendSize data size) ∧
      toUnsigned (appendSize data size) + 1 < 4294967296 := by
    unfold toUnsigned
    omega
  have hchars := callKeeps_chars h (strncpyBytes data (toUnsigned (appendSize data size)))
  rw [length_strncpyBytes] at hchars
  rw [append_new h fresh rfl hzero hn.2]
  refine hchars (List.length_pos_iff.mp ?_) hn.2
  rw [length_strncpyBytes]
  exact hn.1

/-- The loop for the capacity does not end. -/
theorem append_endless (hs : s.WellFormed h) (hcap : 0 < s.cap)
    (hzero : appendSize data size ≠ 0)
    (hroom : s.cap < toUnsigned (s.size + appendSize data size))
    (hgrow : growCapacity growthFuel s.cap (toUnsigned (s.size + appendSize data size)) = none) :
    s.append h fresh data size = .error .endless := by
  rw [append_eq hs.size_le hzero, appendData, if_neg (by omega), if_neg (by omega), hgrow]
  rfl

theorem append_keeps (hs : s.WellFormed h) (htakes : s.TakesAppend (appendSize data size)) :
    CallKeeps h s.data (s.append h fresh data size) ∨
      s.append h fresh data size = .error .endless := by
  by_cases hzero : appendSize data size = 0
  · rw [append_zero hs.size_le hzero]
    exact Or.inl ⟨h, s, rfl, .keep _, hs⟩
  obtain rfl | ⟨hcap, b, block, hdata, hb, hbacks⟩ := hs.cases
  · have hone : appendSize data size ≠ -1 := by
      obtain hsame | ⟨-, hne⟩ | ⟨hpos, -⟩ := htakes
      · exact absurd hsame hzero
      · exact hne
      · omega
    exact Or.inl (append_new_keeps h hzero hone)
  · obtain ⟨hpos, hlt⟩ := (htakes.resolve_left hzero).resolve_left
      fun hboth => Nat.ne_of_gt hcap hboth.1
    obtain ⟨n, hn⟩ := Int.eq_ofNat_of_zero_le (Int.le_of_lt hpos)
    have hcaplt := hs.cap_lt
    have hlength := length_strncpyBytes data n
    rw [hn] at hlt hpos
    by_cases hroom : s.size + n ≤ s.cap
    · rw [append_room fresh hs hdata hb hbacks hn (by omega) hroom, hdata]
      have hfits := @fitsIn_appended s.size s.cap _ (strncpyBytes data n) (.block b) (by omega) hcap
        hcaplt hbacks.length
      rw [hlength] at hfits
      exact Or.inl (callKeeps_edit hb hbacks.live hfits rfl)
    · have hsum : toUnsigned (s.size + n) = s.size + n := toUnsigned_of_lt (by omega)
      cases hgrow : growCapacity growthFuel s.cap (s.size + n) with
      | none =>
          refine Or.inr (append_endless hs hcap hzero ?_ ?_)
          · rw [hn, hsum]
            omega
          · rw [hn, hsum]
            exact hgrow
      | some cap =>
          obtain ⟨hle, hcap', heven⟩ := growCapacity_some (by omega) hgrow
          rw [append_grow fresh hs hdata hb hn (by omega) (by omega) (by omega) hgrow hle
            (by omega), hdata]
          have hfits := @fitsIn_appended s.size cap _ (strncpyBytes data n)
            (.block h.length) (by omega) (by omega) (by omega)
            (CharHeap.length_reallocated (fresh h.length) block.bytes (cap + 1))
          rw [hlength] at hfits
          exact Or.inl (callKeeps_reallocate h b hfits rfl)

/-- A first buffer of no bytes. -/
theorem append_new_spoils (h : CharHeap) (hone : appendSize data size = -1) :
    CallSpoils (append h ⟨0, 0, .iotjsEmptyString⟩ fresh data size) := by
  have hn : toUnsigned (appendSize data size) = 4294967295 := by
    rw [hone]
    decide
  generalize hcap : (4294967295 : Nat) = cap at hn
  have hround : toUnsigned (cap + 1) = 0 := by
    rw [← hcap]
    decide
  rw [append_eq (Nat.le_refl 0) (by omega), appendData, if_pos rfl, if_neg (by simp)]
  dsimp only [CharHeap.bufferAllocate]
  rw [hn, hround, bind_assoc]
  refine callSpoils_bind (write_too_many h _ ?_) _
  rw [length_strncpyBytes]
  omega

/-- More characters than any block has room for. -/
theorem append_spoils_of_long (hs : s.WellFormed h) (hcap : 0 < s.cap)
    (hzero : appendSize data size ≠ 0)
    (hlong : 4294967296 ≤ s.size + toSizeT (appendSize data size)) :
    CallSpoils (s.append h fresh data size) := by
  obtain rfl | ⟨-, b, block, hdata, hb, hbacks⟩ := hs.cases
  · exact absurd hcap (Nat.lt_irrefl 0)
  have hcaplt := hs.cap_lt
  have hlength := hbacks.length
  have hadded := length_strncpyBytes data (toSizeT (appendSize data size))
  rw [append_eq hs.size_le hzero, appendData, if_neg (by omega)]
  split
  · rw [hdata, bind_assoc]
    exact callSpoils_bind (CharHeap.write_outOfBounds hb hbacks.live (by omega)) _
  · split
    · exact callSpoils_error _
    · rename_i cap hgrow
      have hround := toUnsigned_lt (cap + 1)
      have hold := CharHeap.length_reallocated (fresh h.length) block.bytes (toUnsigned (cap + 1))
      rw [hdata, CharHeap.bufferReallocate_eq fresh hb]
      show CallSpoils ((CharHeap.write _ (.block h.length) _ _ >>= _) >>= _)
      rw [bind_assoc]
      refine callSpoils_bind (CharHeap.write_outOfBounds (CharHeap.getElem?_moved h b _) rfl ?_) _
      show (CharHeap.reallocated _ _ _).length < _
      omega

theorem append_spoils (hs : s.WellFormed h) (htakes : ¬ s.TakesAppend (appendSize data size)) :
    CallSpoils (s.append h fresh data size) := by
  obtain ⟨hlower, hupper⟩ := appendSize_bounds data size
  have hzero : appendSize data size ≠ 0 := fun hzero => htakes (Or.inl hzero)
  by_cases hcap : s.cap = 0
  · have hone : appendSize data size = -1 := by
      by_contra hone
      exact htakes (Or.inr (Or.inl ⟨hcap, hone⟩))
    obtain rfl | ⟨hpos, -⟩ := hs.cases
    · exact append_new_spoils h hone
    · omega
  · refine append_spoils_of_long hs (Nat.pos_of_ne_zero hcap) hzero ?_
    have hsum : 0 < appendSize data size → 4294967296 ≤ s.size + appendSize data size :=
      fun hpos => Int.not_lt.mp fun hlt => htakes (Or.inr (Or.inr ⟨hpos, hlt⟩))
    -- a negative size is a very large `size_t`
    unfold toSizeT
    omega

end

end IotjsString

/-! ### The program -/

namespace StringProgram

/-- What the string of a variable points to, where it has one. -/
def pointer : Option IotjsString → CharPointer
  | none => .iotjsEmptyString
  | some s => s.data

def data (p : StringProgram) (i : Nat) : CharPointer := pointer (p.strings i)

/-- No assertion has failed, `iotjs_empty_string` was not written and not released, and no write was
out of bounds. -/
structure Good (p : StringProgram) : Prop where
  failure : p.failure = none
  wellFormed : ∀ i, ∀ s ∈ p.strings i, s.WellFormed p.heap
  /-- a block belongs to one string -/
  alone : ∀ i j b, p.data i = .block b → p.data j = .block b → i = j
  /-- a block was released once, or it was not and belongs to a string -/
  released : ∀ b block, p.heap[b]? = some block →
    block.released = 1 ∨ block.released = 0 ∧ ∃ i, p.data i = .block b

/-- The calls that keep the program good. -/
def Tame (p : StringProgram) : StringMove → Prop
  | .create _ data | .createWithSize _ data => data.bytes.length % 4294967296 ≠ 4294967295
  | .fileRead _ contents => contents ≠ [] ∧ contents.length + 1 < 4294967296
  | .jvalAsString _ value => value.bytes.length ≠ 4294967295
  | .reserve _ capacity => toUnsigned capacity ≠ 4294967295
  | .append i data size => ∀ s ∈ p.strings i, s.TakesAppend (IotjsString.appendSize data size)
  | .makeEmpty _ | .destroy _ => True

end StringProgram

/-- Where a block of the heap comes from: the call has made or kept it for its string, it has
released it, or the block is one of another string. -/
theorem CharHeap.Moves.blocks {h h' : CharHeap} {data data' : CharPointer}
    (hmoves : h.Moves data h' data') {b : Nat} {block' : HeapBlock} (hb : h'[b]? = some block') :
    data' = .block b ∨
      (data = .block b ∧ ∃ block, h[b]? = some block ∧ block'.released = block.released + 1) ∨
      (data ≠ .block b ∧ h[b]? = some block') := by
  -- a block that was appended is the one that the pointer has now
  have hlast : ∀ {h₁ : CharHeap} {bytes : Bytes},
      (h₁ ++ [{ bytes := bytes }] : CharHeap)[b]? = some block' → b ≠ h₁.length →
        h₁[b]? = some block' := by
    intro h₁ bytes hmem hne
    have hlt := lt_length hmem
    rw [List.length_append, List.length_singleton] at hlt
    rwa [List.getElem?_append_left (by omega)] at hmem
  have hreleased : ∀ {c : Nat}, (h.release c)[b]? = some block' →
      (CharPointer.block c = .block b ∧
        ∃ block, h[b]? = some block ∧ block'.released = block.released + 1) ∨
      (CharPointer.block c ≠ .block b ∧ h[b]? = some block') := by
    intro c hmem
    by_cases hcb : c = b
    · rw [hcb, CharHeap.release, List.getElem?_modify_eq] at hmem
      obtain ⟨block, hblock, rfl⟩ := Option.map_eq_some_iff.mp hmem
      exact Or.inl ⟨congrArg CharPointer.block hcb, block, hblock, rfl⟩
    · rw [CharHeap.release, List.getElem?_modify_ne _ _ hcb] at hmem
      exact Or.inr ⟨fun hsame => hcb (CharPointer.block.inj hsame), hmem⟩
  cases hmoves with
  | keep =>
      by_cases hdata : data = .block b
      · exact Or.inl hdata
      · exact Or.inr (Or.inr ⟨hdata, hb⟩)
  | allocate bytes =>
      by_cases hlength : b = h.length
      · exact Or.inl (congrArg CharPointer.block hlength.symm)
      · exact Or.inr (Or.inr ⟨CharPointer.noConfusion, hlast hb hlength⟩)
  | edit c f =>
      by_cases hcb : c = b
      · exact Or.inl (congrArg CharPointer.block hcb)
      · rw [CharHeap.edit, List.getElem?_modify_ne _ _ hcb] at hb
        exact Or.inr (Or.inr ⟨fun hsame => hcb (CharPointer.block.inj hsame), hb⟩)
  | reallocate c bytes =>
      by_cases hlength : b = h.length
      · exact Or.inl (congrArg CharPointer.block hlength.symm)
      · exact Or.inr (hreleased (hlast hb (by rwa [length_release])))
  | release c => exact Or.inr (hreleased hb)

namespace StringProgram

variable {p t : StringProgram} {i : Nat}

theorem data_eq {s : IotjsString} (hi : p.strings i = some s) : p.data i = s.data := by
  rw [data, hi]
  rfl

theorem data_update_self (heap : CharHeap) (x : Option IotjsString) :
    data ⟨heap, Function.update p.strings i x, none⟩ i = pointer x :=
  congrArg pointer (Function.update_self i x p.strings)

theorem data_update_of_ne (heap : CharHeap) (x : Option IotjsString) {j : Nat} (hj : j ≠ i) :
    data ⟨heap, Function.update p.strings i x, none⟩ j = p.data j :=
  congrArg pointer (Function.update_of_ne hj x p.strings)

/-- A block that a string points to is in the heap, and it was not released. -/
theorem Good.owned (hgood : p.Good) {b : Nat} (hdata : p.data i = .block b) :
    ∃ block, p.heap[b]? = some block ∧ block.released = 0 := by
  cases hi : p.strings i with
  | none =>
      rw [data, hi] at hdata
      cases hdata
  | some s =>
      rw [data_eq hi] at hdata
      obtain ⟨block, hb, hbacks⟩ := (hgood.wellFormed i s hi).backed b hdata
      exact ⟨block, hb, hbacks.live⟩

section

variable {h' : CharHeap} {x : Option IotjsString}

/-- A call leaves the blocks of the other strings alone, and takes none of them. -/
theorem Good.others (hgood : p.Good) (hmoves : p.heap.Moves (p.data i) h' (pointer x)) {j b : Nat}
    (hj : j ≠ i) (hdata : p.data j = .block b) :
    h'[b]? = p.heap[b]? ∧ pointer x ≠ .block b := by
  obtain ⟨block, hb, -⟩ := hgood.owned hdata
  have hothers := hmoves.others hb fun hsame => hj (hgood.alone _ _ _ hdata hsame)
  exact ⟨hothers.1.trans hb.symm, hothers.2⟩

theorem Good.wellFormed_update (hgood : p.Good)
    (hmoves : p.heap.Moves (p.data i) h' (pointer x)) (hx : ∀ s ∈ x, s.WellFormed h') {j : Nat}
    {s : IotjsString} (hs : Function.update p.strings i x j = some s) : s.WellFormed h' := by
  by_cases hj : j = i
  · rw [hj, Function.update_self] at hs
    exact hx s hs
  · rw [Function.update_of_ne hj] at hs
    have hwell := hgood.wellFormed j s hs
    refine { hwell with backed := fun b hdata => ?_ }
    obtain ⟨block, hb, hbacks⟩ := hwell.backed b hdata
    exact ⟨block, (hgood.others hmoves hj ((data_eq hs).trans hdata)).1.trans hb, hbacks⟩

theorem Good.alone_update (hgood : p.Good) (hmoves : p.heap.Moves (p.data i) h' (pointer x))
    {j k b : Nat} (hdata : data ⟨h', Function.update p.strings i x, none⟩ j = .block b)
    (hdata' : data ⟨h', Function.update p.strings i x, none⟩ k = .block b) : j = k := by
  have hself := data_update_self (p := p) (i := i) h' x
  by_cases hj : j = i
  · by_cases hk : k = i
    · rw [hj, hk]
    · rw [hj, hself] at hdata
      rw [data_update_of_ne h' x hk] at hdata'
      exact absurd hdata (hgood.others hmoves hk hdata').2
  · rw [data_update_of_ne h' x hj] at hdata
    by_cases hk : k = i
    · rw [hk, hself] at hdata'
      exact absurd hdata' (hgood.others hmoves hj hdata).2
    · rw [data_update_of_ne h' x hk] at hdata'
      exact hgood.alone j k b hdata hdata'

theorem Good.released_update (hgood : p.Good) (hmoves : p.heap.Moves (p.data i) h' (pointer x))
    (hx : ∀ s ∈ x, s.WellFormed h') {b : Nat} {block' : HeapBlock} (hb : h'[b]? = some block') :
    block'.released = 1 ∨ block'.released = 0 ∧
      ∃ j, data ⟨h', Function.update p.strings i x, none⟩ j = .block b := by
  rcases hmoves.blocks hb with hnew | ⟨hdata, block, hblock, hcount⟩ | ⟨hne, hblock⟩
  · -- the string of the call has it
    refine Or.inr ⟨?_, i, (data_update_self h' x).trans hnew⟩
    cases x with
    | none => cases hnew
    | some s =>
        obtain ⟨block, hsame, hbacks⟩ := (hx s rfl).backed b hnew
        obtain rfl := Option.some.inj (hb.symm.trans hsame)
        exact hbacks.live
  · -- the call has released it
    obtain ⟨live, hsame, hlive⟩ := hgood.owned hdata
    obtain rfl := Option.some.inj (hblock.symm.trans hsame)
    exact Or.inl (by rw [hcount, hlive])
  · refine (hgood.released b block' hblock).imp_right fun howned => ⟨howned.1, ?_⟩
    obtain ⟨j, hdata⟩ := howned.2
    have hj : j ≠ i := fun hsame => hne (hsame ▸ hdata)
    exact ⟨j, (data_update_of_ne h' x hj).trans hdata⟩

/-- What a call leaves good: it changes the blocks as one call does, and its own string is well
formed. -/
theorem Good.settled (hgood : p.Good) (hmoves : p.heap.Moves (p.data i) h' (pointer x))
    (hx : ∀ s ∈ x, s.WellFormed h') : Good ⟨h', Function.update p.strings i x, none⟩ where
  failure := rfl
  wellFormed _ _ hs := hgood.wellFormed_update hmoves hx hs
  alone _ _ _ hdata hdata' := hgood.alone_update hmoves hdata hdata'
  released _ _ hb := hgood.released_update hmoves hx hb

end

/-! ### The steps -/

/-- A call that comes back leaves the program good if and only if its string is well formed. -/
theorem settle_good_iff (hgood : p.Good) {tame : Prop}
    {result : Except StringFailure (CharHeap × IotjsString)}
    (hkeeps : tame → CallKeeps p.heap (p.data i) result ∨ result = .error .endless)
    (hspoils : ¬ tame → CallSpoils result)
    (hsettle : p.settle i (result.map fun made => (made.1, some made.2)) = some t) :
    t.Good ↔ tame := by
  by_cases htame : tame
  · refine iff_of_true ?_ htame
    obtain ⟨h', s, rfl, hmoves, hwell⟩ | rfl := hkeeps htame
    · obtain rfl := Option.some.inj hsettle
      refine hgood.settled (x := some s) hmoves fun u hu => ?_
      obtain rfl := Option.some.inj hu
      exact hwell
    · cases hsettle
  · refine iff_of_false (fun hgood' => ?_) htame
    cases result with
    | error failure =>
        have hfailure : t.failure = some failure := by
          cases failure with
          | endless => cases hsettle
          | aborted | outOfBounds | emptyString | released =>
              obtain rfl := Option.some.inj hsettle
              rfl
        exact Option.some_ne_none _ (hfailure.symm.trans hgood'.failure)
    | ok made =>
        obtain rfl := Option.some.inj hsettle
        exact hspoils htame made.1 made.2 rfl
          (hgood'.wellFormed i made.2 (Function.update_self i (some made.2) p.strings))

theorem make_good_iff (hgood : p.Good) {tame : Prop}
    {result : Except StringFailure (CharHeap × IotjsString)}
    (hkeeps : tame → CallKeeps p.heap .iotjsEmptyString result)
    (hspoils : ¬ tame → CallSpoils result) (hmake : p.make i result = some t) :
    t.Good ↔ tame := by
  unfold make at hmake
  split at hmake
  · cases hmake
  · rename_i hnone
    have hdata : p.data i = .iotjsEmptyString :=
      congrArg pointer (Option.not_isSome_iff_eq_none.mp hnone)
    exact settle_good_iff hgood (fun htame => Or.inl (hdata ▸ hkeeps htame)) hspoils hmake

theorem change_good_iff (hgood : p.Good) {tame : Prop}
    {call : IotjsString → Except StringFailure (CharHeap × IotjsString)}
    (hkeeps : ∀ s ∈ p.strings i, s.WellFormed p.heap → tame →
      CallKeeps p.heap s.data (call s) ∨ call s = .error .endless)
    (hspoils : ∀ s ∈ p.strings i, s.WellFormed p.heap → ¬ tame → CallSpoils (call s))
    (hchange : p.change i call = some t) : t.Good ↔ tame := by
  obtain ⟨s, hi, hsettle⟩ := Option.bind_eq_some_iff.mp hchange
  have hwell := hgood.wellFormed i s hi
  refine settle_good_iff hgood (fun htame => ?_) (hspoils s hi hwell) hsettle
  rw [data_eq hi]
  exact hkeeps s hi hwell htame

variable {fresh : Nat → Nat → UInt8}

theorem destroy_good (hgood : p.Good) (hstep : p.stepMove fresh (.destroy i) = some t) :
    t.Good := by
  obtain ⟨s, hi, hsettle⟩ := Option.bind_eq_some_iff.mp hstep
  obtain ⟨h', hdestroy, hmoves⟩ := IotjsString.destroy_moves p.heap s
  rw [hdestroy] at hsettle
  obtain rfl := Option.some.inj hsettle
  rw [← data_eq hi] at hmoves
  exact hgood.settled (x := none) hmoves fun u hu => by cases hu

theorem step_good_iff {move : StringMove} (hgood : p.Good) (hstep : step fresh p move = some t) :
    t.Good ↔ p.Tame move := by
  rw [step, hgood.failure] at hstep
  cases move with
  | create i data =>
      refine make_good_iff hgood ?_ ?_ hstep
      · intro htame
        rw [IotjsString.create_eq _ data.nulFree]
        exact IotjsString.createWithSize_keeps _ data.nulFree htame
      · intro htame
        rw [IotjsString.create_eq _ data.nulFree]
        exact IotjsString.createWithSize_spoils _ data.nulFree (not_not.mp htame)
  | createWithSize i data =>
      refine make_good_iff hgood ?_ ?_ hstep
      · exact IotjsString.createWithSize_keeps _ data.nulFree
      · exact fun htame => IotjsString.createWithSize_spoils _ data.nulFree (not_not.mp htame)
  | fileRead i contents =>
      refine make_good_iff hgood ?_ ?_ hstep
      · exact fun htame => IotjsString.fileRead_keeps _ htame.1 htame.2
      · intro htame
        refine IotjsString.fileRead_spoils _ ?_
        by_cases hnil : contents = []
        · exact Or.inl hnil
        · exact Or.inr (Nat.not_lt.mp fun hlt => htame ⟨hnil, hlt⟩)
  | jvalAsString i value =>
      have hlt := value.size_lt
      refine make_good_iff hgood ?_ ?_ hstep
      · exact fun (htame : value.bytes.length ≠ 4294967295) =>
          IotjsString.jvalAsString_keeps _ (by omega)
      · exact fun htame => IotjsString.jvalAsString_spoils _ (not_not.mp htame)
  | reserve i capacity =>
      refine change_good_iff hgood ?_ ?_ hstep
      · exact fun s _ hwell htame => Or.inl (IotjsString.reserve_keeps hwell htame)
      · exact fun s _ hwell htame => IotjsString.reserve_spoils hwell (not_not.mp htame)
  | append i data size =>
      refine change_good_iff hgood ?_ ?_ hstep
      · exact fun s hs hwell htame => IotjsString.append_keeps hwell (htame s hs)
      · intro s hs hwell htame
        refine IotjsString.append_spoils hwell fun htakes => htame fun u hu => ?_
        obtain rfl := Option.some.inj (hs.symm.trans hu)
        exact htakes
  | makeEmpty i =>
      refine change_good_iff hgood ?_ ?_ hstep
      · exact fun s _ hwell _ => Or.inl (IotjsString.makeEmpty_keeps hwell)
      · exact fun s _ _ htame => absurd trivial htame
  | destroy i =>
      have hdestroy : p.stepMove fresh (.destroy i) = some t := hstep
      exact iff_of_true (destroy_good hgood hdestroy) trivial

theorem good_new : Good new where
  failure := rfl
  wellFormed _ _ hs := by cases hs
  alone _ _ _ hdata := by cases hdata
  released _ _ hb := by cases hb

/-- In every run, the program is good all along if and only if every call is tame. -/
theorem good_along_strings_iff (fresh : Nat → Nat → UInt8) {moves : List StringMove}
    {p : StringProgram} (hrun : Runs.run (step fresh) new moves = some p) :
    Runs.Along (step fresh) Good new moves ↔ Runs.Meets (step fresh) Tame new moves :=
  Runs.along_iff (I := fun _ => True)
    (fun _ _ _ _ hgood hstep => ⟨trivial, step_good_iff hgood hstep⟩) trivial good_new hrun

instance (p : StringProgram) : (move : StringMove) → Decidable (p.Tame move)
  | .create _ _ | .createWithSize _ _ | .jvalAsString _ _ | .reserve _ _ =>
      inferInstanceAs (Decidable (_ ≠ _))
  | .fileRead _ _ => inferInstanceAs (Decidable (_ ∧ _))
  | .append _ _ _ => inferInstanceAs (Decidable (∀ s ∈ _, _))
  | .makeEmpty _ | .destroy _ => .isTrue trivial

/-- A string of the engine is made longer, and destroyed. -/
theorem good_along_strings_append : Runs.Along (step fun _ _ => 7) Good new
    [.jvalAsString 0 ⟨[104, 105], by decide⟩, .append 0 [33] 1, .destroy 0] := by
  have hrun : Runs.run (step fun _ _ => 7) new
      [.jvalAsString 0 ⟨[104, 105], by decide⟩, .append 0 [33] 1, .destroy 0] = some _ := rfl
  exact (good_along_strings_iff _ hrun).mpr (by decide +kernel)

/-- An empty file is read into a string, and the assertion of `append` about it fails. -/
theorem fileRead_empty_aborts :
    (∃ p, Runs.run (step fun _ _ => 7) new [.fileRead 0 []] = some p ∧
      p.strings 0 = some ⟨0, 0, .block 0⟩ ∧ ¬ p.Good) ∧
    ∃ p, Runs.run (step fun _ _ => 7) new [.fileRead 0 [], .append 0 [65] 1] = some p ∧
      p.failure = some .aborted := by
  refine ⟨⟨_, rfl, rfl, fun hgood => ?_⟩, ⟨_, rfl, rfl⟩⟩
  have hwell := hgood.wellFormed 0 ⟨0, 0, .block 0⟩ rfl
  exact CharPointer.noConfusion (hwell.cap_eq_zero_iff.mp rfl)

end StringProgram

end IotJs

import IotJs.Proofs.BufferRuns

/-!
# `IotJs.Proofs.BufferCopy`: what `copy` copies

The native loop goes forward over both Buffers. Between two of them every byte arrives as it was;
within one Buffer a byte that is copied to a higher place may be read again when its turn comes
(`copyLoop_self`). `copies_iff` says for which Buffers and indices the target holds the source as it
was before the call.
-/

set_option autoImplicit false

namespace IotJs

open FsRange (Number)
open Buffer (Failure)

namespace BufferHeap

section

variable (T : BufferTarget) (h : BufferHeap) (this target : Nat)
variable (targetStart sourceStart sourceEnd : Option Number)

/-- The bytes of the range are at the target, and nothing else has changed. -/
structure Copied (range : CopyRange) (h' : BufferHeap) : Prop where
  copied : ∀ k < range.count,
    (h'.wrap target).block[range.target + k]? = (h.wrap this).block[range.source + k]?
  outside : ∀ k, k < range.target ∨ range.target + range.count ≤ k →
    (h'.wrap target).block[k]? = (h.wrap target).block[k]?
  others : ∀ r, r ≠ target → h'.wrap r = h.wrap r

/-- A `RangeError`, or the bytes are copied and counted. -/
def Copies : Prop :=
  let range := h.copyRange this target targetStart sourceStart sourceEnd
  (∃ message, h.copy T this target targetStart sourceStart sourceEnd =
      .error (.rangeError message)) ∨
    ∃ h', h.copy T this target targetStart sourceStart sourceEnd = .ok (range.count, h') ∧
      Copied h this target range h'

/-- The condition of the `RangeError`. -/
def OutOfRange : Prop :=
  argument sourceEnd (h.wrap this).length > argument sourceStart 0 ∧ argument targetStart 0 < 0

/-- The native side has both lengths as they are, and a copy within one Buffer does not go upwards,
or over bytes that repeat themselves with its distance. -/
structure Copyable : Prop where
  this_lt : (h.wrap this).length < 2147483648
  target_lt : (h.wrap target).length < 2147483648
  forward : this = target →
    let range := h.copyRange this target targetStart sourceStart sourceEnd
    range.target ≤ range.source ∨
      ForwardCopy.Periodic range.count range.source range.target (h.wrap target).block

end

variable {T : BufferTarget} {h : BufferHeap} {this target : Nat}
variable {targetStart sourceStart sourceEnd : Option Number}

theorem copied_other (hne : this ≠ target) (hbuffer : target < h.length) (range : CopyRange)
    (hsource : range.source + range.count ≤ (h.wrap this).block.length)
    (htarget : range.target + range.count ≤ (h.wrap target).block.length) :
    Copied h this target range
      (copyLoop this target range.count range.source range.target 0 h).2 := by
  have hbytes : (((h.wrap this).block.drop range.source).take range.count).length =
      range.count := by
    rw [List.length_take, List.length_drop]
    omega
  rw [copyLoop_other hne hbuffer 0 hsource htarget]
  dsimp only
  refine ⟨fun k hk => ?_, fun k hk => ?_, fun r hr => wrap_edit_ne hr⟩
  · rw [wrap_edit_self hbuffer]
    dsimp only
    rw [getElem?_splice_inside hbytes htarget hk, List.getElem?_take_of_lt hk, List.getElem?_drop]
  · rw [wrap_edit_self hbuffer]
    exact getElem?_splice_outside hbytes htarget hk

theorem copied_self_iff (hbuffer : target < h.length) (range : CopyRange)
    (hsource : range.source + range.count ≤ (h.wrap target).block.length)
    (htarget : range.target + range.count ≤ (h.wrap target).block.length) :
    Copied h target target range
        (copyLoop target target range.count range.source range.target 0 h).2 ↔
      range.target ≤ range.source ∨
        ForwardCopy.Periodic range.count range.source range.target (h.wrap target).block := by
  rw [copyLoop_self hbuffer 0 hsource htarget, ← ForwardCopy.copy_faithful_iff hsource htarget]
  have hblock : ((h.edit target (ForwardCopy.copy range.count range.source
      range.target)).wrap target).block =
        ForwardCopy.copy range.count range.source range.target (h.wrap target).block := by
    rw [wrap_edit_self hbuffer]
  constructor
  · intro hcopied k hk
    rw [← hblock]
    exact hcopied.copied k hk
  · intro hfaithful
    refine ⟨fun k hk => ?_, fun k hk => ?_, fun r hr => wrap_edit_ne hr⟩
    · rw [hblock]
      exact hfaithful k hk
    · rw [hblock]
      exact ForwardCopy.getElem?_copy_outside hk

/-- Between two Buffers, or within one, all of the range is copied. -/
theorem copyLoop_eq (hbuffer : target < h.length) (range : CopyRange)
    (hsource : range.source + range.count ≤ (h.wrap this).block.length)
    (htarget : range.target + range.count ≤ (h.wrap target).block.length) :
    ∃ h', copyLoop this target range.count range.source range.target 0 h = (range.count, h') ∧
      (Copied h this target range h' ↔ (this = target → range.target ≤ range.source ∨
        ForwardCopy.Periodic range.count range.source range.target (h.wrap target).block)) := by
  -- within one Buffer the loop may read what it has written
  by_cases heq : this = target
  · subst heq
    have hself := copied_self_iff hbuffer range hsource htarget
    rw [copyLoop_self hbuffer 0 hsource htarget, Nat.zero_add] at hself ⊢
    exact ⟨_, rfl, by rw [hself, forall_prop_of_true rfl]⟩
  · have hother := copied_other heq hbuffer range hsource htarget
    rw [copyLoop_other heq hbuffer 0 hsource htarget, Nat.zero_add] at hother ⊢
    exact ⟨_, rfl, iff_of_true hother fun hthis => absurd hthis heq⟩

theorem copy_of_outOfRange (hbuffer : target < h.length)
    (hrange : OutOfRange h this targetStart sourceStart sourceEnd) :
    h.copy T this target targetStart sourceStart sourceEnd =
      .error (.rangeError "Attempt to write outside buffer bounds") :=
  (copy_of_isBuffer hbuffer ..).trans (if_pos hrange)

theorem copy_of_inRange (hbuffer : target < h.length)
    (hrange : ¬ OutOfRange h this targetStart sourceStart sourceEnd) :
    h.copy T this target targetStart sourceStart sourceEnd =
      h.Copy T this target (argument targetStart 0) (argument sourceStart 0)
        (argument sourceEnd (h.wrap this).length) :=
  (copy_of_isBuffer hbuffer ..).trans (if_neg hrange)

theorem copy_aborts_of_large (hw : h.WellFormed) (hbuffer : target < h.length)
    (hrange : ¬ OutOfRange h this targetStart sourceStart sourceEnd)
    (hlarge : ¬ ((h.wrap this).length < 2147483648 ∧ (h.wrap target).length < 2147483648)) :
    h.copy T this target targetStart sourceStart sourceEnd = .error .aborted := by
  have haborts : ∀ r, ¬ (h.wrap r).length < 2147483648 →
      bufferwrapLength (h.wrap r) = .error .aborted := fun r hr =>
    bufferwrapLength_aborts (hw r) fun hsound => hr ((hw r).sound_iff.mp hsound)
  rw [copy_of_inRange hbuffer hrange, Copy]
  by_cases htarget : (h.wrap target).length < 2147483648
  · have hthis : ¬ (h.wrap this).length < 2147483648 := fun hthis => hlarge ⟨hthis, htarget⟩
    rw [bufferwrapLength_sound ((hw target).sound htarget), haborts this hthis]
    rfl
  · rw [haborts target htarget]
    rfl

/-- For all Buffers of a program and all arguments, `copy` throws a `RangeError` or copies the bytes
as they were if and only if the arguments are out of range or `Copyable`. -/
theorem copies_iff (hw : h.WellFormed) (hbuffer : target < h.length)
    (targetStart sourceStart sourceEnd : Option Number) :
    Copies T h this target targetStart sourceStart sourceEnd ↔
      OutOfRange h this targetStart sourceStart sourceEnd ∨
        Copyable h this target targetStart sourceStart sourceEnd := by
  by_cases hrange : OutOfRange h this targetStart sourceStart sourceEnd
  · exact iff_of_true (.inl ⟨_, copy_of_outOfRange hbuffer hrange⟩) (.inl hrange)
  · rw [or_iff_right hrange]
    by_cases hsmall : (h.wrap this).length < 2147483648 ∧ (h.wrap target).length < 2147483648
    · obtain ⟨hthis, htarget⟩ := hsmall
      have hsound := (hw this).sound hthis
      have hcopy : h.copy T this target targetStart sourceStart sourceEnd = _ :=
        copy_eq hbuffer hsound ((hw target).sound htarget) ..
      obtain ⟨h', hloop, hcopied⟩ := copyLoop_eq hbuffer
        (h.copyRange this target targetStart sourceStart sourceEnd)
        (copyRange_source_le ..) (copyRange_target_le ..)
      rw [if_neg (hsound.length ▸ hrange)] at hcopy
      dsimp only at hcopy
      rw [hloop] at hcopy
      constructor
      · rintro (⟨message, hthrown⟩ | ⟨h'', hresult, hcopied'⟩)
        · cases hcopy.symm.trans hthrown
        · cases hcopy.symm.trans hresult
          exact ⟨hthis, htarget, hcopied.mp hcopied'⟩
      · rintro ⟨-, -, hforward⟩
        exact .inr ⟨h', hcopy, hcopied.mpr hforward⟩
    · have habort : h.copy T this target targetStart sourceStart sourceEnd = .error .aborted :=
        copy_aborts_of_large hw hbuffer hrange hsmall
      refine iff_of_false ?_ fun hcopyable => hsmall ⟨hcopyable.this_lt, hcopyable.target_lt⟩
      rintro (⟨message, hthrown⟩ | ⟨h', hresult, -⟩)
      · cases habort.symm.trans hthrown
      · cases habort.symm.trans hresult

theorem copies_downwards :
    Copies (.ascii true) [⟨4, [1, 2, 3, 4]⟩] 0 0 none (some (.int 1)) none := by
  refine (copies_iff (wellFormed_of_mem (by decide)) (by decide) ..).mpr
    (.inr ⟨by decide, by decide, fun _ => .inl ?_⟩)
  decide +kernel

/-- Three bytes are copied one place upwards: the first one arrives three times. -/
theorem copy_upwards_repeats :
    ¬ Copies (.ascii true) [⟨4, [1, 2, 3, 4]⟩] 0 0 (some (.int 1)) none (some (.int 3)) := by
  have hcopy : BufferHeap.copy (.ascii true) [⟨4, [1, 2, 3, 4]⟩] 0 0 (some (.int 1)) none
      (some (.int 3)) = .ok (3, [⟨4, [1, 1, 1, 1]⟩]) := by decide +kernel
  rintro (⟨message, hthrown⟩ | ⟨h', hresult, hcopied⟩)
  · cases hcopy.symm.trans hthrown
  · cases hcopy.symm.trans hresult
    exact absurd (hcopied.copied 1 (by decide +kernel)) (by decide +kernel)

end BufferHeap

end IotJs

import IotJs.Proofs.BufferRuns

/-!
# `IotJs.Proofs.BufferAssertions`: which calls fail an assertion

The assertions are about three things: the two lengths of a Buffer (`iotjs_bufferwrap_length`), a
length that is not below zero (`Slice` and `ToString`), and the data of a string, which is not to be
`NULL` (`iotjs_string_create_with_size`). The first goes wrong where a length is no `int`, and the
last for a Buffer without bytes, which has no block. `Tame` are the other calls, and
`good_along_iff` says that a run meets with no failed assertion and with no two different lengths if
and only if all of its calls are tame.
-/

set_option autoImplicit false

namespace IotJs

open FsRange (Number)
open Buffer (Failure)

namespace BufferHeap

/-- A call fails no assertion, and both lengths of every Buffer are the same after it. -/
inductive Holds : Except Failure BufferHeap → Prop
  | ok {h : BufferHeap} : h.Sound → Holds (.ok h)
  | thrown {e : Failure} : e ≠ .aborted → Holds (.error e)

variable {T : BufferTarget} {h h' : BufferHeap} {this target : Nat}

theorem Holds.sound (hholds : Holds (.ok h)) : h.Sound := by
  cases hholds with
  | ok hs => exact hs

theorem not_holds_aborted : ¬ Holds (.error .aborted) := by
  intro hholds
  cases hholds with
  | thrown hne => exact hne rfl

/-- Two calls, one after the other. -/
theorem Holds.bind {α β : Type} {call : Except Failure α} {next : α → Except Failure β}
    {f : α → BufferHeap} {g : β → BufferHeap} (hcall : Holds (call.map f))
    (hnext : ∀ a, (f a).Sound → Holds ((next a).map g)) : Holds ((call >>= next).map g) := by
  cases call with
  | error e =>
      cases hcall with
      | thrown hne => exact .thrown hne
  | ok a => exact hnext a hcall.sound

/-! ### Calls that make a Buffer -/

theorem create_holds_iff (hs : h.Sound) (length : Nat) :
    Holds ((h.create T length).map Prod.snd) ↔ length < 2147483648 := by
  constructor
  · intro hholds
    rcases create_cases T h length with hcreate | ⟨w, hw, rfl, hcreate⟩
    · rw [hcreate] at hholds
      exact absurd hholds not_holds_aborted
    · rw [hcreate] at hholds
      have hnew := hholds.sound h.length
      rw [wrap_push_self] at hnew
      exact hw.sound_iff.mp hnew
  · intro hlt
    rw [create_eq hlt]
    exact .ok (forall_push hs (sound_created hlt))

theorem newNumber_holds_iff (hs : h.Sound) (size : Number) :
    Holds ((h.newNumber T size).map Prod.snd) ↔ newSize size < 2147483648 :=
  create_holds_iff hs (newSize size)

theorem newBuffer_holds (hs : h.Sound) (subject : Nat) :
    Holds ((h.newBuffer T subject).map Prod.snd) := by
  by_cases hbuffer : subject < h.length
  · rw [newBuffer_eq hbuffer (hs subject)]
    exact .ok (forall_push hs (hs subject))
  · rw [newBuffer, if_pos (not_isBuffer_iff.mpr hbuffer)]
    exact .thrown (by decide)

/-! ### Calls that write to a Buffer -/

theorem Sound.copyLoop (hs : h.Sound) (this target n i j copied : Nat) :
    (copyLoop this target n i j copied h).2.Sound := by
  induction n generalizing i j copied h with
  | zero => exact hs
  | succ n ih =>
      rw [BufferHeap.copyLoop]
      split
      · exact ih (Sound.edit (f := fun block => block.set j _) hs List.length_set) _ _ _
      · exact hs

theorem copy_holds (hs : h.Sound) (this target : Nat)
    (targetStart sourceStart sourceEnd : Option Number) :
    Holds ((h.copy T this target targetStart sourceStart sourceEnd).map Prod.snd) := by
  by_cases hbuffer : target < h.length
  · rw [copy_eq hbuffer (hs this) (hs target)]
    split
    · exact .thrown (by decide)
    · exact .ok (hs.copyLoop this target _ _ _ _)
  · rw [copy, if_pos (not_isBuffer_iff.mpr hbuffer)]
    exact .thrown (by decide)

theorem write_holds (hs : h.Sound) (this : Nat) (string : String)
    (offset length : Option Number) :
    Holds ((h.write T this string offset length).map Prod.snd) := by
  rw [write]
  simp only
  split
  · exact .thrown (by decide)
  · rw [Write, bufferwrapLength_sound (hs this)]
    exact .ok (Sound.edit (f := fun block => (Buffer.copyInternal block _ _ _ _).1) hs
      (length_copyInternal ..))

theorem concatLoop_holds (hs : h.Sound) (buffer : Nat) (list : List Nat) (pos : Nat) :
    Holds ((concatLoop T buffer list pos h).map id) := by
  induction list generalizing pos h with
  | nil => exact .ok hs
  | cons r list ih =>
      rw [concatLoop]
      exact (copy_holds hs r buffer (some (.int pos)) none none).bind fun _ hs' => ih hs' _

/-! ### Calls that ask for a length that is no `int` -/

theorem write_aborts (hthis : (h.wrap this).WellFormed) (hlarge : 2147483648 ≤ (h.wrap this).length)
    (string : String) : h.write T this string none none = .error .aborted := by
  have hunsound : ¬ (h.wrap this).Sound := fun hsound =>
    Nat.not_le.mpr (hthis.sound_iff.mp hsound) hlarge
  have hinside : ¬(T.stringLength string > 0 ∧
      (argument none 0 < 0 ∨ argument none 0 ≥ ((h.wrap this).length : Int))) := by
    rintro ⟨-, hneg | hfull⟩
    · exact absurd hneg (by decide)
    · have hzero : argument none 0 = 0 := rfl
      omega
  rw [write]
  simp only
  rw [if_neg hinside, Write, bufferwrapLength_aborts hthis hunsound]
  rfl

theorem copy_aborts (hbuffer : target < h.length) (htarget : (h.wrap target).WellFormed)
    (hlarge : 2147483648 ≤ (h.wrap target).length) :
    h.copy T this target (some (.int (0 : Nat))) none none = .error .aborted := by
  have hunsound : ¬ (h.wrap target).Sound := fun hsound =>
    Nat.not_le.mpr (htarget.sound_iff.mp hsound) hlarge
  have hstart : argument (some (.int (0 : Nat))) 0 = 0 := argument_int (by decide) 0
  rw [copy_of_isBuffer hbuffer, hstart, if_neg fun hthrown => absurd hthrown.2 (by decide), Copy,
    bufferwrapLength_aborts htarget hunsound]
  rfl

/-- A Buffer that is made of a length that is no `int` fails the first call that asks for it. -/
theorem aborts_of_create {length : Nat}
    {f : Nat × BufferHeap → Except Failure (Nat × BufferHeap)}
    (hf : ∀ h' : BufferHeap, (h'.wrap h.length).WellFormed → (h'.wrap h.length).length = length →
      h.length < h'.length → f (h.length, h') = .error .aborted) :
    (h.create T length >>= f) = .error .aborted := by
  rcases create_cases T h length with hcreate | ⟨w, hw, hlength, hcreate⟩
  · rw [hcreate]
    rfl
  · have hnew : BufferHeap.wrap (h ++ [w]) h.length = w := wrap_push_self w
    rw [hcreate]
    exact hf (h ++ [w]) (hnew.symm ▸ hw) (hnew.symm ▸ hlength) (by simp)

/-- The call that makes a Buffer decides for one that fills it afterwards. -/
theorem holds_iff_of_create {length : Nat}
    {f : Nat × BufferHeap → Except Failure (Nat × BufferHeap)} (hs : h.Sound)
    (hfills : ∀ h' : BufferHeap, h'.Sound → Holds ((f (h.length, h')).map Prod.snd))
    (hlarge : 2147483648 ≤ length → (h.create T length >>= f) = .error .aborted) :
    Holds ((h.create T length >>= f).map Prod.snd) ↔ length < 2147483648 := by
  constructor
  · intro hholds
    by_contra hge
    rw [hlarge (Nat.not_lt.mp hge)] at hholds
    exact not_holds_aborted hholds
  · intro hlt
    rw [create_eq hlt]
    exact hfills _ (forall_push hs (sound_created hlt))

theorem newString_aborts {string : String} (hlarge : 2147483648 ≤ T.stringLength string) :
    h.newString T string = .error .aborted := by
  refine aborts_of_create fun h' hw hlength _ => ?_
  have habort := write_aborts (T := T) hw (hlength.symm ▸ hlarge) string
  show (BufferHeap.write T h' h.length string none none >>= fun _ => _) = _
  rw [habort]
  rfl

theorem newString_holds_iff (hs : h.Sound) (string : String) :
    Holds ((h.newString T string).map Prod.snd) ↔ T.stringLength string < 2147483648 :=
  holds_iff_of_create hs
    (fun _ hs' => (write_holds hs' h.length string none none).bind fun _ hs'' => .ok hs'')
    newString_aborts

/-- The first copy fails, and there is one where the total is no `int`. -/
theorem concatLoop_aborts {list : List Nat} {buffer : Nat} (hbuffer : buffer < h.length)
    (hw : (h.wrap buffer).WellFormed) (hlarge : 2147483648 ≤ (h.wrap buffer).length)
    (hne : list ≠ []) : concatLoop T buffer list 0 h = .error .aborted := by
  obtain ⟨r, rest, rfl⟩ := List.exists_cons_of_ne_nil hne
  rw [concatLoop, copy_aborts hbuffer hw hlarge]
  rfl

theorem concat_holds_iff (hs : h.Sound) (list : List Nat) :
    Holds ((h.concat T list).map Prod.snd) ↔
      (list.all h.isBuffer = true → h.totalLength list % 4294967296 < 2147483648) := by
  by_cases hbuffers : list.all h.isBuffer = true
  · have hno : ¬ (!list.all h.isBuffer) = true := by rw [hbuffers]; decide
    rw [concat, if_neg hno, forall_prop_of_true hbuffers, ← newSize_int]
    refine holds_iff_of_create hs (fun h' hs' => ?_) fun hlarge => ?_
    · exact (concatLoop_holds hs' h.length list 0).bind fun _ hs'' => .ok hs''
    · have hne : list ≠ [] := by
        rintro rfl
        have hzero : newSize (.int (h.totalLength [])) = 0 := newSize_int 0
        exact absurd (Nat.le_trans hlarge (Nat.le_of_eq hzero)) (by decide)
      refine aborts_of_create fun h' hw hlength hlt => ?_
      have habort := concatLoop_aborts (T := T) hlt hw (hlength.symm ▸ hlarge) hne
      show (concatLoop T h.length list 0 h' >>= fun _ => _) = _
      rw [habort]
      rfl
  · have hno : (!list.all h.isBuffer) = true := by
      rw [Bool.not_eq_true', Bool.eq_false_iff]
      exact hbuffers
    rw [concat, if_pos hno]
    exact iff_of_true (.thrown (by decide)) fun hall => absurd hall hbuffers

/-! ### Calls that read -/

theorem slice_holds (hs : h.Sound) (hbuffer : this < h.length) (first last : Option Number) :
    Holds ((h.slice T this first last).map Prod.snd) := by
  rw [slice_eq hbuffer (hs this)]
  exact .ok (forall_push hs ⟨rfl, Nat.lt_of_le_of_lt (length_sliceBytes_le ..) (hs this).lt⟩)

theorem toString_holds_iff (hs : h.Sound) (this : Nat) (first last : Option Number) :
    Holds ((h.toString T this first last).map fun _ => h) ↔ 0 < (h.wrap this).length := by
  rw [toString_eq (hs this), (hs this).length, List.length_pos_iff]
  simp only
  split
  · rename_i hempty
    exact iff_of_false not_holds_aborted fun hne => hne hempty
  · rename_i hne
    exact iff_of_true (.ok hs) hne

/-- The comparisons ask for no length. -/
theorem compare_holds (hs : h.Sound) (this other : Nat) :
    Holds ((h.compare T this other).map fun _ => h) := by
  rw [compare]
  split
  · exact .thrown (by decide)
  · exact .ok hs

theorem equals_holds (hs : h.Sound) (this other : Nat) :
    Holds ((h.equals T this other).map fun _ => h) := by
  rw [equals]
  split
  · exact .thrown (by decide)
  · exact .ok hs

end BufferHeap

/-! ### Runs -/

/-- The calls that fail no assertion: an `int` holds the length of the Buffer that they make, and
`toString` is called on a Buffer that has bytes. -/
def BufferCall.Tame (T : BufferTarget) (s : Buffers) : BufferCall → Prop
  | newNumber size => BufferHeap.newSize size < 2147483648
  | newString string => T.stringLength string < 2147483648
  | concat list => list.all s.heap.isBuffer = true →
      s.heap.totalLength list % 4294967296 < 2147483648
  | toString this _ _ => 0 < (s.heap.wrap this).length
  | _ => True

instance (T : BufferTarget) (s : Buffers) (call : BufferCall) : Decidable (call.Tame T s) := by
  cases call <;> unfold BufferCall.Tame <;> infer_instance

theorem BufferCall.run_holds_iff {T : BufferTarget} {s : Buffers} (hs : s.heap.Sound)
    (call : BufferCall) (hreceiver : ∀ this ∈ call.receiver, s.heap.isBuffer this) :
    BufferHeap.Holds (call.run T s.heap) ↔ call.Tame T s := by
  unfold BufferCall.run BufferCall.Tame
  cases call with
  | newNumber size => exact BufferHeap.newNumber_holds_iff hs size
  | newString string => exact BufferHeap.newString_holds_iff hs string
  | newBuffer subject => exact iff_of_true (BufferHeap.newBuffer_holds hs subject) trivial
  | concat list => exact BufferHeap.concat_holds_iff hs list
  | copy this target targetStart sourceStart sourceEnd =>
      exact iff_of_true (BufferHeap.copy_holds hs this target ..) trivial
  | write this string offset length =>
      exact iff_of_true (BufferHeap.write_holds hs this string offset length) trivial
  | slice this first last =>
      have hbuffer := BufferHeap.isBuffer_iff.mp (hreceiver this rfl)
      exact iff_of_true (BufferHeap.slice_holds hs hbuffer first last) trivial
  | toString this first last => exact BufferHeap.toString_holds_iff hs this first last
  | compare this other => exact iff_of_true (BufferHeap.compare_holds hs this other) trivial
  | equals this other => exact iff_of_true (BufferHeap.equals_holds hs this other) trivial

namespace Buffers

/-- No assertion has failed, and both lengths of every Buffer are the same. -/
structure Good (s : Buffers) : Prop where
  running : s.aborted = false
  lengths : ∀ r, (s.heap.wrap r).length = (s.heap.wrap r).block.length

theorem good_new : new.Good := ⟨rfl, fun r => (BufferHeap.sound_nil r).length⟩

theorem Good.sound {s : Buffers} (hgood : s.Good) (hw : s.heap.WellFormed) : s.heap.Sound :=
  fun r => ⟨hgood.lengths r, (hw r).lt⟩

theorem step_good_iff {T : BufferTarget} {s t : Buffers} {call : BufferCall}
    (hw : s.heap.WellFormed) (hgood : s.Good) (hstep : s.step T call = some t) :
    t.Good ↔ call.Tame T s := by
  have hs := hgood.sound hw
  have hwt := (step_changes hstep).wellFormed hw
  unfold step at hstep
  split at hstep
  · cases hstep
  · rename_i hcalls
    have hreceiver : ∀ this ∈ call.receiver, s.heap.isBuffer this := by
      intro this hthis
      by_contra hno
      exact hcalls (.inr ⟨this, hthis, hno⟩)
    rw [← call.run_holds_iff hs hreceiver]
    cases hrun : call.run T s.heap with
    | ok heap =>
        rw [hrun] at hstep
        cases hstep
        exact ⟨fun hgood' => .ok (hgood'.sound hwt),
          fun hholds => ⟨hgood.running, fun r => (hholds.sound r).length⟩⟩
    | error e =>
        rw [hrun] at hstep
        by_cases haborted : e = .aborted
        · subst haborted
          cases hstep
          exact iff_of_false (fun hgood' => Bool.noConfusion hgood'.running)
            BufferHeap.not_holds_aborted
        · have hsame : t = s := by
            cases e with
            | aborted => exact absurd rfl haborted
            | typeError message | rangeError message => cases hstep; rfl
          rw [hsame]
          exact iff_of_true hgood (.thrown haborted)

end Buffers

end IotJs

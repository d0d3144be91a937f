import IotJs.Lib.Runs
import IotJs.Proofs.BufferHeap

/-!
# `IotJs.Proofs.BufferRuns`: what a run of calls leaves alone

A call writes to one Buffer at most of those that are there: the target of a `copy`, the receiver of
a `write`, and none otherwise (`run_changes`). So a Buffer stays as it is in every run in which no
call writes to it (`spared_of_reach`), and every Buffer of every run is well formed
(`wellFormed_of_reach`).
-/

set_option autoImplicit false

namespace IotJs

open FsRange (Number)
open Buffer (Failure)

/-- The Buffer that a call writes to. -/
def BufferCall.written : BufferCall → Option Nat
  | copy _ target .. => some target
  | write this .. => some this
  | _ => none

namespace BufferHeap

/-- From `h` to `h'`, no Buffer has gone, and none but one has changed. -/
structure Changes (written : Option Nat) (h h' : BufferHeap) : Prop where
  length_le : h.length ≤ h'.length
  wrap : ∀ r < h.length, written ≠ some r → h'.wrap r = h.wrap r
  wellFormed : h.WellFormed → h'.WellFormed

variable {T : BufferTarget} {written : Option Nat} {h h' h'' : BufferHeap}
variable {this target : Nat}

theorem Changes.refl (written : Option Nat) (h : BufferHeap) : Changes written h h :=
  ⟨Nat.le_refl _, fun _ _ _ => rfl, id⟩

theorem Changes.trans (hfirst : Changes written h h') (hnext : Changes written h' h'') :
    Changes written h h'' where
  length_le := Nat.le_trans hfirst.length_le hnext.length_le
  wrap r hr hne :=
    (hnext.wrap r (Nat.lt_of_lt_of_le hr hfirst.length_le) hne).trans (hfirst.wrap r hr hne)
  wellFormed hw := hnext.wellFormed (hfirst.wellFormed hw)

theorem changes_edit {f : Bytes → Bytes}
    (hf : (f (h.wrap this).block).length = (h.wrap this).block.length) :
    Changes (some this) h (h.edit this f) where
  length_le := Nat.le_of_eq (length_edit h this f).symm
  wrap _ _ hne := wrap_edit_ne fun heq => hne (congrArg some heq.symm)
  wellFormed hw := hw.edit hf

theorem changes_copyLoop (this target n i j copied : Nat) (h : BufferHeap) :
    Changes (some target) h (copyLoop this target n i j copied h).2 := by
  induction n generalizing i j copied h with
  | zero => exact .refl _ h
  | succ n ih =>
      rw [copyLoop]
      split
      · exact (changes_edit List.length_set).trans (ih ..)
      · exact .refl _ h

/-- What is done to a new Buffer is done to none that was there. -/
theorem Changes.of_push {w : BufferWrap} (hw : w.WellFormed)
    (hnew : Changes (some h.length) (h ++ [w]) h') : Changes none h h' where
  length_le := by
    have hle := hnew.length_le
    rw [List.length_append] at hle
    exact Nat.le_of_add_right_le hle
  wrap r hr _ := by
    have hlt : r < (h ++ [w]).length := by
      rw [List.length_append]
      exact Nat.lt_add_right 1 hr
    rw [hnew.wrap r hlt fun heq => Nat.ne_of_gt hr (Option.some.inj heq), wrap_push_of_lt hr]
  wellFormed hs := hnew.wellFormed (forall_push hs hw)

/-! ### Each call -/

/-- A call whose first part does not throw. -/
theorem ok_of_bind {α β : Type} {call : Except Failure α} {f : α → Except Failure β} {b : β}
    (hbind : (call >>= f) = .ok b) : ∃ a, call = .ok a ∧ f a = .ok b := by
  cases hcall : call with
  | error e => rw [hcall] at hbind; cases hbind
  | ok a =>
      rw [hcall] at hbind
      exact ⟨a, rfl, hbind⟩

/-- A new Buffer is well formed, as its native length comes from an `int`. -/
theorem create_cases (T : BufferTarget) (h : BufferHeap) (length : Nat) :
    h.create T length = .error .aborted ∨ ∃ w : BufferWrap, w.WellFormed ∧ w.length = length ∧
      h.create T length = .ok (h.length, h ++ [w]) := by
  by_cases hneg : T.int length < 0
  · left
    rw [create, if_pos hneg]
  · obtain ⟨hlow, hhigh⟩ := T.isInt_int length
    have hsize : (Buffer.create (T.size (T.int length))).length = (T.int length).toNat := by
      rw [T.size_eq ⟨hlow, hhigh⟩ (Int.not_lt.mp hneg)]
      exact List.length_replicate
    refine .inr ⟨⟨length, Buffer.create (T.size (T.int length))⟩, ⟨?_, fun hlt => ?_⟩, rfl, ?_⟩
    · rw [hsize]
      omega
    · rw [hsize, T.int_eq (isInt_natCast hlt), Int.toNat_natCast]
    · rw [create, if_neg hneg]

theorem Copy_changes {dstStart srcStart srcEnd : Int} {result : Nat × BufferHeap}
    (hcopy : h.Copy T this target dstStart srcStart srcEnd = .ok result) :
    Changes (some target) h result.2 := by
  obtain ⟨dstLength, -, hrest⟩ := ok_of_bind hcopy
  obtain ⟨srcLength, -, hloop⟩ := ok_of_bind hrest
  have hresult := Except.ok.inj hloop
  rw [← hresult]
  exact changes_copyLoop ..

theorem copy_changes {targetStart sourceStart sourceEnd : Option Number}
    {result : Nat × BufferHeap}
    (hcopy : h.copy T this target targetStart sourceStart sourceEnd = .ok result) :
    Changes (some target) h result.2 := by
  unfold copy at hcopy
  split at hcopy
  · cases hcopy
  · simp only at hcopy
    split at hcopy
    · cases hcopy
    · exact Copy_changes hcopy

theorem write_changes {string : String} {offset length : Option Number} {result : Nat × BufferHeap}
    (hwrite : h.write T this string offset length = .ok result) :
    Changes (some this) h result.2 := by
  rcases ite_eq_iff.mp hwrite with ⟨-, hthrown⟩ | ⟨-, hwritten⟩
  · cases hthrown
  · obtain ⟨bufferLength, -, hcopy⟩ := ok_of_bind hwritten
    have hresult := Except.ok.inj hcopy
    rw [← hresult]
    exact changes_edit (f := fun block => (Buffer.copyInternal block _ _ _ _).1)
      (length_copyInternal ..)

/-- A call that makes a Buffer, and may then write to it. -/
theorem changes_of_create {length : Nat} {f : Nat × BufferHeap → Except Failure (Nat × BufferHeap)}
    (hf : ∀ (h' : BufferHeap) (result : Nat × BufferHeap), f (h.length, h') = .ok result →
      Changes (some h.length) h' result.2)
    {result : Nat × BufferHeap} (hcall : (h.create T length >>= f) = .ok result) :
    Changes none h result.2 := by
  rcases create_cases T h length with hcreate | ⟨w, hw, -, hcreate⟩
  · rw [hcreate] at hcall
    cases hcall
  · rw [hcreate] at hcall
    exact .of_push hw (hf _ _ hcall)

theorem changes_of_newNumber {size : Number}
    {f : Nat × BufferHeap → Except Failure (Nat × BufferHeap)}
    (hf : ∀ (h' : BufferHeap) (result : Nat × BufferHeap), f (h.length, h') = .ok result →
      Changes (some h.length) h' result.2)
    {result : Nat × BufferHeap} (hcall : (h.newNumber T size >>= f) = .ok result) :
    Changes none h result.2 :=
  changes_of_create hf hcall

variable {result : Nat × BufferHeap}

theorem newNumber_changes {size : Number} (hcall : h.newNumber T size = .ok result) :
    Changes none h result.2 := by
  have hmade : (h.newNumber T size >>= Except.ok) = .ok result := by
    rw [hcall]
    rfl
  refine changes_of_newNumber (fun h' result hok => ?_) hmade
  cases hok
  exact .refl _ _

theorem newString_changes {string : String} (hcall : h.newString T string = .ok result) :
    Changes none h result.2 := by
  refine changes_of_create (fun h' result hrest => ?_) hcall
  obtain ⟨_, hwrite, hok⟩ := ok_of_bind hrest
  have hresult := write_changes hwrite
  cases hok
  exact hresult

theorem newBuffer_changes {subject : Nat} (hcall : h.newBuffer T subject = .ok result) :
    Changes none h result.2 := by
  unfold newBuffer at hcall
  split at hcall
  · cases hcall
  · refine changes_of_create (fun h' result hrest => ?_) hcall
    obtain ⟨_, hcopy, hok⟩ := ok_of_bind hrest
    have hresult := copy_changes hcopy
    cases hok
    exact hresult

theorem slice_changes {first last : Option Number}
    (hcall : h.slice T this first last = .ok result) : Changes none h result.2 := by
  -- the length is asked for first, and then its own assertion is made
  obtain ⟨length, -, hrest⟩ := ok_of_bind hcall
  rcases ite_eq_iff.mp hrest with ⟨-, hthrown⟩ | ⟨-, hmade⟩
  · cases hthrown
  · refine changes_of_newNumber (fun h' result hok => ?_) hmade
    have hresult := Except.ok.inj hok
    rw [← hresult]
    exact changes_copyLoop ..

theorem concatLoop_changes {buffer pos : Nat} {list : List Nat}
    (hloop : concatLoop T buffer list pos h = .ok h') : Changes (some buffer) h h' := by
  induction list generalizing pos h with
  | nil =>
      cases hloop
      exact .refl _ _
  | cons r list ih =>
      obtain ⟨copied, hcopy, hrest⟩ := ok_of_bind hloop
      exact (copy_changes hcopy).trans (ih hrest)

theorem concat_changes {list : List Nat} (hcall : h.concat T list = .ok result) :
    Changes none h result.2 := by
  unfold concat at hcall
  split at hcall
  · cases hcall
  · refine changes_of_newNumber (fun h' result hrest => ?_) hcall
    obtain ⟨_, hloop, hok⟩ := ok_of_bind hrest
    cases hok
    exact concatLoop_changes hloop

theorem changes_of_map_snd {call : Except Failure (Nat × BufferHeap)}
    (hmap : call.map Prod.snd = .ok h')
    (hcall : ∀ result, call = .ok result → Changes written h result.2) : Changes written h h' := by
  cases hresult : call with
  | error e => rw [hresult] at hmap; cases hmap
  | ok result =>
      rw [hresult] at hmap
      cases hmap
      exact hcall result hresult

/-- A call that only reads. -/
theorem changes_of_read {α : Type} {call : Except Failure α}
    (hmap : call.map (fun _ => h) = .ok h') : Changes written h h' := by
  cases hresult : call with
  | error e => rw [hresult] at hmap; cases hmap
  | ok value =>
      rw [hresult] at hmap
      cases hmap
      exact .refl _ h

theorem run_changes {call : BufferCall} (hrun : call.run T h = .ok h') :
    Changes call.written h h' := by
  unfold BufferCall.run at hrun
  cases call with
  | newNumber size => exact changes_of_map_snd hrun fun _ => newNumber_changes
  | newString string => exact changes_of_map_snd hrun fun _ => newString_changes
  | newBuffer subject => exact changes_of_map_snd hrun fun _ => newBuffer_changes
  | concat list => exact changes_of_map_snd hrun fun _ => concat_changes
  | copy this target targetStart sourceStart sourceEnd =>
      exact changes_of_map_snd hrun fun _ => copy_changes
  | write this string offset length => exact changes_of_map_snd hrun fun _ => write_changes
  | slice this first last => exact changes_of_map_snd hrun fun _ => slice_changes
  | toString this first last => exact changes_of_read hrun
  | compare this other => exact changes_of_read hrun
  | equals this other => exact changes_of_read hrun

end BufferHeap

namespace Buffers

variable {T : BufferTarget} {s t : Buffers}

theorem step_changes {call : BufferCall} (hstep : s.step T call = some t) :
    s.heap.Changes call.written t.heap := by
  unfold step at hstep
  split at hstep
  · cases hstep
  · cases hrun : call.run T s.heap with
    | ok heap =>
        rw [hrun] at hstep
        cases hstep
        exact BufferHeap.run_changes hrun
    | error e =>
        -- what is thrown, or fails an assertion, has changed nothing
        have hheap : t.heap = s.heap := by
          rw [hrun] at hstep
          cases e <;> cases hstep <;> rfl
        rw [hheap]
        exact .refl _ s.heap

/-- The calls that do not write to the Buffer `r`. -/
def Spares (r : Nat) (_ : Buffers) (call : BufferCall) : Prop := call.written ≠ some r

/-- In a run that does not write to it, a Buffer stays as it is. -/
theorem spared_of_reach {r : Nat} (hr : r < s.heap.length)
    (hreach : Runs.Reach (step T) (Spares r) s t) :
    r < t.heap.length ∧ t.heap.wrap r = s.heap.wrap r := by
  refine hreach.invariant (I := fun u => r < u.heap.length ∧ u.heap.wrap r = s.heap.wrap r)
    ⟨hr, rfl⟩ fun u call u' hu hspares hstep => ?_
  have hchanges := step_changes hstep
  exact ⟨Nat.lt_of_lt_of_le hu.1 hchanges.length_le, (hchanges.wrap r hu.1 hspares).trans hu.2⟩

/-- Every Buffer of a program is well formed. -/
theorem wellFormed_of_reach {A : Buffers → BufferCall → Prop}
    (hreach : Runs.Reach (step T) A .new s) : s.heap.WellFormed :=
  hreach.invariant (I := fun u => u.heap.WellFormed) (fun r => (BufferHeap.sound_nil r).wellFormed)
    fun _ _ _ hu _ hstep => (step_changes hstep).wellFormed hu

end Buffers

end IotJs

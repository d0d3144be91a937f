import IotJs.Core.I2c
import Mathlib.Tactic.Common

/-!
# `IotJs.Proofs.I2cTransfers`: the device and the address of a transfer

A transfer is requested with an address selected on a descriptor, and its worker takes what is open
and selected when it runs. `Own` says that each transfer that was done went where its request
meant, and that each one that waits would go there if its worker ran next.

`own_iff_undisturbed` says which runs stay in such states. What a step does to the waiting
transfers is of three kinds, one lemma for each: it selects another address for them
(`own_slaveForce`), it takes the descriptor away from them (`own_iff_idle`), or it leaves them as
they are (`own_congr`).
-/

set_option autoImplicit false

namespace IotJs

/-- The workers that talk to a slave. -/
def I2cOp.transfers : I2cOp → Bool
  | scan | open_ _ => false
  | _ => true

/-- On this descriptor, the transfer goes to the device and the address of its request. -/
def I2cWork.Reaches (work : I2cWork) (file : Option I2cFile) : Prop :=
  ∃ opened ∈ file, opened.device = work.device ∧ ∃ slave ∈ opened.slave, slave.toNat = work.address

instance (work : I2cWork) (file : Option I2cFile) : Decidable (work.Reaches file) :=
  inferInstanceAs (Decidable (∃ _ ∈ _, _))

theorem toNat_toUint8 (n : Int) : ((toUint8 n).toNat : Int) = n ↔ 0 ≤ n ∧ n < 256 := by
  have hmod : ((toUint8 n).toNat : Int) = n % 256 := by
    rw [toUint8, UInt8.ofInt, UInt8.toNat_ofNat']
    omega
  omega

/-- After another address is selected, a transfer reaches its slave where that is its own. -/
theorem I2cWork.Reaches.select {work : I2cWork} {file : Option I2cFile} (h : work.Reaches file)
    (address : UInt8) :
    work.Reaches (file.map fun file => { file with slave := some address }) ↔
      (address.toNat : Int) = work.address := by
  obtain ⟨opened, hfile, hdevice, -⟩ := h
  obtain rfl := Option.mem_def.mp hfile
  simp [I2cWork.Reaches, hdevice]

namespace I2cModule

/-- The transfers that were done reached their slaves, and those that wait would. -/
structure Own (s : I2cModule) : Prop where
  performed : ∀ transfer ∈ s.performed, transfer.work.Reaches transfer.file
  waiting : ∀ work ∈ s.work, work.op.transfers → work.Reaches (s.files s.fd)

/-- No transfer waits. -/
def Idle (s : I2cModule) : Prop := ∀ work ∈ s.work, ¬ work.op.transfers

/-- Each transfer that waits is to the address that is selected now. -/
def Spares (s : I2cModule) (address : UInt8) (ok : Bool) : Prop :=
  ok → ∀ work ∈ s.work, work.op.transfers → (address.toNat : Int) = work.address

/-- The descriptor is of the device of the instance, and the address of the instance fits and is
selected now, or is the one that is selected already. -/
def Ready (s : I2cModule) (inst : I2C) (selected : Bool) : Prop :=
  ∃ file ∈ s.files s.fd, file.device = inst.device ∧
    if selected then 0 ≤ inst.address ∧ inst.address < 256
    else ∃ slave ∈ file.slave, slave.toNat = inst.address

/-- What a system call of a worker does not disturb. -/
def UndisturbedBy (s : I2cModule) (work : I2cWork) (ok : Bool) : Prop :=
  match work.op with
  | .open_ _ => s.Idle
  | .scan =>
      s.Spares (if work.found.length < I2C_MAX_ADDRESS then UInt8.ofNat work.found.length
        else s.addr) ok
  | _ => True

/-- No address is selected under a transfer that waits for another one, no device is opened or
closed under one that waits, and a transfer is requested when it is ready. -/
def Undisturbed (s : I2cModule) : I2cMove → Prop
  | .construct .. | .open_ .. | .scan _ => True
  | .setAddress _ address ok => s.Spares (toUint8 address) ok
  | .transfer i call ok =>
      ∀ inst ∈ s.instances[i]?,
        (call.selects → s.Spares (toUint8 inst.address) ok) ∧ s.Ready inst (call.selects && ok)
  | .close => 0 < s.fd → s.Idle
  | .work k _ ok => ∀ work ∈ s.work[k]?, s.UndisturbedBy work ok
  | .callback k ok =>
      ∀ entry ∈ s.after[k]?, ∀ i ∈ entry.1.constructor, ∀ inst ∈ s.instances[i]?,
        entry.1.op.error entry.2 = .kI2cErrOk → s.Spares (toUint8 inst.address) ok

/-- No file has a negative descriptor. -/
def Descriptors (s : I2cModule) : Prop := ∀ n < 0, s.files n = none

variable {s t : I2cModule}

/-! ### The kinds of changes -/

/-- The same transfers have been done, and the same ones wait. -/
structure SameTransfers (s t : I2cModule) : Prop where
  performed : t.performed = s.performed
  waiting : ∀ work : I2cWork, work.op.transfers → (work ∈ t.work ↔ work ∈ s.work)

theorem SameTransfers.idle (h : SameTransfers s t) : t.Idle ↔ s.Idle := by
  refine forall_congr' fun work => ?_
  by_cases htransfers : work.op.transfers
  · simp [htransfers, h.waiting work htransfers]
  · simp [htransfers]

/-- The transfers keep their descriptor. -/
theorem own_congr (h : SameTransfers s t) (hfile : t.files t.fd = s.files s.fd) :
    t.Own ↔ s.Own := by
  constructor
  · rintro ⟨hperformed, hwaiting⟩
    refine ⟨h.performed ▸ hperformed, fun work hmem htransfers => ?_⟩
    exact hfile ▸ hwaiting work ((h.waiting work htransfers).mpr hmem) htransfers
  · rintro ⟨hperformed, hwaiting⟩
    refine ⟨h.performed.symm ▸ hperformed, fun work hmem htransfers => ?_⟩
    rw [hfile]
    exact hwaiting work ((h.waiting work htransfers).mp hmem) htransfers

/-- The transfers lose their descriptor. -/
theorem own_iff_idle (hown : s.Own) (h : SameTransfers s t)
    (hlost : ∀ work : I2cWork, ¬ work.Reaches (t.files t.fd)) : t.Own ↔ s.Idle := by
  constructor
  · intro hthere work hmem htransfers
    -- one that waits would have nothing to reach
    exact hlost work (hthere.waiting work ((h.waiting work htransfers).mpr hmem) htransfers)
  · intro hidle
    refine ⟨h.performed.symm ▸ hown.performed, fun work hmem htransfers => ?_⟩
    exact absurd htransfers (hidle work ((h.waiting work htransfers).mp hmem))

@[simp]
theorem slaveForce_work (s : I2cModule) (address : UInt8) (ok : Bool) :
    (s.slaveForce address ok).work = s.work := by
  unfold slaveForce
  split <;> rfl

@[simp]
theorem slaveForce_performed (s : I2cModule) (address : UInt8) (ok : Bool) :
    (s.slaveForce address ok).performed = s.performed := by
  unfold slaveForce
  split <;> rfl

@[simp]
theorem slaveForce_fd (s : I2cModule) (address : UInt8) (ok : Bool) :
    (s.slaveForce address ok).fd = s.fd := by
  unfold slaveForce
  split <;> rfl

/-- The descriptor after an address was selected. -/
theorem slaveForce_file (s : I2cModule) (address : UInt8) (ok : Bool) :
    (s.slaveForce address ok).files s.fd =
      if ok then (s.files s.fd).map fun file => { file with slave := some address }
      else s.files s.fd := by
  unfold slaveForce
  split <;> simp

/-- An address is selected. -/
theorem own_slaveForce (hown : s.Own) (address : UInt8) (ok : Bool) :
    (s.slaveForce address ok).Own ↔ s.Spares address ok := by
  cases ok with
  | false =>
      refine iff_of_true ?_ (fun hok => absurd hok (by decide))
      exact (own_congr ⟨by simp, by simp⟩ (by simp [slaveForce_file])).mpr hown
  | true =>
      have hfile := slaveForce_file s address true
      rw [if_pos rfl] at hfile
      constructor
      · intro hthere _ work hmem htransfers
        have hreaches := hthere.waiting work (by simpa using hmem) htransfers
        rw [slaveForce_fd, hfile] at hreaches
        exact ((hown.waiting work hmem htransfers).select address).mp hreaches
      · intro hspares
        refine ⟨by simpa using hown.performed, fun work hmem htransfers => ?_⟩
        rw [slaveForce_work] at hmem
        rw [slaveForce_fd, hfile, (hown.waiting work hmem htransfers).select]
        exact hspares rfl work hmem htransfers

theorem own_i2cSetAddress (hown : s.Own) (address : UInt8) (ok : Bool) :
    (s.i2cSetAddress address ok).Own ↔ s.Spares address ok :=
  own_slaveForce (s := { s with addr := address }) ⟨hown.performed, hown.waiting⟩ address ok

theorem own_setAddress (hown : s.Own) (i : Nat) (address : Int) (ok : Bool) :
    (s.setAddress i address ok).Own ↔ s.Spares (toUint8 address) ok := by
  rw [← own_i2cSetAddress hown]
  exact own_congr ⟨rfl, fun _ _ => Iff.rfl⟩ rfl

/-- A request that is no transfer is queued. -/
theorem own_queue_other {work : I2cWork} (h : work.op.transfers = false) :
    (s.queue work).Own ↔ s.Own := by
  refine own_congr ⟨rfl, fun other htransfers => ?_⟩ rfl
  have hne : other ≠ work := by
    rintro rfl
    simp [h] at htransfers
  simp [queue, hne]

/-- A transfer is queued. -/
theorem own_queue {work : I2cWork} (h : work.op.transfers) :
    (s.queue work).Own ↔ s.Own ∧ work.Reaches (s.files s.fd) := by
  constructor
  · rintro ⟨hperformed, hwaiting⟩
    refine ⟨⟨hperformed, fun other hmem => ?_⟩, hwaiting work (by simp [queue]) h⟩
    exact hwaiting other (List.mem_append_left _ hmem)
  · rintro ⟨⟨hperformed, hwaiting⟩, hreaches⟩
    refine ⟨hperformed, fun other hmem htransfers => ?_⟩
    obtain hmem | hmem := List.mem_append.mp hmem
    · exact hwaiting other hmem htransfers
    · rw [List.mem_singleton.mp hmem]
      exact hreaches

/-- A worker that is no transfer goes on. -/
theorem sameTransfers_set {k : Nat} {work next : I2cWork} (hk : s.work[k]? = some work)
    (h : ¬ work.op.transfers) (hwork : t.work = s.work.set k next) (hnext : next.op = work.op)
    (hperformed : t.performed = s.performed) : SameTransfers s t := by
  refine ⟨hperformed, fun other htransfers => ?_⟩
  rw [hwork]
  constructor
  · intro hmem
    obtain hmem | rfl := List.mem_or_eq_of_mem_set hmem
    · exact hmem
    · exact absurd (hnext ▸ htransfers) h
  · intro hmem
    obtain ⟨i, hi⟩ := List.mem_iff_getElem?.mp hmem
    -- a transfer is at another index than this worker
    refine List.mem_iff_getElem?.mpr ⟨i, ?_⟩
    rw [List.getElem?_set_ne, hi]
    rintro rfl
    rw [hk, Option.some.injEq] at hi
    exact h (hi ▸ htransfers)

/-- A worker that is no transfer is done. -/
theorem sameTransfers_eraseIdx {k : Nat} {work : I2cWork} (hk : s.work[k]? = some work)
    (h : ¬ work.op.transfers) (hperformed : t.performed = s.performed)
    (hwork : t.work = s.work.eraseIdx k) : SameTransfers s t := by
  refine ⟨hperformed, fun other htransfers => ?_⟩
  rw [hwork, List.mem_eraseIdx_iff_getElem?]
  constructor
  · rintro ⟨i, -, hi⟩
    exact List.mem_of_getElem? hi
  · intro hmem
    obtain ⟨i, hi⟩ := List.mem_iff_getElem?.mp hmem
    refine ⟨i, ?_, hi⟩
    rintro rfl
    rw [hk, Option.some.injEq] at hi
    exact h (hi ▸ htransfers)

/-! ### The steps -/

/-- The transfer that is requested would reach its slave. -/
theorem reaches_iff_ready (inst : I2C) (call : I2cCall) (ok : Bool) :
    (⟨call.op, inst.address, inst.device, none, []⟩ : I2cWork).Reaches
        ((if call.selects then s.i2cSetAddress (toUint8 inst.address) ok else s).files s.fd) ↔
      s.Ready inst (call.selects && ok) := by
  cases hselects : call.selects with
  | false => simp [I2cWork.Reaches, Ready]
  | true =>
      have hfile :=
        slaveForce_file { s with addr := toUint8 inst.address } (toUint8 inst.address) ok
      simp only [i2cSetAddress, if_true, hfile, Bool.true_and]
      cases ok with
      | false => simp [I2cWork.Reaches, Ready]
      | true => simp [I2cWork.Reaches, Ready, toNat_toUint8]

theorem own_transfer (hown : s.Own) (inst : I2C) (call : I2cCall) (ok : Bool) :
    (s.transfer inst call ok).Own ↔
      (call.selects → s.Spares (toUint8 inst.address) ok) ∧ s.Ready inst (call.selects && ok) := by
  have hop : call.op.transfers := by cases call <;> rfl
  have hfd : (if call.selects then s.i2cSetAddress (toUint8 inst.address) ok else s).fd = s.fd := by
    cases call.selects <;> simp [i2cSetAddress]
  -- the request is queued after its address was selected
  rw [transfer, own_queue hop, ← reaches_iff_ready, hfd]
  refine and_congr_left fun _ => ?_
  cases call.selects with
  | false => simp [hown]
  | true => simpa using own_i2cSetAddress hown (toUint8 inst.address) ok

theorem own_close (hown : s.Own) : s.close.Own ↔ (0 < s.fd → s.Idle) := by
  unfold close
  split
  · rename_i hopen
    have hidle := own_iff_idle (t := { s with files := Function.update s.files s.fd none }) hown
      ⟨rfl, fun _ _ => Iff.rfl⟩ (by simp [I2cWork.Reaches])
    exact hidle.trans ⟨fun h _ => h, fun h => h hopen⟩
  · rename_i hclosed
    exact iff_of_true hown fun hopen => absurd hopen hclosed

theorem own_openWorker {k : Nat} {work : I2cWork} {device : String} {answer : I2cAnswer}
    (hown : s.Own) (hfiles : s.Descriptors) (hk : s.work[k]? = some work)
    (hop : work.op = .open_ device) (h : s.openWorker k work device answer = some t) :
    t.Own ↔ s.Idle := by
  have hnone : ¬ work.op.transfers := by simp [hop, I2cOp.transfers]
  unfold openWorker at h
  split at h
  · cases h
    refine own_iff_idle hown (sameTransfers_eraseIdx hk hnone rfl rfl) ?_
    -- the `open` has failed, and the descriptor is -1
    simp [finish, hfiles (-1) (by decide), I2cWork.Reaches]
  · split at h
    · cases h
      refine own_iff_idle hown (sameTransfers_eraseIdx hk hnone rfl rfl) ?_
      -- on a new descriptor no address is selected yet
      simp [I2cWork.Reaches]
    · cases h

theorem own_scanWorker {k : Nat} {work : I2cWork} {answer : I2cAnswer} {ok : Bool} (hown : s.Own)
    (hk : s.work[k]? = some work) (hop : work.op = .scan) :
    (s.scanWorker k work answer ok).Own ↔ s.UndisturbedBy work ok := by
  have hnone : ¬ work.op.transfers := by simp [hop, I2cOp.transfers]
  simp only [UndisturbedBy, hop]
  unfold scanWorker
  split
  · rw [← own_slaveForce hown]
    exact own_congr (sameTransfers_set (by simpa using hk) hnone rfl rfl rfl) rfl
  -- the scan is done, and the address of `addr` is selected again
  · rw [← own_slaveForce hown]
    exact own_congr (sameTransfers_eraseIdx (by simpa using hk) hnone rfl rfl) rfl

theorem own_transferWorker {k : Nat} {work : I2cWork} {answer : I2cAnswer} (hown : s.Own)
    (hk : s.work[k]? = some work) (hop : work.op.transfers) :
    (s.transferWorker k work answer).Own := by
  constructor
  · intro transfer hmem
    obtain hmem | hmem := List.mem_append.mp hmem
    · exact hown.performed transfer hmem
    · obtain rfl := List.mem_singleton.mp hmem
      exact hown.waiting work (List.mem_of_getElem? hk) hop
  · intro other hmem
    exact hown.waiting other (List.mem_of_mem_eraseIdx hmem)

theorem own_callback (hown : s.Own) (work : I2cWork) (answer : I2cAnswer) (ok : Bool) :
    (s.callback work answer ok).Own ↔
      ∀ i ∈ work.constructor, ∀ inst ∈ s.instances[i]?,
        work.op.error answer = .kI2cErrOk → s.Spares (toUint8 inst.address) ok := by
  unfold callback
  cases hconstructor : work.constructor with
  | none => simpa using hown
  | some i =>
      cases hinst : s.instances[i]? with
      | none => simpa [hinst] using hown
      | some inst =>
          simp only [Option.bind_some, Option.map_some, Option.mem_some_iff, forall_eq', hinst]
          split
          · rename_i hok
            rw [forall_prop_of_true hok, own_setAddress hown]
          · rename_i herr
            exact iff_of_true hown fun hok => absurd hok herr

theorem own_runWorker {k : Nat} {work : I2cWork} {answer : I2cAnswer} {ok : Bool} (hown : s.Own)
    (hfiles : s.Descriptors) (hk : s.work[k]? = some work)
    (h : s.runWorker k work answer ok = some t) : t.Own ↔ s.UndisturbedBy work ok := by
  unfold runWorker at h
  split at h
  · rename_i device hop
    simpa [UndisturbedBy, hop] using own_openWorker hown hfiles hk hop h
  · rename_i hop
    cases h
    exact own_scanWorker hown hk hop
  · rename_i hopen hscan
    cases h
    have hop : work.op.transfers := by
      cases hop : work.op <;> simp_all [I2cOp.transfers]
    -- a transfer selects nothing and takes nothing away
    refine iff_of_true (own_transferWorker hown hk hop) ?_
    unfold UndisturbedBy
    split <;> simp_all

theorem Descriptors.slaveForce (h : s.Descriptors) (address : UInt8) (ok : Bool) :
    (s.slaveForce address ok).Descriptors := by
  intro n hn
  unfold I2cModule.slaveForce
  split
  · by_cases hfd : n = s.fd
    · simp [hfd, h s.fd (hfd ▸ hn)]
    · simp [hfd, h n hn]
  · exact h n hn

theorem Descriptors.i2cSetAddress (h : s.Descriptors) (address : UInt8) (ok : Bool) :
    (s.i2cSetAddress address ok).Descriptors :=
  Descriptors.slaveForce (s := { s with addr := address }) h address ok

theorem Descriptors.setAddress (h : s.Descriptors) (i : Nat) (address : Int) (ok : Bool) :
    (s.setAddress i address ok).Descriptors := h.i2cSetAddress (toUint8 address) ok

theorem Descriptors.runWorker {k : Nat} {work : I2cWork} {answer : I2cAnswer} {ok : Bool}
    (hfiles : s.Descriptors) (h : s.runWorker k work answer ok = some t) : t.Descriptors := by
  unfold I2cModule.runWorker at h
  split at h
  · unfold openWorker at h
    split at h
    · cases h
      exact hfiles
    · split at h
      · rename_i hresult
        cases h
        intro n hn
        -- the descriptor that `open` returns is not negative
        exact (Function.update_of_ne (by omega) _ _).trans (hfiles n hn)
      · cases h
  · cases h
    unfold scanWorker
    split
    · exact hfiles.slaveForce _ ok
    · exact hfiles.slaveForce _ ok
  · cases h
    exact hfiles

theorem Descriptors.step {move : I2cMove} (h : s.Descriptors) (hstep : s.step move = some t) :
    t.Descriptors := by
  cases move with
  | construct address device =>
      cases hstep
      exact h
  | open_ i device =>
      obtain ⟨inst, -, rfl⟩ := Option.map_eq_some_iff.mp hstep
      exact h
  | setAddress i address ok =>
      obtain ⟨inst, -, rfl⟩ := Option.map_eq_some_iff.mp hstep
      exact h.setAddress i address ok
  | transfer i call ok =>
      obtain ⟨inst, -, rfl⟩ := Option.map_eq_some_iff.mp hstep
      unfold transfer
      cases call.selects with
      | false => exact h
      | true => exact h.i2cSetAddress (toUint8 inst.address) ok
  | scan i =>
      obtain ⟨inst, -, rfl⟩ := Option.map_eq_some_iff.mp hstep
      exact h
  | close =>
      cases hstep
      unfold close
      split
      · intro n hn
        exact (Function.update_of_ne (by omega) _ _).trans (h n hn)
      · exact h
  | work k answer ok =>
      obtain ⟨work, -, hrun⟩ := Option.bind_eq_some_iff.mp hstep
      exact h.runWorker hrun
  | callback k ok =>
      obtain ⟨⟨work, answer⟩, -, rfl⟩ := Option.map_eq_some_iff.mp hstep
      simp only [callback]
      split
      · split
        · exact Descriptors.setAddress (s := { s with after := s.after.eraseIdx k }) h _ _ ok
        · exact h
      · exact h

/-- Each step keeps the transfers where they belong if and only if it does not disturb them. -/
theorem own_step {move : I2cMove} (hfiles : s.Descriptors) (hown : s.Own)
    (hstep : s.step move = some t) : t.Own ↔ s.Undisturbed move := by
  cases move with
  | construct address device =>
      cases hstep
      exact iff_of_true ((own_queue_other rfl).mpr ⟨hown.performed, hown.waiting⟩) trivial
  | open_ i device =>
      obtain ⟨inst, -, rfl⟩ := Option.map_eq_some_iff.mp hstep
      exact iff_of_true ((own_queue_other rfl).mpr ⟨hown.performed, hown.waiting⟩) trivial
  | setAddress i address ok =>
      obtain ⟨inst, -, rfl⟩ := Option.map_eq_some_iff.mp hstep
      exact own_setAddress hown i address ok
  | transfer i call ok =>
      obtain ⟨inst, hinst, rfl⟩ := Option.map_eq_some_iff.mp hstep
      simpa [Undisturbed, hinst] using own_transfer hown inst call ok
  | scan i =>
      obtain ⟨inst, -, rfl⟩ := Option.map_eq_some_iff.mp hstep
      exact iff_of_true ((own_queue_other rfl).mpr hown) trivial
  | close =>
      cases hstep
      exact own_close hown
  | work k answer ok =>
      obtain ⟨work, hk, hrun⟩ := Option.bind_eq_some_iff.mp hstep
      simpa [Undisturbed, hk] using own_runWorker hown hfiles hk hrun
  | callback k ok =>
      obtain ⟨⟨work, answer⟩, hk, rfl⟩ := Option.map_eq_some_iff.mp hstep
      have hother : ({ s with after := s.after.eraseIdx k } : I2cModule).Own :=
        ⟨hown.performed, hown.waiting⟩
      rw [own_callback hother]
      simp [Undisturbed, hk, Spares]

/-! ### The runs -/

theorem own_new : new.Own :=
  ⟨fun _ hmem => absurd hmem List.not_mem_nil, fun _ hmem => absurd hmem List.not_mem_nil⟩

section

variable (s : I2cModule)

instance : Decidable s.Idle := inferInstanceAs (Decidable (∀ _ ∈ _, _))

instance (address : UInt8) (ok : Bool) : Decidable (s.Spares address ok) :=
  inferInstanceAs (Decidable (_ → ∀ _ ∈ _, _))

instance (inst : I2C) (selected : Bool) : Decidable (s.Ready inst selected) :=
  inferInstanceAs (Decidable (∃ file ∈ s.files s.fd, file.device = inst.device ∧
    if selected then 0 ≤ inst.address ∧ inst.address < 256
    else ∃ slave ∈ file.slave, slave.toNat = inst.address))

instance (work : I2cWork) (ok : Bool) : Decidable (s.UndisturbedBy work ok) :=
  match h : work.op with
  | .open_ _ => decidable_of_iff s.Idle (by simp [UndisturbedBy, h])
  | .scan => decidable_of_iff (s.Spares _ ok) (by simp only [UndisturbedBy, h]; rfl)
  | .write _ | .writeByte _ | .writeBlock _ _ | .read _ | .readByte | .readBlock _ _ _ =>
      .isTrue (by simp [UndisturbedBy, h])

instance : (move : I2cMove) → Decidable (s.Undisturbed move)
  | .construct _ _ | .open_ _ _ | .scan _ => .isTrue trivial
  | .setAddress _ address ok => inferInstanceAs (Decidable (s.Spares (toUint8 address) ok))
  | .transfer i call ok =>
      inferInstanceAs (Decidable (∀ inst ∈ s.instances[i]?,
        (call.selects → s.Spares (toUint8 inst.address) ok) ∧ s.Ready inst (call.selects && ok)))
  | .close => inferInstanceAs (Decidable (0 < s.fd → s.Idle))
  | .work k _ ok => inferInstanceAs (Decidable (∀ work ∈ s.work[k]?, s.UndisturbedBy work ok))
  | .callback k ok =>
      inferInstanceAs (Decidable (∀ entry ∈ s.after[k]?, ∀ i ∈ entry.1.constructor,
        ∀ inst ∈ s.instances[i]?,
          entry.1.op.error entry.2 = .kI2cErrOk → s.Spares (toUint8 inst.address) ok))

end

end I2cModule

end IotJs

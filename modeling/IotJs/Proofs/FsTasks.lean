import IotJs.Core.FsFiles
import Mathlib.Data.List.Perm.Basic

/-!
# `IotJs.Proofs.FsTasks`: calls with callbacks, one after the other and at once

While one call waits there is one way to go on: it is performed, and its callback called
(`ends_single`). What happens when several wait depends on the order, so for a function that closes
its descriptor twice there is an invariant instead: the calls of `close` that were made and that
wait. It says that no run ends well (`not_ends_of_doubled`).
-/

set_option autoImplicit false

namespace IotJs

namespace FsFiles

open Runs

/-! ### The fields of a task -/

section fields

variable {κ ν : Type} (call : UvCall) (callback : κ) (t : Task κ ν)

@[simp] theorem world_ask : (ask call callback t).world = t.world := rfl

@[simp] theorem vars_ask : (ask call callback t).vars = t.vars := rfl

@[simp] theorem called_ask : (ask call callback t).called = t.called := rfl

@[simp] theorem failure_ask : (ask call callback t).failure = t.failure := rfl

@[simp] theorem askIf_none : askIf none call callback t = ask call callback t := rfl

@[simp] theorem askIf_some (e : Fs.FsError) :
    askIf (some e) call callback t = { t with thrown := t.thrown ++ [e] } := rfl

@[simp] theorem called_callBack (err : Option Fs.FsError) (data : Option Bytes) :
    (callBack err data t).called = t.called ++ [(err, data)] := rfl

@[simp] theorem failure_callBack (err : Option Fs.FsError) (data : Option Bytes) :
    (callBack err data t).failure = t.failure := rfl

end fields

/-! ### One call at a time -/

section single

variable {κ ν : Type} {handler : κ → Reply → Task κ ν → Task κ ν} {good : Task κ ν → Prop}
variable {t : Task κ ν}

/-- A task can go on as long as a call waits. -/
theorem stuck_iff : Stuck (step handler) t ↔ t.pending = [] := by
  constructor
  · intro hstuck
    cases hpending : t.pending with
    | nil => rfl
    | cons request rest =>
        have hperform := hstuck (.perform 0)
        have hdeliver := hstuck (.deliver 0)
        obtain ⟨call, callback, reply⟩ := request
        cases reply with
        | none => simp [step, hpending] at hperform
        | some reply => simp [step, hpending] at hdeliver
  · intro hpending i
    cases i <;> simp [step, hpending]

/-- What a task with one call makes of it. -/
def settled (handler : κ → Reply → Task κ ν → Task κ ν) (call : UvCall) (callback : κ)
    (t : Task κ ν) : Task κ ν :=
  let (reply, world) := call.perform t.world
  handler callback reply { t with
    world := world
    pending := []
    failure := t.failure.or (if reply.result < 0 then some reply.result else none) }

/-- One call that waits. -/
theorem ends_single {call : UvCall} {callback : κ}
    (hpending : t.pending = [⟨call, callback, none⟩]) :
    Ends (step handler) good t ↔ Ends (step handler) good (settled handler call callback t) := by
  let u : Task κ ν := { t with
    world := (call.perform t.world).2
    pending := [⟨call, callback, some (call.perform t.world).1⟩] }
  have hperform : step handler t (.perform 0) = some u := by
    simp [step, hpending, u]
  have hdeliver : step handler u (.deliver 0) = some (settled handler call callback t) := rfl
  refine (ends_iff_of_only hperform fun i v hv => ?_).trans
    (ends_iff_of_only hdeliver fun i v hv => ?_)
  · cases i with
    | perform i =>
        cases i with
        | zero => exact Option.some.inj (hv.symm.trans hperform)
        | succ i => simp [step, hpending] at hv
    | deliver i =>
        cases i with
        | zero => simp [step, hpending] at hv
        | succ i => simp [step, hpending] at hv
  · cases i with
    | perform i =>
        cases i with
        | zero => simp [step, u] at hv
        | succ i => simp [step, u] at hv
    | deliver i =>
        cases i with
        | zero => exact Option.some.inj (hv.symm.trans hdeliver)
        | succ i => simp [step, u] at hv

end single

/-! ### Two calls of `close` -/

section doubled

variable {κ ν : Type} {handler : κ → Reply → Task κ ν → Task κ ν} {good : Task κ ν → Prop}
variable {w : World} {opened : κ} {t u : Task κ ν}

def UvCall.isClose : UvCall → Bool
  | .uvClose _ => true
  | _ => false

def UvCall.isOpen : UvCall → Bool
  | .uvOpen .. => true
  | _ => false

/-- The call has not been performed, and closes a descriptor. -/
def Request.closes (request : Request κ) : Bool := request.reply.isNone && request.call.isClose

/-- What a callback does: it adds calls, and none of `open`. -/
structure Adds (opened : κ) (t u : Task κ ν) : Prop where
  world : u.world = t.world
  pending : ∃ more : List (Request κ), u.pending = t.pending ++ more ∧
    ∀ request ∈ more, request.callback ≠ opened ∧ request.call.isOpen = false

/-- One descriptor was opened, and two calls of `close` are made in all. -/
structure Doubled (w : World) (opened : κ) (t : Task κ ν) : Prop where
  tail : ∀ request ∈ t.pending, request.callback ≠ opened ∧ request.call.isOpen = false
  opened : t.world.opened.length = w.opened.length + 1
  closes : w.closed.length + 2 ≤ t.world.closed.length + t.pending.countP Request.closes

theorem Adds.refl (t : Task κ ν) : Adds opened t t := ⟨rfl, [], (List.append_nil _).symm, nofun⟩

theorem Adds.trans {v : Task κ ν} (h : Adds opened t u) (h' : Adds opened u v) :
    Adds opened t v := by
  obtain ⟨hworld, more, hmore, htail⟩ := h
  obtain ⟨hworld', more', hmore', htail'⟩ := h'
  refine ⟨hworld'.trans hworld, more ++ more', ?_, fun request hmem => ?_⟩
  · rw [hmore', hmore, List.append_assoc]
  · exact (List.mem_append.mp hmem).elim (htail request) (htail' request)

theorem adds_ask {call : UvCall} {callback : κ} (hcallback : callback ≠ opened)
    (hcall : call.isOpen = false) (t : Task κ ν) : Adds opened t (ask call callback t) := by
  refine ⟨rfl, _, rfl, fun request hmem => ?_⟩
  rw [List.mem_singleton.mp hmem]
  exact ⟨hcallback, hcall⟩

theorem adds_askIf {call : UvCall} {callback : κ} (error : Option Fs.FsError)
    (hcallback : callback ≠ opened) (hcall : call.isOpen = false) (t : Task κ ν) :
    Adds opened t (askIf error call callback t) := by
  cases error with
  | none => exact adds_ask hcallback hcall t
  | some e => exact ⟨rfl, [], (List.append_nil _).symm, nofun⟩

/-- What a call that is not `open` does to the descriptors. -/
theorem perform_descriptors (call : UvCall) (w : World) (hcall : call.isOpen = false) :
    (call.perform w).2.opened = w.opened ∧
      (call.perform w).2.closed.length = w.closed.length + if call.isClose then 1 else 0 := by
  cases call with
  | uvOpen path flags => cases hcall
  | uvClose fd =>
      refine ⟨rfl, ?_⟩
      show (w.closed ++ [fd]).length = _
      rw [List.length_append]
      rfl
  | uvRead fd length position =>
      simp only [UvCall.perform, Fs.uvRead]
      cases w.fds fd with
      | none => exact ⟨rfl, rfl⟩
      | some d => by_cases hr : w.results w.calls < 0 <;> simp [hr, UvCall.isClose]
  | uvWrite fd data position =>
      simp only [UvCall.perform, Fs.uvWrite]
      cases w.fds fd with
      | none => exact ⟨rfl, rfl⟩
      | some d => by_cases hr : w.results w.calls < 0 <;> simp [hr, UvCall.isClose]

theorem Doubled.adds (h : Doubled w opened t) (hadds : Adds opened t u) : Doubled w opened u := by
  obtain ⟨hworld, more, hmore, htail⟩ := hadds
  refine ⟨fun request hmem => ?_, ?_, ?_⟩
  · rw [hmore] at hmem
    exact (List.mem_append.mp hmem).elim (h.tail request) (htail request)
  · rw [hworld, h.opened]
  · have hcloses := h.closes
    rw [hworld, hmore, List.countP_append]
    omega

/-- Every move keeps the count. -/
theorem Doubled.step
    (hhandler : ∀ callback reply (t : Task κ ν), callback ≠ opened →
      Adds opened t (handler callback reply t))
    (h : Doubled w opened t) {m : Move} (hstep : step handler t m = some u) :
    Doubled w opened u := by
  cases m with
  | perform i =>
      simp only [FsFiles.step] at hstep
      split at hstep
      · rename_i call callback hi
        cases hstep
        obtain ⟨hlt, hat⟩ := List.getElem?_eq_some_iff.mp hi
        obtain ⟨hcallback, hcall⟩ := h.tail _ (List.mem_of_getElem? hi)
        obtain ⟨hopened, hclosed⟩ := perform_descriptors call t.world hcall
        refine ⟨fun request hmem => ?_, (congrArg List.length hopened).trans h.opened, ?_⟩
        · rcases List.mem_or_eq_of_mem_set hmem with hmem | rfl
          · exact h.tail request hmem
          · exact ⟨hcallback, hcall⟩
        · -- a call of `close` that waited has been made
          have hcloses := h.closes
          have hcount : (Request.closes (κ := κ) ⟨call, callback, none⟩ = true) →
              0 < t.pending.countP Request.closes := fun hyes =>
            List.countP_pos_iff.mpr ⟨_, List.mem_of_getElem? hi, hyes⟩
          show w.closed.length + 2 ≤ (call.perform t.world).2.closed.length +
            (t.pending.set i _).countP Request.closes
          rw [hclosed, List.countP_set hlt, hat]
          cases hclose : call.isClose <;>
            simp [Request.closes, hclose] at hcount ⊢ <;> omega
      · cases hstep
  | deliver i =>
      simp only [FsFiles.step] at hstep
      split at hstep
      · rename_i call callback reply hi
        cases hstep
        obtain ⟨hlt, hat⟩ := List.getElem?_eq_some_iff.mp hi
        have hcount := (List.getElem_cons_eraseIdx_perm hlt).countP_eq Request.closes
        rw [hat, List.countP_cons_of_neg (by simp [Request.closes])] at hcount
        -- a call that is delivered was performed before, so the count did not include it
        have hdelivered : Doubled w opened { t with
            pending := t.pending.eraseIdx i
            failure := t.failure.or (if reply.result < 0 then some reply.result else none) } := by
          refine ⟨fun request hmem => h.tail request (List.mem_of_mem_eraseIdx hmem), h.opened, ?_⟩
          have hcloses := h.closes
          show w.closed.length + 2 ≤ t.world.closed.length +
            (t.pending.eraseIdx i).countP Request.closes
          omega
        exact hdelivered.adds (hhandler callback reply _ (h.tail _ (List.mem_of_getElem? hi)).1)
      · cases hstep

variable (w opened) in
/-- No run of a task that closes its descriptor twice ends well. -/
theorem not_ends_of_doubled
    (hhandler : ∀ callback reply (t : Task κ ν), callback ≠ opened →
      Adds opened t (handler callback reply t))
    (hgood : ∀ t, good t → t.world.closed.length + w.opened.length =
      w.closed.length + t.world.opened.length)
    (h : Doubled w opened t) : ¬ Ends (FsFiles.step handler) good t := by
  intro hends
  obtain ⟨u, hdoubled, hstuck, hu⟩ :=
    hends.exists_end h fun s i t hs hstep => hs.step hhandler hstep
  have hcloses := hdoubled.closes
  have hopened := hdoubled.opened
  have hbalance := hgood u hu
  rw [stuck_iff.mp hstuck, List.countP_nil] at hcloses
  omega

end doubled

end FsFiles

end IotJs

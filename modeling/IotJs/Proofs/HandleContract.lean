import IotJs.Core.HandleWrap
import IotJs.Lib.Reentrant.Changes
import IotJs.Proofs.HandleLifecycle

/-!
# `IotJs.Proofs.HandleContract`: one wrapper among others

A wrapper goes through its stages whatever JavaScript does with it, so long as no method comes after
its close. Here this is a contract of the wrapper (`lifecycle`), with a count of what happens once,
so that it can be used of a wrapper that is a part of something else. `Onward` says what the single
writes to a wrapper never take back.
-/

set_option autoImplicit false

namespace IotJs.HandleWrap

open Reentrant

/-! ### One wrapper -/

/-- `onclose` of the object runs. -/
def calling (w : HandleWrap) : Bool := w.handle && w.closing && !w.pending

def isClose : WrapNote → Bool
  | .uvClose _ => true
  | _ => false

/-- The wrapper is in a stage, and what happens once has been counted. -/
structure Tallied (w : HandleWrap) : Prop where
  stage : ∃ stage, At stage w
  closes : w.log.countP isClose = if w.closing then 1 else 0
  frees : w.log.count (.destroyed false) = if w.freed then 1 else 0
  freed : w.freed = true → w.handle = false

/-- Nothing opens a handle again. Only at rest does a close complete. -/
def lifecycle : Contract HandleWrap where
  inv := Tallied
  rely w v := (w.closing = true → v.closing = true) ∧ v.calling = w.calling
  outer w v := (w.closing = true → v.closing = true) ∧ (v.calling = true → w.calling = true)
  refl _ := ⟨id, rfl⟩
  trans h₁ h₂ := ⟨h₂.1 ∘ h₁.1, h₂.2.trans h₁.2⟩
  outer_of_rely h := ⟨h.1, fun hcalling => h.2 ▸ hcalling⟩
  outer_trans h₁ h₂ := ⟨h₂.1 ∘ h₁.1, h₁.2 ∘ h₂.2⟩

/-- Surroundings in which no method looks at a wrapper whose close has completed. Native code
handles the exceptions of what it calls. -/
def orderly : Env HandleWrap WrapYield UvCall Call where
  call i w := ∀ op, i = .op op → reads op = true → w.handle = true
  answer _ _ _ := True
  returns _ _ := True
  throws _ _ := False

section wrapper

variable {w : HandleWrap} {stage : Stage} {rs : List Int} {atRest : Bool}

theorem tallied_initialized (kind : HandleKind) (self : Nat) : Tallied (initialized kind self) where
  stage := ⟨.opened, at_initialized kind self⟩
  closes := rfl
  frees := rfl
  freed := nofun

theorem countP_returning {p : WrapNote → Bool} (hp : ∀ err, p (.returned err) = false)
    (errs : List Int) : (w.returning errs).log.countP p = w.log.countP p := by
  have hnone : (errs.map WrapNote.returned).countP p = 0 := by
    rw [List.countP_eq_zero]
    intro o ho
    obtain ⟨err, -, rfl⟩ := List.mem_map.mp ho
    rw [hp]
    exact Bool.false_ne_true
  show (w.log ++ errs.map WrapNote.returned).countP p = _
  rw [List.countP_append, hnone, Nat.add_zero]

theorem calling_of_open (h : w.closing = false) : w.calling = false := by
  rw [calling, h, Bool.and_false, Bool.false_and]

theorem calling_startClose (cb : Option OnCloseHandler) : (w.startClose cb).calling = false :=
  Bool.and_false _

theorem Tallied.returning (h : Tallied w) (errs : List Int) : Tallied (w.returning errs) where
  stage := h.stage.imp fun _ hstage => hstage.returning errs
  closes := (countP_returning (fun _ => rfl) errs).trans h.closes
  frees := (countP_returning (fun _ => rfl) errs).trans h.frees
  freed := h.freed

theorem Tallied.startClose (h : Tallied w) (hclosing : w.closing = false)
    (cb : Option OnCloseHandler) : Tallied (w.startClose cb) where
  stage := by
    obtain ⟨stage, hat⟩ := h.stage
    obtain rfl := hat.opened_of_not_closing hclosing
    exact ⟨.closing cb, hat.startClose cb⟩
  closes := by
    have hcloses := h.closes
    rw [hclosing] at hcloses
    show (w.log ++ [WrapNote.uvClose cb]).countP isClose = 1
    rw [List.countP_append, hcloses]
    rfl
  frees := by
    show (w.log ++ [WrapNote.uvClose cb]).count (.destroyed false) = if w.freed then 1 else 0
    rw [List.count_append, h.frees]
    rfl
  freed := h.freed

theorem Tallied.reach (h : Tallied w) (reachable : Bool) :
    Tallied { w with reachable := reachable } :=
  ⟨h.stage.imp fun _ hstage => hstage.reach reachable, h.closes, h.frees, h.freed⟩

theorem Tallied.destroy (h : Tallied w) (hhandle : w.handle = false) (hfreed : w.freed = false) :
    Tallied { w with log := w.log ++ [.destroyed false], freed := true } where
  stage := by
    obtain ⟨stage, hat⟩ := h.stage
    have hstage : stage.handle = false := hat.handle.symm.trans hhandle
    cases stage with
    | closed cb => exact ⟨.closed cb, hat.destroy⟩
    | opened => cases hstage
    | closing cb => cases hstage
    | calling => cases hstage
  closes := by
    show (w.log ++ [WrapNote.destroyed false]).countP isClose = if w.closing then 1 else 0
    rw [List.countP_append, h.closes]
    rfl
  frees := by
    have hfrees := h.frees
    rw [hfreed] at hfrees
    show (w.log ++ [WrapNote.destroyed false]).count (.destroyed false) = 1
    rw [List.count_append, hfrees]
    rfl
  freed _ := hhandle

/-- A method. -/
theorem op_keeps (h : Tallied w) {op : Op} (hop : reads op = true → w.handle = true) :
    (perform op).wp orderly .nil lifecycle (lifecycle.Post w) (fun _ => lifecycle.Post w) w := by
  refine Contract.wp_of_exec _ fun rs _ => ?_
  obtain ⟨stage, hat⟩ := h.stage
  have hreturned : ∀ errs, lifecycle.Post w (w.returning errs) := fun errs =>
    ⟨h.returning errs, id, rfl⟩
  cases hhandle : w.handle with
  | true =>
      have hperformed : Performed w ((perform op).exec rs w) := performed (hat.good hhandle) op
      generalize (perform op).exec rs w = o at hperformed
      cases hperformed with
      | returned errs => exact hreturned errs
      | closed cb errs hclosing =>
          exact ⟨(h.startClose hclosing cb).returning errs, fun _ => rfl,
            (calling_startClose cb).trans (calling_of_open hclosing).symm⟩
  | false =>
      have hapart : reads op = false := by
        by_contra hreads
        rw [Bool.not_eq_false] at hreads
        rw [hop hreads] at hhandle
        cases hhandle
      obtain ⟨errs, hexec⟩ : ∃ errs, (perform op).exec rs w = .done () (w.returning errs) :=
        exec_perform_apart hapart
      rw [hexec]
      exact hreturned errs

/-- An event calls JavaScript back, which can reach the object from there. -/
theorem event_keeps (h : Tallied w) (hloop : w.inLoop = true) :
    event.wp orderly .nil lifecycle (lifecycle.Post w) (fun _ => lifecycle.Post w) w := by
  refine Contract.wp_of_exec _ fun rs _ => ?_
  obtain ⟨stage, hat⟩ := h.stage
  rw [exec_event (hat.good (hat.inLoop hloop).1)]
  exact ⟨h.reach true, fun v hv => ⟨fun _ => hv, False.elim⟩⟩

theorem Tallied.released (h : Tallied w) (hat : At stage w.released) : Tallied w.released :=
  ⟨⟨stage, hat⟩, h.closes, h.frees, fun _ => rfl⟩

/-- A call of the registered function is no close. -/
theorem Tallied.called (h : Tallied w) {v : HandleWrap} (hat : At stage v)
    (hlog : v.log = w.log ++ [.onClose .afterClose]) (hclosing : v.closing = w.closing)
    (hfreed : v.freed = w.freed) (hhandle : w.freed = true → v.handle = false) : Tallied v where
  stage := ⟨stage, hat⟩
  closes := by
    rw [hlog, hclosing, List.countP_append, h.closes]
    rfl
  frees := by
    rw [hlog, hfreed, List.count_append, h.frees]
    rfl
  freed hv := hhandle (hfreed.symm.trans hv)

/-- `onclose` has returned, and the handle is given up. -/
theorem release_keeps (h : Tallied w) (hcalling : w.calling = true) {w₀ : HandleWrap}
    (hclosing : w.closing = true) :
    release.wp orderly .nil lifecycle (lifecycle.PostAt true w₀)
      (fun _ => lifecycle.PostAt true w₀) w := by
  refine Contract.wp_of_exec _ fun rs _ => ?_
  obtain ⟨stage, hat⟩ := h.stage
  rw [calling, hat.handle, hat.closing, hat.pending] at hcalling
  cases stage with
  | calling =>
      rw [exec_release hat.native]
      exact ⟨h.released (hat.released rfl hat.pending rfl rfl), fun _ => hclosing, nofun⟩
  | opened => cases hcalling
  | closing cb => cases hcalling
  | closed cb => cases hcalling

/-- The close completes, and calls `onclose` before it gives the handle up. -/
theorem closed_keeps (h : Tallied w) (hpending : w.pending = true) :
    (machine.body .closed).wp orderly .nil lifecycle (lifecycle.PostAt true w)
      (fun _ => lifecycle.PostAt true w) w := by
  refine Contract.wp_of_exec _ fun rs _ => ?_
  obtain ⟨stage, hat⟩ := h.stage
  have hstage : ∃ cb, stage = .closing cb := by
    rw [hat.pending] at hpending
    cases stage with
    | closing cb => exact ⟨cb, rfl⟩
    | opened => cases hpending
    | calling => cases hpending
    | closed cb => cases hpending
  obtain ⟨cb, rfl⟩ := hstage
  have hgood : Good w := hat.good hat.handle
  have hgood' : Good { w with pending := false } := { hgood with }
  have hkept : Kept (.settle [] ((machine.body .closed).exec rs w)) := kept_closed hat hpending
  rw [exec_closed hgood] at hkept ⊢
  cases cb with
  | none =>
      rw [exec_onClose_none hgood' (hat.onCloseCb rfl)] at hkept ⊢
      obtain ⟨stage, hreleased, -⟩ := hkept
      exact ⟨⟨⟨stage, hreleased⟩, h.closes, h.frees, fun _ => rfl⟩, id, nofun⟩
  | some cb =>
      rw [exec_onClose_some hgood' (hat.onCloseCb rfl)] at hkept ⊢
      have hunfreed : w.freed = true → w.calls.handle = false := h.freed
      by_cases hfunction : rs.headD 0 ≠ 0
      · rw [if_pos hfunction] at hkept ⊢
        obtain ⟨stage, hcalling, -⟩ := hkept
        have hruns : (w.handle && w.closing && !false) = true := by
          rw [hat.handle, hat.closing]
          rfl
        refine ⟨h.called hcalling rfl rfl rfl hunfreed, fun v hv => ⟨fun _ => ?_, False.elim⟩⟩
        exact release_keeps hv.1 (hv.2.2.trans hruns) (hv.2.1 hat.closing)
      · rw [if_neg hfunction] at hkept ⊢
        obtain ⟨stage, hreleased, -⟩ := hkept
        exact ⟨h.called hreleased rfl rfl rfl fun _ => rfl, id, nofun⟩

/-- What nobody refers to has been given up. -/
theorem gc_keeps (h : Tallied w) (hreferenced : w.referenced = false) (hfreed : w.freed = false) :
    destroy.wp orderly .nil lifecycle (lifecycle.Post w) (fun _ => lifecycle.Post w) w := by
  refine Contract.wp_of_exec _ fun rs _ => ?_
  obtain ⟨stage, hat⟩ := h.stage
  have hhandle : w.handle = false := by rw [hat.handle, ← hat.referenced, hreferenced]
  rw [exec_destroy hhandle]
  exact ⟨h.destroy hhandle hfreed, id, rfl⟩

end wrapper

/-! ### What is not taken back -/

/-- Nothing is called when the handle is closed. -/
def Silent (w : HandleWrap) : Prop := w.pending = true → w.onCloseCb = none

/-- A close is not taken back, and neither is a release. Only a `noisy` write registers a function
that is called when the handle is closed. -/
structure Onward (noisy : Prop) (w v : HandleWrap) : Prop where
  closing : w.closing = true → v.closing = true
  freed : w.freed = true → v.freed = true
  silent : ¬ noisy → Silent w → Silent v

section onward

variable {noisy : Prop}

theorem Onward.refl (w : HandleWrap) : Onward noisy w w := ⟨id, id, fun _ => id⟩

theorem note_onward (o : WrapNote) : (note o).ChangesBy (Onward noisy) := fun _ =>
  (Prog.changes_modify _).mpr ⟨id, id, fun _ => id⟩

theorem assert_onward (holds : Bool) : (iotjsAssert holds).ChangesBy (Onward noisy) :=
  .ite (fun _ => Prog.changes_pure ()) fun _ =>
    (Prog.changes_modify_bind ..).mpr ⟨⟨id, id, fun _ => id⟩, Prog.changes_fail _⟩

theorem validate_onward : validate.ChangesBy (Onward noisy) := fun w =>
  (Prog.changes_get_bind _).mpr ((Prog.changes_ite ..).mpr
    ⟨fun _ => (assert_onward _ w).bind fun _ => assert_onward _,
      fun _ => (Prog.changes_modify_bind ..).mpr ⟨⟨id, id, fun _ => id⟩, Prog.changes_fail _⟩⟩)

theorem jobjectwrapJobject_onward : jobjectwrapJobject.ChangesBy (Onward noisy) := fun w =>
  (Prog.changes_get_bind _).mpr (assert_onward _ w)

theorem jobject_onward : jobject.ChangesBy (Onward noisy) :=
  validate_onward.bind fun _ => jobjectwrapJobject_onward

theorem close_onward {cb : Option OnCloseHandler} (hcb : cb = none ∨ noisy) :
    (close cb).ChangesBy (Onward noisy) := fun _ =>
  (Prog.changes_get_bind _).mpr ((Prog.changes_ite ..).mpr
    ⟨fun _ => (Prog.changes_modify _).mpr
      ⟨fun _ => rfl, id, fun hquiet _ _ => hcb.resolve_right hquiet⟩,
      fun _ => Prog.changes_pure ()⟩)

theorem answered_onward (q : UvCall) {p : Int → Wrapping Unit}
    (hp : ∀ err, (p err).ChangesBy (Onward noisy)) :
    (Prog.askFor q >>= p).ChangesBy (Onward noisy) :=
  fun w => (Prog.changes_askFor_bind ..).mpr fun err => hp err w

theorem withHandle_onward (q : UvCall) : (withHandle q).ChangesBy (Onward noisy) :=
  validate_onward.bind fun _ => validate_onward.bind fun _ =>
    answered_onward q fun err => note_onward (.returned err)

theorem makeCallback_onward (u : WrapYield) : (makeCallback u).ChangesBy (Onward noisy) :=
  fun _ => (Prog.changes_modify_bind ..).mpr ⟨⟨id, id, fun _ => id⟩, Prog.changes_yieldTo u⟩

theorem perform_onward (op : Op) : (perform op).ChangesBy (Onward (op = .tcpClose)) := by
  cases op with
  | tcpOpen => exact fun _ => trivial
  | tcpClose => exact validate_onward.bind fun _ => close_onward (.inr rfl)
  | tcpBind addrErr => exact .ite (withHandle_onward _) (note_onward _)
  | tcpConnect addrErr => exact .ite (withHandle_onward _) (note_onward _)
  | udpBind addrErr =>
      exact validate_onward.bind fun _ => .ite (validate_onward.bind fun _ =>
        answered_onward _ fun err => note_onward (.returned err)) (note_onward _)
  | udpRecvStart =>
      exact validate_onward.bind fun _ => validate_onward.bind fun _ =>
        answered_onward _ fun err => note_onward _
  | udpSend addrErr =>
      exact validate_onward.bind fun _ => .ite (validate_onward.bind fun _ =>
        answered_onward _ fun err => note_onward (.returned err)) (note_onward _)
  | udpClose => exact validate_onward.bind fun _ => close_onward (.inl rfl)
  | timerStart =>
      exact validate_onward.bind fun _ => answered_onward _ fun res => note_onward (.returned res)
  | timerStop =>
      refine validate_onward.bind fun _ => validate_onward.bind fun _ w =>
        (Prog.changes_get_bind _).mpr ?_
      cases hclosing : w.closing with
      | true => exact note_onward (.returned 0) w
      | false => exact (close_onward (.inl rfl)).bind (fun _ => note_onward (.returned 0)) w
  | _ => exact withHandle_onward _

/-- The end of a close: nothing waits for it any more. -/
theorem release_onward : release.ChangesBy (Onward noisy) := by
  intro w
  refine (Prog.changes_modify_bind ..).mpr ⟨⟨id, id, fun _ => id⟩, ?_⟩
  refine (jobjectwrapJobject_onward _).bind fun _ v => ?_
  exact (Prog.changes_modify _).mpr ⟨id, id, fun _ => id⟩

theorem onClose_onward : onClose.ChangesBy (Onward noisy) := by
  intro w
  refine (Prog.changes_get_bind _).mpr ?_
  cases w.onCloseCb with
  | none => exact release_onward w
  | some cb =>
      refine (note_onward _).bind (fun _ => ?_) w
      refine Prog.ChangesBy.bind ?_ fun _ => release_onward
      exact validate_onward.bind fun _ => jobject_onward.bind fun _ =>
        answered_onward _ fun isFunction =>
          .ite (makeCallback_onward _) fun _ => Prog.changes_pure ()

theorem body_onward (i : HandleWrap.Call) :
    (machine.body i).ChangesBy (Onward (i = .op .tcpClose)) := by
  cases i with
  | op op =>
      exact (perform_onward op).mono fun _ _ h =>
        ⟨h.closing, h.freed, fun hquiet => h.silent fun hop => hquiet (hop ▸ rfl)⟩
  | event =>
      exact validate_onward.bind fun _ => validate_onward.bind fun _ =>
        jobject_onward.bind fun _ => makeCallback_onward _
  | walk => exact validate_onward.bind fun _ => close_onward (.inl rfl)
  | closed =>
      refine fun w => (Prog.changes_modify_bind ..).mpr ⟨⟨id, id, fun _ _ h => nomatch h⟩, ?_⟩
      exact validate_onward.bind (fun _ => onClose_onward) _
  | drop => exact fun w => (Prog.changes_modify _).mpr ⟨id, id, fun _ => id⟩
  | gc =>
      refine fun w => (Prog.changes_get_bind _).mpr ?_
      refine (note_onward _).bind (fun _ => (assert_onward _).bind fun _ v => ?_) w
      exact (Prog.changes_modify _).mpr ⟨id, fun _ => rfl, fun _ => id⟩

end onward

/-- Where nothing is called when the handle is closed, nothing is called but by an event. -/
theorem exec_silent {w : HandleWrap} {i : Call} {atRest : Bool} (h : Tallied w) (hsilent : Silent w)
    (hen : machine.enabled i atRest w = true) (hevent : i ≠ .event) (rs : List Int)
    (u : WrapYield) (p : Wrapping Unit) (v : HandleWrap) :
    (machine.body i).exec rs w ≠ .yielded u p v := by
  intro hexec
  obtain ⟨stage, hat⟩ := h.stage
  obtain ⟨-, hen⟩ := Bool.and_eq_true_iff.mp hen
  cases i with
  | op op =>
      have hexec : (perform op).exec rs w = .yielded u p v := hexec
      cases hhandle : w.handle with
      | true =>
          have hperformed : Performed w ((perform op).exec rs w) := performed (hat.good hhandle) op
          rw [hexec] at hperformed
          cases hperformed
      | false =>
          cases hreads : reads op with
          | true =>
              rw [exec_perform_null hhandle hreads] at hexec
              cases hexec
          | false =>
              obtain ⟨errs, hreturned⟩ : ∃ errs, (perform op).exec rs w =
                  .done () (w.returning errs) := exec_perform_apart hreads
              rw [hreturned] at hexec
              cases hexec
  | event => exact hevent rfl
  | walk =>
      have hexec : walk.exec rs w = .yielded u p v := hexec
      obtain ⟨-, hloop⟩ := Bool.and_eq_true_iff.mp hen
      rw [exec_walk (hat.good (hat.inLoop hloop).1)] at hexec
      cases hexec
  | closed =>
      obtain ⟨-, hpending⟩ := Bool.and_eq_true_iff.mp hen
      have hgood : Good w := hat.good (hat.inLoop (by rw [inLoop, hpending, Bool.or_true])).1
      have hgood' : Good { w with pending := false } := { hgood with }
      rw [exec_closed hgood, exec_onClose_none hgood' (hsilent hpending)] at hexec
      cases hexec
  | drop => cases hexec
  | gc =>
      have hexec : destroy.exec rs w = .yielded u p v := hexec
      obtain ⟨hen, -⟩ := Bool.and_eq_true_iff.mp hen
      obtain ⟨-, hreferenced⟩ := Bool.and_eq_true_iff.mp hen
      rw [Bool.not_eq_true', hat.referenced, ← hat.handle] at hreferenced
      rw [exec_destroy hreferenced] at hexec
      cases hexec

end IotJs.HandleWrap

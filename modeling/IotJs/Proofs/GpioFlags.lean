import IotJs.Core.Gpio
import IotJs.Lib.History
import IotJs.Lib.Runs
import Mathlib.Data.List.Perm.Basic

/-!
# `IotJs.Proofs.GpioFlags`: the flags of the GPIO object

`_initializing` is set when an initialize is requested, and nothing resets it. So it tells that one
is in flight until the first one completes, with whatever result, and never after that
(`flags_iff_not_completed`). What the object is asked for at most once is an initialize, which is
then alone in flight (`Inv.alone`), and `_initialized` follows the results and agrees with the
flag of the native side in every run (`Inv`).

A request is queued under the flag and its worker runs later. The flag changes in between when a
release completes before the worker has run (`calm_iff_safe`).
-/

set_option autoImplicit false

namespace IotJs

open History Runs

namespace Gpio

/-- The operations of the requests that have not completed. -/
def ops (s : Gpio) : List GpioOp := (s.work ++ s.after).map GpioRequest.op

/-- An initialize has been requested and has not completed. -/
def Starting (s : Gpio) : Prop := .kGpioOpInitize ∈ s.ops

/-- A completion that makes the object initialized. -/
def Succeeds (o : GpioObs) : Prop := o = .completed .kGpioOpInitize none

/-- A completion after which an earlier one does not count. -/
def Overrides : GpioObs → Prop
  | .completed .kGpioOpInitize _ => True
  | .completed .kGpioOpRelease err => err = none
  | _ => False

/-- The last initialize that completed succeeded, and no release that completed after it did. -/
def Succeeded (s : Gpio) : Prop := Owed Succeeds Overrides s.log

/-- The flags say what they are named for, and an initialize that finds the object in neither state
makes a request. -/
structure Flags (s : Gpio) : Prop where
  starting : s._initializing = true ↔ s.Starting
  succeeded : s._initialized = true ↔ s.Succeeded
  starts : s.aborted = none → ¬ s.Starting → ¬ s.Succeeded →
    ∃ t, s.step (.call .initialize_) = some t ∧ t.work = s.work ++ [{ op := .kGpioOpInitize }]

/-- No assertion of the flag has failed, and none fails when a worker runs next. -/
structure Safe (s : Gpio) : Prop where
  aborted : s.aborted ≠ some .initialized
  waiting : ∀ request ∈ s.work, s.initialized = request.op.initialized

/-! ### What a step does -/

inductive Moved (s : Gpio) : GpioMove → Gpio → Prop
  | initialized : s._initialized = true → Moved s (.call .initialize_) s
  | threw (call : GpioCall) (exception : GpioException) :
      Moved s (.call call) (s.record (.threw exception))
  | starts : s._initialized = false → s._initializing = false →
      Moved s (.call .initialize_)
        (async { s with _initializing := true } { op := .kGpioOpInitize })
  | queued (call : GpioCall) (request : GpioRequest) : s._initialized = true →
      request.op.initialized = true → Moved s (.call call) (s.async request)
  | work {k : Nat} {request done : GpioRequest} (files : GpioFiles) : s.work[k]? = some request →
      s.initialized = request.op.initialized → done.op = request.op →
      Moved s (.work k files) { s with work := s.work.eraseIdx k, after := s.after ++ [done] }
  | failed {k : Nat} {request : GpioRequest} (files : GpioFiles) : s.work[k]? = some request →
      s.initialized ≠ request.op.initialized →
      Moved s (.work k files) { s with aborted := some .initialized }
  | mode {k : Nat} {request : GpioRequest} (files : GpioFiles) : s.work[k]? = some request →
      Moved s (.work k files) { s with aborted := some .mode }
  | after {k : Nat} {request : GpioRequest} (status : Int) : s.after[k]? = some request →
      Moved s (.after k status) (s.afterGPIOWork k request status)

variable {s t : Gpio} {move : GpioMove}

theorem exists_of_bind_ok {ε α β : Type} {x : Except ε α} {f : α → Except ε β} {b : β}
    (h : x >>= f = .ok b) : ∃ a, x = .ok a ∧ f a = .ok b := by
  cases x with
  | error e => cases h
  | ok a => exact ⟨a, rfl, h⟩

/-- The requests of the other methods are for an object that is initialized. -/
theorem initialized_of_request {call : GpioCall} {request : GpioRequest}
    (hcall : call ≠ .initialize_) (h : Gpio.request call = .ok request) :
    request.op.initialized = true := by
  unfold Gpio.request at h
  split at h
  · exact absurd rfl hcall
  · cases h
    rfl
  · cases h
  · cases h
  · cases h
  · cases h
  · obtain ⟨pin, -, h⟩ := exists_of_bind_ok h
    obtain ⟨dir, -, h⟩ := exists_of_bind_ok h
    obtain ⟨mode, -, h⟩ := exists_of_bind_ok h
    cases h
    rfl
  · obtain ⟨pin, -, h⟩ := exists_of_bind_ok h
    cases h
    rfl
  · obtain ⟨pin, -, h⟩ := exists_of_bind_ok h
    cases h
    rfl

/-- `release`, `open`, `write` and `read` throw, or make a request of an object that is
initialized. -/
theorem method_ok {op : GpioOp} {call : GpioCall} (h : s.method op call = .ok t)
    (hcall : call ≠ .initialize_) :
    s._initialized = true ∧ ∃ request : GpioRequest, request.op.initialized = true ∧
      t = s.async request := by
  unfold method at h
  split at h
  · cases op <;> cases h
  · rename_i hinit
    obtain ⟨request, hrequest, h⟩ := exists_of_bind_ok h
    cases h
    exact ⟨by simpa using hinit, request, initialized_of_request hcall hrequest, rfl⟩

theorem moved_of_call {call : GpioCall} (h : s.call call = .ok t) : Moved s (.call call) t := by
  cases call with
  | initialize_ =>
      simp only [Gpio.call, initialize_] at h
      split at h
      · rename_i hinit
        cases h
        exact .initialized hinit
      · rename_i hinit
        split at h
        · cases h
        · rename_i hstarting
          cases h
          exact .starts (by simpa using hinit) (by simpa using hstarting)
  | release =>
      obtain ⟨hinit, request, hop, rfl⟩ := method_ok h (by decide)
      exact .queued _ request hinit hop
  | open_ pinNumber direction mode =>
      obtain ⟨hinit, request, hop, rfl⟩ := method_ok h GpioCall.noConfusion
      exact .queued _ request hinit hop
  | write pinNumber value =>
      obtain ⟨hinit, request, hop, rfl⟩ := method_ok h GpioCall.noConfusion
      exact .queued _ request hinit hop
  | read pinNumber =>
      obtain ⟨hinit, request, hop, rfl⟩ := method_ok h GpioCall.noConfusion
      exact .queued _ request hinit hop

/-- A worker keeps the operation of its request, and asserts nothing but the mode. -/
theorem worker_cases (request : GpioRequest) (files : GpioFiles) :
    (∃ done : GpioRequest, request.worker files = .ok done ∧ done.op = request.op) ∨
      request.worker files = .error .mode := by
  unfold GpioRequest.worker
  split
  · exact .inl ⟨_, rfl, rfl⟩
  · exact .inl ⟨_, rfl, rfl⟩
  · unfold GpioRequest.openGpioWorker
    split
    · exact .inl ⟨_, rfl, rfl⟩
    · split
      · exact .inl ⟨_, rfl, rfl⟩
      · split
        · exact .inl ⟨_, rfl, rfl⟩
        · unfold GpioRequest.setPinMode
          split
          · exact .inr rfl
          · exact .inl ⟨_, rfl, rfl⟩
  · exact .inl ⟨_, rfl, rfl⟩
  · unfold GpioRequest.readGpioWorker
    split
    · exact .inl ⟨_, rfl, rfl⟩
    · exact .inl ⟨_, rfl, rfl⟩

theorem moved_runWorker {k : Nat} {request : GpioRequest} {files : GpioFiles}
    (hk : s.work[k]? = some request) : Moved s (.work k files) (s.runWorker k request files) := by
  unfold runWorker
  split
  · rename_i hflag
    obtain ⟨done, hdone, hop⟩ | hmode := worker_cases request files
    · rw [hdone]
      exact .work files hk hflag hop
    · rw [hmode]
      exact .mode files hk
  · rename_i hflag
    exact .failed files hk hflag

theorem moved_of_step (h : s.step move = some t) : s.aborted = none ∧ Moved s move t := by
  unfold step at h
  split at h
  · cases h
  · rename_i haborted
    refine ⟨by simpa using haborted, ?_⟩
    cases move with
    | call call =>
        cases hcall : s.call call with
        | ok u =>
            simp only [hcall, Option.some.injEq] at h
            exact h ▸ moved_of_call hcall
        | error exception =>
            simp only [hcall, Option.some.injEq] at h
            exact h ▸ .threw call exception
    | work k files =>
        obtain ⟨request, hk, rfl⟩ := Option.map_eq_some_iff.mp h
        exact moved_runWorker hk
    | after k status =>
        obtain ⟨request, hk, rfl⟩ := Option.map_eq_some_iff.mp h
        exact .after status hk

/-! ### What a completion does -/

section

variable {request : GpioRequest} (k : Nat) (status : Int)

theorem afterGPIOWork_initialized (hop : request.op = .kGpioOpInitize) :
    s.afterGPIOWork k request status =
      { s with
        after := s.after.eraseIdx k
        initialized := s.initialized || result request status = .kGpioErrOk
        _initialized := result request status = .kGpioErrOk
        log := s.log ++ [.completed .kGpioOpInitize
          (createGpioError "initialize" (result request status))] } := by
  unfold afterGPIOWork setInitialized handle
  simp only [hop]
  cases result request status <;> simp [record, GpioOp.operation]

theorem afterGPIOWork_release (hop : request.op = .kGpioOpRelease) :
    s.afterGPIOWork k request status =
      { s with
        after := s.after.eraseIdx k
        initialized := s.initialized && result request status ≠ .kGpioErrOk
        _initialized := s._initialized && result request status ≠ .kGpioErrOk
        log := s.log ++ [.completed .kGpioOpRelease
          (createGpioError "release" (result request status))] } := by
  unfold afterGPIOWork setInitialized handle
  simp only [hop]
  cases result request status <;> simp [record, GpioOp.operation]

theorem afterGPIOWork_other (hinit : request.op ≠ .kGpioOpInitize)
    (hrelease : request.op ≠ .kGpioOpRelease) :
    s.afterGPIOWork k request status =
      { s with
        after := s.after.eraseIdx k
        log := s.log ++ [.completed request.op
          (createGpioError request.op.operation (result request status))] } := by
  unfold afterGPIOWork setInitialized handle
  cases hop : request.op <;> simp_all [record]

end

/-- What a completion leaves as it was. -/
theorem afterGPIOWork_frame (k : Nat) (request : GpioRequest) (status : Int) :
    (s.afterGPIOWork k request status)._initializing = s._initializing ∧
      (s.afterGPIOWork k request status).work = s.work ∧
      (s.afterGPIOWork k request status).after = s.after.eraseIdx k ∧
      (s.afterGPIOWork k request status).aborted = s.aborted := by
  unfold afterGPIOWork setInitialized handle
  cases request.op <;> cases result request status <;> exact ⟨rfl, rfl, rfl, rfl⟩

theorem createGpioError_eq_none {operation : String} {errno : GpioErrno} :
    createGpioError operation errno = none ↔ errno = .kGpioErrOk := by
  cases errno <;> simp [createGpioError]

/-! ### The invariant -/

/-- An initialize is requested once. It is alone until it has completed, and the flags agree. -/
structure Inv (s : Gpio) : Prop where
  same : s._initialized = s.initialized
  idle : s._initializing = false → s.ops = [] ∧ s.initialized = false
  alone : s.Starting → s.ops = [.kGpioOpInitize] ∧ s.initialized = false
  succeeded : s._initialized = true ↔ s.Succeeded

theorem ops_queue (s : Gpio) (request : GpioRequest) :
    ({ s with work := s.work ++ [request] } : Gpio).ops.Perm (request.op :: s.ops) := by
  simp only [ops, List.append_assoc]
  exact List.perm_middle.map GpioRequest.op

theorem ops_work {k : Nat} {request done : GpioRequest} (hk : s.work[k]? = some request)
    (hop : done.op = request.op) :
    ({ s with work := s.work.eraseIdx k, after := s.after ++ [done] } : Gpio).ops.Perm s.ops := by
  obtain ⟨hlt, rfl⟩ := List.getElem?_eq_some_iff.mp hk
  have hperm := (List.getElem_cons_eraseIdx_perm hlt).map GpioRequest.op
  simp only [ops, List.map_append, List.map_cons, List.map_nil, hop, ← List.append_assoc]
  exact (List.perm_append_singleton _ _).trans (hperm.append_right _)

theorem ops_after {k : Nat} {request : GpioRequest} (hk : s.after[k]? = some request)
    (hwork : t.work = s.work) (hafter : t.after = s.after.eraseIdx k) :
    s.ops.Perm (request.op :: t.ops) := by
  obtain ⟨hlt, rfl⟩ := List.getElem?_eq_some_iff.mp hk
  have hperm := (List.getElem_cons_eraseIdx_perm hlt).symm.map GpioRequest.op
  simp only [ops, List.map_append, hwork, hafter]
  exact (hperm.append_left _).trans List.perm_middle

theorem async_eq {request : GpioRequest} (h : s.initialized = request.op.initialized) :
    s.async request = { s with work := s.work ++ [request] } := if_pos h

theorem Inv.starts (h : s.Inv) (hstarting : s._initializing = false) :
    async { s with _initializing := true } { op := .kGpioOpInitize } =
      { s with _initializing := true, work := s.work ++ [{ op := .kGpioOpInitize }] } :=
  async_eq (h.idle hstarting).2

theorem Inv.queued (h : s.Inv) {request : GpioRequest} (hinit : s._initialized = true)
    (hop : request.op.initialized = true) :
    s.async request = { s with work := s.work ++ [request] } := by
  refine async_eq ?_
  rw [hop, ← h.same, hinit]

/-- While another request is in flight, no initialize is. -/
theorem Inv.not_starting (h : s.Inv) {op : GpioOp} (hop : op ∈ s.ops) (hne : op ≠ .kGpioOpInitize) :
    ¬ s.Starting := by
  intro hstarting
  rw [(h.alone hstarting).1] at hop
  exact hne (List.mem_singleton.mp hop)

theorem Inv.completed_initialized (h : s.Inv) {k : Nat} {request : GpioRequest} (status : Int)
    (hk : s.after[k]? = some request) (hop : request.op = .kGpioOpInitize) :
    (s.afterGPIOWork k request status).ops = [] ∧ s.initialized = false := by
  rw [afterGPIOWork_initialized k status hop]
  have hperm := ops_after hk (t := { s with after := s.after.eraseIdx k }) rfl rfl
  obtain ⟨hops, hflag⟩ := h.alone (hperm.mem_iff.mpr (by simp [hop]))
  rw [hops] at hperm
  exact ⟨(List.cons.inj (List.perm_singleton.mp hperm.symm)).2, hflag⟩

/-- The completion of another request. -/
theorem Inv.completed_other (h : s.Inv) {k : Nat} {request : GpioRequest}
    (hk : s.after[k]? = some request) (hne : request.op ≠ .kGpioOpInitize) (hwork : t.work = s.work)
    (hafter : t.after = s.after.eraseIdx k) (hstarting : t._initializing = s._initializing)
    (hsame : t._initialized = t.initialized)
    (hsucceeded : t._initialized = true ↔ t.Succeeded) : t.Inv := by
  have hperm := ops_after hk hwork hafter
  have hmem : request.op ∈ s.ops := hperm.mem_iff.mpr List.mem_cons_self
  refine ⟨hsame, fun hfalse => ?_, fun hinit => ?_, hsucceeded⟩
  · rw [(h.idle (hstarting ▸ hfalse)).1] at hmem
    cases hmem
  · exact absurd (hperm.mem_iff.mpr (List.mem_cons_of_mem _ hinit)) (h.not_starting hmem hne)

theorem Inv.step (h : s.Inv) (hmoved : Moved s move t) : t.Inv := by
  cases hmoved with
  | initialized hinit => exact h
  | threw call exception =>
      refine ⟨h.same, h.idle, h.alone, h.succeeded.trans ?_⟩
      simp [Succeeded, record, Succeeds, Overrides]
  | starts hinit hstarting =>
      -- nothing is in flight, so the new initialize is alone
      rw [h.starts hstarting]
      obtain ⟨hops, hflag⟩ := h.idle hstarting
      have hperm := ops_queue s { op := .kGpioOpInitize }
      rw [hops] at hperm
      exact ⟨h.same, Bool.noConfusion, fun _ => ⟨List.perm_singleton.mp hperm, hflag⟩, h.succeeded⟩
  | queued call request hinit hop =>
      -- beside an initialize the flag would be off
      rw [h.queued hinit hop]
      have hflag : s.initialized = true := h.same ▸ hinit
      refine ⟨h.same, fun hstarting => ?_, fun hstarting => ?_, h.succeeded⟩
      · have hfalse := (h.idle hstarting).2
        simp [hflag] at hfalse
      · obtain heq | hmem := List.mem_cons.mp ((ops_queue s request).mem_iff.mp hstarting)
        · simp [← heq, GpioOp.initialized] at hop
        · have hfalse := (h.alone hmem).2
          simp [hflag] at hfalse
  | work files hk hflag hop =>
      -- the request goes from one list to the other
      have hperm := ops_work hk hop
      refine ⟨h.same, fun hstarting => ?_, fun hstarting => ?_, h.succeeded⟩
      · obtain ⟨hops, hfalse⟩ := h.idle hstarting
        exact ⟨List.perm_nil.mp (hops ▸ hperm), hfalse⟩
      · obtain ⟨hops, hfalse⟩ := h.alone (hperm.mem_iff.mp hstarting)
        exact ⟨List.perm_singleton.mp (hops ▸ hperm), hfalse⟩
  | failed files hk hflag => exact ⟨h.same, h.idle, h.alone, h.succeeded⟩
  | mode files hk => exact ⟨h.same, h.idle, h.alone, h.succeeded⟩
  | @after k request status hk =>
      by_cases hinit : request.op = .kGpioOpInitize
      · obtain ⟨hops, hflag⟩ := h.completed_initialized status hk hinit
        have hmem : request.op ∈ s.ops :=
          (ops_after (t := { s with after := s.after.eraseIdx k }) hk rfl rfl).mem_iff.mpr
            List.mem_cons_self
        rw [afterGPIOWork_initialized k status hinit] at hops ⊢
        -- it was alone, so nothing is in flight now
        refine ⟨by simp [hflag], fun hidle => ?_, fun hstarting => ?_, ?_⟩
        · rw [(h.idle hidle).1] at hmem
          cases hmem
        · rw [Starting, hops] at hstarting
          cases hstarting
        · simp [Succeeded, Succeeds, Overrides, createGpioError_eq_none]
      · by_cases hrelease : request.op = .kGpioOpRelease
        · -- the two flags are turned off together
          rw [afterGPIOWork_release k status hrelease]
          refine h.completed_other hk hinit rfl rfl rfl (by simp [h.same]) ?_
          simp [Succeeded, Succeeds, Overrides, createGpioError_eq_none, h.succeeded]
        · -- the other result handlers leave the flags alone
          rw [afterGPIOWork_other k status hinit hrelease]
          refine h.completed_other hk hinit rfl rfl rfl h.same ?_
          have hkeeps : ¬ Overrides (.completed request.op
              (createGpioError request.op.operation (result request status))) := by
            cases hop : request.op <;> simp_all [Overrides]
          simp [Succeeded, Succeeds, hinit, hkeeps, h.succeeded]

theorem inv_new : new.Inv := by
  refine ⟨rfl, fun _ => ⟨rfl, rfl⟩, fun hstarting => ?_, ?_⟩
  · cases hstarting
  · simp [Succeeded, new]

/-! ### The flags -/

/-- A move that completes an initialize. -/
def Completes (s : Gpio) : GpioMove → Prop
  | .after k _ => ∃ request ∈ s.after[k]?, request.op = .kGpioOpInitize
  | _ => False

/-- With the invariant, the flags are right where `_initializing` is. -/
theorem Inv.flags_iff (h : s.Inv) : s.Flags ↔ (s._initializing = true ↔ s.Starting) := by
  refine ⟨Flags.starting, fun hstarting => ⟨hstarting, h.succeeded, fun haborted hnot _ => ?_⟩⟩
  have hidle : s._initializing = false := by simpa using hstarting.not.mpr hnot
  have hinit : s._initialized = false := h.same.trans (h.idle hidle).2
  have hcall := h.starts hidle
  refine ⟨async { s with _initializing := true } { op := .kGpioOpInitize }, ?_, by rw [hcall]⟩
  simp [Gpio.step, Gpio.call, initialize_, haborted, hidle, hinit]

theorem flags_new : new.Flags := by
  refine inv_new.flags_iff.mpr (iff_of_false Bool.noConfusion fun hstarting => ?_)
  cases hstarting

/-- Each step keeps the flags right if and only if it completes no initialize. -/
theorem flags_step (h : s.Inv) (hflags : s.Flags) (hmoved : Moved s move t) :
    t.Flags ↔ ¬ s.Completes move := by
  rw [(h.step hmoved).flags_iff]
  have hstarting := hflags.starting
  cases hmoved with
  | initialized hinit => exact iff_of_true hstarting id
  | threw call exception => exact iff_of_true hstarting id
  | starts hinit hidle =>
      rw [h.starts hidle]
      refine iff_of_true (iff_of_true rfl ?_) id
      exact (ops_queue s { op := .kGpioOpInitize }).mem_iff.mpr List.mem_cons_self
  | queued call request hinit hop =>
      rw [h.queued hinit hop]
      refine iff_of_true (hstarting.trans ?_) id
      rw [Starting, Starting, (ops_queue s request).mem_iff, List.mem_cons]
      have hne : .kGpioOpInitize ≠ request.op := by
        intro heq
        simp [← heq, GpioOp.initialized] at hop
      simp [hne]
  | work files hk hflag hop =>
      exact iff_of_true (hstarting.trans (ops_work hk hop).mem_iff.symm) id
  | failed files hk hflag => exact iff_of_true hstarting id
  | mode files hk => exact iff_of_true hstarting id
  | @after k request status hk =>
      have hcompletes : s.Completes (.after k status) ↔ request.op = .kGpioOpInitize := by
        simp [Completes, hk]
      -- no result handler turns `_initializing` off, and one operation is in flight no more
      obtain ⟨hsame, hwork, hafter, -⟩ := afterGPIOWork_frame k request status
      have hperm := ops_after hk hwork hafter
      rw [hcompletes, hsame, hstarting, Starting, hperm.mem_iff, List.mem_cons]
      by_cases hinit : request.op = .kGpioOpInitize
      · have hops := (h.completed_initialized status hk hinit).1
        simp [Starting, hops, hinit]
      · simp [Starting, hinit, Ne.symm hinit]

/-- In every run, the flags are right in each state if and only if no initialize completes. -/
theorem flags_iff_not_completed {moves : List GpioMove} (hrun : run step new moves = some t) :
    Along step Flags new moves ↔ Meets step (fun s move => ¬ s.Completes move) new moves := by
  refine along_iff (I := Inv) ?_ inv_new flags_new hrun
  intro s move u hinv hflags hstep
  obtain ⟨-, hmoved⟩ := moved_of_step hstep
  exact ⟨hinv.step hmoved, flags_step hinv hflags hmoved⟩

instance (s : Gpio) : (move : GpioMove) → Decidable (s.Completes move)
  | .call _ | .work _ _ => .isFalse id
  | .after k _ =>
      inferInstanceAs (Decidable (∃ request ∈ s.after[k]?, request.op = .kGpioOpInitize))

/-- What the files answer on a machine with GPIO. -/
def present : GpioFiles := ⟨true, [], true, true, some true⟩

/-- An initialize is requested and its worker runs. -/
theorem flags_of_worker : Along step Flags new [.call .initialize_, .work 0 present] :=
  (flags_iff_not_completed rfl).mpr (by decide)

/-- After an initialize that fails, the next one throws. -/
theorem no_second_initialize : ¬ ∀ moves t, run step new moves = some t → t.Flags := by
  intro h
  have hflags := h [.call .initialize_, .work 0 { present with path := false }, .after 0 0]
    { new with
      _initializing := true
      log := [.completed .kGpioOpInitize (some
        ⟨.kGpioErrInitialize, "initialize", "initialize: Failed to initialize GPIO"⟩)] } (by decide)
  obtain ⟨t, hstep, hwork⟩ := hflags.starts rfl List.not_mem_nil (by simp [Succeeded, Succeeds])
  cases hstep
  cases hwork

/-! ### The assertions -/

/-- A release that completes with success finds no request whose worker has not run. -/
def Calm (s : Gpio) : GpioMove → Prop
  | .after k status =>
      ∀ request ∈ s.after[k]?, request.op = .kGpioOpRelease →
        result request status = .kGpioErrOk → s.work = []
  | _ => True

theorem safe_new : new.Safe :=
  ⟨by decide, fun _ hmem => absurd hmem List.not_mem_nil⟩

theorem Safe.queue (h : s.Safe) {request : GpioRequest}
    (hflag : s.initialized = request.op.initialized) :
    ({ s with work := s.work ++ [request] } : Gpio).Safe := by
  refine ⟨h.aborted, fun other hmem => ?_⟩
  obtain hmem | hmem := List.mem_append.mp hmem
  · exact h.waiting other hmem
  · obtain rfl := List.mem_singleton.mp hmem
    exact hflag

/-- With the flag off, the requests that wait are safe where there are none, unless one of them is
an initialize. -/
theorem safe_iff_idle (haborted : s.aborted ≠ some .initialized) (hflag : s.initialized = false)
    (hnot : ∀ request ∈ s.work, request.op ≠ .kGpioOpInitize) : s.Safe ↔ s.work = [] := by
  constructor
  · rintro ⟨-, hwaiting⟩
    refine List.eq_nil_iff_forall_not_mem.mpr fun request hmem => ?_
    have hop := hflag.symm.trans (hwaiting request hmem)
    have hne := hnot request hmem
    revert hop hne
    cases request.op <;> decide
  · intro hwork
    exact ⟨haborted, fun request hmem => by simp [hwork] at hmem⟩

/-- Each step keeps the assertions safe if and only if it is calm. -/
theorem safe_step (h : s.Inv) (hsafe : s.Safe) (hmoved : Moved s move t) :
    t.Safe ↔ s.Calm move := by
  cases hmoved with
  | initialized hinit => exact iff_of_true hsafe trivial
  | threw call exception => exact iff_of_true ⟨hsafe.aborted, hsafe.waiting⟩ trivial
  | starts hinit hidle =>
      rw [h.starts hidle]
      refine iff_of_true ?_ trivial
      exact Safe.queue (s := { s with _initializing := true }) ⟨hsafe.aborted, hsafe.waiting⟩
        (h.idle hidle).2
  | queued call request hinit hop =>
      rw [h.queued hinit hop]
      exact iff_of_true (hsafe.queue (by rw [hop, ← h.same, hinit])) trivial
  | work files hk hflag hop =>
      refine iff_of_true ⟨hsafe.aborted, fun other hmem => ?_⟩ trivial
      exact hsafe.waiting other (List.mem_of_mem_eraseIdx hmem)
  | failed files hk hflag => exact absurd (hsafe.waiting _ (List.mem_of_getElem? hk)) hflag
  | mode files hk => exact iff_of_true ⟨by simp, hsafe.waiting⟩ trivial
  | @after k request status hk =>
      obtain ⟨-, hwork, hafter, haborted⟩ := afterGPIOWork_frame k request status
      have hperm := ops_after hk hwork hafter
      have hmem : request.op ∈ s.ops := hperm.mem_iff.mpr List.mem_cons_self
      by_cases hinit : request.op = .kGpioOpInitize
      · obtain ⟨hops, -⟩ := h.completed_initialized status hk hinit
        have hnil : (s.afterGPIOWork k request status).work = [] :=
          (List.append_eq_nil_iff.mp (List.map_eq_nil_iff.mp hops)).1
        refine iff_of_true ⟨haborted ▸ hsafe.aborted, fun other hother => ?_⟩ ?_
        · simp [hnil] at hother
        · simp [Calm, hk, hinit]
      · by_cases hsucceeds : request.op = .kGpioOpRelease ∧ result request status = .kGpioErrOk
        · -- the flag is turned off under the workers that have not run
          obtain ⟨hrelease, hok⟩ := hsucceeds
          have hnot : ∀ other ∈ s.work, other.op ≠ .kGpioOpInitize := by
            rintro other hother heq
            refine h.not_starting hmem hinit (List.mem_map.mpr ⟨other, ?_, heq⟩)
            exact List.mem_append_left _ hother
          have hflag : (s.afterGPIOWork k request status).initialized = false := by
            simp [afterGPIOWork_release k status hrelease, hok]
          rw [safe_iff_idle (haborted ▸ hsafe.aborted) hflag (hwork ▸ hnot), hwork]
          simp [Calm, hk, hrelease, hok]
        · -- the flag stays
          have hflag : (s.afterGPIOWork k request status).initialized = s.initialized := by
            unfold afterGPIOWork setInitialized handle
            cases hop : request.op <;> cases herr : result request status <;> simp_all [record]
          refine iff_of_true ⟨haborted ▸ hsafe.aborted, ?_⟩ ?_
          · rw [hwork, hflag]
            exact hsafe.waiting
          · simp only [Calm, hk, Option.mem_some_iff, forall_eq']
            exact fun hrelease hok => absurd ⟨hrelease, hok⟩ hsucceeds

/-- In every run, with the workers in any order, no assertion of the flag fails if and only if each
release that succeeds completes when all workers have run. -/
theorem calm_iff_safe {moves : List GpioMove} (hrun : run step new moves = some t) :
    Along step Safe new moves ↔ Meets step Calm new moves := by
  refine along_iff (I := Inv) ?_ inv_new safe_new hrun
  intro s move u hinv hsafe hstep
  obtain ⟨-, hmoved⟩ := moved_of_step hstep
  exact ⟨hinv.step hmoved, safe_step hinv hsafe hmoved⟩

instance (s : Gpio) : (move : GpioMove) → Decidable (s.Calm move)
  | .call _ | .work _ _ => .isTrue trivial
  | .after k status =>
      inferInstanceAs (Decidable (∀ request ∈ s.after[k]?, request.op = .kGpioOpRelease →
        result request status = .kGpioErrOk → s.work = []))

/-- A pin is opened and read, and then the object is released. -/
theorem safe_until_released : Along step Safe new
    [.call .initialize_, .work 0 present, .after 0 0,
      .call (.open_ (some 0) (some "out") (some "pushpull")), .call (.read (some 0)),
      .work 0 present, .work 0 present, .after 0 0, .after 0 0,
      .call .release, .work 0 present, .after 0 0] :=
  (calm_iff_safe rfl).mpr (by decide)

/-- A read is requested after the worker of a release and runs after its completion. -/
theorem read_after_release : ¬ ∀ moves t, run step new moves = some t →
    t.aborted ≠ some .initialized := by
  intro h
  exact h [.call .initialize_, .work 0 present, .after 0 0, .call .release, .work 0 present,
    .call (.read (some 0)), .after 0 0, .work 0 present] _ rfl (by decide)

end Gpio

end IotJs

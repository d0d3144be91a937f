import IotJs.Core.HandleWrap
import IotJs.Lib.Reentrant.Play

/-!
# `IotJs.Proofs.HandleLifecycle`: a handle from open to closed

A wrapper goes through four stages (`Stage`): open, closing, while libuv owes the callback of
`uv_close`, calling, while the registered function runs, and closed. The stage determines the
pointer `handle`, the reference to the JavaScript object and how often the registered function was
called, and every move of the machine keeps the wrapper in a stage (`kept_step`).

`validate` reads through the pointer before anything else looks at it, also in the methods. So a
method that comes after the close has completed reads through NULL, and nothing else does:
`safe_iff` says that a run is safe if and only if no method comes so late.
-/

set_option autoImplicit false

namespace IotJs.HandleWrap

open Reentrant

/-! ### The programs, run -/

/-- The wrapper can be validated. -/
structure Good (w : HandleWrap) : Prop where
  handle : w.handle = true
  data : w.self = w.data
  native : w.self = w.native

/-- The process ended at a read through NULL. -/
def segfault (w : HandleWrap) : HandleWrap :=
  { w with crashed := true, log := w.log ++ [.nullRead] }

/-- `uv_close` was called. -/
def startClose (w : HandleWrap) (cb : Option OnCloseHandler) : HandleWrap :=
  { w with onCloseCb := cb, closing := true, pending := true, log := w.log ++ [.uvClose cb] }

/-- The pointer is NULL, and the reference was given up. -/
def released (w : HandleWrap) : HandleWrap := { w with handle := false, referenced := false }

/-- These numbers were returned to JavaScript. -/
def returning (w : HandleWrap) (errs : List Int) : HandleWrap :=
  { w with log := w.log ++ errs.map .returned }

section exec

variable {w : HandleWrap} {rs : List Int}

theorem exec_assert {p : Bool} (hp : p = true) (f : Unit → Wrapping Unit) :
    (iotjsAssert p >>= f).exec rs w = (f ()).exec rs w := by
  rw [iotjsAssert, if_pos hp]
  rfl

theorem exec_note (o : WrapNote) (f : Unit → Wrapping Unit) :
    (note o >>= f).exec rs w = (f ()).exec rs { w with log := w.log ++ [o] } := rfl

theorem exec_validate (h : Good w) (f : Unit → Wrapping Unit) :
    (validate >>= f).exec rs w = (f ()).exec rs w := by
  rw [validate, Prog.bind_assoc, Prog.exec_get_bind, if_pos h.handle, Prog.bind_assoc,
    exec_assert (by rw [beq_iff_eq]; exact h.data), exec_assert (by rw [beq_iff_eq]; exact h.native)]

theorem exec_validate_null (h : w.handle = false) (f : Unit → Wrapping Unit) :
    (validate >>= f).exec rs w = .thrown "segmentation fault" w.segfault := by
  rw [validate, Prog.bind_assoc, Prog.exec_get_bind, if_neg (by rw [h]; exact Bool.false_ne_true)]
  rfl

theorem exec_jobjectwrapJobject (h : w.self = w.native) (f : Unit → Wrapping Unit) :
    (jobjectwrapJobject >>= f).exec rs w = (f ()).exec rs w := by
  rw [jobjectwrapJobject, Prog.bind_assoc, Prog.exec_get_bind,
    exec_assert (by rw [beq_iff_eq]; exact h)]

theorem exec_close (cb : Option OnCloseHandler) (f : Unit → Wrapping Unit) (hw : w.handle = true) :
    (close cb >>= f).exec rs w =
      (f ()).exec rs (if w.closing then w else w.startClose cb) := by
  rw [close, Prog.bind_assoc, Prog.exec_get_bind, hw]
  cases w.closing <;> rfl

theorem exec_release (h : w.self = w.native) : release.exec rs w = .done () w.released := by
  have h' : ({ w with handle := false } : HandleWrap).self = w.native := h
  rw [release, Prog.exec_modify_bind, exec_jobjectwrapJobject h']
  rfl

/-- What a method does with a wrapper that can be validated: it returns, after it closed the handle
or not. -/
inductive Performed (w : HandleWrap) : Outcome HandleWrap WrapYield UvCall Unit → Prop where
  | returned (errs : List Int) : Performed w (.done () (w.returning errs))
  | closed (cb : Option OnCloseHandler) (errs : List Int) (h : w.closing = false) :
      Performed w (.done () ((w.startClose cb).returning errs))

theorem performed_note (err : Int) : Performed w ((note (.returned err)).exec rs w) :=
  .returned [err]

/-- The methods that only ask libuv. -/
theorem performed_ask (q : UvCall) (g : Int → Int) :
    Performed w ((Prog.askFor q >>= fun err => note (.returned (g err))).exec rs w) :=
  .returned [g (rs.headD 0)]

theorem performed_withHandle (h : Good w) (q : UvCall) :
    Performed w ((withHandle q).exec rs w) := by
  rw [withHandle, fromJobject, getUvHandle, exec_validate h, exec_validate h]
  exact performed_ask q id

theorem returning_nil : w.returning [] = w := by
  rw [returning, List.map_nil, List.append_nil]

/-- The methods that close, and return `errs`. -/
theorem performed_close (h : Good w) (cb : Option OnCloseHandler) (errs : List Int)
    {p : Unit → Wrapping Unit}
    (hp : ∀ v : HandleWrap, (p ()).exec rs v = .done () (v.returning errs)) :
    Performed w ((close cb >>= p).exec rs w) := by
  rw [exec_close cb p h.handle, hp]
  cases hclosing : w.closing with
  | true => exact .returned errs
  | false => exact .closed cb errs hclosing

theorem performed (h : Good w) (op : Op) : Performed w ((perform op).exec rs w) := by
  have hclose : ∀ cb, Performed w ((close cb).exec rs w) := by
    intro cb
    rw [← Prog.bind_pure (close cb)]
    exact performed_close h cb [] fun v => by rw [returning_nil]; rfl
  cases op with
  | tcpOpen =>
      have hnil : Performed w (.done () (w.returning [])) := .returned []
      rw [returning_nil] at hnil
      exact hnil
  | tcpClose =>
      rw [perform, tcpClose, fromJobject, exec_validate h]
      exact hclose _
  | tcpBind addrErr =>
      rw [perform, tcpBind]
      split
      · exact performed_withHandle h _
      · exact performed_note addrErr
  | tcpConnect addrErr =>
      rw [perform, tcpConnect]
      split
      · exact performed_withHandle h _
      · exact performed_note addrErr
  | tcpListen | tcpWrite | tcpReadStart | tcpShutdown | tcpSetKeepAlive | tcpGetSockeName
  | udpRecvStop | udpGetSockeName | udpSetSockopt | udpSetMembership =>
      exact performed_withHandle h _
  | udpBind addrErr =>
      -- unlike the tcp methods, these validate the wrapper before they look at the address
      rw [perform, udpBind, fromJobject, exec_validate h]
      split
      · rw [getUvHandle, exec_validate h]
        exact performed_ask _ id
      · exact performed_note addrErr
  | udpRecvStart =>
      rw [perform, udpRecvStart, fromJobject, getUvHandle, exec_validate h, exec_validate h]
      exact performed_ask _ _
  | udpSend addrErr =>
      rw [perform, udpSend, fromJobject, exec_validate h]
      split
      · rw [getUvHandle, exec_validate h]
        exact performed_ask _ id
      · exact performed_note addrErr
  | udpClose =>
      rw [perform, udpClose, fromJobject, exec_validate h]
      exact hclose _
  | timerStart =>
      rw [perform, timerStart, fromJobject, exec_validate h]
      exact performed_ask _ id
  | timerStop =>
      rw [perform, timerStop, fromJobject, getUvHandle, exec_validate h, exec_validate h,
        Prog.exec_get_bind]
      -- a timer that closes already is not stopped again
      cases hclosing : w.closing with
      | true => exact performed_note 0
      | false => exact performed_close h none [0] fun v => rfl

/-- The methods that look at the wrapper: all but `open`, and a `bind` or `connect` of a tcp object
whose address is refused. -/
def reads : Op → Bool
  | .tcpOpen => false
  | .tcpBind addrErr | .tcpConnect addrErr => addrErr == 0
  | _ => true

/-- A method that looks at a wrapper whose pointer is NULL reads through it. -/
theorem exec_perform_null (h : w.handle = false) {op : Op} (hop : reads op = true) :
    (perform op).exec rs w = .thrown "segmentation fault" w.segfault := by
  cases op with
  | tcpOpen => cases hop
  | tcpBind addrErr | tcpConnect addrErr =>
      rw [reads, beq_iff_eq] at hop
      subst hop
      exact exec_validate_null h _
  | _ => exact exec_validate_null h _

/-- The other methods only return. -/
theorem exec_perform_apart {op : Op} (hop : reads op = false) :
    ∃ errs, (perform op).exec rs w = .done () (w.returning errs) := by
  cases op with
  | tcpOpen =>
      refine ⟨[], ?_⟩
      rw [returning_nil]
      rfl
  | tcpBind addrErr =>
      rw [reads, beq_eq_false_iff_ne] at hop
      refine ⟨[addrErr], ?_⟩
      rw [perform, tcpBind, if_neg hop]
      rfl
  | tcpConnect addrErr =>
      rw [reads, beq_eq_false_iff_ne] at hop
      refine ⟨[addrErr], ?_⟩
      rw [perform, tcpConnect, if_neg hop]
      rfl
  | _ => cases hop

end exec

/-! ### The stages of a wrapper -/

inductive Stage where
  | opened
  | closing (cb : Option OnCloseHandler)
  /-- `onclose` of the object runs -/
  | calling
  | closed (cb : Option OnCloseHandler)

namespace Stage

def handle : Stage → Bool
  | .closed _ => false
  | _ => true

def isClosing : Stage → Bool
  | .opened => false
  | _ => true

def pending : Stage → Bool
  | .closing _ => true
  | _ => false

/-- What is registered. -/
def onCloseCb : Stage → Option OnCloseHandler
  | .opened => none
  | .closing cb | .closed cb => cb
  | .calling => some .afterClose

/-- How often `uv_close` was called with a function. -/
def registered (stage : Stage) : Nat := if stage.onCloseCb.isSome then 1 else 0

/-- How often that function was called. -/
def called : Stage → Nat
  | .opened | .closing _ => 0
  | .calling => 1
  | .closed cb => if cb.isSome then 1 else 0

/-- The functions of libuv that wait for JavaScript. -/
def Waiting : Stage → List (WrapYield × Wrapping Unit) → Prop
  | .opened, stack | .closing _, stack => stack = [] ∨ stack = [(.callback, pure ())]
  | .calling, stack => stack = [(.onclose, release)]
  | .closed _, stack => stack = []

end Stage

/-- The wrapper is in this stage. -/
structure At (stage : Stage) (w : HandleWrap) : Prop where
  data : w.self = w.data
  native : w.self = w.native
  handle : w.handle = stage.handle
  closing : w.closing = stage.isClosing
  pending : w.pending = stage.pending
  onCloseCb : stage.isClosing = true → w.onCloseCb = stage.onCloseCb
  referenced : w.referenced = stage.handle
  crashed : w.crashed = false
  registered : w.log.count (.uvClose (some .afterClose)) = stage.registered
  called : w.log.count (.onClose .afterClose) = stage.called
  destroyed : .destroyed true ∉ w.log
  unread : .nullRead ∉ w.log

section stage

variable {stage : Stage} {w : HandleWrap} {rs : List Int}

theorem at_initialized (kind : HandleKind) (self : Nat) : At .opened (initialized kind self) where
  data := rfl
  native := rfl
  handle := rfl
  closing := rfl
  pending := rfl
  onCloseCb := nofun
  referenced := rfl
  crashed := rfl
  registered := rfl
  called := rfl
  destroyed := nofun
  unread := nofun

theorem At.good (h : At stage w) (hhandle : w.handle = true) : Good w := ⟨hhandle, h.data, h.native⟩

/-- Returning to JavaScript changes no stage. -/
theorem At.returning (h : At stage w) (errs : List Int) : At stage (w.returning errs) := by
  -- what is returned is none of the notes that the stage counts
  have hcount : ∀ o : WrapNote, (∀ err, o ≠ .returned err) →
      (w.returning errs).log.count o = w.log.count o := by
    intro o ho
    have hnot : o ∉ errs.map WrapNote.returned := by
      intro hmem
      obtain ⟨err, -, heq⟩ := List.mem_map.mp hmem
      exact ho err heq.symm
    rw [HandleWrap.returning, List.count_append, List.count_eq_zero.mpr hnot, Nat.add_zero]
  have hmem : ∀ o : WrapNote, (∀ err, o ≠ .returned err) → o ∉ w.log → o ∉ (w.returning errs).log := by
    intro o ho hnot
    rw [← List.count_eq_zero, hcount o ho, List.count_eq_zero]
    exact hnot
  exact { h with
    registered := (hcount (.uvClose (some .afterClose)) fun _ => nofun).trans h.registered
    called := (hcount (.onClose .afterClose) fun _ => nofun).trans h.called
    destroyed := hmem (.destroyed true) (fun _ => nofun) h.destroyed
    unread := hmem .nullRead (fun _ => nofun) h.unread }

/-- An open handle starts to close. -/
theorem At.startClose (h : At .opened w) (cb : Option OnCloseHandler) :
    At (.closing cb) (w.startClose cb) := by
  have hregistered : (w.startClose cb).log.count (.uvClose (some .afterClose)) =
      (Stage.closing cb).registered := by
    have hold := h.registered
    rw [HandleWrap.startClose, List.count_append, hold]
    rcases cb with _ | ⟨⟨⟩⟩ <;> rfl
  have hcalled : (w.startClose cb).log.count (.onClose .afterClose) = 0 := by
    have hold := h.called
    rw [HandleWrap.startClose, List.count_append, hold]
    rfl
  exact {
    data := h.data
    native := h.native
    handle := h.handle
    closing := rfl
    pending := rfl
    onCloseCb := fun _ => rfl
    referenced := h.referenced
    crashed := h.crashed
    registered := hregistered
    called := hcalled
    destroyed := by
      intro hmem
      rcases List.mem_append.mp hmem with hmem | hmem
      · exact h.destroyed hmem
      · cases List.mem_singleton.mp hmem
    unread := by
      intro hmem
      rcases List.mem_append.mp hmem with hmem | hmem
      · exact h.unread hmem
      · cases List.mem_singleton.mp hmem }

/-- A wrapper that does not close is open. -/
theorem At.opened_of_not_closing (h : At stage w) (hclosing : w.closing = false) :
    stage = .opened := by
  rw [h.closing] at hclosing
  cases stage with
  | opened => rfl
  | closing cb => cases hclosing
  | calling => cases hclosing
  | closed cb => cases hclosing

/-- The close completes: no function is registered, or it has been called and has returned. -/
theorem At.released (h : At stage w) (hclosing : stage.isClosing = true)
    (hpending : w.pending = false) {cb : Option OnCloseHandler} (hcb : stage.onCloseCb = cb)
    (hcalled : stage.called = (Stage.closed cb).called) : At (.closed cb) w.released where
  data := h.data
  native := h.native
  handle := rfl
  closing := by
    show w.closing = true
    rw [h.closing, hclosing]
  pending := hpending
  onCloseCb _ := (h.onCloseCb hclosing).trans hcb
  referenced := rfl
  crashed := h.crashed
  registered := by
    show w.log.count _ = _
    rw [h.registered, Stage.registered, Stage.registered, hcb]
    rfl
  called := by
    show w.log.count _ = _
    rw [h.called, hcalled]
  destroyed := h.destroyed
  unread := h.unread

/-- The registered function is called. -/
def calls (w : HandleWrap) : HandleWrap := { w with log := w.log ++ [.onClose .afterClose] }

theorem At.calls (h : At (.closing (some .afterClose)) w) :
    At .calling ({ w with pending := false } : HandleWrap).calls where
  data := h.data
  native := h.native
  handle := h.handle
  closing := h.closing
  pending := rfl
  onCloseCb := h.onCloseCb
  referenced := h.referenced
  crashed := h.crashed
  registered := by
    rw [HandleWrap.calls, List.count_append, h.registered]
    rfl
  called := by
    rw [HandleWrap.calls, List.count_append, h.called]
    rfl
  destroyed := by
    rw [HandleWrap.calls, List.mem_append, not_or]
    exact ⟨h.destroyed, by simp⟩
  unread := by
    rw [HandleWrap.calls, List.mem_append, not_or]
    exact ⟨h.unread, by simp⟩

/-- Whether JavaScript can reach the object belongs to no stage. -/
theorem At.reach (h : At stage w) (reachable : Bool) :
    At stage { w with reachable := reachable } :=
  { h with }

/-- A closed wrapper is destroyed. -/
theorem At.destroy {cb : Option OnCloseHandler} (h : At (.closed cb) w) :
    At (.closed cb) { w with log := w.log ++ [.destroyed false], freed := true } where
  data := h.data
  native := h.native
  handle := h.handle
  closing := h.closing
  pending := h.pending
  onCloseCb := h.onCloseCb
  referenced := h.referenced
  crashed := h.crashed
  registered := by
    rw [List.count_append, h.registered]
    rfl
  called := by
    rw [List.count_append, h.called]
    rfl
  destroyed := by
    rw [List.mem_append, not_or]
    exact ⟨h.destroyed, by simp⟩
  unread := by
    rw [List.mem_append, not_or]
    exact ⟨h.unread, by simp⟩

/-! ### What each callback of libuv does -/

theorem exec_event (h : Good w) :
    event.exec rs w = .yielded .callback (pure ()) { w with reachable := true } := by
  rw [event, fromHandle, getUvHandle, jobject, exec_validate h, exec_validate h, Prog.bind_assoc,
    exec_validate h, exec_jobjectwrapJobject h.native]
  rfl

theorem exec_walk (h : Good w) :
    walk.exec rs w = .done () (if w.closing then w else w.startClose none) := by
  rw [walk, fromHandle, exec_validate h, ← Prog.bind_pure (close none), exec_close none _ h.handle]
  rfl

/-- The close completes at once, where no function is registered. -/
theorem exec_onClose_none (h : Good w) (hcb : w.onCloseCb = none) :
    onClose.exec rs w = .done () w.released := by
  rw [onClose, Prog.exec_get_bind, hcb]
  exact exec_release h.native

/-- The registered function is called first, and hands control to `onclose` of the object, if
that is a function. -/
theorem exec_onClose_some (h : Good w) (hcb : w.onCloseCb = some .afterClose) :
    onClose.exec rs w =
      if rs.headD 0 ≠ 0 then .yielded .onclose release { w.calls with reachable := true }
      else .done () w.calls.released := by
  have h' : Good w.calls := { h with }
  rw [onClose, Prog.exec_get_bind, hcb]
  show Prog.exec (note _ >>= _) rs w = _
  rw [exec_note]
  show Prog.exec (afterClose >>= _) rs w.calls = _
  simp only [afterClose, fromHandle, jobject, Prog.bind_assoc]
  rw [exec_validate h', exec_validate h', exec_jobjectwrapJobject h'.native,
    Prog.exec_askFor_bind]
  split
  · rfl
  · exact exec_release h'.native

/-- libuv calls back for `uv_close`. -/
theorem exec_closed (h : Good w) :
    (machine.body .closed).exec rs w = onClose.exec rs { w with pending := false } := by
  have h' : Good { w with pending := false } := { h with }
  show Prog.exec (modify _ >>= _) rs w = _
  rw [Prog.exec_modify_bind, onHandleClosed, fromHandle, exec_validate h']

theorem exec_destroy (h : w.handle = false) :
    destroy.exec rs w =
      .done () { w with log := w.log ++ [.destroyed false], freed := true } := by
  rw [destroy, Prog.exec_get_bind, exec_note, exec_assert (by rw [h]; rfl), Prog.exec_modify, h]

end stage

/-! ### Runs -/

/-- The wrapper is in a stage, and the functions of libuv wait that the stage says. -/
def Kept (c : Config HandleWrap WrapYield UvCall) : Prop :=
  ∃ stage, At stage c.heap ∧ stage.Waiting c.stack

/-- A method that looks at the wrapper comes before the close has completed. -/
def BeforeClosed (c : Config HandleWrap WrapYield UvCall) : Move Call → Prop
  | .call (.op op) _ => reads op = true → c.heap.handle = true
  | _ => True

instance (c : Config HandleWrap WrapYield UvCall) : ∀ m, Decidable (BeforeClosed c m)
  | .call (.op _) _ => inferInstanceAs (Decidable (_ → _))
  | .call .event _ | .call .walk _ | .call .closed _ | .call .drop _ | .call .gc _ => .isTrue trivial
  | .ret _ | .throw => .isTrue trivial

section runs

variable {c c' : Config HandleWrap WrapYield UvCall} {stage : Stage} {w : HandleWrap}
variable {stack : List (WrapYield × Wrapping Unit)} {rs : List Int}

/-- A stage in which libuv has the handle: its pointer is set, and it is not the time of the
registered function. -/
theorem At.inLoop (h : At stage w) (hloop : w.inLoop = true) :
    w.handle = true ∧ (stage = .opened ∨ ∃ cb, stage = .closing cb) := by
  rw [HandleWrap.inLoop, h.closing, h.pending] at hloop
  rw [h.handle]
  cases stage with
  | opened => exact ⟨rfl, .inl rfl⟩
  | closing cb => exact ⟨rfl, .inr ⟨cb, rfl⟩⟩
  | calling => cases hloop
  | closed cb => cases hloop

/-- A method keeps the stages, where it does not look at the wrapper too late. -/
theorem kept_op (h : At stage w) (hwait : stage.Waiting stack) {op : Op}
    (hop : reads op = true → w.handle = true) :
    Kept (.settle stack ((perform op).exec rs w)) := by
  cases hhandle : w.handle with
  | true =>
      have hperformed : Performed w ((perform op).exec rs w) := performed (h.good hhandle) op
      generalize (perform op).exec rs w = o at hperformed
      cases hperformed with
      | returned errs => exact ⟨stage, h.returning errs, hwait⟩
      | closed cb errs hclosing =>
          -- JavaScript closed the handle from inside a callback, or at rest: the stack stays
          obtain rfl := h.opened_of_not_closing hclosing
          exact ⟨.closing cb, (h.startClose cb).returning errs, hwait⟩
  | false =>
      have hapart : reads op = false := by
        by_contra hreads
        rw [Bool.not_eq_false] at hreads
        rw [hop hreads] at hhandle
        cases hhandle
      obtain ⟨errs, hexec⟩ : ∃ errs, (perform op).exec rs w = .done () (w.returning errs) :=
        exec_perform_apart hapart
      rw [hexec]
      exact ⟨stage, h.returning errs, hwait⟩

/-- The close completes, or waits for `onclose`. -/
theorem kept_closed (h : At stage w) (hpending : w.pending = true) :
    Kept (.settle [] ((machine.body .closed).exec rs w)) := by
  have hstage : ∃ cb, stage = .closing cb := by
    rw [h.pending] at hpending
    cases stage with
    | closing cb => exact ⟨cb, rfl⟩
    | opened => cases hpending
    | calling => cases hpending
    | closed cb => cases hpending
  obtain ⟨cb, rfl⟩ := hstage
  -- the pointer is still set while the registered function is looked up
  have hgood : Good w := h.good h.handle
  have hgood' : Good { w with pending := false } := { hgood with }
  rw [exec_closed hgood]
  cases cb with
  | none =>
      rw [exec_onClose_none hgood' (h.onCloseCb rfl)]
      refine ⟨.closed none, ?_, rfl⟩
      have hreleased : At (.closed none) ({ w with pending := false } : HandleWrap).released :=
        { h with
          handle := rfl
          pending := rfl
          referenced := rfl
          closing := h.closing
          onCloseCb := h.onCloseCb
          registered := h.registered
          called := h.called }
      exact hreleased
  | some cb =>
      rw [exec_onClose_some hgood' (h.onCloseCb rfl)]
      -- `onclose` of the object is a function, or there is none
      split
      · exact ⟨.calling, h.calls.reach true, rfl⟩
      · exact ⟨.closed (some cb), h.calls.released rfl rfl rfl rfl, rfl⟩

/-- At rest, libuv calls back. -/
theorem kept_inLoop (h : At stage w) (hwait : stage.Waiting stack)
    (hen : (stack.isEmpty && w.inLoop) = true) :
    Kept (.settle stack (event.exec rs w)) ∧ Kept (.settle stack (walk.exec rs w)) := by
  rw [Bool.and_eq_true, List.isEmpty_iff] at hen
  obtain ⟨rfl, hloop⟩ := hen
  obtain ⟨hhandle, hstage⟩ := h.inLoop hloop
  have hgood : Good w := h.good hhandle
  rw [exec_event hgood, exec_walk hgood]
  constructor
  · -- the callback gets the object, so JavaScript can reach it again
    refine ⟨stage, h.reach true, ?_⟩
    rcases hstage with rfl | ⟨cb, rfl⟩
    · exact .inr rfl
    · exact .inr rfl
  · cases hclosing : w.closing with
    | true => exact ⟨stage, h, hwait⟩
    | false =>
        obtain rfl := h.opened_of_not_closing hclosing
        exact ⟨.closing none, h.startClose none, .inl rfl⟩

/-- What nobody refers to is closed. -/
theorem kept_gc (h : At stage w) (hwait : stage.Waiting stack) (hreferenced : w.referenced = false) :
    Kept (.settle stack (destroy.exec rs w)) := by
  -- the wrapper refers to its object as long as its pointer is set
  have hhandle : w.handle = false := by rw [h.handle, ← h.referenced, hreferenced]
  rw [exec_destroy hhandle]
  rw [h.handle] at hhandle
  cases stage with
  | closed cb => exact ⟨.closed cb, h.destroy, hwait⟩
  | opened => cases hhandle
  | closing cb => cases hhandle
  | calling => cases hhandle

/-- JavaScript returns to libuv. -/
theorem kept_ret (h : At stage w) (hwait : stage.Waiting stack)
    (hstep : machine.step ⟨w, stack⟩ (.ret rs) = some c') : Kept c' := by
  have hcallback : stack = [] ∨ stack = [(.callback, pure ())] →
      stage.Waiting [] → Kept c' := by
    rintro (rfl | rfl) hempty
    · cases hstep
    · cases hstep
      exact ⟨stage, h, hempty⟩
  cases stage with
  | opened => exact hcallback hwait (.inl rfl)
  | closing cb => exact hcallback hwait (.inl rfl)
  | calling =>
      -- the registered function returns, and the pointer is set to NULL only now
      obtain rfl : stack = [(.onclose, release)] := hwait
      cases hstep
      rw [exec_release h.native]
      exact ⟨.closed (some .afterClose), h.released rfl h.pending rfl rfl, rfl⟩
  | closed cb => exact hcallback (.inl hwait) rfl

/-- One move, where the exceptions of JavaScript do not reach libuv. -/
theorem kept_step (h : Kept c) {m : Move Call} (hm : m ≠ .throw) (hbefore : BeforeClosed c m)
    (hstep : machine.step c m = some c') : Kept c' := by
  obtain ⟨stage, hat, hwait⟩ := h
  obtain ⟨w, stack⟩ := c
  cases m with
  | throw => exact absurd rfl hm
  | ret rs => exact kept_ret hat hwait hstep
  | call call rs =>
      obtain ⟨hen, rfl⟩ := Machine.step_call hstep
      obtain ⟨-, hcall⟩ := Bool.and_eq_true_iff.mp hen
      cases call with
      | op op => exact kept_op hat hwait hbefore
      | event => exact (kept_inLoop hat hwait hcall).1
      | walk => exact (kept_inLoop hat hwait hcall).2
      | closed =>
          have hrest : (stack.isEmpty && w.closing && w.pending) = true := hcall
          rw [Bool.and_eq_true, Bool.and_eq_true, List.isEmpty_iff] at hrest
          obtain ⟨⟨rfl, -⟩, hpending⟩ := hrest
          exact kept_closed hat hpending
      | drop => exact ⟨stage, hat.reach false, hwait⟩
      | gc =>
          have hunused : (!w.reachable && !w.referenced && !w.freed) = true := hcall
          rw [Bool.and_eq_true, Bool.and_eq_true, Bool.not_eq_true'] at hunused
          exact kept_gc hat hwait (Bool.not_eq_true' .. ▸ hunused.1.2)

/-- A method that comes too late ends the process at a read through NULL. -/
theorem late_step (h : Kept c) {m : Move Call} (hlate : ¬ BeforeClosed c m)
    (hstep : machine.step c m = some c') : c' = ⟨c.heap.segfault, []⟩ := by
  obtain ⟨stage, hat, hwait⟩ := h
  obtain ⟨w, stack⟩ := c
  cases m with
  | throw => exact absurd trivial hlate
  | ret rs => exact absurd trivial hlate
  | call call rs =>
      obtain ⟨-, rfl⟩ := Machine.step_call hstep
      cases call with
      | op op =>
          have hlate' : ¬ (reads op = true → w.handle = true) := hlate
          rw [Classical.not_imp, Bool.not_eq_true] at hlate'
          obtain ⟨hreads, hhandle⟩ := hlate'
          show Config.settle stack ((perform op).exec rs w) = _
          rw [exec_perform_null hhandle hreads]
          rw [hat.handle] at hhandle
          -- the pointer is NULL in one stage, in which nothing of libuv waits
          cases stage with
          | closed cb =>
              obtain rfl : stack = [] := hwait
              rfl
          | opened => cases hhandle
          | closing cb => cases hhandle
          | calling => cases hhandle
      | event => exact absurd trivial hlate
      | walk => exact absurd trivial hlate
      | closed => exact absurd trivial hlate
      | drop => exact absurd trivial hlate
      | gc => exact absurd trivial hlate

/-- Nothing comes after the end of the process. -/
theorem play_segfault {ms : List (Move Call)}
    (hplay : machine.play ⟨w.segfault, []⟩ ms = some c) : c = ⟨w.segfault, []⟩ := by
  cases ms with
  | nil =>
      cases hplay
      rfl
  | cons m ms => cases m <;> cases hplay

/-- What the wrapper is for. -/
structure Safe (c : Config HandleWrap WrapYield UvCall) : Prop where
  /-- nothing reads through the pointer when it is NULL -/
  unread : .nullRead ∉ c.heap.log
  /-- `uv_close` is called with a function at most once -/
  registered : c.heap.log.count (.uvClose (some .afterClose)) ≤ 1
  /-- that function is called at most once -/
  called : c.heap.log.count (.onClose .afterClose) ≤
    c.heap.log.count (.uvClose (some .afterClose))
  /-- when libuv is at rest, it has been called if and only if the close has completed -/
  once : c.stack = [] → c.heap.log.count (.onClose .afterClose) =
    if c.heap.handle then 0 else c.heap.log.count (.uvClose (some .afterClose))
  /-- a wrapper is destroyed only when its pointer is NULL -/
  destroyed : .destroyed true ∉ c.heap.log

theorem Kept.safe (h : Kept c) : Safe c := by
  obtain ⟨stage, hat, hwait⟩ := h
  have hregistered := hat.registered
  have hcalled := hat.called
  refine ⟨hat.unread, ?_, ?_, fun hrest => ?_, hat.destroyed⟩
  · rw [hregistered, Stage.registered]
    split <;> omega
  · rw [hregistered, hcalled]
    cases stage with
    | opened => exact Nat.le_refl _
    | closing cb => exact Nat.zero_le _
    | calling => exact Nat.le_refl _
    | closed cb => exact Nat.le_refl _
  · rw [hregistered, hcalled, hat.handle]
    cases stage with
    | opened => rfl
    | closing cb => rfl
    | calling =>
        rw [hrest] at hwait
        cases hwait
    | closed cb => rfl

/-- In every run, the wrapper is safe to its end if and only if no method looks at the wrapper
after its close has completed. -/
theorem safe_iff_of_kept {ms : List (Move Call)} (h : Kept c) (hms : .throw ∉ ms)
    (hplay : machine.play c ms = some c') :
    Safe c' ↔ machine.Meets BeforeClosed c ms := by
  induction ms generalizing c with
  | nil =>
      cases hplay
      exact ⟨fun _ => trivial, fun _ => h.safe⟩
  | cons m ms ih =>
      obtain ⟨d, hd, hrest⟩ := Option.bind_eq_some_iff.mp hplay
      rw [List.mem_cons, not_or] at hms
      by_cases hbefore : BeforeClosed c m
      · have hsafe := ih (kept_step h (Ne.symm hms.1) hbefore hd) hms.2 hrest
        rw [hsafe]
        constructor
        · intro hmeets
          refine ⟨hbefore, fun e he => ?_⟩
          rw [hd] at he
          cases he
          exact hmeets
        · intro hmeets
          exact hmeets.2 d hd
      · -- the process ends here
        obtain rfl := late_step h hbefore hd
        obtain rfl := play_segfault hrest
        constructor
        · intro hsafe
          exact absurd (List.mem_append_right _ List.mem_cons_self) hsafe.unread
        · intro hmeets
          exact absurd hmeets.1 hbefore

/-- In every run of an object, no read goes through NULL, a registered function is called exactly
once and the wrapper is destroyed when its pointer is NULL, if and only if no method looks at the
wrapper after its close has completed. -/
theorem safe_iff (kind : HandleKind) (self : Nat) {ms : List (Move Call)}
    {c : Config HandleWrap WrapYield UvCall} (hms : .throw ∉ ms)
    (hplay : machine.play ⟨initialized kind self, []⟩ ms = some c) :
    Safe c ↔ machine.Meets BeforeClosed ⟨initialized kind self, []⟩ ms :=
  safe_iff_of_kept ⟨.opened, at_initialized kind self, .inl rfl⟩ hms hplay

/-- A socket that is closed twice while libuv closes it, and is collected afterwards. -/
theorem safe_iff_twice :
    ∃ c, Safe c ∧ c.heap.freed = true := by
  let ms : List (Move Call) := [.call (.op .tcpReadStart) [], .call (.op .tcpClose) [],
    .call (.op .tcpClose) [], .call .closed [1], .call (.op .tcpClose) [], .ret [], .call .drop [],
    .call .gc []]
  have hplay : (machine.play ⟨initialized .tcp 1, []⟩ ms).any (fun c => c.heap.freed) = true := by
    decide
  have hmeets : machine.Meets BeforeClosed ⟨initialized .tcp 1, []⟩ ms := by decide
  obtain ⟨c, hc, hfreed⟩ := Option.any_eq_true .. |>.mp hplay
  exact ⟨c, (safe_iff .tcp 1 (by simp [ms]) hc).mpr hmeets, hfreed⟩

/-- A socket that is closed again after its close has completed. -/
theorem close_after_close :
    ¬ ∀ (kind : HandleKind) (self : Nat) (ms : List (Move Call))
      (c : Config HandleWrap WrapYield UvCall), .throw ∉ ms →
      machine.play ⟨initialized kind self, []⟩ ms = some c → Safe c := by
  intro hall
  have hplay : (machine.play ⟨initialized .tcp 1, []⟩ [.call (.op .tcpClose) [],
      .call .closed [], .call (.op .tcpClose) []]).any
      (fun c => c.heap.log.contains .nullRead) = true := by decide
  obtain ⟨c, hc, hread⟩ := Option.any_eq_true .. |>.mp hplay
  exact (hall .tcp 1 _ c (by simp) hc).unread (List.contains_iff_mem.mp hread)

end runs

end IotJs.HandleWrap

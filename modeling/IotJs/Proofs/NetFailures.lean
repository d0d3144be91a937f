import IotJs.Core.NetListeners
import IotJs.Proofs.EmitterExec

/-!
# `IotJs.Proofs.NetFailures`: a `listen` and a `connect` that fail

Both functions change the object before the step that fails, and neither undoes the change.

A `listen` whose native `bind` or `listen` fails closes the handle and keeps it
(`not_undone_of_failed`). So the server goes on with a closed handle: another `listen` uses it and
cannot listen (`deaf_of_failed`), and the callback of a `close` does not learn that the server is
not running (`exec_close`).

A `connect` that throws has made the handle, registered the callback, armed the timer and set
`connecting` (`exec_connect`). So the socket stays connecting, and another `connect` does nothing
(`not_untouched_of_thrown`).
-/

set_option autoImplicit false

namespace IotJs

open Reentrant

/-! ### The listeners of a callback -/

namespace Emitting

section exec

variable {σ υ κ α : Type} {s : Emitting σ} {r : List Int} {type : String}

theorem exec_onObject (p : Prog σ υ κ α) :
    (onObject p).exec r s = (p.exec r s.object).zoom objectFocus .inl id s :=
  Prog.exec_zoom p r s

theorem exec_onEmitter (p : EventEmitter.Method α) :
    (onEmitter p : Method σ υ κ α).exec r s =
      (p.exec r s.emitter).zoom emitterFocus .inr Empty.elim s :=
  Prog.exec_zoom p r s

/-- The function `f` is registered by `once`. -/
def onced (s : Emitting σ) (type : String) (f : Nat) : Emitting σ :=
  let e := { s.emitter with registrations := s.emitter.registrations + 1 }
  { s with
    emitter := EventEmitter.withList type
      (s.emitter.listeners type ++ [.once s.emitter.registrations type f]) e }

/-- The callback is registered, if there is one. -/
def registered (s : Emitting σ) (type : String) (callback : Option Nat) : Emitting σ :=
  match callback with
  | some f => s.onced type (function f)
  | none => s

@[simp] theorem object_registered (callback : Option Nat) :
    (s.registered type callback).object = s.object := by
  cases callback <;> rfl

theorem exec_once_bind (htype : type ∉ objectPrototype) (f : Nat) (k : Unit → Method σ υ κ α) :
    (once type f >>= k).exec r s = (k ()).exec r (s.onced type f) := by
  let e := { s.emitter with registrations := s.emitter.registrations + 1 }
  have hadd : (EventEmitter.addFunction type (.once s.emitter.registrations type f)).exec r e =
      .done () (s.onced type f).emitter := EventEmitter.exec_addFunction (.inr htype)
  have hexec : (EventEmitter.once type (some f)).exec r (emitterFocus.get s) =
      .done () (s.onced type f).emitter := hadd
  rw [once, onEmitter, Prog.exec_zoom_bind k hexec]
  rfl

theorem exec_register_bind (htype : type ∉ objectPrototype) (callback : Option Nat)
    (k : Unit → Method σ υ κ α) :
    (register type callback >>= k).exec r s = (k ()).exec r (s.registered type callback) := by
  cases callback with
  | none => rfl
  | some f => exact exec_once_bind htype (function f) k

end exec

end Emitting

/-! ### `listen` -/

namespace Server

variable {s : Server} {options : ListenOptions} {bindErr listenErr : Int}

/-- The handle is there, and `close` was called on it. -/
def KeepsClosed (s : Server) : Prop := s._handle.any ListenHandle.closed = true

theorem keepsClosed_closeHandle (h : s._handle.isSome = true) : s.closeHandle.KeepsClosed := by
  obtain ⟨handle, hhandle⟩ := Option.isSome_iff_exists.mp h
  rw [KeepsClosed, closeHandle, hhandle]
  rfl

theorem KeepsClosed.handle (h : s.KeepsClosed) : s._handle ≠ none := by
  intro hnone
  rw [KeepsClosed, hnone] at h
  cases h

/-- A `listen` that fails returns the error. -/
theorem listen_failed (hport : options.port.isSome = true) (hfails : bindErr ≠ 0 ∨ listenErr ≠ 0) :
    ∃ err, (s.listen options bindErr listenErr).1 = .ok (some err) ∧ err ≠ 0 ∧
      (s.listen options bindErr listenErr).2.KeepsClosed := by
  obtain ⟨port, hport⟩ := Option.isSome_iff_exists.mp hport
  simp only [listen, hport]
  by_cases hbind : bindErr = 0
  · have hlisten : listenErr ≠ 0 := hfails.resolve_left (not_not_intro hbind)
    rw [if_neg (not_not_intro hbind), if_pos hlisten]
    exact ⟨listenErr, rfl, hlisten, keepsClosed_closeHandle rfl⟩
  · rw [if_pos hbind]
    exact ⟨bindErr, rfl, hbind, keepsClosed_closeHandle rfl⟩

variable (options bindErr listenErr) in
/-- On a closed handle no `listen` succeeds, whatever the native side answers. -/
theorem KeepsClosed.listen (h : s.KeepsClosed) :
    (s.listen options bindErr listenErr).2.listens = false := by
  cases hhandle : s._handle with
  | none => exact absurd hhandle h.handle
  | some handle =>
      have hclosed : handle.closed = true := by
        rw [KeepsClosed, hhandle] at h
        exact h
      rw [Server.listen]
      split
      -- `listen` makes no new handle where there is one, and a closed one does not listen
      · simp [listens, hhandle, hclosed]
      · simp only
        split
        · simp [listens, closeHandle, record]
        · split
          · simp [listens, closeHandle, record]
          · simp [listens, nextTick, record, hhandle, hclosed]

end Server

namespace NetServer

open Emitting

section listen

variable {s t : NetServer} {r : List Int} {options : ListenOptions} {callback : Option Nat}

/-- The native `bind` or the native `listen` returns an error. -/
def Fails (r : List Int) : Prop := r.headD 0 ≠ 0 ∨ r.tail.headD 0 ≠ 0

/-- The failed `listen` left nothing behind. -/
structure Undone (s t : NetServer) : Prop where
  handle : t.object._handle = none
  listeners : t.emitter.listeners "listening" = s.emitter.listeners "listening"

/-- The result of a function of `Server.lean` that returned or threw. -/
def outcome (t : NetServer) : Except String (Option Int) × Server →
    Outcome NetServer (Empty ⊕ EmitterYield) ServerNative (Option Int)
  | (.ok err, server) => .done err { t with object := server }
  | (.error message, server) => .thrown message { t with object := server }

theorem exec_onServer_bind {α : Type} (f : Server → Server) (k : Unit → Method α) :
    (onServer f >>= k).exec r s = (k ()).exec r { s with object := f s.object } := rfl

/-- Next to the callback, what `listen` does is what it does to the server alone. -/
theorem exec_listen (hport : options.port.isSome = true) : (listen options callback).exec r s =
    outcome (s.registered "listening" callback)
      (s.object.listen options (r.headD 0) (r.tail.headD 0)) := by
  obtain ⟨port, hport⟩ := Option.isSome_iff_exists.mp hport
  simp only [listen, Server.listen, hport]
  rw [exec_register_bind (by decide), exec_onServer_bind, Prog.exec_askFor_bind, exec_onServer_bind,
    object_registered]
  by_cases hbind : r.headD 0 = 0
  · rw [if_neg (not_not_intro hbind), if_neg (not_not_intro hbind), Prog.exec_askFor_bind,
      exec_onServer_bind]
    by_cases hlisten : r.tail.headD 0 = 0
    · rw [if_neg (not_not_intro hlisten), if_neg (not_not_intro hlisten)]
      rfl
    · rw [if_pos hlisten, if_pos hlisten]
      rfl
  · rw [if_pos hbind, if_pos hbind]
    rfl

/-- For every server, a `listen` that fails returns the error and is not undone. -/
theorem not_undone_of_failed (hport : options.port.isSome = true) (hfails : Fails r) :
    ∃ err t, (listen options callback).exec r s = .done (some err) t ∧ err ≠ 0 ∧
      ¬ Undone s t := by
  obtain ⟨err, hresult, herr, hkeeps⟩ := Server.listen_failed (s := s.object) hport hfails
  rw [exec_listen hport]
  generalize s.object.listen options (r.headD 0) (r.tail.headD 0) = o at hresult hkeeps
  obtain ⟨result, server⟩ := o
  cases hresult
  exact ⟨err, _, rfl, herr, fun hundone => hkeeps.handle hundone.handle⟩

/-- The port is in use. -/
theorem not_undone_in_use : ∃ err t,
    (listen ⟨some 80, none, none⟩ (some 0)).exec [-98] (new false) = .done (some err) t ∧ err ≠ 0 ∧
      ¬ Undone (new false) t :=
  not_undone_of_failed rfl (.inl (by decide))

theorem handle_after_failed_bind : ¬ ∀ (s t : NetServer) (options : ListenOptions)
    (callback : Option Nat) (r : List Int) (err : Int), s.object.listens = false →
    (listen options callback).exec r s = .done (some err) t → Undone s t := by
  intro hall
  have hbad := (hall (new false) _ ⟨some 80, none, none⟩ none [-98] (-98) rfl rfl).handle
  cases hbad

/-- After a `listen` that failed, no later one makes the server listen. -/
theorem deaf_of_failed {options' : ListenOptions} {callback' : Option Nat} {r' : List Int}
    {err : Int} (hport : options.port.isSome = true) (hfails : Fails r)
    (hexec : (listen options callback).exec r s = .done (some err) t)
    (hport' : options'.port.isSome = true) :
    ((listen options' callback').exec r' t).heap.object.listens = false := by
  obtain ⟨err', -, -, hkeeps⟩ := Server.listen_failed (s := s.object) hport hfails
  have hobject : t.object = (s.object.listen options (r.headD 0) (r.tail.headD 0)).2 := by
    rw [exec_listen hport] at hexec
    generalize s.object.listen options (r.headD 0) (r.tail.headD 0) = o at hexec
    obtain ⟨result | result, server⟩ := o
    · cases hexec
    · cases hexec
      rfl
  rw [← hobject] at hkeeps
  have hdeaf := hkeeps.listen options' (r'.headD 0) (r'.tail.headD 0)
  rw [exec_listen hport']
  generalize t.object.listen options' (r'.headD 0) (r'.tail.headD 0) = o at hdeaf
  obtain ⟨result | result, server⟩ := o
  · exact hdeaf
  · exact hdeaf

/-- The callback of a `close`: it is told that the server is not running only where the handle was
dropped, which a `listen` that failed does not do. -/
theorem exec_close (f : Nat) : ((close (some f)).exec r s).heap.emitter.listeners "close" =
    s.emitter.listeners "close" ++ [.once s.emitter.registrations "close"
      (if s.object._handle.isNone then notRunning f else function f)] := by
  rw [close, Prog.exec_get_bind]
  show ((once "close" _ >>= fun _ => onServer Server.close).exec r s).heap.emitter.listeners _ = _
  rw [exec_once_bind (by decide)]
  exact congrFun (EventEmitter.listeners_withList ..) "close" |>.trans (Function.update_self ..)

end listen

end NetServer

/-! ### `connect` -/

namespace Socket

variable {s t : Socket} {P : Platform} {options : ConnectOptions} {r : List Int} {e : String}

/-- What `connect` has done to the socket before it checks its arguments. -/
def starting (s : Socket) : Socket :=
  { s with
    _handle := some (s._handle.getD ⟨false, false⟩)
    _timer := if s._socketState.destroyed then s._timer
      else some (IotJs.setTimeout s.now s._timeout)
    _socketState := { s._socketState with connecting := true } }

/-- `connect` from the timer on. -/
def connectArmed (P : Platform) (options : ConnectOptions) : Method Unit := do
  modifyState fun state => { state with connecting := true }
  match checkConnect options with
  | .error message => Prog.fail message
  | .ok port =>
      modify fun s => { s with _host := options.host.orLocalhost }
      lookup P options.host.orLocalhost port

/-- A socket that is connecting or connected is left as it is. -/
theorem exec_connect_busy (h : (s._socketState.connecting || s._socketState.connected) = true) :
    (connect P options).exec r s = .done () s := by
  rw [connect, Prog.exec_get_bind]
  simp only [h]
  rfl

theorem exec_resetSocketTimeout_bind {α : Type} (k : Unit → Method α) :
    (resetSocketTimeout >>= k).exec r s = (k ()).exec r { s with
      _timer := if s._socketState.destroyed then s._timer
        else some (IotJs.setTimeout s.now s._timeout) } := by
  rw [resetSocketTimeout, Prog.bind_assoc, Prog.exec_get_bind]
  cases s._socketState.destroyed <;> rfl

theorem exec_connect (h : (s._socketState.connecting || s._socketState.connected) = false) :
    (connect P options).exec r s =
      match checkConnect options with
      | .error message => .thrown message s.starting
      | .ok port => (lookup P options.host.orLocalhost port).exec r
          { s.starting with _host := options.host.orLocalhost } := by
  -- the handle is made where there is none
  have hhandle : (connect P options).exec r s =
      (resetSocketTimeout >>= fun _ => connectArmed P options).exec r
        { s with _handle := some (s._handle.getD ⟨false, false⟩) } := by
    rw [connect, Prog.exec_get_bind]
    simp only [h]
    rw [Bool.not_false, if_pos rfl, Prog.exec_get_bind]
    cases hhandle : s._handle with
    | none => rfl
    | some handle =>
        rw [if_neg (by simp), Option.getD_some, ← hhandle]
        rfl
  rw [hhandle, exec_resetSocketTimeout_bind, connectArmed]
  show ((match checkConnect options with
    | .error message => Prog.fail message
    | .ok port => do
        modify fun s => { s with _host := options.host.orLocalhost }
        lookup P options.host.orLocalhost port : Method Unit)).exec r s.starting = _
  cases checkConnect options with
  | error message => rfl
  | ok port => rfl

/-- The lookup throws before it does anything. -/
theorem lookup_thrown {hostname : Host} {port : Int}
    (h : (lookup P hostname port).exec r s = .thrown e t) : t = s := by
  cases hostname with
  | absent | other =>
      cases h
      rfl
  | string hostname =>
      simp only [lookup] at h
      cases hnuttx : P.nuttx with
      | true =>
          rw [hnuttx] at h
          cases h
      | false =>
          rw [hnuttx, if_neg nofun, Prog.exec_askFor_bind] at h
          -- `getaddrinfo` answers with a number, and throws nothing
          by_cases herr : r.headD 0 = 0
          · rw [if_pos herr] at h
            cases h
          · rw [if_neg herr] at h
            cases h

/-- What a `connect` that throws leaves. -/
theorem connect_thrown (h : (connect P options).exec r s = .thrown e t) :
    (s._socketState.connecting || s._socketState.connected) = false ∧
      ∃ host, t = { s.starting with _host := host } := by
  cases hbusy : s._socketState.connecting || s._socketState.connected with
  | true =>
      rw [exec_connect_busy hbusy] at h
      cases h
  | false =>
      rw [exec_connect hbusy] at h
      refine ⟨rfl, ?_⟩
      cases hcheck : checkConnect options with
      | error message =>
          rw [hcheck] at h
          cases h
          exact ⟨s.starting._host, rfl⟩
      | ok port =>
          rw [hcheck] at h
          exact ⟨_, lookup_thrown h⟩

end Socket

namespace NetSocket

open Emitting

section connect

variable {s t : NetSocket} {P : Platform} {options : ConnectOptions} {callback : Option Nat}
variable {r : List Int} {e : String}

/-- The `connect` that threw left the socket as it was. -/
structure Untouched (s t : NetSocket) : Prop where
  connecting : t.object._socketState.connecting = s.object._socketState.connecting
  handle : t.object._handle = s.object._handle
  timer : t.object._timer = s.object._timer
  listeners : t.emitter.listeners "connect" = s.emitter.listeners "connect"

/-- What a `connect` that throws leaves, with its listener. -/
theorem connect_thrown (h : (connect P options callback).exec r s = .thrown e t) :
    (s.object._socketState.connecting || s.object._socketState.connected) = false ∧
      t.emitter = (s.registered "connect" callback).emitter ∧
      ∃ host, t.object = { s.object.starting with _host := host } := by
  rw [connect, Prog.exec_get_bind] at h
  cases hbusy : s.object._socketState.connecting || s.object._socketState.connected with
  | true =>
      rw [hbusy] at h
      have hexec : (onObject (Socket.connect P options) : Method Unit).exec r s = .thrown e t := h
      rw [exec_onObject, Socket.exec_connect_busy hbusy] at hexec
      cases hexec
  | false =>
      rw [hbusy, Bool.not_false, if_pos rfl, exec_register_bind (by decide), exec_onObject,
        object_registered] at h
      refine ⟨rfl, ?_⟩
      cases hexec : (Socket.connect P options).exec r s.object with
      | done a u | yielded tag k u =>
          rw [hexec] at h
          cases h
      | thrown e' u =>
          rw [hexec] at h
          cases h
          exact ⟨rfl, (Socket.connect_thrown hexec).2⟩

/-- For every socket and all arguments, a `connect` that throws leaves the socket connecting, and
then another `connect` does nothing. -/
theorem not_untouched_of_thrown (h : (connect P options callback).exec r s = .thrown e t) :
    ¬ Untouched s t ∧ ∀ (options' : ConnectOptions) (callback' : Option Nat) (r' : List Int),
      (connect P options' callback').exec r' t = .done () t := by
  obtain ⟨hidle, -, host, hobject⟩ := connect_thrown h
  have hconnecting : t.object._socketState.connecting = true := by
    rw [hobject]
    rfl
  have hbusy : (t.object._socketState.connecting || t.object._socketState.connected) = true := by
    rw [hconnecting, Bool.true_or]
  refine ⟨fun huntouched => ?_, fun options' callback' r' => ?_⟩
  · have hbefore := huntouched.connecting
    rw [hconnecting, (Bool.or_eq_false_iff.mp hidle).1] at hbefore
    cases hbefore
  · rw [connect, Prog.exec_get_bind, hbusy]
    show (onObject (Socket.connect P options') : Method Unit).exec r' t = _
    rw [exec_onObject, Socket.exec_connect_busy hbusy]
    rfl

/-- The port is too large. -/
theorem not_untouched_bad_port : ∃ t,
    (connect (.ascii false) ⟨.absent, some 65536, 0⟩ none).exec [] (new false) =
      .thrown "port should be >= 0 and < 65536: 65536" t ∧ ¬ Untouched (new false) t := by
  have hthrown : (connect (.ascii false) ⟨.absent, some 65536, 0⟩ none).exec [] (new false) =
    .thrown "port should be >= 0 and < 65536: 65536" _ := rfl
  exact ⟨_, hthrown, (not_untouched_of_thrown hthrown).1⟩

theorem connecting_after_bad_host : ¬ ∀ (s t : NetSocket) (P : Platform) (options : ConnectOptions)
    (callback : Option Nat) (r : List Int) (e : String),
    (connect P options callback).exec r s = .thrown e t → Untouched s t := by
  intro hall
  have hbad := (hall (new false) _ (.ascii false) ⟨.other, some 80, 0⟩ none [] _ rfl).connecting
  cases hbad

end connect

end NetSocket

end IotJs

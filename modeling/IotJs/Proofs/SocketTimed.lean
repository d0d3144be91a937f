import IotJs.Core.Socket
import IotJs.Lib.Reentrant.Play
import IotJs.Proofs.SocketRespects
import IotJs.Proofs.StreamChanges

/-!
# `IotJs.Proofs.SocketTimed`: activity of a socket arms its timer

Time passes only while nothing runs (`elapse`), so all that one call does happens at one time.
Within a call the timer either stays as it is or is written anew, and a timer that is written
anew is off or starts now (`Fresh`). Each entry of the log that shows activity on a live
connection is written after the timer was armed in the same call: `Timed` says so of a step, and
`timed` is the contract.

An active timer has the delay that the configured timeout gives (`TimedInv`): `setTimeout` of the
socket writes the two together, and every other function arms the timer with what is configured.
-/

set_option autoImplicit false

namespace IotJs.Socket

open Reentrant

/-! ### The contract -/

/-- Entries that show that the connection is used: an attempt to connect, a connection that is
established, a chunk that is given to a live handle, a block or EOF that was read. -/
def activity : SocketObs → Bool
  | .native .connect .live | .native .write .live => true
  | .event .connect | .event .connection => true
  | .readNote (.pushed _) | .readNote .eof => true
  | _ => false

/-- The timer is off, or was armed since the given time. -/
def Fresh (since : Nat) (timer : Option Timer) : Prop :=
  ∀ armed, timer = some armed → armed.active = true → since ≤ armed.start

/-- The delay of a timer that is armed with the configured timeout. -/
def delay (s : Socket) : Nat := (IotJs.setTimeout 0 s._timeout).after

structure TimedInv (s : Socket) : Prop where
  closed : s._socketState.destroyed = true → s._handle.any (·.closed) = true
  after : ∀ armed, s._timer = some armed → armed.active = true → armed.after = s.delay

/-- What a step does to the timer, and what it records. -/
structure Timed (s t : Socket) : Prop where
  timer : t._timer = s._timer ∨ Fresh s.now t._timer
  log : ∃ new, t.log = s.log ++ new ∧ (new.any activity = true → Fresh s.now t._timer)

theorem Fresh.mono {m n : Nat} {timer : Option Timer} (h : Fresh n timer) (hmn : m ≤ n) :
    Fresh m timer :=
  fun armed heq hactive => Nat.le_trans hmn (h armed heq hactive)

theorem fresh_none (since : Nat) : Fresh since none := nofun

theorem Timed.refl (s : Socket) : Timed s s :=
  ⟨.inl rfl, [], (List.append_nil _).symm, nofun⟩

/-- A timer that is fresh stays so. -/
theorem Timed.fresh {s t : Socket} (h : Timed s t) (hs : Fresh s.now s._timer) :
    Fresh s.now t._timer := by
  rcases h.timer with hsame | hfresh
  · rw [hsame]
    exact hs
  · exact hfresh

theorem Timed.trans {s t u : Socket} (h₁ : Timed s t) (h₂ : Timed t u) (hnow : s.now ≤ t.now) :
    Timed s u := by
  -- the timer that the first step armed is still there, or a later one
  have hkept : Fresh s.now t._timer → Fresh s.now u._timer := by
    intro hfresh
    rcases h₂.timer with hsame | hlater
    · rw [hsame]
      exact hfresh
    · exact hlater.mono hnow
  obtain ⟨new₁, hlog₁, hact₁⟩ := h₁.log
  obtain ⟨new₂, hlog₂, hact₂⟩ := h₂.log
  refine ⟨?_, new₁ ++ new₂, by rw [hlog₂, hlog₁, List.append_assoc], fun hact => ?_⟩
  · rcases h₂.timer with hsame | hlater
    · rw [hsame]
      exact h₁.timer
    · exact .inr (hlater.mono hnow)
  · rw [List.any_append, Bool.or_eq_true] at hact
    rcases hact with hact | hact
    · exact hkept (hact₁ hact)
    · exact (hact₂ hact).mono hnow

/-- What every call keeps; time passes at rest only. -/
def timed : Contract Socket where
  inv := TimedInv
  rely s t := t.now = s.now ∧ Timed s t
  outer s t := s.now ≤ t.now ∧ Timed s t
  refl s := ⟨rfl, .refl s⟩
  trans h₁ h₂ := ⟨h₂.1.trans h₁.1, h₁.2.trans h₂.2 (Nat.le_of_eq h₁.1.symm)⟩
  outer_of_rely h := ⟨Nat.le_of_eq h.1.symm, h.2⟩
  outer_trans h₁ h₂ := ⟨Nat.le_trans h₁.1 h₂.1, h₁.2.trans h₂.2 h₁.1⟩

/-- What all but the callback of the timer leave: the number of timeouts, and a server that has
forgotten the socket. -/
structure Steady (s t : Socket) : Prop where
  timeouts : t.log.count (.event .timeout) = s.log.count (.event .timeout)
  server : t._server = true → s._server = true

theorem Steady.refl (s : Socket) : Steady s s := ⟨rfl, id⟩

theorem Steady.trans {s t u : Socket} (h₁ : Steady s t) (h₂ : Steady t u) : Steady s u :=
  ⟨h₂.timeouts.trans h₁.timeouts, h₁.server ∘ h₂.server⟩

/-- What a single write keeps. -/
def Keep (s t : Socket) : Prop := (TimedInv s → timed.Post s t) ∧ Steady s t

/-- Entries that neither show activity nor tell of a timeout. -/
def plain : SocketObs → Bool
  | .event .timeout => false
  | o => !activity o

theorem ne_timeout_of_plain {o : SocketObs} (h : plain o = true) : o ≠ .event .timeout := by
  rintro rfl
  cases h

theorem activity_of_plain {o : SocketObs} (h : plain o = true) : activity o = false := by
  unfold plain at h
  split at h
  · cases h
  · simpa using h

/-! ### Single writes -/

section writes

variable {s t : Socket}

/-- A write that leaves the timer, and shows activity only where the timer is fresh. -/
theorem keep_of_log {new : List SocketObs} (hlog : t.log = s.log ++ new)
    (hnew : TimedInv s → new.any activity = true → Fresh s.now s._timer)
    (hsilent : .event .timeout ∉ new)
    (htimer : t._timer = s._timer) (htimeout : t._timeout = s._timeout) (hnow : t.now = s.now)
    (hserver : t._server = true → s._server = true)
    (hclosed : TimedInv s → t._socketState.destroyed = true → t._handle.any (·.closed) = true) :
    Keep s t := by
  refine ⟨fun hs => ⟨⟨hclosed hs, ?_⟩, hnow, .inl htimer, new, hlog, ?_⟩, ?_, hserver⟩
  · rw [htimer, delay, htimeout]
    exact hs.after
  · rw [htimer]
    exact hnew hs
  · rw [hlog, List.count_append, List.count_eq_zero.mpr hsilent, Nat.add_zero]

/-- A write that leaves the timer and shows nothing. -/
theorem keep_silent (hlog : t.log = s.log) (htimer : t._timer = s._timer)
    (htimeout : t._timeout = s._timeout) (hnow : t.now = s.now)
    (hserver : t._server = true → s._server = true)
    (hclosed : TimedInv s → t._socketState.destroyed = true → t._handle.any (·.closed) = true) :
    Keep s t :=
  keep_of_log (hlog.trans (List.append_nil _).symm) (by simp) (by simp) htimer htimeout hnow
    hserver hclosed

/-- A write of fields that have nothing to do with the timer. -/
theorem keep_of_same (hlog : t.log = s.log) (htimer : t._timer = s._timer)
    (htimeout : t._timeout = s._timeout) (hnow : t.now = s.now) (hserver : t._server = s._server)
    (hdestroyed : t._socketState.destroyed = s._socketState.destroyed)
    (hhandle : t._handle = s._handle) : Keep s t := by
  refine keep_silent hlog htimer htimeout hnow (fun h => hserver ▸ h) fun hs => ?_
  rw [hdestroyed, hhandle]
  exact hs.closed

/-- An entry of the log. -/
theorem keep_record {o : SocketObs} (ho : TimedInv s → activity o = true → Fresh s.now s._timer)
    (hsilent : o ≠ .event .timeout) : Keep s { s with log := s.log ++ [o] } := by
  refine keep_of_log rfl (fun hs hact => ho hs ?_) ?_ rfl rfl rfl id TimedInv.closed
  · simpa using hact
  · simpa using hsilent.symm

/-- Another timer, which is off or was armed now with the configured timeout. -/
theorem keep_timer {timer : Option Timer} (hfresh : Fresh s.now timer)
    (hafter : ∀ armed, timer = some armed → armed.active = true → armed.after = s.delay) :
    Keep s { s with _timer := timer } := by
  refine ⟨fun hs => ?_, rfl, id⟩
  exact ⟨⟨hs.closed, hafter⟩, rfl, .inr hfresh, [], (List.append_nil _).symm, nofun⟩

/-- There is no timer any more. -/
theorem keep_cleared (s : Socket) : Keep s { s with _timer := none } :=
  keep_timer (fresh_none s.now) (by simp)

/-- The timer that `resetSocketTimeout` arms. -/
theorem fresh_setTimeout (s : Socket) :
    Fresh s.now (some (IotJs.setTimeout s.now s._timeout)) := by
  rintro armed ⟨rfl⟩ -
  exact Nat.le_refl _

theorem record_changes {o : SocketObs} (ho : plain o = true) : (record o).ChangesBy Keep := by
  intro s
  refine (Prog.changes_modify _).mpr (keep_record ?_ (ne_timeout_of_plain ho))
  rw [activity_of_plain ho]
  exact nofun

theorem modifyState_changes {f : SocketState → SocketState}
    (hf : ∀ state, (f state).destroyed = state.destroyed) (s : Socket) :
    (modifyState f).Changes Keep s :=
  (Prog.changes_modify _).mpr (keep_of_same rfl rfl rfl rfl rfl (hf _) rfl)

theorem nextTick_changes (tick : SocketTick) : (nextTick tick).ChangesBy Keep :=
  fun _ => (Prog.changes_modify _).mpr (keep_of_same rfl rfl rfl rfl rfl rfl rfl)

theorem emit_changes {e : SocketEvent} (he : plain (.event e) = true) :
    (emit e).ChangesBy Keep := by
  have hemit : (do record (.event e); Prog.yieldTo (.event e) : Method Unit).ChangesBy Keep :=
    (record_changes he).bind fun _ _ _ => trivial
  cases e with
  | error message => exact fun s => (Prog.changes_ite ..).mpr ⟨fun _ => hemit s, fun _ => trivial⟩
  | _ => exact hemit

theorem useHandle_changes {op : NativeOp} (hop : ∀ status, plain (.native op status) = true) :
    (useHandle op).ChangesBy Keep := by
  intro s
  refine (record_changes (hop s.handleStatus)).bind (fun _ t => ?_) s
  exact (Prog.changes_ite ..).mpr ⟨fun _ => trivial, fun _ => trivial⟩

theorem clearSocketTimeout_changes : clearSocketTimeout.ChangesBy Keep :=
  fun s => (Prog.changes_modify _).mpr (keep_cleared s)

/-- What follows a restart of the timer: it is armed now, or the socket is destroyed. -/
theorem reset_bind {α : Type} {f : Unit → Method α}
    (hdestroyed : s._socketState.destroyed = true → (f ()).Changes Keep s)
    (harmed : s._socketState.destroyed = false →
      (f ()).Changes Keep { s with _timer := some (IotJs.setTimeout s.now s._timeout) }) :
    (resetSocketTimeout >>= f).Changes Keep s := by
  rw [resetSocketTimeout, Prog.bind_assoc, Prog.changes_get_bind]
  split
  · rename_i hd
    refine ⟨keep_cleared s, keep_timer (fresh_setTimeout s) ?_,
      harmed (by simpa using hd)⟩
    rintro armed ⟨rfl⟩ -
    rfl
  · rename_i hd
    exact hdestroyed (by simpa using hd)

theorem resetSocketTimeout_changes : resetSocketTimeout.ChangesBy Keep := by
  intro s
  rw [← Prog.bind_pure resetSocketTimeout]
  exact reset_bind (fun _ => trivial) fun _ => trivial

/-- An operation that shows activity follows a restart of the timer. A destroyed socket has
closed its handle. -/
theorem resetThenUse_changes {α : Type} {op : NativeOp} {f : Unit → Method α}
    (hop : activity (.native op .closed) = false) (hf : (f ()).ChangesBy Keep) :
    (resetSocketTimeout >>= fun _ => useHandle op >>= f).ChangesBy Keep := by
  have huse : ∀ t : Socket, (TimedInv t → activity (.native op t.handleStatus) = true →
      Fresh t.now t._timer) → (useHandle op >>= f).Changes Keep t := by
    intro t ht
    have hrecord : Keep t { t with log := t.log ++ [.native op t.handleStatus] } :=
      keep_record ht nofun
    refine Prog.Changes.bind ⟨hrecord, ?_⟩ fun _ => hf
    exact (Prog.changes_ite ..).mpr ⟨fun _ => trivial, fun _ => trivial⟩
  intro s
  refine reset_bind (fun hd => huse s fun hinv hact => ?_) fun _ => huse _ fun _ _ => ?_
  · obtain ⟨handle, hhandle, hclosed⟩ := Option.any_eq_true _ _ |>.mp (hinv.closed hd)
    have hstatus : s.handleStatus = .closed := by simp [handleStatus, hhandle, hclosed]
    rw [hstatus, hop] at hact
    cases hact
  · exact fresh_setTimeout s

end writes

/-! ### The functions of `net.js` -/

section functions

variable {P : Platform} {onFinish : Method Unit}

theorem _write_changes (req : WriteReq) : (_write req).ChangesBy Keep := by
  refine resetThenUse_changes rfl fun s => ?_
  refine (Prog.changes_askFor_bind ..).mpr fun err => (Prog.changes_ite ..).mpr ⟨fun _ => ?_,
    fun _ => record_changes rfl s⟩
  exact (Prog.changes_modify _).mpr (keep_of_same rfl rfl rfl rfl rfl rfl rfl)

theorem writableObject_changes (hfinish : onFinish.ChangesBy Keep) :
    (writableObject onFinish).ChangesBy Keep where
  setState state s := keep_of_same rfl rfl rfl rfl rfl rfl rfl
  _write := _write_changes
  emit e := by
    cases e with
    | drain => exact emit_changes (e := .drain) rfl
    | finish => exact (record_changes rfl).bind fun _ => hfinish
    | error message => exact emit_changes (e := .error message) rfl
  nextTick tick := nextTick_changes _
  note n := record_changes rfl

theorem end_changes (data : Option Data) (callback : Option Callback) :
    (end_ P data callback).ChangesBy Keep := by
  have hobject : unfinished.ChangesBy Keep := writableObject_changes fun _ => trivial
  exact (hobject.end_ data callback).bind fun _ => modifyState_changes fun _ => rfl

/-- `destroy` closes the handle before it marks the socket. -/
theorem close_changes :
    (do close; modifyState fun state => { state with destroyed := true } : Method Unit).ChangesBy
      Keep := by
  intro s
  rw [close, useHandle]
  simp only [Prog.bind_assoc]
  refine ⟨keep_record (by simp [activity]) (by simp), ?_⟩
  split
  · trivial
  · rename_i hsome
    obtain ⟨handle, hhandle⟩ : ∃ handle, s._handle = some handle :=
      Option.ne_none_iff_exists'.mp (by simpa using hsome)
    refine ⟨keep_silent rfl rfl rfl rfl (by simp) fun _ _ => ?_,
      keep_silent rfl rfl rfl rfl id fun _ _ => ?_, trivial⟩
    · simp [hhandle]
    · simp [hhandle]

theorem destroy_changes : (destroy P).ChangesBy Keep := by
  have hclose : (do
      clearSocketTimeout
      record .destroyCalled
      if (← get)._writableState.ended then
        close
        modifyState fun state => { state with destroyed := true }
      else
        modify fun s => { s with finishListeners := s.finishListeners + 1 }
      : Method Unit).ChangesBy Keep := by
    refine clearSocketTimeout_changes.bind fun _ => (record_changes rfl).bind fun _ s => ?_
    refine (Prog.changes_ite ..).mpr ⟨fun _ => close_changes s, fun _ => ?_⟩
    exact (Prog.changes_modify _).mpr (keep_of_same rfl rfl rfl rfl rfl rfl rfl)
  intro s
  refine (Prog.changes_ite ..).mpr ⟨fun _ => record_changes rfl s, fun _ => ?_⟩
  refine (Prog.changes_ite ..).mpr ⟨fun _ => ?_, fun _ => hclose s⟩
  exact (end_changes none none).bind (fun _ => hclose) s

theorem destroySoon_changes : (destroySoon P).ChangesBy Keep := by
  have honce : (modify fun s : Socket => { s with finishListeners := s.finishListeners + 1 } :
      Method Unit).ChangesBy Keep :=
    fun _ => (Prog.changes_modify _).mpr (keep_of_same rfl rfl rfl rfl rfl rfl rfl)
  intro s
  exact (Prog.changes_ite ..).mpr
    ⟨fun _ => (end_changes none none).bind (fun _ => honce) s, fun _ => honce s⟩

theorem maybeDestroy_changes : (maybeDestroy P).ChangesBy Keep :=
  fun s => (Prog.changes_ite ..).mpr ⟨fun _ => destroy_changes s, fun _ => trivial⟩

theorem onSocketFinish_changes : (onSocketFinish P).ChangesBy Keep := by
  intro s
  refine (Prog.changes_ite ..).mpr ⟨fun _ => destroy_changes s, fun _ => ?_⟩
  refine (useHandle_changes fun _ => rfl).bind (fun _ t => ?_) s
  refine (Prog.changes_askFor_bind ..).mpr fun err => (Prog.changes_ite ..).mpr ⟨fun _ => ?_,
    fun _ => trivial⟩
  exact (Prog.changes_modify _).mpr (keep_of_same rfl rfl rfl rfl rfl rfl rfl)

theorem onSocketEnd_changes : (onSocketEnd P).ChangesBy Keep := by
  refine maybeDestroy_changes.bind fun _ s => ?_
  exact (Prog.changes_ite ..).mpr ⟨fun _ => destroySoon_changes s, fun _ => trivial⟩

theorem runFinishListeners_changes (n : Nat) : (runFinishListeners P n).ChangesBy Keep := by
  induction n with
  | zero => exact fun _ => trivial
  | succ n ih =>
      intro s
      refine ⟨keep_of_same rfl rfl rfl rfl rfl rfl rfl, ?_⟩
      exact destroy_changes.bind (fun _ _ => (Prog.changes_yieldTo_bind ..).mpr fun u => ih u) _

theorem onFinish_changes : (Socket.onFinish P).ChangesBy Keep := by
  intro s
  refine onSocketFinish_changes.bind (fun _ t => ?_) s
  exact (Prog.changes_yieldTo_bind ..).mpr (runFinishListeners_changes _)

theorem writable_changes : (writable P).ChangesBy Keep := writableObject_changes onFinish_changes

theorem readable_changes : (readable P).ChangesBy Keep where
  setState state s := keep_of_same rfl rfl rfl rfl rfl rfl rfl
  emit e := by
    cases e with
    | end_ =>
        refine (record_changes rfl).bind fun _ => onSocketEnd_changes.bind fun _ _ _ => trivial
    | data data => exact emit_changes (e := .data data) rfl
    | readable => exact emit_changes (e := .readable) rfl
    | pause => exact emit_changes (e := .pause) rfl
    | error message => exact emit_changes (e := .error message) rfl
  addListener ev s := (Prog.changes_modify _).mpr (keep_of_same rfl rfl rfl rfl rfl rfl rfl)
  note n hpushed heof := by
    cases n with
    | pushed data => exact absurd rfl (hpushed data)
    | eof => exact absurd rfl heof
    | _ => exact record_changes rfl

theorem write_changes (chunk : Chunk) (callback : Option Callback) :
    (write P chunk callback).ChangesBy Keep := by
  cases chunk with
  | data data => exact (writable_changes.write data callback).bind fun _ _ => trivial
  | _ => exact fun _ => trivial

theorem lookup_changes (hostname : Host) (port : Int) :
    (lookup P hostname port).ChangesBy Keep := by
  have hpending : ∀ hostname, (modify fun s : Socket =>
      { s with lookups := s.lookups ++ [⟨hostname, port⟩] } : Method Unit).ChangesBy Keep :=
    fun _ _ => (Prog.changes_modify _).mpr (keep_of_same rfl rfl rfl rfl rfl rfl rfl)
  cases hostname with
  | string hostname =>
      refine .ite ((hpending hostname).bind fun _ _ _ => trivial) fun s => ?_
      exact (Prog.changes_askFor_bind ..).mpr fun err =>
        (Prog.changes_ite ..).mpr ⟨fun _ => hpending hostname s, fun _ => trivial⟩
  | _ => exact fun _ => trivial

/-- What `connect` does before it looks the host up. -/
theorem connecting_changes {p : Method Unit} (hp : p.ChangesBy Keep) :
    (do
      let state := (← get)._socketState
      if !(state.connecting || state.connected) then
        if (← get)._handle.isNone then
          modify fun s => { s with _handle := some ⟨false, false⟩ }
        resetSocketTimeout
        modifyState fun state => { state with connecting := true }
        p : Method Unit).ChangesBy Keep := by
  have hstart := Prog.ChangesBy.bind resetSocketTimeout_changes fun _ =>
    Prog.ChangesBy.bind (modifyState_changes (f := fun state => { state with connecting := true })
      fun _ => rfl) fun _ => hp
  intro s
  refine (Prog.changes_ite ..).mpr ⟨fun _ => (Prog.changes_ite ..).mpr ⟨fun hnone => ?_,
    fun _ => hstart s⟩, fun _ => trivial⟩
  refine ⟨keep_silent rfl rfl rfl rfl id fun hinv hd => ?_, hstart _⟩
  -- a socket without a handle was not destroyed
  have hclosed := hinv.closed hd
  rw [Option.isNone_iff_eq_none.mp hnone] at hclosed
  cases hclosed

theorem connect_changes (options : ConnectOptions) : (connect P options).ChangesBy Keep := by
  refine connecting_changes fun s => ?_
  cases checkConnect options with
  | error message => trivial
  | ok port => exact ⟨keep_of_same rfl rfl rfl rfl rfl rfl rfl, lookup_changes _ port _⟩

theorem onSocketConnect_changes : (onSocketConnect P).ChangesBy Keep :=
  Prog.ChangesBy.bind (modifyState_changes fun _ => rfl) fun _ =>
    resetSocketTimeout_changes.bind fun _ =>
      writable_changes._readyToWrite.bind fun _ => nextTick_changes _

theorem connectHandle_changes :
    (do resetSocketTimeout; connectHandle : Method Unit).ChangesBy Keep := by
  refine resetThenUse_changes rfl fun s => ?_
  refine (Prog.changes_askFor_bind ..).mpr fun err => (Prog.changes_ite ..).mpr ⟨fun _ => ?_,
    fun _ => trivial⟩
  exact (Prog.changes_modify _).mpr (keep_of_same rfl rfl rfl rfl rfl rfl rfl)

theorem afterLookup_changes (lookup : Lookup) (err : Int) :
    (afterLookup lookup err).ChangesBy Keep := by
  have hcount : ∀ f : Nat → Nat, (modify fun s : Socket => { s with lookedUp := f s.lookedUp } :
      Method Unit).ChangesBy Keep :=
    fun _ _ => (Prog.changes_modify _).mpr (keep_of_same rfl rfl rfl rfl rfl rfl rfl)
  refine .ite ?_ ?_
  · refine Prog.ChangesBy.bind (hcount (· + 1)) fun _ => ?_
    refine Prog.ChangesBy.bind (emit_changes rfl) fun _ => ?_
    exact Prog.ChangesBy.bind (hcount (· - 1)) fun _ => connectHandle_changes
  · refine Prog.ChangesBy.bind (record_changes rfl) fun _ => ?_
    exact Prog.ChangesBy.bind (emit_changes rfl) fun _ => nextTick_changes _

theorem afterWrite_changes (req : WriteReq) (status : Int) :
    (afterWrite P req status).ChangesBy Keep := by
  refine Prog.ChangesBy.bind (record_changes rfl) fun _ =>
    Prog.ChangesBy.bind (writable_changes._onwrite status) fun _ => ?_
  cases req.callback with
  | none => exact fun _ => trivial
  | some callback => exact (record_changes rfl).bind fun _ _ _ => trivial

theorem afterShutdown_changes : (afterShutdown P).ChangesBy Keep :=
  fun s => (Prog.changes_ite ..).mpr ⟨fun _ => destroy_changes s, fun _ => trivial⟩

theorem runTick_changes (tick : SocketTick) : (runTick P tick).ChangesBy Keep := by
  match tick with
  | .writable .emitFinish => exact writable_changes.emitFinish
  | .writable (.callback callback) => exact (record_changes rfl).bind fun _ _ _ => trivial
  | .lookupFailed message => exact Prog.ChangesBy.bind (emit_changes rfl) fun _ _ => trivial
  | .readStart =>
      refine (useHandle_changes fun _ => rfl).bind fun _ s => ?_
      refine (Prog.changes_askFor_bind ..).mpr fun err => (Prog.changes_ite ..).mpr ⟨fun _ => ?_,
        fun _ => trivial⟩
      refine (Prog.changes_modify _).mpr ?_
      refine keep_silent rfl rfl rfl rfl id fun hinv hd => ?_
      rw [Option.any_map]
      exact hinv.closed hd

/-- The callback of the timer runs on a timer that is no longer active. -/
theorem onTimeout_waits :
    (do Prog.yieldTo (.event .timeout); clearSocketTimeout : Method Unit).ChangesBy Keep :=
  fun _ => (Prog.changes_yieldTo_bind ..).mpr fun t => clearSocketTimeout_changes t

/-- From a state whose timer is fresh, an event may show activity. -/
theorem emit_fresh {s : Socket} {e : SocketEvent} (he : ∀ message, e ≠ .error message)
    (htimeout : e ≠ .timeout) (hfresh : Fresh s.now s._timer) : (emit e).Changes Keep s := by
  have hrecord : Keep s { s with log := s.log ++ [.event e] } :=
    keep_record (fun _ _ => hfresh) (by simpa using htimeout)
  cases e with
  | error message => exact absurd rfl (he message)
  | _ => exact ⟨hrecord, fun _ => trivial⟩

/-- EOF is noted after a restart of the timer. A socket that was destroyed in the meantime has a
timer that is fresh already. -/
theorem onreadEof_changes {s : Socket}
    (h : s._socketState.destroyed = true → Fresh s.now s._timer) :
    (onreadEof P).Changes Keep s := by
  have hrest : ∀ t : Socket, Fresh t.now t._timer → (do
      (readable P).push P .null
      if (← get)._readableState.length = 0 then
        modifyState fun state => { state with readable := false }
        maybeDestroy P : Method Unit).Changes Keep t := by
    intro t ht
    have hnote : ∀ n, ((readable P).note n).Changes Keep t :=
      fun n => (Prog.changes_modify _).mpr (keep_record (fun _ _ => ht) nofun)
    refine (readable_changes.push .null (fun _ => hnote _) (hnote _)).bind fun _ u => ?_
    refine (Prog.changes_ite ..).mpr ⟨fun _ => ?_, fun _ => trivial⟩
    refine Prog.Changes.bind (modifyState_changes ?_ u) fun _ => maybeDestroy_changes
    exact fun _ => rfl
  exact reset_bind (fun hd => hrest s (h hd)) fun _ => hrest _ (fresh_setTimeout s)

end functions

/-! ### Calls that show activity after a yield -/

section calls

variable {P : Platform} {E : Env Socket SocketYield SocketNative Call} {G : Contract Socket}
variable {s₀ s t u : Socket} {α : Type}

theorem post_trans (h₁ : timed.Post s t) (h₂ : timed.Post t u) : timed.Post s u :=
  ⟨h₂.1, timed.trans h₁.2 h₂.2⟩

theorem Keep.post (h : Keep s t) (hs : timed.Post s₀ s) : timed.Post s₀ t :=
  post_trans hs (h.1 hs.1)

/-- A timer that is fresh is so at the end of a call. -/
theorem fresh_post (h : timed.Post s t) (hs : Fresh s.now s._timer) : Fresh t.now t._timer := by
  rw [h.2.1]
  exact h.2.2.fresh hs

/-- The program keeps the contract for a call that started in `s₀`. -/
abbrev KeepsTimed (E : Env Socket SocketYield SocketNative Call) (G : Contract Socket) (s₀ : Socket)
    (p : Method Unit) (s : Socket) : Prop :=
  p.wp E G timed (timed.Post s₀) (fun _ => timed.Post s₀) s

theorem timed_of_changes {p : Method Unit} (h : timed.Post s₀ s) (hp : p.Changes Keep s) :
    KeepsTimed E G s₀ p s :=
  Prog.Changes.wp (fun _ _ hinv hk => hk.1 hinv) p hp h

theorem timed_bind {p : Method α} {f : α → Method Unit} (h : timed.Post s₀ s)
    (hp : p.Changes Keep s) (hf : ∀ a t, timed.Post s t → KeepsTimed E G s₀ (f a) t) :
    KeepsTimed E G s₀ (p >>= f) s := by
  have hself : timed.Post s s := ⟨h.1, timed.refl s⟩
  have hwp := Prog.Changes.wp (E := E) (G := G) (fun _ _ hinv hk => hk.1 hinv) p hp hself
  exact (Prog.wp_bind ..).mpr
    (Prog.wp_mono (fun _ ht => post_trans h ht) (fun a t ht => hf a t ht) p hwp)

theorem timed_reset {f : Unit → Method Unit} (h : timed.Post s₀ s)
    (hdestroyed : s._socketState.destroyed = true → KeepsTimed E G s₀ (f ()) s)
    (harmed : ∀ t, timed.Post s₀ t → Fresh t.now t._timer → KeepsTimed E G s₀ (f ()) t) :
    KeepsTimed E G s₀ (resetSocketTimeout >>= f) s := by
  rw [KeepsTimed, resetSocketTimeout, Prog.bind_assoc, Prog.wp_bind, Prog.wp_get]
  split
  · have hcleared := (keep_cleared s).post h
    refine harmed _ (Keep.post (keep_timer (fresh_setTimeout s) ?_) hcleared) (fresh_setTimeout s)
    rintro armed ⟨rfl⟩ -
    rfl
  · rename_i hd
    exact hdestroyed (by simpa using hd)

/-- A connection that is established: the event comes after the restart of the timer. -/
theorem established_timed {e : SocketEvent} (he : ∀ message, e ≠ .error message)
    (htimeout : e ≠ .timeout) (h : timed.Post s₀ s) (hd : s._socketState.destroyed = false) :
    KeepsTimed E G s₀ (do onSocketConnect P; emit e) s := by
  rw [onSocketConnect]
  simp only [Prog.bind_assoc]
  have hmodify : Keep s { s with
      _socketState := { s._socketState with connecting := false, connected := true } } :=
    keep_of_same rfl rfl rfl rfl rfl rfl rfl
  refine timed_reset (hmodify.post h) (fun hdestroyed => ?_) fun t ht hfresh => ?_
  · rw [show s._socketState.destroyed = true from hdestroyed] at hd
    cases hd
  · refine timed_bind ht (writable_changes._readyToWrite t) fun _ u hu => ?_
    refine timed_bind (post_trans ht hu) (nextTick_changes _ u) fun _ v hv => ?_
    have hfresh' := fresh_post hv (fresh_post hu hfresh)
    exact timed_of_changes (post_trans (post_trans ht hu) hv) (emit_fresh he htimeout hfresh')

theorem afterConnect_timed (status : Int) (h : timed.Post s₀ s) :
    KeepsTimed E G s₀ (afterConnect P status) s := by
  have hrest : ∀ t, timed.Post s₀ t → KeepsTimed E G s₀ (do
      modifyState fun state => { state with connecting := false }
      if !(← get)._socketState.destroyed then
        if status = 0 then
          onSocketConnect P
          emit .connect
        else
          destroy P
          emit (.error ("connect failed - status: " ++ toString status))) t := by
    intro t ht
    refine timed_bind ht (modifyState_changes ?_ t) fun _ u hu => ?_
    · exact fun _ => rfl
    have hu' := post_trans ht hu
    refine (Prog.wp_ite ..).mpr ⟨fun hd => (Prog.wp_ite ..).mpr ⟨fun _ => ?_, fun _ => ?_⟩,
      fun _ => hu'⟩
    · exact established_timed (by simp) (by simp) hu' (by simpa using hd)
    · exact timed_of_changes hu'
        (Prog.ChangesBy.bind destroy_changes (fun _ => emit_changes rfl) u)
  rw [afterConnect]
  refine (Prog.wp_ite ..).mpr ⟨fun _ => ?_, fun _ => hrest s h⟩
  exact timed_bind h (record_changes rfl s) fun _ t ht => hrest t (post_trans h ht)

theorem onread_timed (result : ReadResult) (h : timed.Post s₀ s)
    (hd : s._socketState.destroyed = false) : KeepsTimed E G s₀ (onread P result) s := by
  have hlive : ¬ s._socketState.destroyed = true := by
    rw [hd]
    exact nofun
  have hpush : ∀ (t : Socket) (data : Bytes), Fresh t.now t._timer →
      ((readable P).push P (.data (.buffer data))).Changes Keep t := by
    intro t data ht
    have hnote : ∀ n, ((readable P).note n).Changes Keep t :=
      fun n => (Prog.changes_modify _).mpr (keep_record (fun _ _ => ht) nofun)
    exact readable_changes.push _ (fun _ => hnote _) (hnote _)
  cases result with
  | eof => exact timed_of_changes h (onreadEof_changes fun hdestroyed => absurd hdestroyed hlive)
  | error nread =>
      refine timed_bind h (resetSocketTimeout_changes s) fun _ t ht => ?_
      exact timed_of_changes (post_trans h ht) (readable_changes.emit _ t)
  | data buffer =>
      refine timed_reset h (fun hdestroyed => absurd hdestroyed hlive) fun t ht hfresh => ?_
      refine (Prog.wp_ite ..).mpr ⟨fun _ => ?_, fun _ => timed_of_changes ht (hpush t _ hfresh)⟩
      have heof : ∀ u, timed.Post t u → KeepsTimed E G s₀
          (if (splitEof P buffer).2 then onreadEof P else pure ()) u := by
        intro u hu
        refine (Prog.wp_ite ..).mpr ⟨fun _ => ?_, fun _ => post_trans ht hu⟩
        exact timed_of_changes (post_trans ht hu) (onreadEof_changes fun _ => fresh_post hu hfresh)
      cases hpayload : (splitEof P buffer).1 with
      | none =>
          simp only [hpayload]
          exact heof t ⟨ht.1, timed.refl t⟩
      | some payload =>
          simp only [hpayload]
          exact timed_bind ht (hpush t payload hfresh) fun _ u hu => heof u hu

theorem setTimeout_timed (msecs : Int) (h : timed.Post s₀ s) :
    KeepsTimed E G s₀ (setTimeout msecs) s := by
  have hoff : timed.Post s₀ { s with _timeout := msecs, _timer := none } :=
    post_trans h ⟨⟨h.1.closed, nofun⟩, rfl, .inr (fresh_none s.now), [],
      (List.append_nil _).symm, nofun⟩
  rw [setTimeout]
  refine (Prog.wp_ite ..).mpr ⟨fun _ => ?_, fun _ => hoff⟩
  refine Keep.post (keep_timer (fresh_setTimeout _) ?_) hoff
  rintro armed ⟨rfl⟩ -
  rfl

theorem onTimeout_changes (s : Socket) :
    (modify fun s => { s with _timer := s._timer.map fun timer => { timer with active := false } } :
      Method Unit).Changes Keep s := by
  have hoff : ∀ armed, (s._timer.map fun timer : Timer => { timer with active := false }) =
      some armed → armed.active = true → False := by
    intro armed heq hactive
    obtain ⟨timer, -, rfl⟩ := Option.map_eq_some_iff.mp heq
    cases hactive
  refine (Prog.changes_modify _).mpr (keep_timer ?_ ?_)
  · exact fun armed heq hactive => (hoff armed heq hactive).elim
  · exact fun armed heq hactive => (hoff armed heq hactive).elim

/-- 'timeout' tells of no activity. -/
theorem onTimeout_timed (h : timed.Post s₀ s) : KeepsTimed E G s₀ onTimeout s := by
  refine timed_bind h (onTimeout_changes s) fun _ t ht => ?_
  have hrecord : timed.Post t { t with log := t.log ++ [.event .timeout] } :=
    ⟨⟨ht.1.closed, ht.1.after⟩, rfl, .inl rfl, [.event .timeout], rfl, nofun⟩
  show KeepsTimed E G s₀ (do Prog.yieldTo (.event .timeout); clearSocketTimeout) _
  exact timed_of_changes (post_trans (post_trans h ht) hrecord) (onTimeout_waits _)

end calls

/-! ### Runs -/

section runs

variable {P : Platform} {E : Surroundings} {G : Contract Socket} {s₀ s : Socket}

theorem enabled_not_destroyed (hs : TimedInv s)
    (hen : (s._handle.any fun h => h.reading && !h.closed) = true) :
    s._socketState.destroyed = false := by
  by_contra hd
  obtain ⟨handle, hhandle, hclosed⟩ :=
    (Option.any_eq_true _ _).mp (hs.closed (by simpa using hd))
  rw [hhandle] at hen
  simp [hclosed] at hen

/-- Calls that write to the timer twice, or show activity after a yield, and those that pass
time. The writes of all others keep the contract one by one. -/
def Call.whole : Call → Bool
  | .setTimeout _ | .afterConnect _ | .onread _ | .onconnection | .onTimeout | .elapse _ => true
  | _ => false

theorem body_changes (i : Call) (hi : i.whole = false) : (body P i).ChangesBy Keep := by
  intro s
  cases i with
  | connect options => exact connect_changes options s
  | write chunk callback => exact write_changes chunk callback s
  | end_ data callback => exact end_changes data callback s
  | destroy => exact destroy_changes s
  | destroySoon => exact destroySoon_changes s
  | read n =>
      exact Prog.Changes.bind (f := fun _ => pure ()) (readable_changes.read n s) fun _ _ => trivial
  | pause => exact readable_changes.pause s
  | resume => exact readable_changes.resume s
  | on ev => exact readable_changes.on ev s
  | removeAllListeners ev =>
      exact (Prog.changes_modify _).mpr (keep_of_same rfl rfl rfl rfl rfl rfl rfl)
  | tick i =>
      refine ⟨keep_of_same rfl rfl rfl rfl rfl rfl rfl, ?_⟩
      cases htick : s.ticks[i]? with
      | none => trivial
      | some tick => exact runTick_changes tick _
  | afterLookup err =>
      refine ⟨keep_of_same rfl rfl rfl rfl rfl rfl rfl, ?_⟩
      cases s.lookups.head? with
      | none => trivial
      | some lookup => exact afterLookup_changes lookup err _
  | afterWrite status =>
      refine ⟨keep_of_same rfl rfl rfl rfl rfl rfl rfl, ?_⟩
      cases s.writes.head? with
      | none => trivial
      | some req => exact afterWrite_changes req status _
  | afterShutdown => exact ⟨keep_of_same rfl rfl rfl rfl rfl rfl rfl, afterShutdown_changes _⟩
  | onclose => exact ⟨keep_of_same rfl rfl rfl rfl rfl rfl rfl, emit_changes (e := .close) rfl _⟩
  | _ => cases hi

/-- Every call but `elapse` keeps the contract, whether it comes at rest or not. -/
theorem body_timed (i : Call) (hi : ∀ msecs, i ≠ .elapse msecs) (hb : Base s) (hs : TimedInv s)
    {atRest : Bool} (hen : enabled P s atRest i = true) : KeepsTimed E G s (body P i) s := by
  have hself : timed.Post s s := ⟨hs, timed.refl s⟩
  cases i with
  | setTimeout msecs => exact setTimeout_timed msecs hself
  | afterConnect status =>
      have hpost : timed.Post s { s with connects := s.connects - 1 } :=
        Keep.post (s := s) (keep_of_same rfl rfl rfl rfl rfl rfl rfl) hself
      exact afterConnect_timed status hpost
  | onread result =>
      simp only [enabled, Bool.and_eq_true] at hen
      exact onread_timed result hself (enabled_not_destroyed hs hen.2)
  | onconnection =>
      have hpost : timed.Post s { s with accepting := false } :=
        Keep.post (s := s) (keep_of_same rfl rfl rfl rfl rfl rfl rfl) hself
      refine established_timed (by simp) (by simp) hpost ?_
      refine hb.life.not_destroyed (hb.life.ended_of_writable ?_)
      rw [hb.life.writable, hb.life.accepting hen]
      rfl
  | onTimeout => exact onTimeout_timed hself
  | elapse msecs => exact absurd rfl (hi msecs)
  | _ => exact timed_of_changes hself (body_changes _ rfl s)

theorem timedInv_of_initial (h : Initial s₀) : TimedInv s₀ := by
  obtain ⟨_, _, rfl⟩ | ⟨_, rfl⟩ := h <;> exact ⟨nofun, nofun⟩

/-- The contract holds in every run. Time passes at rest. -/
theorem timed_holds (hinit : Initial s₀) :
    Contract.Holds (machine P) E .nil ((basis.and .nil).and timed) s₀ := by
  have hbasis : Contract.Holds (machine P) E .nil (basis.and .nil) s₀ :=
    holds_of_sound hinit trivial fun _ _ _ _ _ _ => ⟨trivial, trivial⟩
  refine hbasis.and ⟨timedInv_of_initial hinit, fun i atRest s hb hs hen _ _ => ?_⟩
  by_cases hi : ∀ msecs, i ≠ .elapse msecs
  · exact Prog.wp_at atRest (body_timed i hi hb.1 hs hen)
  · obtain ⟨msecs, rfl⟩ := not_forall_not.mp hi
    -- time passes at rest only
    obtain rfl : atRest = true := hen
    exact ⟨⟨hs.closed, hs.after⟩, Nat.le_add_right .., .inl rfl, [], (List.append_nil _).symm, nofun⟩

/-! ### What every step leaves -/

theorem Steady.record {o : SocketObs} (ho : o ≠ .event .timeout) (s : Socket) :
    Steady s { s with log := s.log ++ [o] } := by
  have hnone : [o].count (.event .timeout) = 0 := List.count_eq_zero.mpr (by simpa using ho.symm)
  refine ⟨?_, id⟩
  rw [List.count_append, hnone, Nat.add_zero]

theorem emit_steady {e : SocketEvent} (he : e ≠ .timeout) : (emit e).ChangesBy Steady := by
  have hrecord := Steady.record (o := .event e) (by simpa using he)
  intro s
  cases e with
  | error message =>
      exact (Prog.changes_ite ..).mpr ⟨fun _ => ⟨hrecord s, fun _ => trivial⟩, fun _ => trivial⟩
  | _ => exact ⟨hrecord s, fun _ => trivial⟩

theorem steady_of_keep {α : Type} {p : Method α} (h : p.ChangesBy Keep) : p.ChangesBy Steady :=
  h.mono fun _ _ hk => hk.2

theorem readable_steady : (readable P).ChangesBy Steady where
  setState _ _ := ⟨rfl, id⟩
  emit e := steady_of_keep (readable_changes.emit e)
  addListener ev := steady_of_keep (readable_changes.addListener ev)
  note n h₁ h₂ := steady_of_keep (readable_changes.note n h₁ h₂)

theorem push_steady (chunk : Chunk) : ((readable P).push P chunk).ChangesBy Steady := by
  have hnote : ∀ n s, ((readable P).note n).Changes Steady s :=
    fun n s => (Prog.changes_modify _).mpr (.record (o := .readNote n) nofun s)
  exact fun s => readable_steady.push chunk (fun _ => hnote _ s) (hnote _ s)

theorem onreadEof_steady : (onreadEof P).ChangesBy Steady := by
  refine (steady_of_keep resetSocketTimeout_changes).bind fun _ => (push_steady .null).bind
    fun _ s => (Prog.changes_ite ..).mpr ⟨fun _ => ⟨⟨rfl, id⟩, ?_⟩, fun _ => trivial⟩
  exact steady_of_keep maybeDestroy_changes _

theorem onread_steady (result : ReadResult) : (onread P result).ChangesBy Steady := by
  have hreset := steady_of_keep resetSocketTimeout_changes
  cases result with
  | eof => exact onreadEof_steady
  | error nread => exact hreset.bind fun _ => readable_steady.emit _
  | data buffer =>
      refine hreset.bind fun _ => .ite ?_ (push_steady _)
      have heof : (if (splitEof P buffer).2 then onreadEof P else pure ()).ChangesBy Steady :=
        .ite onreadEof_steady fun _ => trivial
      cases hpayload : (splitEof P buffer).1 with
      | none => simpa only [hpayload] using heof
      | some payload => simpa only [hpayload] using (push_steady _).bind fun _ => heof

theorem afterConnect_steady (status : Int) : (afterConnect P status).ChangesBy Steady := by
  have hrest : (do
      modifyState fun state => { state with connecting := false }
      if !(← get)._socketState.destroyed then
        if status = 0 then
          onSocketConnect P
          emit .connect
        else
          destroy P
          emit (.error ("connect failed - status: " ++ toString status))).ChangesBy Steady := by
    refine fun s => ⟨⟨rfl, id⟩, (Prog.changes_ite ..).mpr ⟨fun _ => ?_, fun _ => trivial⟩⟩
    refine (Prog.changes_ite ..).mpr ⟨fun _ => ?_, fun _ => ?_⟩
    · exact Prog.Changes.bind (steady_of_keep onSocketConnect_changes _)
        fun _ => emit_steady (e := .connect) nofun
    · exact Prog.Changes.bind (steady_of_keep destroy_changes _)
        fun _ => emit_steady (e := .error _) nofun
  exact .ite ((steady_of_keep (record_changes rfl)).bind fun _ => hrest) hrest

/-- Every other call leaves 'timeout' alone. -/
theorem body_steady (i : Call) (hi : i ≠ .onTimeout) : (body P i).ChangesBy Steady := by
  cases hwhole : i.whole with
  | false => exact steady_of_keep (body_changes i hwhole)
  | true =>
      cases i with
      | setTimeout msecs =>
          exact fun s => ⟨⟨rfl, id⟩, ⟨rfl, id⟩, (Prog.changes_ite ..).mpr
            ⟨fun _ => ⟨⟨rfl, id⟩, trivial⟩, fun _ => trivial⟩⟩
      | afterConnect status => exact fun s => ⟨⟨rfl, id⟩, afterConnect_steady status _⟩
      | onread result => exact onread_steady result
      | onconnection =>
          have hevent : (do onSocketConnect P; emit .connection).ChangesBy Steady :=
            (steady_of_keep onSocketConnect_changes).bind fun _ => emit_steady nofun
          exact fun s => ⟨⟨rfl, id⟩, hevent _⟩
      | onTimeout => exact absurd rfl hi
      | elapse msecs => exact fun s => ⟨⟨rfl, id⟩, trivial⟩
      | _ => cases hwhole

/-- What waits on the stack leaves 'timeout' alone. -/
theorem waiting_steady (i : Call) (s : Socket) (rs : List Int) {u : SocketYield} {k : Method Unit}
    {t : Socket} (ho : (body P i).exec rs s = .yielded u k t) : k.ChangesBy Steady := by
  by_cases hi : i = .onTimeout
  · subst hi
    cases ho
    exact steady_of_keep clearSocketTimeout_changes
  · exact (body_steady i hi s).waiting ho

/-- Every step leaves them, but the callback of the timer. -/
theorem step_steady {c c' : Config Socket SocketYield SocketNative} {m : Move Call}
    (hc : (machine P).Reach E s₀ c) (hstep : (machine P).step c m = some c')
    (hm : ∀ rs, m ≠ .call .onTimeout rs) : Steady c.heap c'.heap := by
  have hframes := Machine.reach_changesBy (fun i s rs _ _ _ => waiting_steady i s rs) hc
  refine Machine.step_changes Steady.refl Steady.trans hframes hstep ?_
  rintro i rs rfl
  exact body_steady i (fun hi => hm rs (by rw [hi])) _

/-- A step that emits 'timeout' is the callback of the timer, and comes at rest. -/
theorem step_emits {c c' : Config Socket SocketYield SocketNative} {m : Move Call}
    (hc : (machine P).Reach E s₀ c) (hstep : (machine P).step c m = some c')
    (hemit : c'.heap.log.count (.event .timeout) ≠ c.heap.log.count (.event .timeout)) :
    c.stack = [] ∧ enabled P c.heap true .onTimeout = true := by
  obtain ⟨rs, rfl⟩ : ∃ rs, m = .call .onTimeout rs := by
    by_contra hm
    exact hemit (step_steady hc hstep (not_exists.mp hm)).timeouts
  obtain ⟨hen, rfl⟩ := Machine.step_call hstep
  have hrest := hen
  simp only [machine, enabled, Bool.and_eq_true] at hrest
  exact ⟨by simpa using hrest.1.2, by simpa [machine, hrest.1.2] using hen⟩

/-- A server that has forgotten the socket does not learn of it again. -/
theorem step_server {c c' : Config Socket SocketYield SocketNative} {m : Move Call}
    (hc : (machine P).Reach E s₀ c) (hstep : (machine P).step c m = some c')
    (hserver : c'.heap._server = true) : c.heap._server = true := by
  by_cases hm : ∃ rs, m = .call .onTimeout rs
  · obtain ⟨rs, rfl⟩ := hm
    obtain ⟨-, rfl⟩ := Machine.step_call hstep
    exact hserver
  · exact (step_steady hc hstep (not_exists.mp hm)).server hserver

end runs

end IotJs.Socket

import IotJs.Core.Socket
import IotJs.Proofs.StreamChanges

/-!
# `IotJs.Proofs.SocketAside`: what leaves the bytes of the readable half alone

All the functions of `net.js` but `onread` and those of `stream_readable.js` write neither the state
of the readable half nor an entry of the log that stands for bytes: that is `Aside`. The functions
of `stream_readable.js` but `push` take no block in (`Grows`). Both are facts about single writes,
so they hold of what a function does up to its next yield, whatever outside code does in between.
-/

set_option autoImplicit false

namespace IotJs.Socket

open Reentrant

/-- The entries that do not stand for bytes of the readable half. -/
def aside : SocketObs → Bool
  | .readNote _ | .event (.data _) => false
  | _ => true

/-- The entries that do not stand for a block that came in. -/
def noBlock : SocketObs → Bool
  | .readNote (.pushed _) => false
  | _ => true

/-- A write beside the readable half. -/
structure Aside (s t : Socket) : Prop where
  state : t._readableState = s._readableState
  log : ∃ new, t.log = s.log ++ new ∧ new.all aside = true

/-- A write that takes no block in. -/
def Grows (s t : Socket) : Prop := ∃ new, t.log = s.log ++ new ∧ new.all noBlock = true

section writes

variable {s t u : Socket} {o : SocketObs}

theorem noBlock_of_aside (h : aside o = true) : noBlock o = true := by
  cases o with
  | readNote n => cases h
  | _ => rfl

theorem Aside.grows (h : Aside s t) : Grows s t := by
  obtain ⟨new, hlog, hnew⟩ := h.log
  refine ⟨new, hlog, List.all_eq_true.mpr fun o ho => ?_⟩
  exact noBlock_of_aside (List.all_eq_true.mp hnew o ho)

theorem Grows.refl (s : Socket) : Grows s s := ⟨[], (List.append_nil _).symm, rfl⟩

theorem Grows.trans (h₁ : Grows s t) (h₂ : Grows t u) : Grows s u := by
  obtain ⟨new₁, hlog₁, hnew₁⟩ := h₁
  obtain ⟨new₂, hlog₂, hnew₂⟩ := h₂
  refine ⟨new₁ ++ new₂, ?_, ?_⟩
  · rw [hlog₂, hlog₁, List.append_assoc]
  · rw [List.all_append, hnew₁, hnew₂]
    rfl

/-- A write of fields that have nothing to do with the readable half. -/
theorem aside_of_same (hlog : t.log = s.log) (hstate : t._readableState = s._readableState) :
    Aside s t :=
  ⟨hstate, [], by rw [hlog, List.append_nil], rfl⟩

theorem grows_of_log (hlog : t.log = s.log) : Grows s t :=
  ⟨[], by rw [hlog, List.append_nil], rfl⟩

end writes

/-! ### The functions of `net.js` -/

section functions

variable {P : Platform} {onFinish : Method Unit}

theorem modify_aside {f : Socket → Socket} (hlog : ∀ s, (f s).log = s.log)
    (hstate : ∀ s, (f s)._readableState = s._readableState) :
    (modify f : Method Unit).ChangesBy Aside :=
  fun s => (Prog.changes_modify _).mpr (aside_of_same (hlog s) (hstate s))

theorem record_aside {o : SocketObs} (ho : aside o = true) : (record o).ChangesBy Aside := by
  intro s
  refine (Prog.changes_modify _).mpr ⟨rfl, [o], rfl, ?_⟩
  rw [List.all_cons, ho]
  rfl

theorem modifyState_aside (f : SocketState → SocketState) : (modifyState f).ChangesBy Aside :=
  modify_aside (fun _ => rfl) fun _ => rfl

theorem nextTick_aside (tick : SocketTick) : (nextTick tick).ChangesBy Aside :=
  modify_aside (fun _ => rfl) fun _ => rfl

theorem recordYield_aside {o : SocketObs} (ho : aside o = true) (v : SocketYield) :
    (do record o; Prog.yieldTo v : Method Unit).ChangesBy Aside :=
  (record_aside ho).bind fun _ _ _ => trivial

theorem emit_aside {e : SocketEvent} (he : aside (.event e) = true) :
    (emit e).ChangesBy Aside := by
  have hemit := recordYield_aside he (.event e)
  cases e with
  | error message => exact fun s => (Prog.changes_ite ..).mpr ⟨fun _ => hemit s, fun _ => trivial⟩
  | _ => exact hemit

theorem useHandle_aside (op : NativeOp) : (useHandle op).ChangesBy Aside := by
  intro s
  refine (record_aside (o := .native op s.handleStatus) rfl).bind (fun _ t => ?_) s
  exact (Prog.changes_ite ..).mpr ⟨fun _ => trivial, fun _ => trivial⟩

theorem clearSocketTimeout_aside : clearSocketTimeout.ChangesBy Aside :=
  modify_aside (fun _ => rfl) fun _ => rfl

theorem resetSocketTimeout_aside : resetSocketTimeout.ChangesBy Aside := by
  intro s
  refine (Prog.changes_ite ..).mpr ⟨fun _ => ?_, fun _ => trivial⟩
  refine clearSocketTimeout_aside.bind (fun _ => ?_) s
  exact modify_aside (fun _ => rfl) fun _ => rfl

/-- An operation of the native side, and what it answers. -/
theorem askThen_aside {q : SocketNative} {f : Int → Method Unit}
    (hf : ∀ err, (f err).ChangesBy Aside) : (Prog.askFor q >>= f).ChangesBy Aside :=
  fun s => (Prog.changes_askFor_bind ..).mpr fun err => hf err s

theorem _write_aside (req : WriteReq) : (_write req).ChangesBy Aside := by
  refine resetSocketTimeout_aside.bind fun _ => (useHandle_aside .write).bind fun _ => ?_
  exact askThen_aside fun err => .ite (modify_aside (fun _ => rfl) fun _ => rfl) (record_aside rfl)

theorem writableObject_aside (hfinish : onFinish.ChangesBy Aside) :
    (writableObject onFinish).ChangesBy Aside where
  setState state s := aside_of_same rfl rfl
  _write := _write_aside
  emit e := by
    cases e with
    | drain => exact emit_aside (e := .drain) rfl
    | finish => exact (record_aside rfl).bind fun _ => hfinish
    | error message => exact emit_aside (e := .error message) rfl
  nextTick tick := nextTick_aside _
  note n := record_aside rfl

theorem end_aside (data : Option Data) (callback : Option Callback) :
    (end_ P data callback).ChangesBy Aside := by
  have hobject : unfinished.ChangesBy Aside := writableObject_aside fun _ => trivial
  exact (hobject.end_ data callback).bind fun _ => modifyState_aside _

theorem close_aside : close.ChangesBy Aside :=
  (useHandle_aside .close).bind fun _ => modify_aside (fun _ => rfl) fun _ => rfl

theorem once_aside (f : Nat → Nat) :
    (modify fun s : Socket => { s with finishListeners := f s.finishListeners } :
      Method Unit).ChangesBy Aside :=
  modify_aside (fun _ => rfl) fun _ => rfl

theorem destroy_aside : (destroy P).ChangesBy Aside := by
  have hclose : (do
      clearSocketTimeout
      record .destroyCalled
      if (← get)._writableState.ended then
        close
        modifyState fun state => { state with destroyed := true }
      else
        modify fun s => { s with finishListeners := s.finishListeners + 1 }
      : Method Unit).ChangesBy Aside := by
    refine clearSocketTimeout_aside.bind fun _ => (record_aside rfl).bind fun _ s => ?_
    refine (Prog.changes_ite ..).mpr ⟨fun _ => ?_, fun _ => once_aside _ s⟩
    exact close_aside.bind (fun _ => modifyState_aside _) s
  intro s
  refine (Prog.changes_ite ..).mpr ⟨fun _ => record_aside rfl s, fun _ => ?_⟩
  refine (Prog.changes_ite ..).mpr ⟨fun _ => ?_, fun _ => hclose s⟩
  exact (end_aside none none).bind (fun _ => hclose) s

theorem destroySoon_aside : (destroySoon P).ChangesBy Aside := by
  intro s
  refine (Prog.changes_ite ..).mpr ⟨fun _ => ?_, fun _ => once_aside _ s⟩
  exact (end_aside none none).bind (fun _ => once_aside _) s

theorem maybeDestroy_aside : (maybeDestroy P).ChangesBy Aside :=
  fun s => (Prog.changes_ite ..).mpr ⟨fun _ => destroy_aside s, fun _ => trivial⟩

theorem onSocketFinish_aside : (onSocketFinish P).ChangesBy Aside := by
  intro s
  refine (Prog.changes_ite ..).mpr ⟨fun _ => destroy_aside s, fun _ => ?_⟩
  refine (useHandle_aside .shutdown).bind (fun _ => askThen_aside fun err => ?_) s
  exact .ite (modify_aside (fun _ => rfl) fun _ => rfl) fun _ => trivial

theorem onSocketEnd_aside : (onSocketEnd P).ChangesBy Aside := by
  refine maybeDestroy_aside.bind fun _ s => ?_
  exact (Prog.changes_ite ..).mpr ⟨fun _ => destroySoon_aside s, fun _ => trivial⟩

theorem runFinishListeners_aside (n : Nat) : (runFinishListeners P n).ChangesBy Aside := by
  induction n with
  | zero => exact fun _ => trivial
  | succ n ih =>
      refine (once_aside (· - 1)).bind fun _ => destroy_aside.bind fun _ s => ?_
      exact (Prog.changes_yieldTo_bind ..).mpr fun t => ih t

theorem onFinish_aside : (Socket.onFinish P).ChangesBy Aside := by
  intro s
  refine onSocketFinish_aside.bind (fun _ t => ?_) s
  exact (Prog.changes_yieldTo_bind ..).mpr (runFinishListeners_aside _)

theorem writable_aside : (writable P).ChangesBy Aside := writableObject_aside onFinish_aside

theorem write_aside (chunk : Chunk) (callback : Option Callback) :
    (write P chunk callback).ChangesBy Aside := by
  cases chunk with
  | data data => exact (writable_aside.write data callback).bind fun _ _ => trivial
  | _ => exact fun _ => trivial

theorem lookup_aside (hostname : Host) (port : Int) : (lookup P hostname port).ChangesBy Aside := by
  cases hostname with
  | string hostname =>
      refine .ite ?_ (askThen_aside fun err => .ite ?_ fun _ => trivial)
      · exact Prog.ChangesBy.bind (modify_aside (fun _ => rfl) fun _ => rfl) fun _ _ _ => trivial
      · exact modify_aside (fun _ => rfl) fun _ => rfl
  | _ => exact fun _ => trivial

theorem connect_aside (options : ConnectOptions) : (connect P options).ChangesBy Aside := by
  have hstart : ∀ {check : Method Unit}, check.ChangesBy Aside → (do
      resetSocketTimeout
      modifyState fun state => { state with connecting := true }
      check : Method Unit).ChangesBy Aside := fun hcheck =>
    resetSocketTimeout_aside.bind fun _ => (modifyState_aside _).bind fun _ => hcheck
  intro s
  refine (Prog.changes_ite ..).mpr ⟨fun _ => (Prog.changes_ite ..).mpr ⟨fun _ => ?_,
    fun _ => hstart (fun t => ?_) s⟩, fun _ => trivial⟩
  · refine ⟨aside_of_same rfl rfl, hstart (fun t => ?_) _⟩
    cases checkConnect options with
    | error message => trivial
    | ok port => exact ⟨aside_of_same rfl rfl, lookup_aside _ port _⟩
  · cases checkConnect options with
    | error message => trivial
    | ok port => exact ⟨aside_of_same rfl rfl, lookup_aside _ port _⟩

theorem onSocketConnect_aside : (onSocketConnect P).ChangesBy Aside :=
  (modifyState_aside _).bind fun _ => resetSocketTimeout_aside.bind fun _ =>
    writable_aside._readyToWrite.bind fun _ => nextTick_aside _

theorem afterLookup_aside (lookup : Lookup) (err : Int) :
    (afterLookup lookup err).ChangesBy Aside := by
  have hcount : ∀ f : Nat → Nat, (modify fun s : Socket => { s with lookedUp := f s.lookedUp } :
      Method Unit).ChangesBy Aside :=
    fun _ => modify_aside (fun _ => rfl) fun _ => rfl
  refine .ite ?_ ?_
  · refine (hcount (· + 1)).bind fun _ => (emit_aside rfl).bind fun _ => ?_
    refine (hcount (· - 1)).bind fun _ => resetSocketTimeout_aside.bind fun _ => ?_
    refine (useHandle_aside .connect).bind fun _ => askThen_aside fun err => ?_
    exact .ite (modify_aside (fun _ => rfl) fun _ => rfl) fun _ => trivial
  · exact (record_aside rfl).bind fun _ => (emit_aside rfl).bind fun _ => nextTick_aside _

theorem afterConnect_aside (status : Int) : (afterConnect P status).ChangesBy Aside := by
  have hrest : (do
      modifyState fun state => { state with connecting := false }
      if !(← get)._socketState.destroyed then
        if status = 0 then
          onSocketConnect P
          emit .connect
        else
          destroy P
          emit (.error ("connect failed - status: " ++ toString status))
      : Method Unit).ChangesBy Aside := by
    refine (modifyState_aside _).bind fun _ s => ?_
    refine (Prog.changes_ite ..).mpr ⟨fun _ => (Prog.changes_ite ..).mpr ⟨fun _ => ?_,
      fun _ => ?_⟩, fun _ => trivial⟩
    · exact onSocketConnect_aside.bind (fun _ => emit_aside rfl) s
    · exact destroy_aside.bind (fun _ => emit_aside rfl) s
  intro s
  exact (Prog.changes_ite ..).mpr
    ⟨fun _ => (record_aside rfl).bind (fun _ => hrest) s, fun _ => hrest s⟩

theorem afterWrite_aside (req : WriteReq) (status : Int) :
    (afterWrite P req status).ChangesBy Aside := by
  refine (record_aside rfl).bind fun _ => (writable_aside._onwrite status).bind fun _ => ?_
  cases req.callback with
  | none => exact fun _ => trivial
  | some callback => exact recordYield_aside rfl _

theorem afterShutdown_aside : (afterShutdown P).ChangesBy Aside :=
  fun s => (Prog.changes_ite ..).mpr ⟨fun _ => destroy_aside s, fun _ => trivial⟩

theorem runTick_aside (tick : SocketTick) : (runTick P tick).ChangesBy Aside := by
  match tick with
  | .writable .emitFinish => exact writable_aside.emitFinish
  | .writable (.callback callback) => exact recordYield_aside rfl _
  | .lookupFailed message => exact (emit_aside rfl).bind fun _ _ => trivial
  | .readStart =>
      refine (useHandle_aside .readStart).bind fun _ => askThen_aside fun err => ?_
      exact .ite (modify_aside (fun _ => rfl) fun _ => rfl) fun _ => trivial

theorem setTimeout_aside (msecs : Int) : (setTimeout msecs).ChangesBy Aside := by
  refine Prog.ChangesBy.bind (modify_aside (fun _ => rfl) fun _ => rfl) fun _ => ?_
  refine clearSocketTimeout_aside.bind fun _ => .ite ?_ fun _ => trivial
  exact modify_aside (fun _ => rfl) fun _ => rfl

theorem onTimeout_aside : onTimeout.ChangesBy Aside := by
  refine Prog.ChangesBy.bind (modify_aside (fun _ => rfl) fun _ => rfl) fun _ => ?_
  exact (emit_aside rfl).bind fun _ => clearSocketTimeout_aside

/-- The calls that use the readable half. -/
def Call.reads : Call → Bool
  | .read _ | .pause | .resume | .on _ | .onread _ => true
  | _ => false

theorem body_aside {i : Call} (hi : i.reads = false) : (body P i).ChangesBy Aside := by
  cases i with
  | connect options => exact connect_aside options
  | write chunk callback => exact write_aside chunk callback
  | end_ data callback => exact end_aside data callback
  | destroy => exact destroy_aside
  | destroySoon => exact destroySoon_aside
  | setTimeout msecs => exact setTimeout_aside msecs
  | read => cases hi
  | pause => cases hi
  | resume => cases hi
  | on => cases hi
  | removeAllListeners => exact modify_aside (fun _ => rfl) fun _ => rfl
  | tick i =>
      intro s
      refine ⟨aside_of_same rfl rfl, ?_⟩
      cases s.ticks[i]? with
      | none => trivial
      | some tick => exact runTick_aside tick _
  | afterLookup err =>
      intro s
      refine ⟨aside_of_same rfl rfl, ?_⟩
      cases s.lookups.head? with
      | none => trivial
      | some lookup => exact afterLookup_aside lookup err _
  | afterConnect status =>
      exact Prog.ChangesBy.bind (modify_aside (fun _ => rfl) fun _ => rfl)
        fun _ => afterConnect_aside status
  | afterWrite status =>
      intro s
      refine ⟨aside_of_same rfl rfl, ?_⟩
      cases s.writes.head? with
      | none => trivial
      | some req => exact afterWrite_aside req status _
  | afterShutdown =>
      exact Prog.ChangesBy.bind (modify_aside (fun _ => rfl) fun _ => rfl)
        fun _ => afterShutdown_aside
  | onread => cases hi
  | onclose =>
      exact Prog.ChangesBy.bind (modify_aside (fun _ => rfl) fun _ => rfl)
        fun _ => emit_aside rfl
  | onconnection =>
      exact Prog.ChangesBy.bind (modify_aside (fun _ => rfl) fun _ => rfl)
        fun _ => onSocketConnect_aside.bind fun _ => emit_aside rfl
  | onTimeout => exact onTimeout_aside
  | elapse => exact modify_aside (fun _ => rfl) fun _ => rfl

end functions

/-! ### The readable half -/

section readable

variable {P : Platform}

theorem record_grows {o : SocketObs} (ho : noBlock o = true) : (record o).ChangesBy Grows := by
  intro s
  refine (Prog.changes_modify _).mpr ⟨[o], rfl, ?_⟩
  rw [List.all_cons, ho]
  rfl

theorem readable_grows : (readable P).ChangesBy Grows where
  setState state s := grows_of_log rfl
  emit e := by
    cases e with
    | data data => exact (record_grows rfl).bind fun _ _ _ => trivial
    | end_ =>
        refine (record_grows rfl).bind fun _ => Prog.ChangesBy.bind ?_ fun _ _ _ => trivial
        exact onSocketEnd_aside.mono fun _ _ h => h.grows
    | readable => exact (emit_aside (e := .readable) rfl).mono fun _ _ h => h.grows
    | pause => exact (emit_aside (e := .pause) rfl).mono fun _ _ h => h.grows
    | error message => exact (emit_aside (e := .error message) rfl).mono fun _ _ h => h.grows
  addListener ev s := (Prog.changes_modify _).mpr (grows_of_log rfl)
  note n hpushed _ := by
    cases n with
    | pushed data => exact absurd rfl (hpushed data)
    | _ => exact record_grows rfl

theorem onreadEof_grows : (onreadEof P).ChangesBy Grows := by
  have hreset : resetSocketTimeout.ChangesBy Grows :=
    resetSocketTimeout_aside.mono fun _ _ h => h.grows
  have hrest : (do
      modifyState fun state => { state with readable := false }
      maybeDestroy P : Method Unit).ChangesBy Grows :=
    ((modifyState_aside _).bind fun _ => maybeDestroy_aside).mono fun _ _ h => h.grows
  refine hreset.bind fun _ => Prog.ChangesBy.bind (fun s => ?_) fun _ s => ?_
  · exact readable_grows.onEof (record_grows rfl s)
  · exact (Prog.changes_ite ..).mpr ⟨fun _ => hrest s, fun _ => trivial⟩

/-- All but a block of data takes no block in. -/
theorem body_grows {i : Call} (hi : ∀ buffer, i ≠ .onread (.data buffer)) :
    (body P i).ChangesBy Grows := by
  have hreset : resetSocketTimeout.ChangesBy Grows :=
    resetSocketTimeout_aside.mono fun _ _ h => h.grows
  cases i with
  | read n => exact (readable_grows.read n).bind fun _ _ => trivial
  | pause => exact readable_grows.pause
  | resume => exact readable_grows.resume
  | on ev => exact readable_grows.on ev
  | onread result =>
      cases result with
      | eof => exact onreadEof_grows
      | error nread => exact hreset.bind fun _ => readable_grows.emit _
      | data buffer => exact absurd rfl (hi buffer)
  | _ => exact (body_aside rfl).mono fun _ _ h => h.grows

end readable

end IotJs.Socket

import IotJs.Core.UdpSocket
import IotJs.Proofs.DgramClose
import IotJs.Proofs.EmitterExec

/-!
# `IotJs.Proofs.UdpSocketBind`: a `bind` that fails

A `bind` changes the socket and registers its callback before its address is looked up. When it
fails, the two error branches undo the one and not the other, and only the branch of the lookup
does so before 'error'. `restored_iff` says when the socket is as it was while the listeners of
'error' run, so that it can be bound again from there and the callback is never called.

`Kept` is the invariant of every run. It has a parameter, a registration whose listener is gone:
then no later run calls that listener (`uncalled_of_removed`).
-/

set_option autoImplicit false

namespace IotJs

open Reentrant

/-! ### The bind state -/

namespace Dgram

/-- The bind state and the `bind` in flight stay as they are. -/
def Same (s t : Dgram) : Prop :=
  t._bindState = s._bindState ∧ t.lookups.count .bind = s.lookups.count .bind

/-- What a function of the application makes of them: nothing, or it starts a `bind`. -/
def Binds (s t : Dgram) : Prop :=
  Same s t ∨ s._bindState = .unbound ∧ t._bindState = .binding ∧
    t.lookups.count .bind ≤ s.lookups.count .bind + 1

/-- A function that uses the socket for something else than a `bind`. -/
def Plain (s : Dgram) (o : Outcome Dgram Yield Native Unit) : Prop :=
  Same s o.heap ∧ ∀ tag k t, o = .yielded tag k t → k = pure () ∧ tag ≠ .bindError

section binds

variable {s t u : Dgram} {r : List Int} {args : Send}

theorem Same.refl (s : Dgram) : Same s s := ⟨rfl, rfl⟩

theorem Same.trans (h : Same s t) (h' : Same t u) : Same s u :=
  ⟨h'.1.trans h.1, h'.2.trans h.2⟩

theorem Same.mem (h : Same s t) : .bind ∈ t.lookups ↔ .bind ∈ s.lookups := by
  rw [← List.count_pos_iff, h.2, List.count_pos_iff]

/-- Outside an unbound socket nothing changes. -/
theorem Binds.same (h : Binds s t) (hstate : s._bindState ≠ .unbound) : Same s t :=
  h.resolve_right fun hbad => hstate hbad.1

theorem count_startBind (s : Dgram) :
    s.startBind.lookups.count .bind = s.lookups.count .bind + 1 := by
  show (s.lookups ++ [Lookup.bind]).count Lookup.bind = _
  rw [List.count_append]
  rfl

/-- A `send` of an unbound socket starts a `bind`. -/
theorem send_binds (args : Send) : Binds s ((send args).exec r s).heap := by
  have hcase := send_cases (s := s) (r := r) args
  generalize (send args).exec r s = o at hcase
  cases hcase with
  | refused message => exact .inl (.refl s)
  | unresolved hstate => exact .inl (.refl s)
  | queued hstate => exact .inl ⟨rfl, rfl⟩
  | looking hstate =>
      refine .inl ⟨rfl, ?_⟩
      show (s.lookups ++ [Lookup.send args]).count Lookup.bind = _
      rw [List.count_append]
      rfl
  | binding t hstate hhandle hvalid ht =>
      rcases ht with rfl | rfl
      · exact .inr ⟨hstate, rfl, Nat.le_succ _⟩
      · exact .inr ⟨hstate, rfl, Nat.le_of_eq (count_startBind s)⟩

/-- A lookup throws, or has no result, or is in flight. -/
theorem lookup_cases (address : Address) (wait : Lookup) :
    (∃ e, (lookup address wait).exec r s = .thrown e s) ∨
      (lookup address wait).exec r s = .done () s ∨
      (lookup address wait).exec r s = .done () (s.looking wait) := by
  by_cases haddress : address = .other
  · rw [lookup, if_pos haddress]
    exact .inl ⟨_, rfl⟩
  · rw [lookup, if_neg haddress, Prog.exec_askFor_bind]
    by_cases herr : r.headD 0 = 0
    · rw [if_pos herr]
      exact .inr (.inr rfl)
    · rw [if_neg herr]
      exact .inr (.inl rfl)

/-- A `send` that throws has done nothing. -/
theorem send_thrown {e : String} (h : (send args).exec r s = .thrown e t) : t = s := by
  have hcase := send_cases (s := s) (r := r) args
  rw [h] at hcase
  cases hcase
  rfl

theorem sendCall_cases (list : Message) (port : Int) (address : Address) (callback : Bool) :
    (∃ e t, (sendCall list port address callback).exec r s = .thrown e t ∧ Same s t) ∨
      ∃ t, (sendCall list port address callback).exec r s = .done () t ∧ Binds s t := by
  rw [sendCall, Prog.exec_get_bind, Prog.exec_modify_bind]
  have hbinds := send_binds (r := r) (s := { s with next := s.next + 1 })
    ⟨s.next, list, port, address, callback⟩
  have htag := (send_keeps (r := r) (s := { s with next := s.next + 1 })
    ⟨s.next, list, port, address, callback⟩).1
  cases hsend : (send ⟨s.next, list, port, address, callback⟩).exec r
      { s with next := s.next + 1 } with
  | yielded tag k t =>
      rw [hsend] at htag
      cases htag
  | thrown e t =>
      rw [Prog.exec_bind_thrown _ hsend, send_thrown hsend]
      exact .inl ⟨e, _, rfl, rfl, rfl⟩
  | done a t =>
      rw [hsend] at hbinds
      obtain ⟨n, hexec⟩ := Prog.exec_bind_done (fun _ => note (.accepted s.next callback)) hsend
      rw [hexec]
      exact .inr ⟨_, rfl, hbinds⟩

theorem close_same : (close.exec r s).tag = none ∧ Same s (close.exec r s).heap := by
  cases hqueue : s._queue with
  | some q =>
      rw [close_queued hqueue]
      exact ⟨rfl, rfl, rfl⟩
  | none =>
      cases hhandle : s._handle with
      | true =>
          rw [close_open hqueue hhandle]
          exact ⟨rfl, rfl, rfl⟩
      | false =>
          rw [close_closed hqueue hhandle]
          exact ⟨rfl, .refl s⟩

/-- The flush of a bound socket starts no `bind`. -/
theorem flush_same {queue : List Queued} (hstate : s._bindState ≠ .unbound) :
    ((flush queue).exec r s).tag = none ∧ Same s ((flush queue).exec r s).heap := by
  induction queue generalizing s r with
  | nil => exact ⟨rfl, .refl s⟩
  | cons toRun queue ih =>
      -- a queued call that throws ends the flush
      have hrun : ((runQueued toRun).exec r s).tag = none ∧
          Same s ((runQueued toRun).exec r s).heap := by
        cases toRun with
        | send args => exact ⟨(send_keeps args).1, (send_binds args).same hstate⟩
        | close => exact close_same
      rw [flush]
      cases hexec : (runQueued toRun).exec r s with
      | yielded tag k t =>
          rw [hexec] at hrun
          cases hrun.1
      | thrown e t =>
          rw [hexec] at hrun
          rw [Prog.exec_bind_thrown _ hexec]
          exact hrun
      | done a t =>
          rw [hexec] at hrun
          have hsame : Same s t := hrun.2
          obtain ⟨n, hrest⟩ := Prog.exec_bind_done (fun _ => flush queue) hexec
          obtain ⟨htag', hsame'⟩ := ih (s := t) (r := r.drop n) (by rw [hsame.1]; exact hstate)
          rw [hrest]
          exact ⟨htag', hsame.trans hsame'⟩

theorem clearQueue_same (hstate : s._bindState ≠ .unbound) :
    (clearQueue.exec r s).tag = none ∧ Same s (clearQueue.exec r s).heap := by
  rw [clearQueue, Prog.exec_get_bind]
  cases s._queue with
  | none => exact ⟨rfl, .refl s⟩
  | some q => exact flush_same (s := { s with _queue := none }) hstate

theorem plain_done (h : Same s t) : Plain s (.done () t) := ⟨h, nofun⟩

theorem plain_yielded {tag : Yield} (h : Same s t) (htag : tag ≠ .bindError) :
    Plain s (.yielded tag (pure ()) t) := by
  refine ⟨h, fun tag' k t' heq => ?_⟩
  cases heq
  exact ⟨rfl, htag⟩

theorem answer_plain (handed : Bool) {f : Unit → Datagram Unit}
    (hcall : args.callback = true → f () = pure ())
    (hf : args.callback = false → ∀ t, Same s t → Plain s ((f ()).exec r t)) :
    Plain s ((answer args handed >>= f).exec r s) := by
  have htold : Same s (s.told args handed) := .refl s
  rw [exec_answer]
  cases hcallback : args.callback with
  | true =>
      rw [if_pos rfl, hcall hcallback]
      exact plain_yielded htold nofun
  | false => exact hf hcallback _ htold

theorem doSend_plain (failed : Bool) (args : Send) : Plain s ((doSend failed args).exec r s) := by
  rw [doSend]
  cases failed with
  | true =>
      rw [if_pos rfl]
      refine answer_plain false (fun hcallback => by rw [hcallback]; rfl) fun hcallback t ht => ?_
      rw [hcallback]
      exact plain_yielded ht (by decide)
  | false =>
      rw [if_neg (by simp), Prog.exec_get_bind]
      cases s._handle with
      | false => exact plain_done (.refl s)
      | true =>
          rw [if_pos rfl, Prog.exec_askFor_bind]
          by_cases herr : r.headD 0 = 0
          · rw [if_pos herr]
            exact plain_done ⟨rfl, rfl⟩
          · rw [if_neg herr]
            cases args.callback with
            | false => exact plain_done (.refl s)
            | true =>
                refine ⟨.refl s, fun tag k t heq => ?_⟩
                cases heq

theorem sent_plain (i : Nat) (status : Int) :
    Plain s ((machine.body (.sent i status)).exec r s) := by
  simp only [machine, Prog.exec_get_bind]
  cases s.sending[i]? with
  | none => exact plain_done (.refl s)
  | some args =>
      simp only [Prog.exec_modify_bind]
      rw [← Prog.bind_pure (answer args _)]
      exact answer_plain (s := s.sent i) _ (fun _ => rfl) fun _ t ht => plain_done ht

theorem tick_plain : Plain s ((machine.body .tick).exec r s) :=
  plain_yielded ⟨rfl, rfl⟩ nofun

end binds

end Dgram

namespace UdpSocket

open Dgram (Address BindState Native)

/-! ### The functions, run -/

section exec

variable {s : UdpSocket} {r : List Int} {α : Type}

theorem exec_onSocket (p : Dgram.Datagram α) (r : List Int) (s : UdpSocket) :
    (onSocket p).exec r s = (p.exec r s.socket).zoom socketFocus .socket id s :=
  Prog.exec_zoom p r s

theorem exec_onEmitter (p : EventEmitter.Method α) (r : List Int) (s : UdpSocket) :
    (onEmitter p).exec r s = (p.exec r s.emitter).zoom emitterFocus .listener Empty.elim s :=
  Prog.exec_zoom p r s

/-- The function `f` is registered by `once`. -/
def onced (s : UdpSocket) (f : Nat) : UdpSocket :=
  let e := { s.emitter with registrations := s.emitter.registrations + 1 }
  { s with
    emitter := EventEmitter.withList "listening"
      (s.emitter.listeners "listening" ++ [.once s.emitter.registrations "listening" f]) e }

theorem listeners_onced (f : Nat) : (s.onced f).emitter.listeners "listening" =
    s.emitter.listeners "listening" ++ [.once s.emitter.registrations "listening" f] := by
  rw [onced, EventEmitter.listeners_withList, Function.update_self]

theorem exec_once (f : Nat) : (once f).exec r s = .done () (s.onced f) := by
  let e := { s.emitter with registrations := s.emitter.registrations + 1 }
  have hadd : (EventEmitter.addFunction "listening"
      (.once s.emitter.registrations "listening" f)).exec r e = .done () (s.onced f).emitter :=
    EventEmitter.exec_addFunction (.inr (by decide))
  have hexec : (EventEmitter.once "listening" (some f)).exec r s.emitter =
      .done () (s.onced f).emitter := hadd
  rw [once, exec_onEmitter]
  show ((EventEmitter.once "listening" (some f)).exec r s.emitter).zoom _ _ _ s = _
  rw [hexec]
  rfl

/-- A `bind` has registered its callback. -/
def registered (s : UdpSocket) (callback : Option Nat) : UdpSocket :=
  let t : UdpSocket := { s with binding := callback.map fun _ => s.emitter.registrations }
  match callback with
  | some f => t.onced (function f)
  | none => t

theorem exec_register (callback : Option Nat) :
    (register callback).exec r s = .done () (s.registered callback) := by
  cases callback with
  | none => rfl
  | some f => exact exec_once (r := r) (function f) (s := { s with binding := _ })

/-- A `bind` has checked the socket and registered its callback. -/
def started (s : UdpSocket) (callback : Option Nat) : UdpSocket :=
  registered { s with socket := { s.socket with _bindState := .binding } } callback

theorem exec_healthCheck (hhandle : s.socket._handle = true) (f : Unit → Method α) :
    (onSocket Dgram.healthCheck >>= f).exec r s = (f ()).exec r s := by
  have hget : (socketFocus.get s)._handle = true := hhandle
  rw [onSocket, Dgram.healthCheck, Prog.zoom_bind, Prog.bind_assoc]
  show (Prog.zoom socketFocus .socket id
    (if !(socketFocus.get s)._handle then Prog.fail "Not running" else pure ()) >>= f).exec r s = _
  rw [hget]
  rfl

/-- What `bind` does: it throws at once, or comes to the lookup of its address. -/
theorem bind_cases (address : Address) (callback : Option Nat) :
    (∃ e, (bind address callback).exec r s = .thrown e s ∧
      (s.socket._handle = false ∨ s.socket._bindState ≠ .unbound)) ∨
    s.socket._handle = true ∧ s.socket._bindState = .unbound ∧
      ∃ n, (bind address callback).exec r s =
        (onSocket (Dgram.lookup address .bind)).exec (r.drop n) (s.started callback) := by
  cases hhandle : s.socket._handle with
  | false =>
      have hcheck : (onSocket Dgram.healthCheck).exec r s = .thrown "Not running" s := by
        rw [exec_onSocket, ← Prog.bind_pure Dgram.healthCheck, Dgram.exec_healthCheck_fail hhandle]
        rfl
      rw [bind, Prog.exec_bind_thrown _ hcheck]
      exact .inl ⟨_, rfl, .inl rfl⟩
  | true =>
      rw [bind, exec_healthCheck hhandle, Prog.exec_get_bind]
      by_cases hstate : s.socket._bindState = .unbound
      · rw [if_neg (not_not_intro hstate)]
        obtain ⟨n, hrest⟩ := Prog.exec_bind_done (fun _ => onSocket (Dgram.lookup address .bind))
          (exec_register (r := r) callback
            (s := { s with socket := { s.socket with _bindState := .binding } }))
        exact .inr ⟨rfl, hstate, n, hrest⟩
      · rw [if_pos hstate]
        exact .inl ⟨_, rfl, .inr hstate⟩

/-- A `bind` of an open socket that is not bound gets to its lookup. -/
theorem bind_starts {address : Address} (callback : Option Nat)
    (hhandle : s.socket._handle = true) (hstate : s.socket._bindState = .unbound)
    (haddress : address ≠ .other) : ∃ t, (bind address callback).exec [] s = .done () t ∧
      .bind ∈ t.socket.lookups := by
  rcases bind_cases (r := []) (s := s) address callback with ⟨-, -, hbad⟩ | ⟨-, -, n, hexec⟩
  · simp [hhandle, hstate] at hbad
  · rw [hexec, exec_onSocket, List.drop_nil, Dgram.exec_lookup haddress rfl]
    exact ⟨_, rfl, List.mem_append_right _ List.mem_cons_self⟩

end exec

/-! ### What every move keeps -/

/-- The function that the registration `id` made. -/
def IsOf (id : Nat) (listener : Listener) : Prop := ∃ type f, listener = .once id type f

/-- The listener of the registration is still there. -/
def Registered (s : UdpSocket) (id : Nat) : Prop :=
  ∃ listener ∈ s.emitter.listeners "listening", IsOf id listener

/-- The invariant. `gone` is a registration whose listener is not there any more. Where `Q` holds,
the application takes no listener out. -/
structure Kept (Q : Prop) (gone : Option Nat) (s : UdpSocket) : Prop where
  one : s.socket.lookups.count .bind ≤ 1
  binding : .bind ∈ s.socket.lookups → s.socket._bindState = .binding
  fresh : ∀ id, s.binding = some id ∨ gone = some id → id < s.emitter.registrations
  gone : ∀ id, gone = some id → ¬ Registered s id
  /-- the callback of the `bind` in flight is registered -/
  held : Q → .bind ∈ s.socket.lookups → ∀ id, s.binding = some id → Registered s id

/-- What a function that waits relies on. -/
def Waits (gone : Option Nat) (s : UdpSocket) : Yield → Prop
  | .socket .bindError => s.socket._bindState = .binding ∧ .bind ∉ s.socket.lookups
  | .socket _ => True
  | .listener tag => s.socket._bindState = .bound ∧
      ∀ id, gone = some id → ∀ listener ∈ tag.listener :: tag.rest, ¬ IsOf id listener

section inv

variable {Q : Prop} {gone : Option Nat} {s t : UdpSocket} {r : List Int}

theorem kept_new : Kept Q none new where
  one := Nat.zero_le 1
  binding := nofun
  fresh := nofun
  gone := nofun
  held _ := nofun

/-- The socket changes, and the `bind` in flight does not. -/
theorem Kept.same (h : Kept Q gone s) {u : Dgram} (hsame : Dgram.Same s.socket u) :
    Kept Q gone { s with socket := u } where
  one := by
    show u.lookups.count .bind ≤ 1
    rw [hsame.2]
    exact h.one
  binding hmem := hsame.1.trans (h.binding (hsame.mem.mp hmem))
  fresh := h.fresh
  gone := h.gone
  held hq hmem := h.held hq (hsame.mem.mp hmem)

/-- A `bind` starts, whose callback is registered. -/
theorem Kept.binds (h : Kept Q gone s) {u : Dgram} (hstate : s.socket._bindState = .unbound)
    (hbinding : u._bindState = .binding)
    (hcount : u.lookups.count .bind ≤ s.socket.lookups.count .bind + 1)
    (hheld : ∀ id, s.binding = some id → Registered s id) :
    Kept Q gone { s with socket := u } where
  one := by
    -- there was none before
    have hnone : s.socket.lookups.count .bind = 0 := by
      rw [List.count_eq_zero]
      intro hmem
      have hbad := h.binding hmem
      rw [hstate] at hbad
      cases hbad
    show u.lookups.count .bind ≤ 1
    omega
  binding _ := hbinding
  fresh := h.fresh
  gone := h.gone
  held _ _ := hheld

theorem registered_onced {f id : Nat} :
    Registered (s.onced f) id ↔ Registered s id ∨ id = s.emitter.registrations := by
  simp only [Registered, listeners_onced, List.mem_append, List.mem_singleton, or_and_right,
    exists_or]
  refine or_congr_right ⟨?_, ?_⟩
  · rintro ⟨_, rfl, type, g, heq⟩
    cases heq
    rfl
  · rintro rfl
    exact ⟨_, rfl, "listening", f, rfl⟩

/-- A registration adds a listener that was not there before. -/
theorem Kept.onced (h : Kept Q gone s) (f : Nat) : Kept Q gone (s.onced f) where
  one := h.one
  binding := h.binding
  fresh id hid := Nat.lt_succ_of_lt (h.fresh id hid)
  gone id hid := by
    rw [registered_onced]
    rintro (hold | hnew)
    · exact h.gone id hid hold
    · have hlt := h.fresh id (.inr hid)
      omega
  held hq hmem id hid := registered_onced.mpr (.inl (h.held hq hmem id hid))

theorem Kept.registered (h : Kept Q gone s) (hnone : .bind ∉ s.socket.lookups)
    (callback : Option Nat) : Kept Q gone (s.registered callback) ∧
      ∀ id, (s.registered callback).binding = some id → Registered (s.registered callback) id := by
  cases callback with
  | none =>
      exact ⟨{ h with
        fresh := fun id hid => h.fresh id (.inr (hid.resolve_left nofun))
        held := fun _ hmem => absurd hmem hnone }, nofun⟩
  | some f =>
      refine ⟨?_, fun id hid => ?_⟩
      · have hgone := h.onced (function f)
        exact { hgone with
          fresh := fun id hid => by
            rcases hid with hid | hid
            · cases hid
              exact Nat.lt_succ_self _
            · exact hgone.fresh id (.inr hid)
          held := fun _ hmem => absurd hmem hnone }
      · cases hid
        exact registered_onced.mpr (.inr rfl)

/-- The listeners change, and the application took none out, or does not promise not to. -/
theorem Kept.emitter (h : Kept Q gone s) {e : EventEmitter}
    (hcount : e.registrations = s.emitter.registrations)
    (hsub : ∀ listener ∈ e.listeners "listening",
      listener ∈ s.emitter.listeners "listening" ∨ ∃ f, listener = .function f)
    (hheld : Q → .bind ∈ s.socket.lookups →
      ∀ listener ∈ s.emitter.listeners "listening", listener ∈ e.listeners "listening") :
    Kept Q gone { s with emitter := e } where
  one := h.one
  binding := h.binding
  fresh id hid := by
    show id < e.registrations
    rw [hcount]
    exact h.fresh id hid
  gone id hid := by
    rintro ⟨listener, hmem, hof⟩
    rcases hsub listener hmem with hold | ⟨f, rfl⟩
    · exact h.gone id hid ⟨listener, hold, hof⟩
    · obtain ⟨type, g, hbad⟩ := hof
      cases hbad
  held hq hmem id hid := by
    obtain ⟨listener, hin, hof⟩ := h.held hq hmem id hid
    exact ⟨listener, hheld hq hmem listener hin, hof⟩

/-- What waits goes on to rely on what it relied on, as it does not wait on an unbound socket. -/
theorem Waits.binds {tag : Yield} (h : Waits gone s tag)
    (hbinds : Dgram.Binds s.socket t.socket) : Waits gone t tag := by
  cases tag with
  | listener tag =>
      have hsame := hbinds.same (by rw [h.1]; nofun)
      exact ⟨hsame.1.trans h.1, h.2⟩
  | socket tag =>
      cases tag with
      | bindError =>
          have hsame := hbinds.same (by rw [h.1]; nofun)
          exact ⟨hsame.1.trans h.1, fun hmem => h.2 (hsame.mem.mp hmem)⟩
      | callback | error | listening | listened | close => exact trivial

/-- What a call of the application leaves, which comes to no listener. -/
structure Calls (Q : Prop) (gone : Option Nat) (s : UdpSocket)
    (o : Outcome UdpSocket Yield Native Unit) : Prop where
  tag : o.tag = none
  kept : Kept Q gone o.heap
  binds : Dgram.Binds s.socket o.heap.socket

theorem calls_bind (h : Kept Q gone s) (address : Address) (callback : Option Nat) :
    Calls Q gone s ((bind address callback).exec r s) := by
  rcases bind_cases (r := r) (s := s) address callback with ⟨e, hexec, -⟩ | ⟨-, hstate, n, hexec⟩
  · rw [hexec]
    exact ⟨rfl, h, .inl (.refl _)⟩
  · have hnone : .bind ∉ s.socket.lookups := by
      intro hmem
      have hbad := h.binding hmem
      rw [hstate] at hbad
      cases hbad
    obtain ⟨hregistered, hheld⟩ := h.registered hnone callback
    let binding : Dgram := { s.socket with _bindState := .binding }
    -- the rest of `bind` changes the socket alone
    have hkept (u : Dgram) (hbinding : u._bindState = .binding)
        (hcount : u.lookups.count .bind ≤ s.socket.lookups.count .bind + 1) :
        Kept Q gone (socketFocus.put u (s.started callback)) := by
      have hbinds := hregistered.binds (u := u) (by cases callback <;> exact hstate) hbinding
        (by cases callback <;> exact hcount) hheld
      cases callback <;> exact hbinds
    have hsocket : (s.started callback).socket = binding := by
      cases callback <;> rfl
    rw [hexec, exec_onSocket, hsocket]
    rcases Dgram.lookup_cases (r := r.drop n) (s := binding) address .bind with
      ⟨e, hlookup⟩ | hlookup | hlookup
    · rw [hlookup]
      exact ⟨rfl, hkept _ rfl (Nat.le_succ _), .inr ⟨hstate, rfl, Nat.le_succ _⟩⟩
    · rw [hlookup]
      exact ⟨rfl, hkept _ rfl (Nat.le_succ _), .inr ⟨hstate, rfl, Nat.le_succ _⟩⟩
    · have hcount := Nat.le_of_eq (Dgram.count_startBind s.socket)
      rw [hlookup]
      exact ⟨rfl, hkept _ rfl hcount, .inr ⟨hstate, rfl, hcount⟩⟩

/-- The listeners that `send` registers change nothing of the socket. -/
theorem exec_registerNone (before : BindState) : (registerNone before).exec r s =
    .done () (if s.socket._bindState = before then s else s.registered none) := by
  rw [registerNone, Prog.exec_get_bind]
  by_cases hstate : s.socket._bindState = before
  · rw [if_pos hstate, if_pos hstate]
    rfl
  · rw [if_neg hstate, if_neg hstate, exec_register]

theorem exec_registerFlush (before : Bool) : (registerFlush before).exec r s =
    .done () (if before = false ∧ s.socket._queue.isSome = true then s.onced clearQueue else s) := by
  rw [registerFlush, Prog.exec_get_bind]
  by_cases hqueue : before = false ∧ s.socket._queue.isSome = true
  · rw [if_pos hqueue, if_pos hqueue, exec_once]
  · rw [if_neg hqueue, if_neg hqueue]
    rfl

theorem calls_send (h : Kept Q gone s) {list : Dgram.Message} {port : Int} {address : Address}
    {callback : Bool} : Calls Q gone s ((send list port address callback).exec r s) := by
  rw [send, Prog.exec_get_bind]
  rcases Dgram.sendCall_cases (r := r) (s := s.socket) list port address callback with
    ⟨e, u, hexec, hsame⟩ | ⟨u, hexec, hbinds⟩
  · have hthrown : (onSocket (Dgram.sendCall list port address callback)).exec r s =
        .thrown e { s with socket := u } := by
      rw [exec_onSocket, hexec]
      rfl
    rw [Prog.exec_bind_thrown _ hthrown]
    exact ⟨rfl, h.same hsame, .inl hsame⟩
  · have hdone : (onSocket (Dgram.sendCall list port address callback)).exec r s =
        .done () { s with socket := u } := by
      rw [exec_onSocket, hexec]
      rfl
    obtain ⟨n, hrest⟩ := Prog.exec_bind_done (fun _ => do
      registerNone s.socket._bindState
      registerFlush s.socket._queue.isSome) hdone
    obtain ⟨m, hflush⟩ := Prog.exec_bind_done (fun _ => registerFlush s.socket._queue.isSome)
      (exec_registerNone (r := r.drop n) (s := { s with socket := u }) s.socket._bindState)
    rw [hrest, hflush, exec_registerFlush]
    -- an implicit `bind` has no callback, and without one the bind state is what it was
    have hkept : Kept Q gone (if u._bindState = s.socket._bindState then { s with socket := u }
        else registered { s with socket := u } none) := by
      rcases hbinds with hsame | ⟨hstate, hbinding, hcount⟩
      · rw [if_pos hsame.1]
        exact h.same hsame
      · rw [if_neg (by rw [hbinding, hstate]; nofun)]
        have hnone : .bind ∉ s.socket.lookups := by
          intro hmem
          have hbad := h.binding hmem
          rw [hstate] at hbad
          cases hbad
        exact (h.registered hnone none).1.binds hstate hbinding hcount nofun
    have hsocket : (if u._bindState = s.socket._bindState then { s with socket := u }
        else registered { s with socket := u } none).socket = u := by
      split <;> rfl
    show Calls Q gone s (.done () (if _ ∧ _ then _ else _))
    generalize (if u._bindState = s.socket._bindState then { s with socket := u }
        else registered { s with socket := u } none) = t at hkept hsocket
    subst hsocket
    refine ⟨rfl, ?_, ?_⟩
    · show Kept Q gone (if _ ∧ _ then _ else _)
      split
      · exact hkept.onced clearQueue
      · exact hkept
    · show Dgram.Binds s.socket (if _ ∧ _ then _ else _ : UdpSocket).socket
      split
      · exact hbinds
      · exact hbinds

theorem calls_close (h : Kept Q gone s) : Calls Q gone s ((onSocket Dgram.close).exec r s) := by
  obtain ⟨htag, hsame⟩ := Dgram.close_same (r := r) (s := s.socket)
  rw [exec_onSocket]
  refine ⟨?_, ?_, ?_⟩
  · rw [Outcome.tag_zoom, htag]
    rfl
  · rw [Outcome.heap_zoom]
    exact h.same hsame
  · rw [Outcome.heap_zoom]
    exact .inl hsame

theorem calls_once (h : Kept Q gone s) (f : Nat) : Calls Q gone s ((once f).exec r s) := by
  rw [exec_once]
  exact ⟨rfl, h.onced f, .inl (.refl _)⟩

theorem calls_on (h : Kept Q gone s) (f : Nat) :
    Calls Q gone s
      ((onEmitter (EventEmitter.addListener "listening" (some (function f)))).exec r s) := by
  let list := s.emitter.listeners "listening" ++ [.function (function f)]
  have hadd : (EventEmitter.addFunction "listening" (.function (function f))).exec r s.emitter =
      .done () (EventEmitter.withList "listening" list s.emitter) :=
    EventEmitter.exec_addFunction (.inr (by decide))
  have hexec : (onEmitter (EventEmitter.addListener "listening" (some (function f)))).exec r s =
      .done () { s with emitter := EventEmitter.withList "listening" list s.emitter } := by
    rw [exec_onEmitter, EventEmitter.addListener]
    show ((EventEmitter.addFunction "listening" (.function (function f))).exec r s.emitter).zoom
      _ _ _ s = _
    rw [hadd]
    rfl
  have hlist : (EventEmitter.withList "listening" list s.emitter).listeners "listening" = list := by
    rw [EventEmitter.listeners_withList, Function.update_self]
  rw [hexec]
  refine ⟨rfl, h.emitter rfl (fun listener hmem => ?_) fun _ _ listener hmem => ?_, .inl (.refl _)⟩
  · rw [hlist, List.mem_append, List.mem_singleton] at hmem
    exact hmem.imp_right fun heq => ⟨_, heq⟩
  · rw [hlist]
    exact List.mem_append_left _ hmem

theorem mem_removed {type : String} {e : EventEmitter} {l other : Listener}
    (h : other ∈ (EventEmitter.removed type l e).listeners "listening") :
    other ∈ e.listeners "listening" := by
  rw [EventEmitter.listeners_removed] at h
  by_cases htype : "listening" = type
  · subst htype
    rw [Function.update_self] at h
    exact (LastMatch.eraseLast_sublist _ _).mem h
  · rwa [Function.update_of_ne htype] at h

/-- A listener is taken out, and no `bind` in flight relies on it. -/
theorem Kept.removed (h : Kept Q gone s) (hfree : Q → .bind ∉ s.socket.lookups) (type : String)
    (listener : Listener) :
    Kept Q gone { s with emitter := EventEmitter.removed type listener s.emitter } :=
  h.emitter (EventEmitter.registrations_removed ..) (fun _ hmem => .inl (mem_removed hmem))
    fun hq hmem => absurd hmem (hfree hq)

theorem exec_onRemove (type : String) (listener : Listener) :
    (onEmitter (EventEmitter.removeFunction type listener)).exec r s =
      .done () { s with emitter := EventEmitter.removed type listener s.emitter } := by
  have hremove : (EventEmitter.removeFunction type listener).exec r s.emitter =
      .done () (EventEmitter.removed type listener s.emitter) := by
    rw [← Prog.bind_pure (EventEmitter.removeFunction type listener),
      EventEmitter.exec_removeFunction]
    rfl
  rw [exec_onEmitter]
  show ((EventEmitter.removeFunction type listener).exec r s.emitter).zoom _ _ _ s = _
  rw [hremove]
  rfl

theorem calls_removeListener (h : Kept Q gone s) (hq : ¬ Q) (f : Nat) :
    Calls Q gone s
      ((onEmitter (EventEmitter.removeListener "listening" (some (function f)))).exec r s) := by
  show Calls Q gone s ((onEmitter (EventEmitter.removeFunction "listening" _)).exec r s)
  rw [exec_onRemove]
  exact ⟨rfl, h.removed (fun hbad => absurd hbad hq) _ _, .inl (.refl _)⟩

/-! ### What comes at rest -/

/-- What goes on after each yield. -/
def resume : Yield → Method Unit
  | .socket .bindError => onSocket (modify fun s => { s with _bindState := .unbound })
  | .socket _ => pure ()
  | .listener tag => callListeners tag.rest

/-- What a function that came at rest leaves. -/
structure Leaves (Q : Prop) (gone : Option Nat) (o : Outcome UdpSocket Yield Native Unit) :
    Prop where
  kept : Kept Q gone o.heap
  waits : ∀ tag k t, o = .yielded tag k t → k = resume tag ∧ Waits gone t tag

theorem leaves_done (h : Kept Q gone s) : Leaves Q gone (.done () s) := ⟨h, nofun⟩

theorem leaves_yielded (h : Kept Q gone s) {y : Yield} {k : Method Unit} (hk : k = resume y)
    (hwaits : Waits gone s y) : Leaves Q gone (.yielded y k s) := by
  refine ⟨h, fun tag' k' t heq => ?_⟩
  cases heq
  exact ⟨hk, hwaits⟩

/-- A function of the socket that has nothing to do with a `bind`. -/
theorem leaves_plain (h : Kept Q gone s) {p : Dgram.Datagram Unit}
    (hplain : Dgram.Plain s.socket (p.exec r s.socket)) :
    Leaves Q gone ((onSocket p).exec r s) := by
  obtain ⟨hsame, hyield⟩ := hplain
  rw [exec_onSocket]
  generalize p.exec r s.socket = o at hsame hyield
  cases o with
  | done a u => exact leaves_done (h.same hsame)
  | thrown e u => exact ⟨h.same hsame, nofun⟩
  | yielded tag k u =>
      obtain ⟨rfl, htag⟩ := hyield tag k u rfl
      cases tag with
      | bindError => exact absurd rfl htag
      | callback | error | listening | listened | close =>
          exact leaves_yielded (h.same hsame) rfl trivial

/-- A listener of 'listening' is called: it is `clearQueue`, or it is outside code. -/
theorem callListener_cases (listener : Listener) (rest : List Listener) :
    (∃ id type, callListener listener rest = (do
      onEmitter (EventEmitter.removeFunction type (.once id type clearQueue))
      onSocket Dgram.clearQueue)) ∨
    callListener listener rest = onEmitter (EventEmitter.callListener listener [] rest) := by
  cases listener with
  | function f => exact .inr rfl
  | once id type f =>
      cases f with
      | zero => exact .inl ⟨id, type, rfl⟩
      | succ f => exact .inr rfl

theorem Kept.calling (h : Kept Q gone s) (hfree : .bind ∉ s.socket.lookups)
    (listener : Listener) :
    Kept Q gone { s with emitter := EventEmitter.calling [] listener s.emitter } := by
  cases listener with
  | function f => exact h.emitter rfl (fun _ hmem => .inl hmem) fun _ _ _ hmem => hmem
  | once id type f =>
      refine h.emitter ?_ (fun other hmem => .inl ?_) fun _ hmem => absurd hmem hfree
      · exact EventEmitter.registrations_removed ..
      · exact mem_removed (l := .once id type f) hmem

/-- The loop of `emit('listening')`, on a socket that is bound. -/
theorem leaves_callListeners {list : List Listener} (h : Kept Q gone s)
    (hstate : s.socket._bindState = .bound)
    (hlist : ∀ id, gone = some id → ∀ listener ∈ list, ¬ IsOf id listener) :
    Leaves Q gone ((callListeners list).exec r s) := by
  induction list generalizing s r with
  | nil => exact leaves_done h
  | cons listener rest ih =>
      have hfree : .bind ∉ s.socket.lookups := by
        intro hmem
        have hbad := h.binding hmem
        rw [hstate] at hbad
        cases hbad
      have hrest : ∀ id, gone = some id → ∀ other ∈ rest, ¬ IsOf id other :=
        fun id hid other hmem => hlist id hid other (List.mem_cons_of_mem _ hmem)
      rw [callListeners]
      rcases callListener_cases listener rest with ⟨id, type, hcall⟩ | hcall
      · -- `clearQueue` takes itself out, and flushes
        let t : UdpSocket := { s with
          emitter := EventEmitter.removed type (.once id type clearQueue) s.emitter }
        have ht : Kept Q gone t := h.removed (fun _ => hfree) _ _
        obtain ⟨n, hexec⟩ := Prog.exec_bind_done (fun _ => onSocket Dgram.clearQueue >>=
          fun _ => callListeners rest) (exec_onRemove (r := r) (s := s) type
            (.once id type clearQueue))
        obtain ⟨htag, hsame⟩ := Dgram.clearQueue_same (r := r.drop n) (s := t.socket)
          (by show s.socket._bindState ≠ _; rw [hstate]; nofun)
        have hflush := exec_onSocket Dgram.clearQueue (r.drop n) t
        rw [hcall, Prog.bind_assoc, hexec]
        generalize Dgram.clearQueue.exec (r.drop n) t.socket = o at htag hsame hflush
        cases o with
        | yielded tag k u => cases htag
        | thrown e u =>
            rw [Prog.exec_bind_thrown _ hflush]
            exact ⟨ht.same hsame, nofun⟩
        | done a u =>
            obtain ⟨m, hdone⟩ := Prog.exec_bind_done (fun _ => callListeners rest) hflush
            rw [hdone]
            exact ih (ht.same hsame) (hsame.1.trans hstate) hrest
      · have hyield : (onEmitter (EventEmitter.callListener listener [] rest)).exec r s =
            .yielded (.listener ⟨listener, [], rest⟩) (pure ())
              { s with emitter := EventEmitter.calling [] listener s.emitter } := by
          have hemit : (EventEmitter.callListener listener [] rest).exec r s.emitter =
              .yielded ⟨listener, [], rest⟩ (pure ())
                (EventEmitter.calling [] listener s.emitter) := by
            rw [← Prog.bind_pure (EventEmitter.callListener listener [] rest),
              EventEmitter.exec_callListener]
          rw [exec_onEmitter]
          show ((EventEmitter.callListener listener [] rest).exec r s.emitter).zoom _ _ _ s = _
          rw [hemit]
          rfl
        rw [hcall, Prog.exec_bind_yielded _ hyield]
        exact leaves_yielded (h.calling hfree listener) rfl ⟨hstate, hlist⟩

/-- The lookup of a `bind` has its result. -/
def taken (s : UdpSocket) (i : Nat) : UdpSocket := { s with socket := s.socket.taken i }

/-- There is no `bind` in flight any more. -/
theorem Kept.taken (h : Kept Q gone s) {i : Nat} (hi : s.socket.lookups[i]? = some .bind) :
    Kept Q gone (s.taken i) ∧ .bind ∉ (s.taken i).socket.lookups := by
  have hcount := (Dgram.eraseIdx_perm hi).count_eq .bind
  have hone := h.one
  rw [List.count_cons_self] at hcount
  have hnone : .bind ∉ (s.taken i).socket.lookups :=
    List.count_eq_zero.mp (by show (s.socket.lookups.eraseIdx i).count _ = 0; omega)
  refine ⟨⟨?_, fun hmem => absurd hmem hnone, h.fresh, h.gone, fun _ hmem => absurd hmem hnone⟩,
    hnone⟩
  show (s.socket.lookups.eraseIdx i).count .bind ≤ 1
  omega

/-- Without a `bind` in flight the bind state can change. -/
theorem Kept.state (h : Kept Q gone s) (hnone : .bind ∉ s.socket.lookups) {u : Dgram}
    (hlookups : u.lookups = s.socket.lookups) : Kept Q gone { s with socket := u } := by
  have hnone' : .bind ∉ u.lookups := by
    rw [hlookups]
    exact hnone
  refine ⟨?_, fun hmem => absurd hmem hnone', h.fresh, h.gone, fun _ hmem => absurd hmem hnone'⟩
  show u.lookups.count .bind ≤ 1
  rw [hlookups]
  exact h.one

/-- What the result of the lookup of a `bind` does. -/
theorem leaves_bindLookup (h : Kept Q gone s) (hnone : .bind ∉ s.socket.lookups)
    (hstate : s.socket._bindState = .binding) (failed : Bool) :
    Leaves Q gone ((afterBindLookup failed).exec r s) := by
  cases failed with
  | true =>
      have ht : Kept Q gone { s with socket := { s.socket with _bindState := .unbound } } :=
        h.state hnone rfl
      exact leaves_yielded (y := .socket .error) ht rfl trivial
  | false =>
      rw [afterBindLookup, if_neg (by simp), Prog.exec_get_bind]
      cases s.socket._handle with
      | false => exact leaves_done h
      | true =>
          rw [if_pos rfl, Prog.exec_askFor_bind]
          by_cases herr : r.headD 0 = 0
          · rw [if_neg (not_not_intro herr)]
            -- the listeners are those that are registered now
            let t : UdpSocket := { s with
              socket := { s.socket with _receiving := true, _bindState := .bound } }
            have ht : Kept Q gone t := h.state hnone rfl
            show Leaves Q gone ((callListeners (s.emitter.listeners "listening")).exec r.tail t)
            exact leaves_callListeners ht rfl fun id hid listener hmem hof =>
              h.gone id hid ⟨listener, hmem, hof⟩
          · rw [if_pos herr]
            exact leaves_yielded h rfl ⟨hstate, hnone⟩

theorem exec_lookupBody {i : Nat} {failed : Bool} {wait : Dgram.Lookup}
    (hi : s.socket.lookups[i]? = some wait) :
    (machine.body (.lookup i failed)).exec r s =
      (afterLookup failed wait).exec r (s.taken i) := by
  simp only [machine, Prog.exec_get_bind, hi]
  rfl

theorem leaves_lookup (h : Kept Q gone s) {i : Nat} {failed : Bool}
    (hi : i < s.socket.lookups.length) :
    Leaves Q gone ((machine.body (.lookup i failed)).exec r s) := by
  have hwait := List.getElem?_eq_getElem hi
  generalize s.socket.lookups[i] = wait at hwait
  rw [exec_lookupBody hwait]
  cases wait with
  | bind =>
      obtain ⟨htaken, hnone⟩ := h.taken hwait
      exact leaves_bindLookup htaken hnone (h.binding (List.mem_of_getElem? hwait)) failed
  | send args =>
      have hsame : Dgram.Same s.socket (s.taken i).socket := by
        refine ⟨rfl, ?_⟩
        have hcount := (Dgram.eraseIdx_perm hwait).count_eq .bind
        rw [List.count_cons_of_ne (by simp)] at hcount
        exact hcount
      exact leaves_plain (h.same hsame) (Dgram.doSend_plain failed args)

/-- Outside code returned. -/
theorem leaves_resume (h : Kept Q gone s) {tag : Yield} (hwaits : Waits gone s tag) :
    Leaves Q gone ((resume tag).exec r s) := by
  cases tag with
  | listener tag =>
      exact leaves_callListeners h hwaits.1 fun id hid listener hmem =>
        hwaits.2 id hid listener (List.mem_cons_of_mem _ hmem)
  | socket tag =>
      cases tag with
      | bindError => exact leaves_done (h.state hwaits.2 rfl)
      | callback | error | listening | listened | close => exact leaves_done h

end inv

/-! ### Whole runs -/

section runs

variable {Q : Prop} {gone : Option Nat} {s : UdpSocket} {us : List Yield} {r : List Int}
variable {c c' : Config UdpSocket Yield Native}

/-- At most one function waits, and the invariant holds. What was called so far was not the listener
that is gone. -/
structure KeptConfig (Q : Prop) (gone : Option Nat) (us : List Yield)
    (c : Config UdpSocket Yield Native) : Prop where
  kept : Kept Q gone c.heap
  stack : c.stack = [] ∨ ∃ tag, c.stack = [(tag, resume tag)] ∧ Waits gone c.heap tag
  uncalled : ∀ tag, .listener tag ∈ us → ∀ id, gone = some id → ¬ IsOf id tag.listener

/-- The application takes no listener out, where `Q` promises that. -/
def Faithful (Q : Prop) (_ : Config UdpSocket Yield Native) : Move Call → Prop
  | .call (.removeListener _) _ => ¬ Q
  | _ => True

theorem KeptConfig.call (h : KeptConfig Q gone us c) {o : Outcome UdpSocket Yield Native Unit}
    (ho : Calls Q gone c.heap o) :
    KeptConfig Q gone (us ++ o.tag.toList) (.settle c.stack o) := by
  obtain ⟨htag, hkept, hbinds⟩ := ho
  rw [htag, Option.toList_none, List.append_nil]
  -- what waits goes on to wait
  have hstack : c.stack = [] ∨ ∃ tag, c.stack = [(tag, resume tag)] ∧ Waits gone o.heap tag := by
    rcases h.stack with hnone | ⟨tag, hone, hwaits⟩
    · exact .inl hnone
    · exact .inr ⟨tag, hone, hwaits.binds hbinds⟩
  cases o with
  | yielded => cases htag
  | done a t => exact ⟨hkept, hstack, h.uncalled⟩
  | thrown e t => exact ⟨hkept, hstack, h.uncalled⟩

theorem KeptConfig.leaves (h : KeptConfig Q gone us c)
    {o : Outcome UdpSocket Yield Native Unit} (ho : Leaves Q gone o) :
    KeptConfig Q gone (us ++ o.tag.toList) (.settle [] o) := by
  obtain ⟨hkept, hwaits⟩ := ho
  cases o with
  | done a t =>
      rw [Outcome.tag, Option.toList_none, List.append_nil]
      exact ⟨hkept, .inl rfl, h.uncalled⟩
  | thrown e t =>
      rw [Outcome.tag, Option.toList_none, List.append_nil]
      exact ⟨hkept, .inl rfl, h.uncalled⟩
  | yielded tag k t =>
      obtain ⟨rfl, htag⟩ := hwaits tag k t rfl
      refine ⟨hkept, .inr ⟨tag, rfl, htag⟩, fun tag' hmem id hid => ?_⟩
      rcases List.mem_append.mp hmem with hmem | hmem
      · exact h.uncalled tag' hmem id hid
      · cases List.mem_singleton.mp hmem
        exact htag.2 id hid _ List.mem_cons_self

/-- What every move keeps. -/
theorem kept_step {m : Move Call} (h : KeptConfig Q gone us c) (hok : Faithful Q c m)
    (hstep : machine.step c m = some c') :
    KeptConfig Q gone (us ++ (machine.raised c m).toList) c' := by
  obtain ⟨s, stack⟩ := c
  cases m with
  | call i r =>
      obtain ⟨henabled, rfl⟩ := Machine.step_call hstep
      -- a call of the application can come while outside code runs, a result cannot
      cases i with
      | bind address callback => exact h.call (calls_bind h.kept address callback)
      | send list port address callback => exact h.call (calls_send h.kept)
      | close => exact h.call (calls_close h.kept)
      | on f => exact h.call (calls_on h.kept f)
      | once f => exact h.call (calls_once h.kept (function f))
      | removeListener f => exact h.call (calls_removeListener h.kept hok f)
      | lookup i failed =>
          cases stack with
          | cons f st => cases henabled
          | nil => exact h.leaves (leaves_lookup h.kept (of_decide_eq_true henabled))
      | sent i status =>
          cases stack with
          | cons f st => cases henabled
          | nil => exact h.leaves (leaves_plain h.kept (Dgram.sent_plain i status))
      | tick =>
          cases stack with
          | cons f st => cases henabled
          | nil => exact h.leaves (leaves_plain h.kept Dgram.tick_plain)
  | ret r =>
      obtain ⟨hkept, hnone | ⟨tag, hone, hwaits⟩, huncalled⟩ := h
      · cases hnone
        cases hstep
      · cases hone
        cases hstep
        exact KeptConfig.leaves (c := ⟨s, []⟩) ⟨hkept, .inl rfl, huncalled⟩
          (leaves_resume hkept hwaits)
  | throw =>
      obtain ⟨hkept, hnone | ⟨tag, hone, hwaits⟩, huncalled⟩ := h
      · cases hnone
        cases hstep
      · cases hone
        cases hstep
        rw [Machine.raised, Option.toList_none, List.append_nil]
        exact ⟨hkept, .inl rfl, huncalled⟩

/-- Every run keeps the invariant. -/
theorem kept_play {ms : List (Move Call)} (hmeets : machine.Meets (Faithful Q) ⟨new, []⟩ ms)
    (hplay : machine.play ⟨new, []⟩ ms = some c) : Kept Q none c.heap := by
  have hinit : KeptConfig Q none [] ⟨new, []⟩ := ⟨kept_new, .inl rfl, nofun⟩
  exact (Machine.trace_invariant (I := KeptConfig Q none)
    (fun us c m c' h hok hstep => kept_step h hok hstep) hinit hmeets hplay).kept

/-- A promise that is not made is kept. -/
theorem faithful_free (ms : List (Move Call)) :
    ∀ c, machine.Meets (Faithful False) c ms := by
  induction ms with
  | nil =>
      intro c
      trivial
  | cons m ms ih =>
      intro c
      refine ⟨?_, fun c' _ => ih c'⟩
      cases m with
      | ret | throw => trivial
      | call i r =>
          cases i with
          | removeListener f => exact not_false
          | bind | send | close | on | once | lookup | sent | tick => trivial

/-! ### A `bind` that fails -/

/-- The result of the lookup of a `bind` that fails: that of the lookup itself, or that of the
native `bind` of an open socket. -/
def Fails (s : UdpSocket) (failed : Bool) (r : List Int) : Prop :=
  failed = true ∨ s.socket._handle = true ∧ r.headD 0 ≠ 0

/-- The socket as it was before the `bind`, while the listeners of 'error' run. -/
structure Restored (c : Config UdpSocket Yield Native) : Prop where
  unbound : c.heap.socket._bindState = .unbound
  /-- it can be bound again, with or without a callback -/
  rebind : ∀ address callback, address ≠ .other →
    ∃ t, (bind address callback).exec [] c.heap = .done () t ∧ .bind ∈ t.socket.lookups
  /-- the callback is not registered any more -/
  removed : ∀ id, c.heap.binding = some id → ¬ Registered c.heap id
  /-- and is never called -/
  uncalled : ∀ id, c.heap.binding = some id → ∀ ms d tag, machine.play c ms = some d →
    .listener tag ∈ machine.trace c ms → ¬ IsOf id tag.listener

/-- A listener that is gone while the listeners of 'error' run is never called. -/
theorem uncalled_of_removed (h : Kept False none c.heap) {tag : Dgram.Yield}
    (hstack : c.stack = [(.socket tag, resume (.socket tag))])
    (hwaits : Waits none c.heap (.socket tag)) {id : Nat} (hid : c.heap.binding = some id)
    (hremoved : ¬ Registered c.heap id) {ms : List (Move Call)} {d : Config UdpSocket Yield Native}
    (hplay : machine.play c ms = some d) {called : EmitterYield}
    (hcalled : .listener called ∈ machine.trace c ms) : ¬ IsOf id called.listener := by
  -- from here on the invariant is that of a run whose registration `id` is gone
  have hkept : Kept False (some id) c.heap := { h with
    fresh := fun id' hid' => by
      rcases hid' with hid' | hid'
      · exact h.fresh id' (.inl hid')
      · cases hid'
        exact h.fresh id (.inl hid)
    gone := fun id' hid' => by
      cases hid'
      exact hremoved
    held := fun hbad => hbad.elim }
  have hwaits' : Waits (some id) c.heap (.socket tag) := by
    cases tag <;> exact hwaits
  have hinit : KeptConfig False (some id) [] c := ⟨hkept, .inr ⟨_, hstack, hwaits'⟩, nofun⟩
  have hend := Machine.trace_invariant (I := KeptConfig False (some id))
    (fun us c m c' h hok hstep => kept_step h hok hstep) hinit (faithful_free ms c) hplay
  exact hend.uncalled called hcalled id rfl

/-- The lookup of a `bind` has failed, and the socket is not bound. -/
def released (s : UdpSocket) (i : Nat) : UdpSocket :=
  { s.taken i with socket := { s.socket.taken i with _bindState := .unbound } }

/-- What the moment of 'error' looks like. -/
theorem exec_fails {i : Nat} {failed : Bool} (hi : s.socket.lookups[i]? = some .bind)
    (hfails : Fails s failed r) :
    (machine.body (.lookup i failed)).exec r s =
      if failed = true then
        .yielded (.socket .error) (resume (.socket .error)) (s.released i)
      else .yielded (.socket .bindError) (resume (.socket .bindError)) (s.taken i) := by
  rw [exec_lookupBody hi]
  cases failed with
  | true => rfl
  | false =>
      obtain ⟨hhandle, herr⟩ := hfails.resolve_left nofun
      have hhandle' : (s.taken i).socket._handle = true := hhandle
      rw [if_neg nofun]
      show (afterBindLookup false).exec r (s.taken i) = _
      rw [afterBindLookup, if_neg nofun, Prog.exec_get_bind, hhandle', if_pos rfl,
        Prog.exec_askFor_bind, if_pos herr]
      rfl

/-- In every run, a `bind` that fails leaves the socket as it was when its lookup failed, the socket
has not been closed meanwhile, and no callback of the `bind` is registered. -/
theorem restored_iff {ms : List (Move Call)} {i : Nat} {failed : Bool}
    (hplay : machine.play ⟨new, []⟩ ms = some c) (hi : c.heap.socket.lookups[i]? = some .bind)
    (hfails : Fails c.heap failed r)
    (hstep : machine.step c (.call (.lookup i failed) r) = some c') :
    Restored c' ↔ failed = true ∧ c.heap.socket._handle = true ∧
      ∀ id, c.heap.binding = some id → ¬ Registered c.heap id := by
  have hkept := kept_play (Q := False) (faithful_free ms _) hplay
  obtain ⟨s, stack⟩ := c
  obtain ⟨henabled, rfl⟩ := Machine.step_call hstep
  cases stack with
  | cons f st => cases henabled
  | nil =>
      rw [exec_fails hi hfails]
      cases failed with
      | false =>
          -- 'error' is emitted before the socket is unbound
          rw [if_neg (by decide)]
          refine iff_of_false (fun h => ?_) fun h => Bool.noConfusion h.1
          have hbinding := hkept.binding (List.mem_of_getElem? hi)
          have hunbound : s.socket._bindState = .unbound := h.unbound
          rw [hbinding] at hunbound
          cases hunbound
      | true =>
          rw [if_pos rfl]
          have htaken := hkept.taken hi
          have hreleased : Kept False none (s.released i) := htaken.1.state htaken.2 rfl
          constructor
          · -- only the handle can be in the way of another `bind`
            intro h
            obtain ⟨t, ht, -⟩ := h.rebind .absent none (by decide)
            have ht' : (bind .absent none).exec [] (s.released i) = .done () t := ht
            refine ⟨rfl, ?_, h.removed⟩
            rcases bind_cases (r := []) (s := s.released i) .absent none with
              ⟨e, hbad, -⟩ | ⟨hopen, -⟩
            · rw [hbad] at ht'
              cases ht'
            · exact hopen
          · rintro ⟨-, hopen, hgone⟩
            let c : Config UdpSocket Yield Native :=
              ⟨s.released i, [(.socket .error, resume (.socket .error))]⟩
            refine ⟨rfl, fun address callback haddress => bind_starts callback hopen rfl haddress,
              hgone, fun id hid ms d called hplay hcalled => ?_⟩
            exact uncalled_of_removed (c := c) hreleased rfl trivial hid (hgone id hid) hplay
              hcalled

/-- A `bind` without a callback fails, after one that failed on the native side. -/
theorem restored_iff_twice : ∃ c, Restored c ∧ c.tags = [.socket .error] := by
  let ms : List (Move Call) := [.call (.bind .absent (some 1)) [], .call (.lookup 0 false) [-98],
    .ret [], .call (.bind (.name "a") none) []]
  have hplay : (machine.play ⟨new, []⟩ ms).any (fun c =>
      c.heap.socket.lookups == [.bind] && c.heap.socket._handle && c.heap.binding == none &&
        c.tags == []) = true := by decide
  obtain ⟨⟨s, stack⟩, hc, hend⟩ := Option.any_eq_true .. |>.mp hplay
  simp only [Bool.and_eq_true, beq_iff_eq, Config.tags, List.map_eq_nil_iff] at hend
  obtain ⟨⟨⟨hlookups, hopen⟩, hbinding⟩, rfl⟩ := hend
  have hi : s.socket.lookups[0]? = some .bind := by rw [hlookups]; rfl
  have hstep : machine.step ⟨s, []⟩ (.call (.lookup 0 true) []) =
      some (.settle [] (.yielded (.socket .error) (resume (.socket .error)) (s.released 0))) := by
    have henabled : machine.enabled (.lookup 0 true) true s = true := by
      show (true && decide (0 < s.socket.lookups.length)) = true
      rw [hlookups]
      rfl
    simp only [Machine.step, List.isEmpty_nil, henabled, if_pos, exec_fails hi (.inl rfl)]
  refine ⟨_, (restored_iff hc hi (.inl rfl) hstep).mpr ⟨rfl, hopen, fun id hid => ?_⟩, rfl⟩
  rw [hbinding] at hid
  cases hid

/-- The native `bind` fails. -/
theorem not_restored_after_bind_error :
    ¬ ∀ (ms : List (Move Call)) (c c' : Config UdpSocket Yield Native) (i : Nat) (failed : Bool)
      (r : List Int), machine.play ⟨new, []⟩ ms = some c →
      c.heap.socket.lookups[i]? = some .bind → Fails c.heap failed r →
      machine.step c (.call (.lookup i failed) r) = some c' → Restored c' := by
  intro hall
  let ms : List (Move Call) := [.call (.bind .absent none) []]
  have hbad := (hall ms _ _ 0 false [-98] rfl rfl (.inr ⟨rfl, by decide⟩) rfl).unbound
  exact absurd hbad (by decide)

/-- Where the application takes no listener out, the callback of the `bind` in flight is still
registered when its lookup has a result. -/
theorem registered_of_faithful {ms : List (Move Call)}
    (hmeets : machine.Meets (Faithful True) ⟨new, []⟩ ms)
    (hplay : machine.play ⟨new, []⟩ ms = some c) (hbind : .bind ∈ c.heap.socket.lookups) {id : Nat}
    (hid : c.heap.binding = some id) : Registered c.heap id :=
  (kept_play hmeets hplay).held trivial hbind id hid

end runs

end UdpSocket

end IotJs

import IotJs.Proofs.SocketRespects

/-!
# `IotJs.Proofs.SocketPending`: what the flags in progress wait for

`connecting` is set before the attempt to connect is known to be possible, and `writing` before
the native write has answered. Either flag is taken back by a completion alone, and libuv makes
no completion for an operation that returned an error. `net.js` looks at none of the return
codes, so an error leaves a flag that nothing takes back.

`answered` are the surroundings in which each attempt goes on: the operations are accepted, the
options of `connect` pass their checks, the lookup finds an address, and its listeners do not
throw. There each flag is backed by a request (`flags_backed`). Between the result of a lookup
and the native connect the request is a function that waits for the listeners of 'lookup'. It
is counted by `lookedUp`, which every call leaves as it was, so that none is left at rest.
-/

set_option autoImplicit false

namespace IotJs.Socket

open Reentrant

/-- Each flag has a request that will take it back, or a tick that one has scheduled. -/
structure Backed (s : Socket) : Prop where
  connecting : s._socketState.connecting = true →
    s.lookups ≠ [] ∨ 0 < s.connects ∨ ∃ message, .lookupFailed message ∈ s.ticks
  writing : s._writableState.writing = true → s.writes ≠ []

/-- The options of `connect` pass its checks and those of the lookup, unless nothing is done with
them. A lookup finds an address. -/
def attempts (s : Socket) : Call → Bool
  | .connect options =>
      s._socketState.connecting || s._socketState.connected ||
        ((checkConnect options).isOk && options.host != .other)
  | .afterLookup err => err = 0
  | _ => true

/-- The operations that a flag waits for. -/
def flagged : SocketNative → Bool
  | .getaddrinfo | .connect | .write => true
  | .shutdown | .readStart => false

/-- Every attempt goes on. -/
def answered : Surroundings where
  call i s := attempts s i = true
  answer q _ err := flagged q = true → err = 0
  returns _ _ := True
  throws v _ := v ≠ .event (.lookup none)

instance : answered.Testable where
  call i s := inferInstanceAs (Decidable (attempts s i = true))
  answer q _ err := inferInstanceAs (Decidable (flagged q = true → err = 0))
  returns _ _ := .isTrue trivial
  throws v _ := inferInstanceAs (Decidable (v ≠ .event (.lookup none)))

/-! ### The contract -/

/-- What the flags wait for, also in the middle of a call. -/
structure PendingInv (isConnecting isWriting : Bool) (lookups : List Lookup)
    (lookedUp connects : Nat) (inFlight : List WriteReq) : Prop where
  connecting : isConnecting = true → lookups ≠ [] ∨ 0 < lookedUp ∨ 0 < connects
  writing : isWriting = true → inFlight ≠ []

def PendingOk (s : Socket) : Prop :=
  PendingInv s._socketState.connecting s._writableState.writing s.lookups s.lookedUp s.connects
    s.writes

/-- The contract of the flags. -/
def pending : Contract Socket :=
  .plain PendingOk (fun s t => t.lookedUp = s.lookedUp) (fun _ => rfl) fun h₁ h₂ => h₂.trans h₁

/-! ### The actions -/

section actions

variable {k : Kind} {s t u : Socket} {req : WriteReq}

/-- A chunk that goes out is in flight. -/
theorem Hands.pending (h : Hands answered req s t)
    (hc : s._socketState.connecting = true → s.lookups ≠ [] ∨ 0 < s.lookedUp ∨ 0 < s.connects) :
    PendingOk t ∧ t.lookedUp = s.lookedUp := by
  cases h with
  | sent timer hans => exact ⟨⟨hc, fun _ => by simp⟩, rfl⟩
  | refused timer err herr hans => exact absurd (hans rfl) herr

theorem Flush.pending (h : Flush answered s t) (hs : PendingOk s) :
    PendingOk t ∧ t.lookedUp = s.lookedUp := by
  cases h with
  | busy => exact ⟨hs, rfl⟩
  | idle => exact ⟨hs, rfl⟩
  | next hw hb h => exact h.pending hs.connecting

theorem Finish.pending (h : Finish answered s t) (hs : PendingOk s) :
    PendingOk t ∧ t.lookedUp = s.lookedUp := by
  cases h <;> exact ⟨⟨hs.connecting, hs.writing⟩, rfl⟩

theorem Establishes.pending (h : Establishes s u) (hs : PendingOk s) :
    PendingOk u ∧ u.lookedUp = s.lookedUp := by
  cases h <;> exact ⟨⟨nofun, hs.writing⟩, rfl⟩

theorem pendingOk_completed (hs : PendingOk s) (req : WriteReq) (status : Int) :
    PendingOk (completed req status s) :=
  ⟨hs.connecting, nofun⟩

/-- Outside an attempt to connect, each action keeps the flags backed. -/
theorem Action.pending (h : Action answered k s t) (hk : k ≠ .connecting) (hs : PendingOk s) :
    PendingOk t ∧ t.lookedUp = s.lookedUp := by
  have hsame : PendingInv s._socketState.connecting s._writableState.writing s.lookups s.lookedUp
      s.connects s.writes ∧ s.lookedUp = s.lookedUp := ⟨hs, rfl⟩
  cases h with
  | write req he hr hw hb h => exact h.pending hs.connecting
  | connecting => exact absurd rfl hk
  | lookup => exact absurd rfl hk
  | afterLookup => exact absurd rfl hk
  | lookupFailed => exact absurd rfl hk
  | scheduleFailed => exact absurd rfl hk
  | connectHandle => exact absurd rfl hk
  | connectFailed => exact ⟨⟨nofun, hs.writing⟩, rfl⟩
  | connectIgnored => exact ⟨⟨nofun, hs.writing⟩, rfl⟩
  | establish h hf =>
      have hu := h.pending hs
      have ht := hf.pending hu.1
      exact ⟨ht.1, ht.2.trans hu.2⟩
  | establishFinish h hdue hf =>
      have hu := h.pending hs
      have ht := hf.pending hu.1
      exact ⟨ht.1, ht.2.trans hu.2⟩
  | complete hw hcall hf => exact hf.pending (pendingOk_completed hs ..)
  | completeFinish hw hcall hdue hf => exact hf.pending (pendingOk_completed hs ..)
  | tickFinish hi hcall he hh hf => exact hf.pending ⟨hs.connecting, hs.writing⟩
  | _ => exact hsame

theorem pending_sound (hk : k ≠ .connecting) : Sound answered pending k :=
  fun _ hi ha => ha.pending hk hi

theorem pending_respects : Respects answered pending :=
  respects_of_sound (pending_sound (by simp)) (pending_sound (by simp))

end actions

/-! ### An attempt to connect -/

section attempt

variable {P : Platform} {s₀ s : Socket}

theorem host_of_attempts {options : ConnectOptions} (h : options.host ≠ .other) :
    ∃ hostname, options.host.orLocalhost = .string hostname := by
  cases hh : options.host with
  | absent => exact ⟨_, rfl⟩
  | string host => exact ⟨_, rfl⟩
  | other => exact absurd hh h

/-- The lookup is pending before anyone can see that the socket is connecting. -/
theorem lookup_pending {hostname : String} {port : Int} (h : Kept pending s₀ s)
    (hh : s._handle.isSome = true) (hconnected : s._socketState.connected = false) :
    Keeps answered pending s₀ (Socket.lookup P (.string hostname) port)
      { s with
        _socketState := { s._socketState with connecting := true }
        _host := .string hostname } := by
  have hconn : Action answered .connecting s
      { s with _socketState := { s._socketState with connecting := true } } :=
    .connecting hconnected
  have hhost : Action answered .common
      { s with _socketState := { s._socketState with connecting := true } }
      { s with
        _socketState := { s._socketState with connecting := true }
        _host := .string hostname } := .host _
  have hlookup : Action answered .connecting
      { s with
        _socketState := { s._socketState with connecting := true }
        _host := .string hostname }
      { s with
        _socketState := { s._socketState with connecting := true }
        _host := .string hostname
        lookups := s.lookups ++ [⟨hostname, port⟩] } := .lookup ⟨hostname, port⟩ hh
  have hinv : PendingOk s := h.1.2
  have hkept : Kept pending s₀
      { s with
        _socketState := { s._socketState with connecting := true }
        _host := .string hostname
        lookups := s.lookups ++ [⟨hostname, port⟩] } :=
    ⟨⟨hlookup.base (hhost.base (hconn.base h.base)), ⟨fun _ => .inl (by simp), hinv.writing⟩⟩,
      ((h.mono.trans hconn.mono).trans hhost.mono).trans hlookup.mono, h.2.2⟩
  -- on NuttX the result may come inside the call, so the lookup is pending before the yield
  simp only [Socket.lookup, Prog.wp_bind, Prog.wp_ite, Prog.wp_modify, Prog.wp_askFor]
  refine ⟨fun _ => Prog.wp_yieldTo_post hkept, fun _ r hr => ⟨fun _ => hkept, fun hne => ?_⟩⟩
  exact absurd (hr rfl) hne

theorem connectOn_pending {options : ConnectOptions} (h : Kept pending s₀ s)
    (hh : s._handle.isSome = true) (hconnected : s._socketState.connected = false)
    (hchecks : (checkConnect options).isOk = true ∧ options.host ≠ .other) :
    Keeps answered pending s₀ (connectOn P options) s := by
  obtain ⟨port, hport⟩ : ∃ port, checkConnect options = .ok port := by
    cases hc : checkConnect options with
    | ok port => exact ⟨port, rfl⟩
    | error message =>
        rw [hc] at hchecks
        cases hchecks.1
  obtain ⟨hostname, hhostname⟩ := host_of_attempts hchecks.2
  simp only [connectOn, Prog.wp_bind]
  refine wp_resetSocketTimeout fun timer => wp_modifyState.mpr ?_
  rw [hport, hhostname]
  have hgo := @lookup_pending P _ _ hostname port (h.timer pending_respects timer) hh hconnected
  exact hgo

/-- The lookup of `connect` is pending when `connect` yields or returns. -/
theorem connect_pending {options : ConnectOptions} (h : Kept pending s₀ s)
    (hcall : answered.call (.connect options) s) :
    Keeps answered pending s₀ (connect P options) s := by
  have hD := pending_respects
  have hvalid : attempts s (.connect options) = true := hcall
  -- a socket that is connecting or connected ignores the call, and its options
  have hchecks : s._socketState.connecting = false → s._socketState.connected = false →
      (checkConnect options).isOk = true ∧ options.host ≠ .other := by
    intro hconnecting hconnected
    simpa [attempts, hconnecting, hconnected] using hvalid
  refine wp_connect h ?_ ?_
  · intro hconnecting hconnected hnone
    exact connectOn_pending (h.act hD.common (.newHandle hnone)) rfl hconnected
      (hchecks hconnecting hconnected)
  · intro hconnecting hconnected hsome
    exact connectOn_pending h hsome hconnected (hchecks hconnecting hconnected)

/-- The native connect is pending when the callback of a lookup returns. -/
theorem afterLookup_pending {err : Int} (h : Kept pending s₀ s) (hl : s.lookups ≠ [])
    (hcall : answered.call (.afterLookup err) s) :
    Keeps answered pending s₀ (body P (.afterLookup err)) s := by
  obtain ⟨lookup, rest, hcons⟩ := List.exists_cons_of_ne_nil hl
  have h0 : err = 0 := of_decide_eq_true hcall
  have hinv : PendingOk s := h.1.2
  simp only [body, Prog.wp_bind, Prog.wp_get, Prog.wp_modify]
  rw [show s.lookups.head? = some lookup by rw [hcons]; rfl]
  simp only [afterLookup, connectHandle, Prog.wp_bind, Prog.wp_ite, Prog.wp_modify, wp_record,
    wp_nextTick]
  refine ⟨fun _ => (wp_emit (by simp)).mpr ?_, fun hne => absurd h0 hne⟩
  have ha : Action answered .connecting s
      { s with
        lookups := s.lookups.tail
        lookedUp := s.lookedUp + 1
        log := s.log ++ [.event (.lookup none)] } := .afterLookup h0 hcall
  refine (Prog.wp_yieldTo ..).mpr ⟨⟨ha.base h.base, ⟨fun _ => .inr (.inl ?_), hinv.writing⟩⟩,
    fun t _ ht => ⟨fun hret => ?_, fun hthrow => absurd rfl hthrow⟩⟩
  · exact Nat.succ_pos s.lookedUp
  · -- the listeners of 'lookup' may do anything, but leave `lookedUp` as it was
    have ht' : Kept pending _ t := ht
    have hh : t._handle.isSome = true := ht'.mono.handle (h.base.handle.lookups hl)
    have hcount : t.lookedUp = s.lookedUp + 1 := ht'.2.2
    have htok : PendingOk t := ht'.1.2
    refine wp_resetSocketTimeout fun timer => wp_useHandle.mpr ⟨fun hnone => ?_, fun _ r hr => ?_⟩
    · rw [show t._handle = none from hnone] at hh
      cases hh
    · refine ⟨fun _ => ?_, fun hne => absurd (hr rfl) hne⟩
      have hc : Action answered .connecting t _ :=
        .connectHandle timer (t.connects + 1) hh trivial
      refine ⟨⟨hc.base ht'.base, ⟨fun _ => .inr (.inr ?_), htok.writing⟩⟩,
        ((h.mono.trans ha.mono).trans ht'.mono).trans hc.mono, ?_⟩
      · exact Nat.succ_pos t.connects
      · show t.lookedUp - 1 = s₀.lookedUp
        have hs : s.lookedUp = s₀.lookedUp := h.2.2
        omega

end attempt

/-! ### Runs -/

section runs

variable {P : Platform} {s₀ : Socket}

theorem pending_of_initial (h : Initial s₀) : pending.inv s₀ := by
  obtain ⟨_, _, rfl⟩ | ⟨_, rfl⟩ := h <;> exact ⟨nofun, nofun⟩

theorem lookedUp_of_initial (h : Initial s₀) : s₀.lookedUp = 0 := by
  obtain ⟨_, _, rfl⟩ | ⟨_, rfl⟩ := h <;> rfl

theorem pending_holds (hinit : Initial s₀) :
    Contract.Holds (machine P) answered .nil (basis.and pending) s₀ := by
  have hD := pending_respects
  refine holds_of_keeps hinit (pending_of_initial hinit) hD
    (respectsFinish_of_sound hD (pending_sound (by simp)))
    ⟨connect_pending, afterLookup_pending⟩
    fun hi hk hen hcall => native_keeps hD (pending_sound (by simp)) (pending_sound (by simp)) ?_
      hi hk hen hcall
  refine afterWrite_at hD (pending_sound (by simp)) (fun hk ha => ?_) hk hen hcall
  exact finishes_of_kept hD (hk.act (pending_sound (by simp)) ha) ha.ended_of_completeFinish

/-- In every run in which each attempt goes on, whenever the socket is at rest, a flag in progress
is backed by a request. -/
theorem flags_backed (P : Platform) {s₀ : Socket} (hinit : Initial s₀)
    {c : Config Socket SocketYield SocketNative} (hc : (machine P).Reach answered s₀ c)
    (hrest : c.stack = []) : Backed c.heap := by
  have hholds := pending_holds (P := P) hinit
  obtain ⟨-, hok⟩ := hholds.inv_of_reach hc
  obtain ⟨-, hcount⟩ := hholds.outer_of_rest hc hrest
  have hnone : c.heap.lookedUp = 0 := Eq.trans hcount (lookedUp_of_initial hinit)
  refine ⟨fun hconn => ?_, hok.writing⟩
  rcases hok.connecting hconn with hlookups | hlooked | hconnects
  · exact .inl hlookups
  · omega
  · exact .inr (.inl hconnects)

/-- A connection in the making, up to the native connect. -/
theorem flags_backed_connect :
    ∃ c : Config Socket SocketYield SocketNative, c.heap._socketState.connecting = true ∧
      0 < c.heap.connects ∧ Backed c.heap := by
  obtain ⟨c, hc, hrun⟩ := Machine.exists_reach_of_run (machine (.ascii false)) answered
    (new none false)
    [.call (.connect ⟨.absent, some 80, 0⟩) [], .call (.afterLookup 0) [], .ret []]
    (fun c => c.stack.isEmpty && c.heap._socketState.connecting && decide (0 < c.heap.connects)) rfl
  simp only [Bool.and_eq_true, decide_eq_true_eq, List.isEmpty_iff] at hrun
  exact ⟨c, hrun.1.2, hrun.2, flags_backed (.ascii false) (.inl ⟨_, _, rfl⟩) hc hrun.1.1⟩

/-- The native connect refuses the address: `connecting` stays, with nothing outstanding. -/
theorem connecting_stuck :
    ¬ ∀ (P : Platform) (s₀ : Socket) (c : Config Socket SocketYield SocketNative), Initial s₀ →
      (machine P).Reach .free s₀ c → c.stack = [] → Backed c.heap := by
  intro hall
  obtain ⟨c, hc, hrun⟩ := Machine.exists_reach_of_run (machine (.ascii false)) .free
    (new none false)
    [.call (.connect ⟨.string "::1", some 80, 0⟩) [], .call (.afterLookup 0) [], .ret [-22]]
    (fun c => c.stack.isEmpty && c.heap._socketState.connecting && c.heap.lookups.isEmpty &&
      decide (c.heap.connects = 0) && c.heap.ticks.isEmpty) rfl
  simp only [Bool.and_eq_true, decide_eq_true_eq, List.isEmpty_iff] at hrun
  obtain ⟨⟨⟨⟨hrest, hconn⟩, hlookups⟩, hconnects⟩, hticks⟩ := hrun
  rcases (hall _ _ c (.inl ⟨_, _, rfl⟩) hc hrest).connecting hconn with h | h | ⟨message, h⟩
  · exact h hlookups
  · omega
  · rw [hticks] at h
    cases h

end runs

end IotJs.Socket

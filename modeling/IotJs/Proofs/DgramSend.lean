import IotJs.Core.Dgram
import IotJs.Lib.Reentrant.Play
import Mathlib.Data.List.Nodup
import Mathlib.Data.List.Perm.Basic

/-!
# `IotJs.Proofs.DgramSend`: every accepted `send` is answered

A `send` with a callback waits in one place at a time: in the queue, for its lookup, or in the
native layer. `Inv.conserved` says that what was accepted waits somewhere or has been answered, and
`Undisturbed` is the condition of each move under which nothing falls out: no `close` overtakes a
`send` that has not reached the native layer, what the queue waits for succeeds, and no native
function fails at once. `answered_of_undisturbed` says that then every accepted `send` has been
answered once when nothing is in flight any more.
-/

set_option autoImplicit false

namespace IotJs.Dgram

open Reentrant

/-! ### Where a `send` waits -/

/-- The sends that returned: the number of each, and whether it has a callback. -/
def accepted (s : Dgram) : List (Nat × Bool) :=
  s.log.filterMap fun
    | .accepted id callback => some (id, callback)
    | _ => none

/-- The sends that were handed to the network or could not be sent. -/
def settled (s : Dgram) : List (Nat × Bool) :=
  s.log.filterMap fun
    | .fate id callback _ => some (id, callback)
    | _ => none

/-- The sends whose callback was called. -/
def answered (s : Dgram) : List Nat :=
  s.log.filterMap fun
    | .answered id _ => some id
    | _ => none

/-- What the callbacks were told. -/
def replies (s : Dgram) : List (Nat × Reply) :=
  s.log.filterMap fun
    | .answered id reply => some (id, reply)
    | _ => none

/-- What became of the datagrams of a `send` with a callback. -/
def fates (s : Dgram) : List (Nat × Reply) :=
  s.log.filterMap fun
    | .fate id true handed => some (id, if handed then .null else .error)
    | _ => none

/-- The number of a `send`, and whether it has a callback. -/
def Send.mark (args : Send) : Nat × Bool := (args.id, args.callback)

def Queued.mark : Queued → Option (Nat × Bool)
  | .send args => some args.mark
  | .close => none

def Lookup.mark : Lookup → Option (Nat × Bool)
  | .bind => none
  | .send args => some args.mark

/-- The sends that wait. -/
def waiting (s : Dgram) : List (Nat × Bool) :=
  (s._queue.getD []).filterMap Queued.mark ++ s.lookups.filterMap Lookup.mark ++
    s.sending.map Send.mark

/-! ### The programs, run -/

/-- A lookup is in flight. -/
def looking (s : Dgram) (wait : Lookup) : Dgram := { s with lookups := s.lookups ++ [wait] }

/-- The lookup of a `bind` is in flight. -/
def startBind (s : Dgram) : Dgram := looking { s with _bindState := .binding } .bind

/-- A `send` waits in the queue. -/
def enqueued (s : Dgram) (args : Send) : Dgram :=
  { s with _queue := some (s._queue.getD [] ++ [.send args]) }

/-- A `send` is with the native layer. -/
def passed (s : Dgram) (args : Send) : Dgram := { s with sending := s.sending ++ [args] }

/-- The message and the port are accepted. -/
def valid (list : Message) (port : Int) : Bool :=
  (buffers list).isOk && decide (0 < toUint32 port ∧ toUint32 port ≤ 65535)

section exec

variable {s : Dgram} {rs : List Int} {address : Address} {wait : Lookup} {args : Send}

theorem exec_lookup (haddress : address ≠ .other) (herr : rs.headD 0 = 0) :
    (lookup address wait).exec rs s = .done () (s.looking wait) := by
  rw [lookup, if_neg haddress, Prog.exec_askFor_bind, if_pos herr]
  rfl

theorem exec_healthCheck (h : s._handle = true) (f : Unit → Datagram Unit) :
    (healthCheck >>= f).exec rs s = (f ()).exec rs s := by
  rw [healthCheck, Prog.bind_assoc, Prog.exec_get_bind, h]
  rfl

theorem exec_bind (hhandle : s._handle = true) (hstate : s._bindState = .unbound)
    (haddress : address ≠ .other) (herr : rs.headD 0 = 0) :
    (bind address).exec rs s = .done () s.startBind := by
  rw [bind, exec_healthCheck hhandle, Prog.exec_get_bind, if_neg (not_not_intro hstate),
    Prog.exec_modify_bind, exec_lookup haddress herr]
  rfl

/-- What `send` does. -/
inductive SendStep (s : Dgram) (args : Send) : Outcome Dgram Yield Native Unit → Prop where
  | refused (message : String)
      (hwhy : valid args.list args.port = false ∨ s._handle = false ∨
        s._bindState = .bound ∧ args.address = .other) : SendStep s args (.thrown message s)
  | looking (hstate : s._bindState = .bound) (hhandle : s._handle = true) :
      SendStep s args (.done () (s.looking (.send args)))
  | binding (hstate : s._bindState = .unbound) (hhandle : s._handle = true)
      (hvalid : valid args.list args.port = true) (haddress : args.address ≠ .other) :
      SendStep s args (.done () (s.startBind.enqueued args))
  | queued (hstate : s._bindState = .binding) (hhandle : s._handle = true)
      (hvalid : valid args.list args.port = true) (haddress : args.address ≠ .other)
      (hbind : .bind ∈ s.lookups) : SendStep s args (.done () (s.enqueued args))

/-- A `send` that is accepted is not lost at once: a lookup does not fail at once, and what has to
wait has an address, and a `bind` in flight to wait for. -/
def SendOk (s : Dgram) (args : Send) (rs : List Int) : Prop :=
  valid args.list args.port = true → s._handle = true →
    match s._bindState with
    | .bound => args.address ≠ .other → rs.headD 0 = 0
    | .unbound => args.address ≠ .other ∧ rs.headD 0 = 0
    | .binding => args.address ≠ .other ∧ .bind ∈ s.lookups

theorem exec_healthCheck_fail (h : s._handle = false) (f : Unit → Datagram Unit) :
    (healthCheck >>= f).exec rs s = .thrown "Not running" s := by
  rw [healthCheck, Prog.bind_assoc, Prog.exec_get_bind, h]
  rfl

/-- The end of `send`, where the arguments and the handle have been checked. -/
def sendOn (args : Send) : Datagram Unit := do
  let s ← get
  if s._bindState ≠ .bound then enqueue (.send args)
  else lookup args.address (.send args)

theorem sendOn_enqueues (hstate : s._bindState ≠ .bound) :
    (sendOn args).exec rs s = .done () (s.enqueued args) := by
  rw [sendOn, Prog.exec_get_bind, if_pos hstate]
  rfl

/-- The checks of `send` come in the order of the source: the message, the port, the handle. -/
theorem send_checks (args : Send) (rs : List Int) (s : Dgram) :
    (∃ message, (send args).exec rs s = .thrown message s ∧
      valid args.list args.port = false) ∨
    (s._handle = false ∧ (send args).exec rs s = .thrown "Not running" s) ∨
    (valid args.list args.port = true ∧ s._handle = true ∧ (send args).exec rs s =
      (if s._bindState = .unbound then bind .absent >>= fun _ => sendOn args
        else sendOn args).exec rs s) := by
  rw [send]
  cases hbuffers : buffers args.list with
  | error message =>
      have hvalid : valid args.list args.port = false := by
        rw [valid, hbuffers]
        rfl
      exact .inl ⟨message, rfl, hvalid⟩
  | ok list =>
      simp only
      by_cases hport : toUint32 args.port = 0 ∨ 65535 < toUint32 args.port
      · have hvalid : valid args.list args.port = false := by
          rw [valid, Bool.and_eq_false_iff, decide_eq_false_iff_not]
          exact .inr (by omega)
        rw [if_pos hport]
        exact .inl ⟨_, rfl, hvalid⟩
      · rw [if_neg hport]
        have hvalid : valid args.list args.port = true := by
          have hnonneg : 0 ≤ toUint32 args.port := Int.emod_nonneg _ (by decide)
          rw [valid, hbuffers, Bool.and_eq_true, decide_eq_true_eq]
          exact ⟨rfl, by omega, by omega⟩
        cases hhandle : s._handle with
        | false => exact .inr (.inl ⟨rfl, exec_healthCheck_fail hhandle _⟩)
        | true =>
            rw [exec_healthCheck hhandle, Prog.exec_get_bind]
            exact .inr (.inr ⟨hvalid, rfl, rfl⟩)

theorem exec_send (hok : SendOk s args rs) : SendStep s args ((send args).exec rs s) := by
  rcases send_checks args rs s with
    ⟨message, hthrown, hvalid⟩ | ⟨hhandle, hthrown⟩ | ⟨hvalid, hhandle, hsend⟩
  · rw [hthrown]
    exact .refused message (.inl hvalid)
  · rw [hthrown]
    exact .refused _ (.inr (.inl hhandle))
  · have hwait := hok hvalid hhandle
    rw [hsend]
    -- only a bound socket looks the address up now, the others put the packet in the queue
    cases hstate : s._bindState with
    | bound =>
        rw [hstate] at hwait
        rw [if_neg (by decide), sendOn, Prog.exec_get_bind, if_neg (not_not_intro hstate)]
        by_cases haddress : args.address = .other
        · rw [lookup, if_pos haddress]
          exact .refused _ (.inr (.inr ⟨hstate, haddress⟩))
        · rw [exec_lookup haddress (hwait haddress)]
          exact .looking hstate hhandle
    | binding =>
        rw [hstate] at hwait
        rw [if_neg (by decide), sendOn_enqueues (by rw [hstate]; decide)]
        exact .queued hstate hhandle hvalid hwait.1 hwait.2
    | unbound =>
        rw [hstate] at hwait
        have hbind : (bind .absent).exec rs s = .done () s.startBind :=
          exec_bind hhandle hstate nofun hwait.2
        obtain ⟨n, hexec⟩ := Prog.exec_bind_done (fun _ => sendOn args) hbind
        have hbinding : s.startBind._bindState ≠ .bound := fun hbad => BindState.noConfusion hbad
        rw [if_pos rfl, hexec, sendOn_enqueues hbinding]
        exact .binding hstate hhandle hvalid hwait.1

/-- The lookups that a queue of sends starts. -/
def Queued.lookup : Queued → Option Lookup
  | .send args => some (.send args)
  | .close => none

/-- What can be sent when the socket is bound. -/
def Sendable (toRun : Queued) : Prop :=
  ∃ args, toRun = .send args ∧ valid args.list args.port = true ∧ args.address ≠ .other

theorem exec_flush {queue : List Queued} (hqueue : ∀ toRun ∈ queue, Sendable toRun)
    (hstate : s._bindState = .bound) (hhandle : s._handle = true) (hrs : ∀ r ∈ rs, r = 0) :
    (flush queue).exec rs s =
      .done () { s with lookups := s.lookups ++ queue.filterMap Queued.lookup } := by
  induction queue generalizing s rs with
  | nil =>
      rw [List.filterMap_nil, List.append_nil]
      rfl
  | cons toRun queue ih =>
      obtain ⟨args, rfl, hvalid, haddress⟩ := hqueue toRun List.mem_cons_self
      have herr : rs.headD 0 = 0 := by
        cases rs with
        | nil => rfl
        | cons r rs => exact hrs r List.mem_cons_self
      have hok : SendOk s args rs := by
        intro _ _
        rw [hstate]
        exact fun _ => herr
      have hsend : (send args).exec rs s = .done () (s.looking (.send args)) := by
        -- what is in the queue was checked before, and the socket is bound: one case is left
        have hstep := exec_send hok
        generalize (send args).exec rs s = o at hstep
        cases hstep with
        | looking => rfl
        | refused message hwhy =>
            rcases hwhy with hbad | hbad | ⟨-, hbad⟩
            · rw [hvalid] at hbad
              cases hbad
            · rw [hhandle] at hbad
              cases hbad
            · exact absurd hbad haddress
        | binding hbad =>
            rw [hstate] at hbad
            cases hbad
        | queued hbad =>
            rw [hstate] at hbad
            cases hbad
      obtain ⟨n, hexec⟩ := Prog.exec_bind_done (fun _ => flush queue) hsend
      show ((send args) >>= fun _ => flush queue).exec rs s = _
      rw [hexec, ih (s := s.looking (.send args))
        (fun toRun hmem => hqueue toRun (List.mem_cons_of_mem _ hmem)) hstate hhandle
        fun r hmem => hrs r (List.mem_of_mem_drop hmem)]
      simp [looking, Queued.lookup]

/-- The queue has been flushed. -/
def flushed (s : Dgram) : Dgram :=
  { s with
    _queue := none
    lookups := s.lookups ++ (s._queue.getD []).filterMap Queued.lookup }

theorem exec_clearQueue
    (hqueue : ∀ q, s._queue = some q → (∀ toRun ∈ q, Sendable toRun) ∧ s._bindState = .bound ∧
      s._handle = true ∧ ∀ r ∈ rs, r = 0) :
    clearQueue.exec rs s = .done () s.flushed := by
  rw [clearQueue, Prog.exec_get_bind]
  cases hq : s._queue with
  | none =>
      have hnone : s.flushed = s := by
        obtain ⟨_, _, _, queue, _⟩ := s
        obtain rfl : queue = none := hq
        simp [flushed]
      rw [hnone]
      rfl
  | some q =>
      obtain ⟨hall, hstate, hhandle, hrs⟩ := hqueue q hq
      have hflush := exec_flush (s := { s with _queue := none }) hall hstate hhandle hrs
      show (flush q).exec rs { s with _queue := none } = _
      rw [hflush, flushed, hq]
      rfl

end exec

/-! ### What every move keeps -/

/-- The places where a `send` can wait. -/
structure Places (s : Dgram) (tags : List Yield) : Prop where
  /-- what is in the queue can be sent, and something will flush it -/
  queue : ∀ q, s._queue = some q →
    (∀ toRun ∈ q, Sendable toRun) ∧ s._handle = true ∧ (.bind ∈ s.lookups ∨ .listening ∈ tags)
  /-- nothing waits for a lookup when the socket is closed -/
  closed : s._handle = false → ∀ wait ∈ s.lookups, wait = .bind
  binding : .bind ∈ s.lookups → s._bindState = .binding ∧ s.lookups.count .bind = 1
  bindError : .bindError ∈ tags → s._bindState = .binding ∧ .bind ∉ s.lookups
  listening : .listening ∈ tags → s._bindState = .bound

/-- What was accepted, and what was answered. -/
structure Books (s : Dgram) : Prop where
  /-- what was accepted waits in one place or is settled -/
  conserved : ∀ a, (accepted s).count a = (waiting s).count a + (settled s).count a
  nodup : (accepted s).Nodup
  old : ∀ a ∈ accepted s, a.1 < s.next
  replies : replies s = fates s

section inv

variable {s : Dgram} {tags : List Yield} {args : Send} {wait : Lookup}

theorem books_new : Books new where
  conserved _ := rfl
  nodup := List.nodup_nil
  old := nofun
  replies := rfl

theorem places_new : Places new [] where
  queue := nofun
  closed := nofun
  binding := nofun
  bindError := nofun
  listening := nofun

/-- There is no queue when the socket is closed. -/
theorem Places.no_queue (h : Places s tags) (hhandle : s._handle = false) : s._queue = none := by
  cases hq : s._queue with
  | none => rfl
  | some q =>
      have hopen := (h.queue q hq).2.1
      rw [hhandle] at hopen
      cases hopen

/-- The `send` returned. -/
def accept (s : Dgram) (args : Send) : Dgram :=
  { s with log := s.log ++ [.accepted args.id args.callback] }

theorem accepted_accept : accepted (s.accept args) = accepted s ++ [args.mark] := by
  simp [accepted, accept, Send.mark]

theorem settled_accept : settled (s.accept args) = settled s := by
  simp [settled, accept]

theorem replies_accept : replies (s.accept args) = replies s := by
  simp [replies, accept]

theorem fates_accept : fates (s.accept args) = fates s := by
  simp [fates, accept]

theorem count_waiting (s : Dgram) (a : Nat × Bool) : (waiting s).count a =
    ((s._queue.getD []).filterMap Queued.mark).count a +
      (s.lookups.filterMap Lookup.mark).count a + (s.sending.map Send.mark).count a := by
  rw [waiting, List.count_append, List.count_append]

theorem count_snoc {α : Type} (f : α → Option (Nat × Bool)) (l : List α) (b : α) (a : Nat × Bool) :
    ((l ++ [b]).filterMap f).count a = (l.filterMap f).count a + (f b).toList.count a := by
  rw [List.filterMap_append, List.count_append]
  cases h : f b <;> simp [h]

theorem waiting_looking (s : Dgram) (wait : Lookup) (a : Nat × Bool) :
    (waiting (s.looking wait)).count a = (waiting s).count a + wait.mark.toList.count a := by
  simp only [count_waiting, looking, count_snoc]
  omega

theorem waiting_enqueued (s : Dgram) (args : Send) (a : Nat × Bool) :
    (waiting (s.enqueued args)).count a = (waiting s).count a + [args.mark].count a := by
  simp only [count_waiting, enqueued, Option.getD_some, count_snoc, Queued.mark, Option.toList_some]
  omega

theorem waiting_passed (s : Dgram) (args : Send) (a : Nat × Bool) :
    (waiting (s.passed args)).count a = (waiting s).count a + [args.mark].count a := by
  simp only [count_waiting, passed, List.map_append, List.count_append, List.map_singleton]
  omega

theorem waiting_startBind (a : Nat × Bool) :
    (waiting s.startBind).count a = (waiting s).count a := by
  rw [startBind, waiting_looking]
  rfl

/-- A `send` that is accepted waits somewhere. -/
theorem Books.accept (h : Books s) {t : Dgram} (hlog : t.log = s.log) (hnext : t.next = s.next + 1)
    (hid : args.id = s.next)
    (hwaiting : ∀ a, (waiting t).count a = (waiting s).count a + [args.mark].count a) :
    Books (t.accept args) := by
  have haccepted : accepted (t.accept args) = accepted s ++ [args.mark] := by
    rw [accepted_accept, accepted, accepted, hlog]
  have hsettled : settled (t.accept args) = settled s := by
    rw [settled_accept, settled, settled, hlog]
  refine ⟨fun a => ?_, ?_, fun a hmem => ?_, ?_⟩
  · -- one more is accepted, and one more waits
    have hold := h.conserved a
    have hplace : waiting (t.accept args) = waiting t := rfl
    rw [haccepted, hsettled, List.count_append, hplace, hwaiting]
    omega
  · rw [haccepted, List.nodup_append]
    refine ⟨h.nodup, by simp, fun a hmem b hmem' heq => ?_⟩
    -- the number of the call is new
    have hlt := h.old a hmem
    rw [heq, List.mem_singleton.mp hmem'] at hlt
    exact Nat.lt_irrefl _ (hid ▸ hlt)
  · show a.1 < t.next
    rw [haccepted, List.mem_append] at hmem
    rcases hmem with hmem | hmem
    · have hlt := h.old a hmem
      omega
    · have hnew : a.1 = s.next := by rw [List.mem_singleton.mp hmem, Send.mark, hid]
      omega
  · rw [replies_accept, fates_accept, Dgram.replies, Dgram.fates, hlog]
    exact h.replies

theorem mem_snoc_send {l : List Lookup} : .bind ∈ l ++ [.send args] ↔ .bind ∈ l := by
  simp

/-- A `send` starts to wait for its lookup. -/
theorem Places.looking (h : Places s tags) (hhandle : s._handle = true) :
    Places (s.looking (.send args)) tags where
  queue q hq := by
    obtain ⟨hall, hopen, hflush⟩ := h.queue q hq
    exact ⟨hall, hopen, hflush.imp_left (List.mem_append_left _)⟩
  closed hclosed := by
    have hclosed' : s._handle = false := hclosed
    rw [hhandle] at hclosed'
    cases hclosed'
  binding hbind := by
    obtain ⟨hstate, hcount⟩ := h.binding (mem_snoc_send.mp hbind)
    refine ⟨hstate, ?_⟩
    show (s.lookups ++ [Lookup.send args]).count Lookup.bind = 1
    rw [List.count_append, hcount]
    rfl
  bindError htag := by
    obtain ⟨hstate, hbind⟩ := h.bindError htag
    exact ⟨hstate, fun hmem => hbind (mem_snoc_send.mp hmem)⟩
  listening := h.listening

/-- A `send` starts to wait in the queue, for a `bind` that is in flight. -/
theorem Places.enqueued (h : Places s tags) (hhandle : s._handle = true)
    (hvalid : valid args.list args.port = true) (haddress : args.address ≠ .other)
    (hbind : .bind ∈ s.lookups) : Places (s.enqueued args) tags where
  queue q hq := by
    have hq' : s._queue.getD [] ++ [.send args] = q := Option.some.inj hq
    subst hq'
    refine ⟨fun toRun hmem => ?_, hhandle, .inl hbind⟩
    rcases List.mem_append.mp hmem with hmem | hmem
    · cases hqueue : s._queue with
      | none =>
          rw [hqueue] at hmem
          cases hmem
      | some q =>
          rw [hqueue] at hmem
          exact (h.queue q hqueue).1 toRun hmem
    · exact ⟨args, List.mem_singleton.mp hmem, hvalid, haddress⟩
  closed := h.closed
  binding := h.binding
  bindError := h.bindError
  listening := h.listening

/-- A `bind` starts. -/
theorem Places.startBind (h : Places s tags) (hhandle : s._handle = true)
    (hstate : s._bindState = .unbound) : Places s.startBind tags where
  queue q hq := by
    obtain ⟨hall, -, -⟩ := h.queue q hq
    exact ⟨hall, hhandle, .inl (List.mem_append_right _ List.mem_cons_self)⟩
  closed hclosed := by
    have hclosed' : s._handle = false := hclosed
    rw [hhandle] at hclosed'
    cases hclosed'
  binding _ := by
    -- a socket that is not bound has no `bind` in flight, so the new one is the only one
    have hnone : .bind ∉ s.lookups := by
      intro hmem
      have hbinding := (h.binding hmem).1
      rw [hstate] at hbinding
      cases hbinding
    refine ⟨rfl, ?_⟩
    show (s.lookups ++ [Lookup.bind]).count Lookup.bind = 1
    rw [List.count_append, List.count_eq_zero.mpr hnone]
    rfl
  bindError htag := by
    have hbinding := (h.bindError htag).1
    rw [hstate] at hbinding
    cases hbinding
  listening htag := by
    have hbound := h.listening htag
    rw [hstate] at hbound
    cases hbound

/-- The invariant of a run. -/
structure Inv (s : Dgram) (tags : List Yield) : Prop where
  books : Books s
  places : Places s tags

/-- A `send` that is called keeps the invariant. -/
theorem Inv.send (h : Inv s tags) {o : Outcome Dgram Yield Native Unit} (hid : args.id = s.next)
    (hstep : SendStep { s with next := s.next + 1 } args o) :
    match o with
    | .done _ t => Inv (t.accept args) tags
    | .thrown _ t => Inv t tags
    | .yielded .. => False := by
  have hplaces : Places { s with next := s.next + 1 } tags := { h.places with }
  cases hstep with
  | refused message hwhy =>
      -- the number is used up, though nothing was accepted
      refine ⟨{ h.books with old := fun a hmem => ?_ }, hplaces⟩
      exact Nat.lt_succ_of_lt (h.books.old a hmem)
  | looking hstate hhandle =>
      have hwaiting := waiting_looking { s with next := s.next + 1 } (.send args)
      exact ⟨h.books.accept rfl rfl hid hwaiting, { hplaces.looking hhandle with }⟩
  | binding hstate hhandle hvalid haddress =>
      have hwaiting (a : Nat × Bool) :
          (waiting ((startBind { s with next := s.next + 1 }).enqueued args)).count a =
            (waiting s).count a + [args.mark].count a := by
        rw [waiting_enqueued, waiting_startBind]
        rfl
      have hbind := (hplaces.startBind hhandle hstate).enqueued hhandle hvalid haddress
        (List.mem_append_right _ List.mem_cons_self)
      exact ⟨h.books.accept rfl rfl hid hwaiting, { hbind with }⟩
  | queued hstate hhandle hvalid haddress hbind =>
      have hwaiting := waiting_enqueued { s with next := s.next + 1 } args
      exact ⟨h.books.accept rfl rfl hid hwaiting,
        { hplaces.enqueued hhandle hvalid haddress hbind with }⟩

/-! ### The other moves -/

/-- What `bind` does: it is refused, or does not come to a lookup, or its lookup is in flight. -/
inductive BindStep (s : Dgram) : Outcome Dgram Yield Native Unit → Prop where
  | refused (message : String) : BindStep s (.thrown message s)
  | thrown (message : String) (hstate : s._bindState = .unbound) :
      BindStep s (.thrown message { s with _bindState := .binding })
  | failed (hstate : s._bindState = .unbound) :
      BindStep s (.done () { s with _bindState := .binding })
  | started (hstate : s._bindState = .unbound) (hhandle : s._handle = true) :
      BindStep s (.done () s.startBind)

theorem bindStep (address : Address) (rs : List Int) : BindStep s ((bind address).exec rs s) := by
  rw [bind]
  cases hhandle : s._handle with
  | false =>
      rw [exec_healthCheck_fail hhandle]
      exact .refused _
  | true =>
      rw [exec_healthCheck hhandle, Prog.exec_get_bind]
      by_cases hstate : s._bindState = .unbound
      · rw [if_neg (not_not_intro hstate), Prog.exec_modify_bind]
        by_cases haddress : address = .other
        · rw [lookup, if_pos haddress]
          exact .thrown _ hstate
        · by_cases herr : rs.headD 0 = 0
          · rw [exec_lookup haddress herr]
            exact .started hstate hhandle
          · rw [lookup, if_neg haddress, Prog.exec_askFor_bind, if_neg herr]
            exact .failed hstate
      · rw [if_pos hstate]
        exact .refused _

/-- The state of an unbound socket can change to binding. -/
theorem Places.binding' (h : Places s tags) (hstate : s._bindState = .unbound) :
    Places { s with _bindState := .binding } tags where
  queue := h.queue
  closed := h.closed
  binding hbind := ⟨rfl, (h.binding hbind).2⟩
  bindError htag := ⟨rfl, (h.bindError htag).2⟩
  listening htag := by
    have hbound := h.listening htag
    rw [hstate] at hbound
    cases hbound

/-- What waits can move from one place to another. -/
theorem Books.move (h : Books s) {t : Dgram} (hlog : t.log = s.log) (hnext : t.next = s.next)
    (hwaiting : ∀ a, (waiting t).count a = (waiting s).count a) : Books t where
  conserved a := by
    have hold := h.conserved a
    rw [hwaiting, accepted, settled, hlog]
    exact hold
  nodup := by
    rw [accepted, hlog]
    exact h.nodup
  old a hmem := by
    rw [accepted, hlog] at hmem
    rw [hnext]
    exact h.old a hmem
  replies := by
    rw [Dgram.replies, fates, hlog]
    exact h.replies

theorem Inv.bind (h : Inv s tags) {o : Outcome Dgram Yield Native Unit} (hstep : BindStep s o) :
    o.tag = none ∧ Inv o.heap tags := by
  cases hstep with
  | refused message => exact ⟨rfl, h⟩
  | thrown message hstate => exact ⟨rfl, { h.books with }, h.places.binding' hstate⟩
  | failed hstate => exact ⟨rfl, { h.books with }, h.places.binding' hstate⟩
  | started hstate hhandle =>
      exact ⟨rfl, h.books.move rfl rfl waiting_startBind, h.places.startBind hhandle hstate⟩

/-- Closing a socket without a queue and without lookups of a `send` disturbs nothing. -/
theorem Inv.close (h : Inv s tags) {rs : List Int}
    (hok : s._handle = true → s._queue = none ∧ ∀ wait ∈ s.lookups, wait = .bind) :
    (close.exec rs s).tag = none ∧ Inv (close.exec rs s).heap tags := by
  rw [Dgram.close, Prog.exec_get_bind]
  cases hhandle : s._handle with
  | true =>
      obtain ⟨hqueue, hlookups⟩ := hok hhandle
      rw [hqueue, if_neg (by simp), exec_healthCheck hhandle, Prog.exec_modify]
      refine ⟨rfl, { h.books with }, ?_⟩
      exact { h.places with
        queue := fun q hq => by
          have hq' : s._queue = some q := hq
          rw [hqueue] at hq'
          cases hq'
        closed := fun _ => hlookups }
  | false =>
      rw [h.places.no_queue hhandle, if_neg (by simp), exec_healthCheck_fail hhandle]
      exact ⟨rfl, h⟩

/-! ### Results -/

/-- The lookup at the place `i` has its result. -/
def taken (s : Dgram) (i : Nat) : Dgram := { s with lookups := s.lookups.eraseIdx i }

/-- The native send at the place `i` has its result. -/
def sent (s : Dgram) (i : Nat) : Dgram := { s with sending := s.sending.eraseIdx i }

/-- What became of a `send` is known, and its callback is told. -/
def told (s : Dgram) (args : Send) (handed : Bool) : Dgram :=
  { s with log := s.log ++ .fate args.id args.callback handed ::
      if args.callback then [.answered args.id (if handed then .null else .error)] else [] }

theorem eraseIdx_perm {α : Type} {l : List α} {b : α} {i : Nat} (h : l[i]? = some b) :
    (b :: l.eraseIdx i).Perm l := by
  obtain ⟨hi, rfl⟩ := List.getElem?_eq_some_iff.mp h
  exact List.getElem_cons_eraseIdx_perm hi

theorem waiting_taken {i : Nat} (hi : s.lookups[i]? = some wait) (a : Nat × Bool) :
    (waiting s).count a = (waiting (s.taken i)).count a + wait.mark.toList.count a := by
  have hcount := ((eraseIdx_perm hi).filterMap Lookup.mark).count_eq a
  have hfirst : ((wait :: s.lookups.eraseIdx i).filterMap Lookup.mark).count a =
      ((s.lookups.eraseIdx i).filterMap Lookup.mark).count a + wait.mark.toList.count a := by
    cases hmark : wait.mark with
    | none => simp [hmark]
    | some b => rw [List.filterMap_cons_some hmark, List.count_cons, Option.toList_some,
        List.count_singleton]
  simp only [count_waiting, taken]
  omega

theorem waiting_sent {i : Nat} (hi : s.sending[i]? = some args) (a : Nat × Bool) :
    (waiting s).count a = (waiting (s.sent i)).count a + [args.mark].count a := by
  have hcount := ((eraseIdx_perm hi).map Send.mark).count_eq a
  rw [List.map_cons, List.count_cons, ← List.count_singleton] at hcount
  simp only [count_waiting, sent]
  omega

/-- A `send` that stops to wait is told what became of it. -/
theorem Books.told (h : Books s) {t : Dgram} (hlog : t.log = s.log) (hnext : t.next = s.next)
    (hwaiting : ∀ a, (waiting s).count a = (waiting t).count a + [args.mark].count a)
    (handed : Bool) : Books (t.told args handed) := by
  have haccepted : accepted (t.told args handed) = accepted s := by
    cases hcallback : args.callback <;> simp [accepted, Dgram.told, hcallback, hlog]
  have hsettled : settled (t.told args handed) = settled s ++ [args.mark] := by
    cases hcallback : args.callback <;> simp [settled, Dgram.told, Send.mark, hcallback, hlog]
  refine ⟨fun a => ?_, ?_, fun a hmem => ?_, ?_⟩
  · -- one fewer waits, and one more is settled
    have hold := h.conserved a
    have hplace : waiting (t.told args handed) = waiting t := rfl
    have hmove := hwaiting a
    rw [haccepted, hsettled, List.count_append, hplace]
    omega
  · rw [haccepted]
    exact h.nodup
  · rw [haccepted] at hmem
    show a.1 < t.next
    rw [hnext]
    exact h.old a hmem
  · have hreplies := h.replies
    simp only [Dgram.replies, Dgram.fates] at hreplies
    cases hcallback : args.callback <;>
      simp [Dgram.replies, Dgram.fates, Dgram.told, hcallback, hlog, hreplies]

/-- What goes on after each yield. -/
def afterYield : Yield → Datagram Unit
  | .bindError => modify fun s => { s with _bindState := .unbound }
  | .listening => do
      clearQueue
      Prog.yieldTo .listened
  | .callback _ | .error | .listened | .close => pure ()

/-- At most one function waits for outside code, and the invariant holds. -/
def Kept (c : Config Dgram Yield Native) : Prop :=
  Inv c.heap c.tags ∧ (c.stack = [] ∨ ∃ tag, c.stack = [(tag, afterYield tag)])

theorem kept_yielded {tag : Yield} {k : Datagram Unit} (h : Inv s [tag]) (hk : k = afterYield tag) :
    Kept (.settle [] (.yielded tag k s)) := by
  subst hk
  exact ⟨h, .inr ⟨tag, rfl⟩⟩

theorem kept_done (h : Inv s []) : Kept (.settle [] (.done () s)) := ⟨h, .inl rfl⟩

/-- A tag that nothing is said about can be left out or added. -/
theorem Places.tag (h : Places s []) {tag : Yield} (hbind : tag ≠ .bindError)
    (hlistening : tag ≠ .listening) : Places s [tag] where
  queue q hq := by
    obtain ⟨hall, hhandle, hflush⟩ := h.queue q hq
    exact ⟨hall, hhandle, .inl (hflush.resolve_right nofun)⟩
  closed := h.closed
  binding := h.binding
  bindError htag := absurd (List.mem_singleton.mp htag).symm hbind
  listening htag := absurd (List.mem_singleton.mp htag).symm hlistening

variable {rs : List Int}

theorem exec_answer {handed : Bool} (f : Unit → Datagram Unit) :
    (answer args handed >>= f).exec rs s =
      if args.callback then .yielded (.callback args.id) (f ()) (s.told args handed)
      else (f ()).exec rs (s.told args handed) := by
  rw [answer]
  cases hcallback : args.callback with
  | true =>
      show Outcome.yielded _ (f ()) _ = _
      simp [told, hcallback]
  | false =>
      rw [told, hcallback]
      rfl

/-- The lookup of a `bind` has its result, and there is no other. -/
theorem Places.taken_bind (h : Places s []) {i : Nat} (hi : s.lookups[i]? = some .bind)
    {state : BindState} {receiving : Bool} (hqueue : s._queue = none ∨ .listening ∈ tags)
    (hbindError : .bindError ∈ tags → state = .binding)
    (hlistening : .listening ∈ tags → state = .bound) :
    Places { s.taken i with _bindState := state, _receiving := receiving } tags := by
  have hperm := eraseIdx_perm hi
  have hbind : .bind ∈ s.lookups := List.mem_of_getElem? hi
  have hnone : .bind ∉ s.lookups.eraseIdx i := by
    have hcount := hperm.count_eq .bind
    rw [(h.binding hbind).2, List.count_cons_self] at hcount
    exact List.count_eq_zero.mp (by omega)
  refine ⟨fun q hq => ?_, fun hclosed wait hmem => ?_, fun hmem => absurd hmem hnone,
    fun htag => ⟨hbindError htag, hnone⟩, hlistening⟩
  · have hq' : s._queue = some q := hq
    obtain ⟨hall, hhandle, -⟩ := h.queue q hq'
    rcases hqueue with hqueue | htag
    · rw [hqueue] at hq'
      cases hq'
    · exact ⟨hall, hhandle, .inr htag⟩
  · exact h.closed hclosed wait (List.mem_of_mem_eraseIdx hmem)

theorem Places.taken_send (h : Places s []) {i : Nat} (hi : s.lookups[i]? = some (.send args)) :
    Places (s.taken i) [] := by
  have hperm := eraseIdx_perm hi
  have hiff : .bind ∈ s.lookups.eraseIdx i ↔ .bind ∈ s.lookups := by
    rw [← hperm.mem_iff]
    simp
  refine ⟨fun q hq => ?_, fun hclosed wait hmem => ?_, fun hmem => ?_, nofun, nofun⟩
  · obtain ⟨hall, hhandle, hflush⟩ := h.queue q hq
    exact ⟨hall, hhandle, .inl (hiff.mpr (hflush.resolve_right nofun))⟩
  · exact h.closed hclosed wait (List.mem_of_mem_eraseIdx hmem)
  · obtain ⟨hstate, hcount⟩ := h.binding (hiff.mp hmem)
    refine ⟨hstate, ?_⟩
    rw [← hperm.count_eq, List.count_cons_of_ne (by simp)] at hcount
    exact hcount

/-- The result of the lookup of a `bind`. What the queue waits for does not fail. -/
theorem kept_bindLookup (h : Inv s []) {i : Nat} (hi : s.lookups[i]? = some .bind) {failed : Bool}
    (hok : s._queue.isSome = true → failed = false ∧ rs.headD 0 = 0) :
    Kept (.settle [] ((afterBindLookup failed).exec rs (s.taken i))) := by
  have hbooks : Books (s.taken i) := h.books.move rfl rfl fun a => (waiting_taken hi a).symm
  have hqueue : ¬ (failed = false ∧ rs.headD 0 = 0) → s._queue = none := by
    intro hbad
    cases hq : s._queue with
    | none => rfl
    | some q => exact absurd (hok (by rw [hq]; rfl)) hbad
  -- what the queue waited for is gone, unless 'listening' comes
  cases failed with
  | true =>
      have hplaces : Places { s.taken i with _bindState := .unbound } [.error] :=
        h.places.taken_bind hi (.inl (hqueue (by simp))) (by simp) (by simp)
      exact kept_yielded ⟨{ hbooks with }, hplaces⟩ rfl
  | false =>
      rw [afterBindLookup, if_neg (by simp), Prog.exec_get_bind]
      cases hhandle : s._handle with
      | false =>
          have hplaces : Places (s.taken i) [] :=
            h.places.taken_bind hi (.inl (h.places.no_queue hhandle)) nofun nofun
          have hhandle' : (s.taken i)._handle = false := hhandle
          rw [hhandle']
          exact kept_done ⟨hbooks, hplaces⟩
      | true =>
          have hhandle' : (s.taken i)._handle = true := hhandle
          rw [hhandle', if_pos rfl, Prog.exec_askFor_bind]
          by_cases herr : rs.headD 0 = 0
          · have hplaces : Places { s.taken i with _bindState := .bound, _receiving := true }
                [.listening] :=
              h.places.taken_bind hi (.inr List.mem_cons_self) (by simp) (fun _ => rfl)
            rw [if_neg (not_not_intro herr)]
            exact kept_yielded ⟨{ hbooks with }, hplaces⟩ rfl
          · have hplaces : Places (s.taken i) [.bindError] :=
              h.places.taken_bind hi (.inl (hqueue (fun hgood => herr hgood.2)))
                (fun _ => (h.places.binding (List.mem_of_getElem? hi)).1) (by simp)
            rw [if_pos herr]
            exact kept_yielded ⟨hbooks, hplaces⟩ rfl

/-- The result of the lookup of a `send`. The native layer does not refuse the datagram at once. -/
theorem kept_sendLookup (h : Inv s []) {i : Nat} (hi : s.lookups[i]? = some (.send args))
    {failed : Bool} (hok : failed = false → rs.headD 0 = 0) :
    Kept (.settle [] ((doSend failed args).exec rs (s.taken i))) := by
  have hplaces := h.places.taken_send hi
  cases failed with
  | true =>
      have hbooks : Books ((s.taken i).told args false) :=
        h.books.told (t := s.taken i) rfl rfl (waiting_taken hi) false
      rw [doSend, if_pos rfl, exec_answer]
      cases hcallback : args.callback with
      | true =>
          have htag : Places (s.taken i) [.callback args.id] := hplaces.tag (by simp) (by simp)
          exact kept_yielded ⟨hbooks, { htag with }⟩ rfl
      | false =>
          have htag : Places (s.taken i) [.error] := hplaces.tag (by simp) (by simp)
          exact kept_yielded ⟨hbooks, { htag with }⟩ rfl
  | false =>
      -- no `close` came in between
      have hopen : (s.taken i)._handle = true := by
        by_contra hclosed
        have hbind := h.places.closed (eq_false_of_ne_true hclosed) _ (List.mem_of_getElem? hi)
        cases hbind
      rw [doSend, if_neg (by simp), Prog.exec_get_bind, hopen, if_pos rfl, Prog.exec_askFor_bind,
        if_pos (hok rfl)]
      refine kept_done ⟨h.books.move rfl rfl fun a => ?_, { hplaces with }⟩
      exact (waiting_passed _ _ a).trans (waiting_taken hi a).symm

/-- The native layer is done with a `send`. -/
theorem kept_answer (h : Inv s []) {i : Nat} (hi : s.sending[i]? = some args) (handed : Bool) :
    Kept (.settle [] ((answer args handed).exec rs (s.sent i))) := by
  have hbooks : Books ((s.sent i).told args handed) :=
    h.books.told (t := s.sent i) rfl rfl (waiting_sent hi) handed
  rw [← Prog.bind_pure (answer args handed), exec_answer]
  cases hcallback : args.callback with
  | true =>
      have htag : Places s [.callback args.id] := h.places.tag (by simp) (by simp)
      exact kept_yielded ⟨hbooks, { htag with }⟩ rfl
  | false => exact kept_done ⟨hbooks, { h.places with }⟩

/-- A tag that is left has no queue to flush. -/
theorem Places.untag {tag : Yield} (h : Places s [tag]) (hqueue : tag = .listening → s._queue = none) :
    Places s [] where
  queue q hq := by
    obtain ⟨hall, hhandle, hflush⟩ := h.queue q hq
    refine ⟨hall, hhandle, hflush.imp_right fun hmem => ?_⟩
    rw [hqueue (List.mem_singleton.mp hmem).symm] at hq
    cases hq
  closed := h.closed
  binding := h.binding
  bindError := nofun
  listening := nofun

theorem filterMap_lookup (queue : List Queued) :
    (queue.filterMap Queued.lookup).filterMap Lookup.mark = queue.filterMap Queued.mark := by
  rw [List.filterMap_filterMap]
  congr 1
  funext toRun
  cases toRun <;> rfl

theorem waiting_flushed (a : Nat × Bool) : (waiting s.flushed).count a = (waiting s).count a := by
  simp only [count_waiting, flushed, List.filterMap_append, List.count_append, filterMap_lookup,
    Option.getD_none, List.filterMap_nil, List.count_nil]
  omega

/-- The sends of the queue wait for their lookups. -/
theorem Places.flushed (h : Places s [.listening]) : Places s.flushed [.listened] := by
  -- the socket is bound, and the queue brings lookups of sends only
  have hnone : .bind ∉ s.flushed.lookups := by
    intro hmem
    rcases List.mem_append.mp hmem with hmem | hmem
    · have hbinding := (h.binding hmem).1
      rw [h.listening List.mem_cons_self] at hbinding
      cases hbinding
    · obtain ⟨toRun, -, hlookup⟩ := List.mem_filterMap.mp hmem
      cases toRun <;> cases hlookup
  refine ⟨nofun, fun hclosed wait hmem => ?_, fun hmem => absurd hmem hnone, ?_, ?_⟩
  · rw [Dgram.flushed, h.no_queue hclosed] at hmem
    exact h.closed hclosed wait (by simpa using hmem)
  · simp
  · simp

/-- Outside code returned. -/
theorem kept_ret {tag : Yield} (h : Inv s [tag])
    (hok : tag = .listening → s._queue.isSome = true → ∀ r ∈ rs, r = 0) :
    Kept (.settle [] ((afterYield tag).exec rs s)) := by
  have hdone (hlistening : tag ≠ .listening) : Kept (.settle [] (.done () s)) :=
    kept_done ⟨h.books, h.places.untag fun htag => absurd htag hlistening⟩
  cases tag with
  | callback => exact hdone nofun
  | error => exact hdone nofun
  | listened => exact hdone nofun
  | close => exact hdone nofun
  | bindError =>
      have hplaces := h.places.untag nofun
      have hnone := (h.places.bindError List.mem_cons_self).2
      exact kept_done ⟨{ h.books with },
        { hplaces with binding := fun hmem => absurd hmem hnone, bindError := nofun, listening := nofun }⟩
  | listening =>
      have hclear : clearQueue.exec rs s = .done () s.flushed := by
        refine exec_clearQueue fun q hq => ?_
        obtain ⟨hall, hhandle, -⟩ := h.places.queue q hq
        exact ⟨hall, h.places.listening List.mem_cons_self, hhandle,
          hok rfl (by rw [hq]; rfl)⟩
      obtain ⟨n, hexec⟩ := Prog.exec_bind_done (fun _ => Prog.yieldTo Yield.listened) hclear
      show Kept (.settle [] ((clearQueue >>= fun _ => Prog.yieldTo Yield.listened).exec rs s))
      rw [hexec]
      exact kept_yielded ⟨h.books.move rfl rfl waiting_flushed, h.places.flushed⟩ rfl

end inv

/-! ### The condition -/

/-- The move loses no `send`: a `close` finds no `send` that waits for the queue or for a lookup,
what the queue waits for succeeds, and no native function fails at once. -/
def Undisturbed (c : Config Dgram Yield Native) : Move Call → Prop
  | .call (.send list port address callback) rs =>
      SendOk c.heap ⟨c.heap.next, list, port, address, callback⟩ rs
  | .call .close _ =>
      c.heap._handle = true → c.heap._queue = none ∧ ∀ wait ∈ c.heap.lookups, wait = .bind
  | .call (.lookup i failed) rs =>
      match c.heap.lookups[i]? with
      | some .bind => c.heap._queue.isSome = true → failed = false ∧ rs.headD 0 = 0
      | some (.send _) => failed = false → rs.headD 0 = 0
      | none => True
  | .call (.bind _) _ | .call (.sent _ _) _ | .call .tick _ => True
  | .ret rs => c.tags.head? = some .listening → c.heap._queue.isSome = true → ∀ r ∈ rs, r = 0
  | .throw => c.tags.head? = some .listening → c.heap._queue = none

instance (s : Dgram) (args : Send) (rs : List Int) : Decidable (SendOk s args rs) := by
  unfold SendOk
  cases s._bindState <;> infer_instance

instance (c : Config Dgram Yield Native) : ∀ m, Decidable (Undisturbed c m)
  | .call (.send ..) _ => inferInstanceAs (Decidable (SendOk ..))
  | .call .close _ => inferInstanceAs (Decidable (_ → _))
  | .call (.lookup i failed) rs =>
      match h : c.heap.lookups[i]? with
      | some .bind => decidable_of_iff (c.heap._queue.isSome = true → failed = false ∧ rs.headD 0 = 0)
          (by rw [Undisturbed, h])
      | some (.send _) => decidable_of_iff (failed = false → rs.headD 0 = 0)
          (by rw [Undisturbed, h])
      | none => .isTrue (by rw [Undisturbed, h]; trivial)
  | .call (.bind _) _ | .call (.sent _ _) _ | .call .tick _ => .isTrue trivial
  | .ret _ => inferInstanceAs (Decidable (_ → _))
  | .throw => inferInstanceAs (Decidable (_ → _))

section runs

variable {c c' : Config Dgram Yield Native} {rs : List Int}

/-- A call that does not come to a yield leaves the stack as it is. -/
theorem Kept.call (h : Kept c) {o : Outcome Dgram Yield Native Unit} (htag : o.tag = none)
    (hinv : Inv o.heap c.tags) : Kept (.settle c.stack o) := by
  cases o with
  | done a t => exact ⟨hinv, h.2⟩
  | thrown e t => exact ⟨hinv, h.2⟩
  | yielded tag k t => cases htag

/-- A call of `send`. -/
theorem Kept.sendCall (h : Kept c) {list : Message} {port : Int} {address : Address}
    {callback : Bool} (hok : SendOk c.heap ⟨c.heap.next, list, port, address, callback⟩ rs) :
    Kept (.settle c.stack ((Dgram.sendCall list port address callback).exec rs c.heap)) := by
  have hstep := exec_send (s := { c.heap with next := c.heap.next + 1 }) hok
  rw [Dgram.sendCall, Prog.exec_get_bind, Prog.exec_modify_bind]
  cases ho : (send ⟨c.heap.next, list, port, address, callback⟩).exec rs
      { c.heap with next := c.heap.next + 1 } with
  | done a t =>
      rw [ho] at hstep
      obtain ⟨n, hexec⟩ :=
        Prog.exec_bind_done (fun _ => note (.accepted c.heap.next callback)) ho
      rw [hexec]
      exact h.call rfl (h.1.send rfl hstep)
  | thrown e t =>
      rw [ho] at hstep
      rw [Prog.exec_bind_thrown _ ho]
      exact h.call rfl (h.1.send rfl hstep)
  | yielded tag k t =>
      rw [ho] at hstep
      exact (h.1.send rfl hstep).elim

/-- The result of a lookup. -/
theorem kept_lookup {s : Dgram} (h : Inv s []) {i : Nat} {failed : Bool}
    (hi : i < s.lookups.length) (hok : Undisturbed ⟨s, []⟩ (.call (.lookup i failed) rs)) :
    Kept (.settle [] ((machine.body (.lookup i failed)).exec rs s)) := by
  have hwait := List.getElem?_eq_getElem hi
  generalize s.lookups[i] = wait at hwait
  simp only [Undisturbed, hwait] at hok
  simp only [machine, Prog.exec_get_bind, hwait, Prog.exec_modify_bind]
  cases wait with
  | bind => exact kept_bindLookup h hwait hok
  | send args => exact kept_sendLookup h hwait hok

/-- The result of a native send. -/
theorem kept_sent {s : Dgram} (h : Inv s []) {i : Nat} (status : Int)
    (hi : i < s.sending.length) :
    Kept (.settle [] ((machine.body (.sent i status)).exec rs s)) := by
  have hargs := List.getElem?_eq_getElem hi
  simp only [machine, Prog.exec_get_bind, hargs, Prog.exec_modify_bind]
  exact kept_answer h hargs _

/-- The 'close' event. -/
theorem kept_tick {s : Dgram} (h : Inv s []) :
    Kept (.settle [] ((machine.body .tick).exec rs s)) := by
  have hplaces : Places s [.close] := h.places.tag (by simp) (by simp)
  exact kept_yielded ⟨{ h.books with }, { hplaces with }⟩ rfl

/-- Every move keeps the invariant. -/
theorem kept_step {m : Move Call} (h : Kept c) (hok : Undisturbed c m)
    (hstep : machine.step c m = some c') : Kept c' := by
  obtain ⟨s, stack⟩ := c
  cases m with
  | call i rs =>
      obtain ⟨henabled, rfl⟩ := Machine.step_call hstep
      -- a call of the application can come while outside code runs, a result cannot
      cases i with
      | bind address =>
          obtain ⟨htag, hinv⟩ := h.1.bind (bindStep address rs)
          exact h.call htag hinv
      | send list port address callback => exact h.sendCall hok
      | close =>
          obtain ⟨htag, hinv⟩ := h.1.close hok
          exact h.call htag hinv
      | lookup i failed =>
          cases stack with
          | nil => exact kept_lookup h.1 (of_decide_eq_true henabled) hok
          | cons f st => cases henabled
      | sent i status =>
          cases stack with
          | nil => exact kept_sent h.1 status (of_decide_eq_true henabled)
          | cons f st => cases henabled
      | tick =>
          cases stack with
          | nil => exact kept_tick h.1
          | cons f st => cases henabled
  | ret rs =>
      obtain ⟨hinv, hnone | ⟨tag, hone⟩⟩ := h
      · cases hnone
        cases hstep
      · cases hone
        cases hstep
        exact kept_ret hinv fun htag => hok (congrArg some htag)
  | throw =>
      obtain ⟨hinv, hnone | ⟨tag, hone⟩⟩ := h
      · cases hnone
        cases hstep
      · cases hone
        cases hstep
        exact ⟨⟨hinv.books, hinv.places.untag fun htag => hok (congrArg some htag)⟩, .inl rfl⟩

/-- Nothing is pending. -/
structure Idle (c : Config Dgram Yield Native) : Prop where
  stack : c.stack = []
  lookups : c.heap.lookups = []
  sending : c.heap.sending = []

/-- What is promised to the sends. -/
structure Answered (c : Config Dgram Yield Native) : Prop where
  /-- a callback is called once at most -/
  once : ∀ id, (answered c.heap).count id ≤ 1
  /-- it is told null if the datagram was handed to the network, and an error if it was not -/
  replies : replies c.heap = fates c.heap
  /-- when nothing is pending, the callback of every accepted `send` has been called -/
  called : Idle c → ∀ id, (id, true) ∈ accepted c.heap → (answered c.heap).count id = 1
  /-- and no `send` was dropped -/
  settled : Idle c → ∀ a ∈ accepted c.heap, a ∈ settled c.heap

theorem count_fates (s : Dgram) (id : Nat) :
    ((fates s).map Prod.fst).count id = (settled s).count (id, true) := by
  rw [fates, settled]
  induction s.log with
  | nil => rfl
  | cons o log ih =>
      cases o with
      | accepted _ _ => exact ih
      | answered _ _ => exact ih
      | fate id' callback handed =>
          cases callback with
          | false => simpa [List.count_cons] using ih
          | true => simpa [List.count_cons] using ih

theorem Books.count_answered {s : Dgram} (h : Books s) (id : Nat) :
    (answered s).count id = (settled s).count (id, true) := by
  have hmap : answered s = (Dgram.replies s).map Prod.fst := by
    rw [answered, Dgram.replies, List.map_filterMap]
    congr 1
    funext o
    cases o <;> rfl
  rw [hmap, h.replies, count_fates]

theorem Books.count_settled_le {s : Dgram} (h : Books s) (a : Nat × Bool) :
    (settled s).count a ≤ 1 := by
  have hcount := List.nodup_iff_count_le_one.mp h.nodup a
  rw [h.conserved] at hcount
  omega

/-- When nothing is pending, nothing waits. -/
theorem Inv.waiting_nil {s : Dgram} (h : Inv s []) (hlookups : s.lookups = [])
    (hsending : s.sending = []) : waiting s = [] := by
  -- a queue would wait for a `bind` in flight, or for 'listening'
  have hqueue : s._queue = none := by
    by_contra hsome
    obtain ⟨q, hq⟩ := Option.ne_none_iff_exists'.mp hsome
    rcases (h.places.queue q hq).2.2 with hmem | hmem
    · rw [hlookups] at hmem
      cases hmem
    · cases hmem
  rw [waiting, hqueue, hlookups, hsending]
  rfl

theorem Kept.answered (h : Kept c) : Answered c := by
  have hbooks := h.1.books
  have hidle (hidle : Idle c) (a : Nat × Bool) (hmem : a ∈ accepted c.heap) :
      (settled c.heap).count a = 1 := by
    have htags : c.tags = [] := by rw [Config.tags, hidle.stack, List.map_nil]
    have hinv := h.1
    rw [htags] at hinv
    have hcount := hbooks.conserved a
    rw [hinv.waiting_nil hidle.lookups hidle.sending, List.count_nil,
      List.nodup_iff_count_eq_one.mp hbooks.nodup a hmem] at hcount
    omega
  refine ⟨fun id => ?_, hbooks.replies, fun hpending id hmem => ?_, fun hpending a hmem => ?_⟩
  · rw [hbooks.count_answered]
    exact hbooks.count_settled_le _
  · rw [hbooks.count_answered]
    exact hidle hpending _ hmem
  · exact List.count_pos_iff.mp (by rw [hidle hpending a hmem]; decide)

theorem kept_new : Kept ⟨new, []⟩ := ⟨⟨books_new, places_new⟩, .inl rfl⟩

/-- In every run that loses no `send`, whatever comes in which order, each callback is called once
at most, with what became of the datagram, and when nothing is pending it has been called. -/
theorem answered_of_undisturbed {ms : List (Move Call)}
    (hmeets : machine.Meets Undisturbed ⟨new, []⟩ ms) (hplay : machine.play ⟨new, []⟩ ms = some c) :
    Answered c :=
  (Machine.play_invariant (fun _ _ _ h hok hstep => kept_step h hok hstep) kept_new hmeets
    hplay).answered

/-- A `send` waits in the queue, one more comes while the socket listens, the native layer answers
the second one first, and the socket is closed. -/
theorem answered_of_undisturbed_two :
    ∃ c, Answered c ∧ replies c.heap = [(1, .null), (0, .error)] := by
  let ms : List (Move Call) := [.call (.send (.single (.data [1])) 80 .absent true) [],
    .call (.lookup 0 false) [], .call (.send (.list [.data [2]]) 80 (.name "a") true) [],
    .ret [], .ret [], .call (.lookup 0 false) [], .call (.lookup 0 false) [], .call .close [],
    .call (.sent 0 0) [], .ret [], .call (.sent 0 (-125)) [], .ret [], .call .tick [], .ret []]
  have hmeets : machine.Meets Undisturbed ⟨new, []⟩ ms := by decide
  have hplay : (machine.play ⟨new, []⟩ ms).any
      (fun c => replies c.heap == [(1, .null), (0, .error)]) = true := by decide
  obtain ⟨c, hc, hreplies⟩ := Option.any_eq_true .. |>.mp hplay
  exact ⟨c, answered_of_undisturbed hmeets hc, eq_of_beq hreplies⟩

/-- The socket is closed while the address of a `send` is looked up. -/
theorem dropped_by_close :
    ¬ ∀ (ms : List (Move Call)) (c : Config Dgram Yield Native),
      machine.play ⟨new, []⟩ ms = some c → Answered c := by
  intro hall
  let ms : List (Move Call) := [.call (.bind .absent) [], .call (.lookup 0 false) [], .ret [],
    .ret [], .call (.send (.single (.data [1])) 80 (.name "a") true) [], .call .close [],
    .call (.lookup 0 false) []]
  have hplay : (machine.play ⟨new, []⟩ ms).any (fun c => c.stack.isEmpty && c.heap.lookups == [] &&
      c.heap.sending == [] && accepted c.heap == [(0, true)] && answered c.heap == []) = true := by
    decide
  obtain ⟨c, hc, hend⟩ := Option.any_eq_true .. |>.mp hplay
  simp only [Bool.and_eq_true, List.isEmpty_iff, beq_iff_eq] at hend
  obtain ⟨⟨⟨⟨hstack, hlookups⟩, hsending⟩, haccepted⟩, hanswered⟩ := hend
  have hcalled := (hall ms c hc).called ⟨hstack, hlookups, hsending⟩ 0 (by simp [haccepted])
  rw [hanswered] at hcalled
  cases hcalled

end runs

end IotJs.Dgram

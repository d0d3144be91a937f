import IotJs.Core.DgramHandle
import IotJs.Lib.Reentrant.Trace
import IotJs.Proofs.DgramSend

/-!
# `IotJs.Proofs.DgramClose`: `close` completes

A `close` that finds a queue waits in it, and only 'listening' flushes the queue. So whether the
socket gets closed depends on what the queue waits for. `Completes` is the condition of each move
under which a `close` that returned is not forgotten: a `bind` is in flight or its 'listening' is
being emitted, the `bind` succeeds, and nothing ahead of the `close` throws. `closed_of_completes`
says that then a socket on which nothing is pending has been closed, with one 'close' event, and
`check_unchecked` is the other half of the promise, that later operations throw 'Not running':
those that begin with `_healthCheck` do, and the four setters do not.
-/

set_option autoImplicit false

namespace IotJs.Dgram

open Reentrant

/-! ### What `send` and `close` leave -/

section exec

variable {s t : Dgram} {r : List Int} {args : Send} {tags : List Yield}

/-- What a `send` does, whatever its surroundings answer. -/
inductive SendCase (s : Dgram) (args : Send) : Outcome Dgram Yield Native Unit → Prop where
  | refused (message : String)
      (hopen : valid args.list args.port = true → s._handle = true →
        s._bindState = .bound ∧ args.address = .other)
      (hclosed : valid args.list args.port = true → s._handle = false →
        message = "Not running") : SendCase s args (.thrown message s)
  /-- the lookup fails at once, and has no result -/
  | unresolved (hstate : s._bindState = .bound) (hhandle : s._handle = true) :
      SendCase s args (.done () s)
  | looking (hstate : s._bindState = .bound) (hhandle : s._handle = true) :
      SendCase s args (.done () (s.looking (.send args)))
  | queued (hstate : s._bindState = .binding) (hhandle : s._handle = true)
      (hvalid : valid args.list args.port = true) : SendCase s args (.done () (s.enqueued args))
  /-- the socket is bound on the way -/
  | binding (t : Dgram) (hstate : s._bindState = .unbound) (hhandle : s._handle = true)
      (hvalid : valid args.list args.port = true)
      (ht : t = { s with _bindState := .binding } ∨ t = s.startBind) :
      SendCase s args (.done () (t.enqueued args))

theorem sendOn_bound (hstate : s._bindState = .bound) (hhandle : s._handle = true) :
    SendCase s args ((sendOn args).exec r s) := by
  rw [sendOn, Prog.exec_get_bind, if_neg (not_not_intro hstate)]
  by_cases haddress : args.address = .other
  · rw [lookup, if_pos haddress]
    refine .refused _ (fun _ _ => ⟨hstate, haddress⟩) fun _ hclosed => ?_
    rw [hhandle] at hclosed
    cases hclosed
  · rw [lookup, if_neg haddress, Prog.exec_askFor_bind]
    by_cases herr : r.headD 0 = 0
    · rw [if_pos herr]
      exact .looking hstate hhandle
    · rw [if_neg herr]
      exact .unresolved hstate hhandle

/-- A `send` on the way to bind an open socket. -/
theorem send_unbound (hstate : s._bindState = .unbound) (hhandle : s._handle = true)
    (hvalid : valid args.list args.port = true) :
    SendCase s args ((bind .absent >>= fun _ => sendOn args).exec r s) := by
  have hbind : ∃ t, (bind .absent).exec r s = .done () t ∧ t._bindState = .binding ∧
      (t = { s with _bindState := .binding } ∨ t = s.startBind) := by
    rw [bind, exec_healthCheck hhandle, Prog.exec_get_bind, if_neg (not_not_intro hstate),
      Prog.exec_modify_bind, lookup, if_neg (by decide), Prog.exec_askFor_bind]
    by_cases herr : r.headD 0 = 0
    · rw [if_pos herr]
      exact ⟨_, rfl, rfl, .inr rfl⟩
    · rw [if_neg herr]
      exact ⟨_, rfl, rfl, .inl rfl⟩
  obtain ⟨t, hdone, hbinding, ht⟩ := hbind
  obtain ⟨n, hrest⟩ := Prog.exec_bind_done (fun _ => sendOn args) hdone
  rw [hrest, sendOn_enqueues (by rw [hbinding]; decide)]
  exact .binding t hstate hhandle hvalid ht

theorem send_cases (args : Send) : SendCase s args ((send args).exec r s) := by
  rcases send_checks args r s with
    ⟨message, hthrown, hvalid⟩ | ⟨hhandle, hthrown⟩ | ⟨hvalid, hhandle, hsend⟩
  · rw [hthrown]
    exact .refused message (by simp [hvalid]) (by simp [hvalid])
  · rw [hthrown]
    exact .refused _ (fun _ hopen => absurd hopen (by simp [hhandle])) fun _ _ => rfl
  · rw [hsend]
    cases hstate : s._bindState with
    | unbound =>
        rw [if_pos rfl]
        exact send_unbound hstate hhandle hvalid
    | binding =>
        rw [if_neg (by decide), sendOn_enqueues (by rw [hstate]; decide)]
        exact .queued hstate hhandle hvalid
    | bound =>
        rw [if_neg (by decide)]
        exact sendOn_bound hstate hhandle

/-- What a `send` leaves as it was, whether it returned or threw. -/
structure SendKeeps (args : Send) (s t : Dgram) : Prop where
  handle : t._handle = s._handle
  closes : t.closes = s.closes
  bound : s._bindState = .bound → t._bindState = .bound
  binds : .bind ∈ s.lookups → .bind ∈ t.lookups
  queue : t._queue = s._queue ∨ s._bindState ≠ .bound ∧ s._handle = true ∧
    valid args.list args.port = true ∧ t._queue = some (s._queue.getD [] ++ [.send args])

/-- A `send` never waits for outside code, and keeps what `SendKeeps` says. -/
theorem send_keeps (args : Send) :
    ((send args).exec r s).tag = none ∧ SendKeeps args s ((send args).exec r s).heap := by
  have hcase := send_cases (s := s) (r := r) args
  generalize (send args).exec r s = o at hcase
  cases hcase with
  | refused message => exact ⟨rfl, rfl, rfl, id, id, .inl rfl⟩
  | unresolved hstate => exact ⟨rfl, rfl, rfl, id, id, .inl rfl⟩
  | looking hstate =>
      exact ⟨rfl, rfl, rfl, id, fun hmem => List.mem_append_left _ hmem, .inl rfl⟩
  | queued hstate hhandle hvalid =>
      have hunbound : s._bindState ≠ .bound := by
        rw [hstate]
        nofun
      exact ⟨rfl, rfl, rfl, id, id, .inr ⟨hunbound, hhandle, hvalid, rfl⟩⟩
  | binding t hstate hhandle hvalid ht =>
      have hunbound : s._bindState ≠ .bound := by
        rw [hstate]
        nofun
      have hkeeps : SendKeeps args s (t.enqueued args) := by
        rcases ht with rfl | rfl
        · exact ⟨rfl, rfl, fun hbound => absurd hbound hunbound, id,
            .inr ⟨hunbound, hhandle, hvalid, rfl⟩⟩
        · exact ⟨rfl, rfl, fun hbound => absurd hbound hunbound,
            fun hmem => List.mem_append_left _ hmem, .inr ⟨hunbound, hhandle, hvalid, rfl⟩⟩
      exact ⟨rfl, hkeeps⟩

/-- A `send` on a closed socket throws. -/
theorem send_closed {a : Send} (hhandle : s._handle = false) :
    ∃ e, (send a).exec r s = .thrown e s ∧ (valid a.list a.port = true → e = "Not running") := by
  have hcase := send_cases (s := s) (r := r) a
  generalize (send a).exec r s = o at hcase
  have hno : s._handle ≠ true := by simp [hhandle]
  cases hcase with
  | refused message hopen hclosed => exact ⟨message, rfl, fun hvalid => hclosed hvalid hhandle⟩
  | unresolved _ hbad => exact absurd hbad hno
  | looking _ hbad => exact absurd hbad hno
  | queued _ hbad => exact absurd hbad hno
  | binding _ _ hbad => exact absurd hbad hno

/-- A `send` on a bound socket returns, unless its address cannot be looked up. -/
theorem send_bound (_hstate : s._bindState = .bound) (hhandle : s._handle = true)
    (hvalid : valid args.list args.port = true) (haddress : args.address ≠ .other) :
    ∃ t, (send args).exec r s = .done () t := by
  have hcase := send_cases (s := s) (r := r) args
  generalize (send args).exec r s = o at hcase
  cases hcase with
  | refused message hopen => exact absurd (hopen hvalid hhandle).2 haddress
  | unresolved => exact ⟨_, rfl⟩
  | looking => exact ⟨_, rfl⟩
  | queued => exact ⟨_, rfl⟩
  | binding => exact ⟨_, rfl⟩

/-- A `close` without a queue. -/
theorem close_open (hqueue : s._queue = none) (hhandle : s._handle = true) :
    close.exec r s =
      .done () { s with _receiving := false, _handle := false, closes := s.closes + 1 } := by
  have hnone : ¬ s._queue.isSome = true := by
    rw [hqueue]
    nofun
  rw [close, Prog.exec_get_bind, if_neg hnone, exec_healthCheck hhandle, Prog.exec_modify]

theorem close_closed (hqueue : s._queue = none) (hhandle : s._handle = false) :
    close.exec r s = .thrown "Not running" s := by
  rw [close, Prog.exec_get_bind, hqueue, if_neg (by simp), exec_healthCheck_fail hhandle]

/-- A `close` that finds a queue waits in it. -/
theorem close_queued {q : List Queued} (hqueue : s._queue = some q) :
    close.exec r s = .done () { s with _queue := some (q ++ [.close]) } := by
  have hsome : s._queue.isSome = true := by
    rw [hqueue]
    rfl
  rw [close, Prog.exec_get_bind, if_pos hsome, enqueue, Prog.exec_modify, hqueue]
  rfl

/-! ### The flush of a queue -/

/-- The sends ahead of the first `close` have an address that can be looked up. -/
def Flushable : List Queued → Prop
  | [] | .close :: _ => True
  | .send args :: queue => args.address ≠ .other ∧ Flushable queue

instance : ∀ queue, Decidable (Flushable queue)
  | [] => .isTrue trivial
  | .close :: _ => .isTrue trivial
  | .send _ :: queue =>
      have := instDecidableFlushable queue
      inferInstanceAs (Decidable (_ ∧ _))

/-- What the flush of a queue leaves of an open socket: it is closed, or the queue had no `close`
that it came to. -/
structure Flushed (queue : List Queued) (s t : Dgram) : Prop where
  empty : t._queue = none
  fate : t._handle = true ∧ t.closes = s.closes ∧ ¬ (Queued.close ∈ queue ∧ Flushable queue) ∨
    t._handle = false ∧ t.closes = s.closes + 1

/-- Nothing in a queue gets on when the socket is closed. -/
theorem flush_closed (queue : List Queued) (hqueue : s._queue = none) (hhandle : s._handle = false) :
    ((flush queue).exec r s).tag = none ∧ ((flush queue).exec r s).heap = s := by
  cases queue with
  | nil => exact ⟨rfl, rfl⟩
  | cons toRun queue =>
      have hrun : ∃ e, (runQueued toRun).exec r s = .thrown e s := by
        cases toRun with
        | send args =>
            obtain ⟨e, hexec, -⟩ := send_closed (r := r) (a := args) hhandle
            exact ⟨e, hexec⟩
        | close => exact ⟨_, close_closed hqueue hhandle⟩
      obtain ⟨e, hexec⟩ := hrun
      rw [flush, Prog.exec_bind_thrown _ hexec]
      exact ⟨rfl, rfl⟩

theorem flush_bound {queue : List Queued}
    (hvalid : ∀ args, .send args ∈ queue → valid args.list args.port = true)
    (hqueue : s._queue = none) (hstate : s._bindState = .bound) (hhandle : s._handle = true) :
    ((flush queue).exec r s).tag = none ∧
      Flushed queue s ((flush queue).exec r s).heap := by
  induction queue generalizing s r with
  | nil => exact ⟨rfl, hqueue, .inl ⟨hhandle, rfl, by simp⟩⟩
  | cons toRun queue ih =>
      cases toRun with
      | close =>
          -- the socket is closed, and what comes after it in the queue throws
          obtain ⟨n, hexec⟩ := Prog.exec_bind_done (fun _ => flush queue)
            (close_open (r := r) hqueue hhandle)
          obtain ⟨htag, hheap⟩ := flush_closed (r := r.drop n)
            (s := { s with _receiving := false, _handle := false, closes := s.closes + 1 })
            queue hqueue rfl
          show ((close >>= fun _ => flush queue).exec r s).tag = none ∧
            Flushed _ s ((close >>= fun _ => flush queue).exec r s).heap
          rw [hexec]
          exact ⟨htag, by rw [hheap]; exact hqueue, by rw [hheap]; exact .inr ⟨rfl, rfl⟩⟩
      | send args =>
          obtain ⟨htag, hkeeps⟩ := send_keeps (r := r) (s := s) args
          have hqueue' : ((send args).exec r s).heap._queue = none := by
            rcases hkeeps.queue with hsame | ⟨hunbound, -⟩
            · rw [hsame, hqueue]
            · exact absurd hstate hunbound
          show ((send args >>= fun _ => flush queue).exec r s).tag = none ∧
            Flushed _ s ((send args >>= fun _ => flush queue).exec r s).heap
          cases hsend : (send args).exec r s with
          | yielded tag k t =>
              rw [hsend] at htag
              cases htag
          | thrown e t =>
              rw [hsend] at hkeeps hqueue'
              rw [Prog.exec_bind_thrown _ hsend]
              refine ⟨rfl, hqueue', .inl ⟨hkeeps.handle.trans hhandle, hkeeps.closes, ?_⟩⟩
              -- only the address can have been the reason
              rintro ⟨-, haddress, -⟩
              obtain ⟨t', hdone⟩ := send_bound (r := r) hstate hhandle
                (hvalid args List.mem_cons_self) haddress
              rw [hsend] at hdone
              cases hdone
          | done a t =>
              rw [hsend] at hkeeps hqueue'
              obtain ⟨n, hexec⟩ := Prog.exec_bind_done (fun _ => flush queue) hsend
              rw [hexec]
              obtain ⟨htag', hnone, hfate⟩ := ih (s := t) (r := r.drop n)
                (fun args hmem => hvalid args (List.mem_cons_of_mem _ hmem)) hqueue'
                (hkeeps.bound hstate) (hkeeps.handle.trans hhandle)
              refine ⟨htag', hnone, ?_⟩
              have hcloses : t.closes = s.closes := hkeeps.closes
              rw [hcloses] at hfate
              refine hfate.imp_left fun ⟨hopen, hcloses, hnot⟩ => ⟨hopen, hcloses, ?_⟩
              rintro ⟨hmem, -, hflush⟩
              exact hnot ⟨by simpa using hmem, hflush⟩

end exec

/-! ### What every move keeps -/

/-- A `close` waits in the queue. -/
def Closing (s : Dgram) : Prop := Queued.close ∈ s._queue.getD []

instance (s : Dgram) : Decidable (Closing s) := inferInstanceAs (Decidable (_ ∈ _))

/-- The move does not leave a `close` behind: a `close` that has to wait finds a `bind` in flight
or a flush to come, the `bind` that it waits for succeeds, and nothing throws ahead of it. -/
def Completes (c : Config Dgram Yield Native) : Move Call → Prop
  | .call .close _ => c.heap._queue.isSome = true → .bind ∈ c.heap.lookups ∨ .listening ∈ c.tags
  | .call (.lookup i failed) r =>
      c.heap.lookups[i]? = some .bind → Closing c.heap → failed = false ∧ r.headD 0 = 0
  | .call (.bind _) _ | .call (.send ..) _ | .call (.sent ..) _ | .call .tick _ => True
  | .ret _ =>
      c.tags.head? = some .listening → Closing c.heap → Flushable (c.heap._queue.getD [])
  | .throw => c.tags.head? = some .listening → ¬ Closing c.heap

instance (c : Config Dgram Yield Native) : ∀ m, Decidable (Completes c m)
  | .call .close _ | .call (.lookup ..) _ | .ret _ | .throw => inferInstanceAs (Decidable (_ → _))
  | .call (.bind _) _ | .call (.send ..) _ | .call (.sent ..) _ | .call .tick _ => .isTrue trivial

/-- The invariant, where `n` is the number of 'close' events so far. Once `P` holds, a `close` has
been called. -/
structure Shut (P : Prop) (s : Dgram) (tags : List Yield) (n : Nat) : Prop where
  asked : P → s._handle = false ∨ Closing s
  /-- the event of a closed socket is pending or was emitted -/
  closed : s._handle = false → s._queue = none ∧ s.closes + n = 1
  live : s._handle = true → s.closes = 0 ∧ n = 0
  /-- something will flush a queue that a `close` waits in -/
  flush : Closing s → .bind ∈ s.lookups ∨ .listening ∈ tags
  valid : ∀ args, .send args ∈ s._queue.getD [] → valid args.list args.port = true
  listening : .listening ∈ tags → s._bindState = .bound

section inv

variable {P : Prop} {s t : Dgram} {tags : List Yield} {n : Nat} {r : List Int}

theorem shut_new : Shut False new [] 0 where
  asked := False.elim
  closed := nofun
  live _ := ⟨rfl, rfl⟩
  flush := nofun
  valid := nofun
  listening := nofun

/-- A socket with a queue is open. -/
theorem Shut.open (h : Shut P s tags n) {q : List Queued} (hq : s._queue = some q) :
    s._handle = true := by
  by_contra hhandle
  have hnone := (h.closed (eq_false_of_ne_true hhandle)).1
  rw [hq] at hnone
  cases hnone

/-- What has nothing to do with the closing can change. -/
theorem Shut.mono (h : Shut P s tags n) (hhandle : t._handle = s._handle)
    (hcloses : t.closes = s.closes) (hqueue : t._queue = s._queue)
    (hbind : .bind ∈ s.lookups → .bind ∈ t.lookups)
    (hbound : s._bindState = .bound → t._bindState = .bound) : Shut P t tags n where
  asked hp := by
    rw [hhandle, Closing, hqueue]
    exact h.asked hp
  closed hclosed := by
    rw [hqueue, hcloses]
    exact h.closed (hhandle ▸ hclosed)
  live hopen := by
    rw [hcloses]
    exact h.live (hhandle ▸ hopen)
  flush hclosing := by
    rw [Closing, hqueue] at hclosing
    exact (h.flush hclosing).imp_left hbind
  valid := by
    rw [hqueue]
    exact h.valid
  listening htag := hbound (h.listening htag)

/-- A tag other than 'listening' says nothing. -/
theorem Shut.tag (h : Shut P s [] n) {y : Yield} (hy : y ≠ .listening) :
    Shut P s [y] n where
  asked := h.asked
  closed := h.closed
  live := h.live
  flush hclosing := .inl ((h.flush hclosing).resolve_right nofun)
  valid := h.valid
  listening hmem := absurd (List.mem_singleton.mp hmem).symm hy

/-- A tag that is left has nothing to flush that a `close` waits for. -/
theorem Shut.untag {tag : Yield} (h : Shut P s [tag] n) (hqueue : tag = .listening → ¬ Closing s) :
    Shut P s [] n where
  asked := h.asked
  closed := h.closed
  live := h.live
  flush hclosing := by
    refine (h.flush hclosing).imp_right fun hmem => ?_
    exact absurd hclosing (hqueue (List.mem_singleton.mp hmem).symm)
  valid := h.valid
  listening := nofun

theorem Shut.bind (h : Shut P s tags n) (address : Address) :
    ((bind address).exec r s).tag = none ∧ Shut P ((bind address).exec r s).heap tags n := by
  have hstep := bindStep (s := s) address r
  generalize (Dgram.bind address).exec r s = o at hstep
  -- a `bind` that gets anywhere finds the socket unbound
  have hbound (hstate : s._bindState = .unbound) (state : BindState) :
      s._bindState = .bound → state = .bound := by
    intro hbad
    rw [hstate] at hbad
    cases hbad
  cases hstep with
  | refused message => exact ⟨rfl, h⟩
  | thrown message hstate => exact ⟨rfl, h.mono rfl rfl rfl id (hbound hstate _)⟩
  | failed hstate => exact ⟨rfl, h.mono rfl rfl rfl id (hbound hstate _)⟩
  | started hstate =>
      exact ⟨rfl, h.mono rfl rfl rfl (fun hmem => List.mem_append_left _ hmem) (hbound hstate _)⟩

/-- A `send` can put itself in the queue, and that changes nothing for a `close`. -/
theorem Shut.send {args : Send} (h : Shut P s tags n) (hkeeps : SendKeeps args s t) :
    Shut P t tags n := by
  rcases hkeeps.queue with hqueue | ⟨-, hhandle, hvalid, hqueue⟩
  · exact h.mono hkeeps.handle hkeeps.closes hqueue hkeeps.binds hkeeps.bound
  · have hclosing : Closing t ↔ Closing s := by
      simp [Closing, hqueue]
    have hhandle' : t._handle = true := hkeeps.handle.trans hhandle
    exact {
      asked := fun hp => (h.asked hp).imp (hkeeps.handle.trans ·) hclosing.mpr
      closed := fun hclosed => by
        rw [hhandle'] at hclosed
        cases hclosed
      live := fun _ => by
        rw [hkeeps.closes]
        exact h.live hhandle
      flush := fun hwaits => (h.flush (hclosing.mp hwaits)).imp_left hkeeps.binds
      valid := fun args' hmem => by
        rw [hqueue, Option.getD_some, List.mem_append, List.mem_singleton] at hmem
        rcases hmem with hmem | hmem
        · exact h.valid args' hmem
        · cases hmem
          exact hvalid
      listening := fun htag => hkeeps.bound (h.listening htag) }

/-- A call of `send`. -/
theorem Shut.sendCall (h : Shut P s tags n) {list : Message} {port : Int} {address : Address}
    {callback : Bool} :
    ((sendCall list port address callback).exec r s).tag = none ∧
      Shut P ((sendCall list port address callback).exec r s).heap tags n := by
  have hnext : Shut P { s with next := s.next + 1 } tags n := h.mono rfl rfl rfl id id
  obtain ⟨htag, hkeeps⟩ := send_keeps (r := r) (s := { s with next := s.next + 1 })
    ⟨s.next, list, port, address, callback⟩
  have hshut := hnext.send hkeeps
  rw [Dgram.sendCall, Prog.exec_get_bind, Prog.exec_modify_bind]
  cases hsend : (Dgram.send ⟨s.next, list, port, address, callback⟩).exec r
      { s with next := s.next + 1 } with
  | yielded tag k t =>
      rw [hsend] at htag
      cases htag
  | thrown e t =>
      rw [hsend] at hshut
      rw [Prog.exec_bind_thrown _ hsend]
      exact ⟨rfl, hshut⟩
  | done a t =>
      rw [hsend] at hshut
      obtain ⟨_, hexec⟩ := Prog.exec_bind_done (fun _ => note (.accepted s.next callback)) hsend
      rw [hexec]
      exact ⟨rfl, hshut.mono rfl rfl rfl id id⟩

theorem Shut.close (h : Shut P s tags n)
    (hok : s._queue.isSome = true → .bind ∈ s.lookups ∨ .listening ∈ tags) :
    (close.exec r s).tag = none ∧ Shut P (close.exec r s).heap tags n := by
  cases hqueue : s._queue with
  | some q =>
      have hopen := h.open hqueue
      rw [close_queued hqueue]
      refine ⟨rfl, fun _ => .inr (by simp [Closing, Outcome.heap]), fun hclosed => ?_,
        fun _ => h.live hopen,
        fun _ => hok (by rw [hqueue]; rfl), fun args hmem => ?_, h.listening⟩
      · have hclosed' : s._handle = false := hclosed
        rw [hopen] at hclosed'
        cases hclosed'
      · have hmem' : Queued.send args ∈ q := by simpa [Outcome.heap] using hmem
        exact h.valid args (by rw [hqueue]; exact hmem')
  | none =>
      cases hhandle : s._handle with
      | true =>
          obtain ⟨hcloses, hn⟩ := h.live hhandle
          rw [close_open hqueue hhandle]
          have hempty : ¬ Closing s := by simp [Closing, hqueue]
          exact ⟨rfl, fun _ => .inl rfl, fun _ => ⟨hqueue, by simp only [Outcome.heap]; omega⟩,
            nofun, fun hclosing => absurd hclosing hempty, h.valid, h.listening⟩
      | false =>
          rw [close_closed hqueue hhandle]
          exact ⟨rfl, h⟩

/-- A `close` that returned has been asked for. -/
theorem asked_of_close {c : Unit} (hclose : close.exec r s = .done c t) :
    t._handle = false ∨ Closing t := by
  cases hqueue : s._queue with
  | some q =>
      rw [close_queued hqueue] at hclose
      cases hclose
      exact .inr (by simp [Closing])
  | none =>
      cases hhandle : s._handle with
      | true =>
          rw [close_open hqueue hhandle] at hclose
          cases hclose
          exact .inl rfl
      | false =>
          rw [close_closed hqueue hhandle] at hclose
          cases hclose

/-- The flush: a `close` that waited in the queue has been carried out. -/
theorem Shut.clearQueue (h : Shut P s [.listening] n)
    (hok : Closing s → Flushable (s._queue.getD [])) :
    (clearQueue.exec r s).tag = none ∧ Shut P (clearQueue.exec r s).heap [] n := by
  rw [Dgram.clearQueue, Prog.exec_get_bind]
  cases hqueue : s._queue with
  | none => exact ⟨rfl, h.untag fun _ => by simp [Closing, hqueue]⟩
  | some q =>
      have hopen := h.open hqueue
      obtain ⟨hcloses, hn⟩ := h.live hopen
      have hvalid : ∀ args, .send args ∈ q → Dgram.valid args.list args.port = true := by
        intro args hmem
        exact h.valid args (by rw [hqueue]; exact hmem)
      obtain ⟨htag, hempty, hfate⟩ := flush_bound (r := r) (s := { s with _queue := none }) hvalid
        rfl (h.listening List.mem_cons_self) hopen
      show ((Dgram.flush q).exec r { s with _queue := none }).tag = none ∧
        Shut P ((Dgram.flush q).exec r { s with _queue := none }).heap [] n
      generalize ((Dgram.flush q).exec r { s with _queue := none }) = o at htag hempty hfate
      have hnone : ¬ Closing o.heap := by simp [Closing, hempty]
      refine ⟨htag, fun hp => ?_, fun hclosed => ⟨hempty, ?_⟩, fun hlive => ?_,
        fun hclosing => absurd hclosing hnone, by simp [hempty],
        fun hmem => absurd hmem List.not_mem_nil⟩
      · -- what was asked for was in the queue, as the socket was open
        have hclosing : Closing s := (h.asked hp).resolve_left (by simp [hopen])
        have hflush := hok hclosing
        rw [Closing, hqueue] at hclosing
        rw [hqueue] at hflush
        rcases hfate with ⟨-, -, hnot⟩ | ⟨hclosed, -⟩
        · exact absurd ⟨hclosing, hflush⟩ hnot
        · exact .inl hclosed
      · rcases hfate with ⟨hbad, -⟩ | ⟨-, hone⟩
        · rw [hclosed] at hbad
          cases hbad
        · rw [hone, hcloses, hn]
      · rcases hfate with ⟨-, hsame, -⟩ | ⟨hbad, -⟩
        · exact ⟨hsame.trans hcloses, hn⟩
        · rw [hlive] at hbad
          cases hbad

end inv

/-! ### Whole runs -/

section runs

variable {P : Prop} {s : Dgram} {us : List Yield} {r : List Int}
variable {c c' : Config Dgram Yield Native}

/-- At most one function waits for outside code, and the invariant holds of what was emitted. -/
def ShutConfig (P : Prop) (us : List Yield) (c : Config Dgram Yield Native) : Prop :=
  Shut P c.heap c.tags (us.count Yield.close) ∧
    (c.stack = [] ∨ ∃ tag, c.stack = [(tag, afterYield tag)])

/-- What a function that came at rest leaves. -/
abbrev Leaves (P : Prop) (us : List Yield) (o : Outcome Dgram Yield Native Unit) : Prop :=
  ShutConfig P (us ++ o.tag.toList) (.settle [] o)

theorem leaves_done (h : Shut P s [] (us.count Yield.close)) : Leaves P us (.done () s) := by
  refine ⟨?_, .inl rfl⟩
  show Shut P s [] ((us ++ []).count Yield.close)
  rw [List.append_nil]
  exact h

theorem leaves_yielded {y : Yield} {k : Datagram Unit} (hk : k = afterYield y)
    (hclose : y ≠ .close) (h : Shut P s [y] (us.count Yield.close)) :
    Leaves P us (.yielded y k s) := by
  refine ⟨?_, .inr ⟨y, by rw [hk]; rfl⟩⟩
  show Shut P s [y] ((us ++ [y]).count Yield.close)
  rw [List.count_append, List.count_singleton, if_neg (by simpa using hclose)]
  exact h

/-- A call of the application comes to no yield. -/
theorem ShutConfig.call (h : ShutConfig P us c) {o : Outcome Dgram Yield Native Unit}
    (ho : o.tag = none ∧ Shut P o.heap c.tags (us.count Yield.close)) :
    ShutConfig P (us ++ o.tag.toList) (.settle c.stack o) := by
  obtain ⟨htag, hinv⟩ := ho
  cases o with
  | yielded => cases htag
  | done a t =>
      rw [htag, Option.toList_none, List.append_nil]
      exact ⟨hinv, h.2⟩
  | thrown e t =>
      rw [htag, Option.toList_none, List.append_nil]
      exact ⟨hinv, h.2⟩

/-- The result of the lookup of a `bind`. -/
theorem leaves_bindLookup (h : Shut P s [] (us.count Yield.close)) {i : Nat} {failed : Bool}
    (hok : Closing s → failed = false ∧ r.headD 0 = 0) :
    Leaves P us ((afterBindLookup failed).exec r (s.taken i)) := by
  -- where no 'listening' comes, no `close` waits for it
  have hleft (hbad : ¬ (failed = false ∧ r.headD 0 = 0)) {t : Dgram}
      (hhandle : t._handle = s._handle) (hcloses : t.closes = s.closes)
      (hqueue : t._queue = s._queue) : Shut P t [] (us.count Yield.close) := by
    have hclosing : ¬ Closing t := by
      rw [Closing, hqueue]
      exact fun hclosing => hbad (hok hclosing)
    exact { h with
      asked := fun hp => by
        rw [hhandle, Closing, hqueue]
        exact h.asked hp
      closed := fun hclosed => by
        rw [hqueue, hcloses]
        exact h.closed (hhandle ▸ hclosed)
      live := fun hopen => by
        rw [hcloses]
        exact h.live (hhandle ▸ hopen)
      flush := fun hwaits => absurd hwaits hclosing
      valid := by
        rw [hqueue]
        exact h.valid
      listening := fun hmem => absurd hmem List.not_mem_nil }
  cases failed with
  | true =>
      have hshut : Shut P { s.taken i with _bindState := .unbound } [] (us.count Yield.close) :=
        hleft (by simp) rfl rfl rfl
      exact leaves_yielded rfl (by decide) (hshut.tag (by decide))
  | false =>
      rw [afterBindLookup, if_neg (by simp), Prog.exec_get_bind]
      cases hhandle : s._handle with
      | false =>
          have hhandle' : (s.taken i)._handle = false := hhandle
          have hnone : ¬ Closing s := by simp [Closing, (h.closed hhandle).1]
          rw [hhandle', if_neg (by simp)]
          refine leaves_done { h with
            flush := fun hclosing => absurd hclosing hnone
            listening := fun hmem => absurd hmem List.not_mem_nil }
      | true =>
          have hhandle' : (s.taken i)._handle = true := hhandle
          rw [hhandle', if_pos rfl, Prog.exec_askFor_bind]
          by_cases herr : r.headD 0 = 0
          · rw [if_neg (not_not_intro herr)]
            refine leaves_yielded (y := .listening) rfl (by decide) ?_
            exact { h with
              flush := fun _ => .inr List.mem_cons_self
              listening := fun _ => rfl }
          · have hshut : Shut P (s.taken i) [] (us.count Yield.close) :=
              hleft (fun hgood => herr hgood.2) rfl rfl rfl
            rw [if_pos herr]
            exact leaves_yielded rfl (by decide) (hshut.tag (by decide))

/-- A `send` is told what became of it. -/
theorem leaves_answer (h : Shut P s [] (us.count Yield.close)) {args : Send} {handed : Bool}
    {f : Unit → Datagram Unit} (htag : args.callback = true → f () = pure ())
    (hf : args.callback = false → ∀ t, Shut P t [] (us.count Yield.close) →
      Leaves P us ((f ()).exec r t)) :
    Leaves P us ((answer args handed >>= f).exec r s) := by
  have htold : Shut P (s.told args handed) [] (us.count Yield.close) :=
    h.mono rfl rfl rfl id id
  rw [exec_answer]
  cases hcallback : args.callback with
  | true => exact leaves_yielded (htag hcallback) nofun (htold.tag nofun)
  | false => exact hf hcallback _ htold

/-- The result of the lookup of a `send`. -/
theorem leaves_sendLookup (h : Shut P s [] (us.count Yield.close)) {i : Nat} {args : Send}
    (hi : s.lookups[i]? = some (.send args)) (failed : Bool) :
    Leaves P us ((doSend failed args).exec r (s.taken i)) := by
  have hshut : Shut P (s.taken i) [] (us.count Yield.close) := by
    refine h.mono rfl rfl rfl (fun hmem => ?_) id
    rcases List.mem_cons.mp ((eraseIdx_perm hi).mem_iff.mpr hmem) with hbad | hmem'
    · cases hbad
    · exact hmem'
  rw [doSend]
  cases failed with
  | true =>
      rw [if_pos rfl]
      refine leaves_answer hshut (fun hcallback => by rw [hcallback]; rfl) fun hcallback t ht => ?_
      rw [hcallback]
      exact leaves_yielded rfl (by decide) (ht.tag (by decide))
  | false =>
      rw [if_neg (by simp), Prog.exec_get_bind]
      cases (s.taken i)._handle with
      | false => exact leaves_done hshut
      | true =>
          rw [if_pos rfl, Prog.exec_askFor_bind]
          by_cases herr : r.headD 0 = 0
          · rw [if_pos herr]
            exact leaves_done (hshut.mono rfl rfl rfl id id)
          · rw [if_neg herr]
            cases args.callback with
            | false => exact leaves_done hshut
            | true => exact leaves_done hshut

theorem leaves_lookup (h : Shut P s [] (us.count Yield.close)) {i : Nat} {failed : Bool}
    (hi : i < s.lookups.length) (hok : Completes ⟨s, []⟩ (.call (.lookup i failed) r)) :
    Leaves P us ((machine.body (.lookup i failed)).exec r s) := by
  have hwait := List.getElem?_eq_getElem hi
  generalize s.lookups[i] = wait at hwait
  simp only [Completes] at hok
  simp only [machine, Prog.exec_get_bind, hwait, Prog.exec_modify_bind]
  cases wait with
  | bind => exact leaves_bindLookup h (hok hwait)
  | send args => exact leaves_sendLookup h hwait failed

/-- The result of a native send. -/
theorem leaves_sent (h : Shut P s [] (us.count Yield.close)) {i : Nat} (status : Int)
    (hi : i < s.sending.length) :
    Leaves P us ((machine.body (.sent i status)).exec r s) := by
  have hargs := List.getElem?_eq_getElem hi
  generalize s.sending[i] = args at hargs
  have hshut : Shut P (s.sent i) [] (us.count Yield.close) := h.mono rfl rfl rfl id id
  simp only [machine, Prog.exec_get_bind, hargs, Prog.exec_modify_bind]
  rw [← Prog.bind_pure (answer args _)]
  exact leaves_answer hshut (fun _ => rfl) fun _ t ht => leaves_done ht

/-- The 'close' event, which only a closed socket has pending. -/
theorem leaves_tick (h : Shut P s [] (us.count Yield.close)) (hcloses : 0 < s.closes) :
    Leaves P us ((machine.body .tick).exec r s) := by
  refine ⟨?_, .inr ⟨.close, rfl⟩⟩
  show Shut P { s with closes := s.closes - 1 } [.close] ((us ++ [Yield.close]).count Yield.close)
  have hclosed : s._handle = false := by
    by_contra hopen
    have hnone := (h.live (eq_true_of_ne_false hopen)).1
    omega
  have htag := h.tag (y := .close) nofun
  rw [List.count_append, List.count_singleton, if_pos (by simp)]
  exact { htag with
    closed := fun _ => by
      obtain ⟨hqueue, hone⟩ := h.closed hclosed
      exact ⟨hqueue, by show s.closes - 1 + _ = 1; omega⟩
    live := fun hopen => by
      have hopen' : s._handle = true := hopen
      rw [hclosed] at hopen'
      cases hopen' }

/-- Outside code returned. -/
theorem leaves_ret {tag : Yield} (h : Shut P s [tag] (us.count Yield.close))
    (hok : tag = .listening → Closing s → Flushable (s._queue.getD [])) :
    Leaves P us ((afterYield tag).exec r s) := by
  have hdone (hlistening : tag ≠ .listening) : Leaves P us (.done () s) :=
    leaves_done (h.untag fun htag => absurd htag hlistening)
  cases tag with
  | callback => exact hdone nofun
  | error => exact hdone nofun
  | listened => exact hdone nofun
  | close => exact hdone nofun
  | bindError =>
      have hshut := h.untag nofun
      refine leaves_done { hshut with listening := nofun }
  | listening =>
      obtain ⟨htag, hshut⟩ := h.clearQueue (r := r) (hok rfl)
      show Leaves P us ((clearQueue >>= fun _ => Prog.yieldTo Yield.listened).exec r s)
      cases hclear : clearQueue.exec r s with
      | yielded tag k t =>
          rw [hclear] at htag
          cases htag
      | thrown e t =>
          rw [hclear] at hshut
          rw [Prog.exec_bind_thrown _ hclear]
          refine ⟨?_, .inl rfl⟩
          show Shut P t [] ((us ++ []).count Yield.close)
          rw [List.append_nil]
          exact hshut
      | done a t =>
          rw [hclear] at hshut
          obtain ⟨n, hexec⟩ := Prog.exec_bind_done (fun _ => Prog.yieldTo Yield.listened) hclear
          rw [hexec]
          exact leaves_yielded rfl nofun (hshut.tag nofun)

/-- What a move that meets the condition keeps. -/
theorem shut_step {m : Move Call} (h : ShutConfig P us c) (hok : Completes c m)
    (hstep : machine.step c m = some c') :
    ShutConfig P (us ++ (machine.raised c m).toList) c' := by
  obtain ⟨s, stack⟩ := c
  cases m with
  | call i r =>
      obtain ⟨henabled, rfl⟩ := Machine.step_call hstep
      -- a call of the application can come while outside code runs, a result cannot
      cases i with
      | bind address => exact h.call (h.1.bind address)
      | close => exact h.call (h.1.close hok)
      | send list port address callback =>
          exact h.call h.1.sendCall
      | lookup i failed =>
          cases stack with
          | cons f st => cases henabled
          | nil => exact leaves_lookup h.1 (of_decide_eq_true henabled) hok
      | sent i status =>
          cases stack with
          | cons f st => cases henabled
          | nil => exact leaves_sent h.1 status (of_decide_eq_true henabled)
      | tick =>
          cases stack with
          | cons f st => cases henabled
          | nil => exact leaves_tick h.1 (of_decide_eq_true henabled)
  | ret r =>
      obtain ⟨hinv, hnone | ⟨tag, hone⟩⟩ := h
      · cases hnone
        cases hstep
      · cases hone
        cases hstep
        exact leaves_ret hinv fun htag => hok (congrArg some htag)
  | throw =>
      obtain ⟨hinv, hnone | ⟨tag, hone⟩⟩ := h
      · cases hnone
        cases hstep
      · cases hone
        cases hstep
        refine ⟨?_, .inl rfl⟩
        rw [Machine.raised, Option.toList_none, List.append_nil]
        exact hinv.untag fun htag => hok (congrArg some htag)

/-! ### The promise -/

/-- Nothing is pending: no function waits, and there is no lookup, no native send and no tick. -/
structure Quiet (c : Config Dgram Yield Native) : Prop extends Idle c where
  closes : c.heap.closes = 0

instance (c : Config Dgram Yield Native) : Decidable (Quiet c) :=
  decidable_of_iff (c.tags = [] ∧ c.heap.lookups = [] ∧ c.heap.sending = [] ∧ c.heap.closes = 0)
    ⟨fun ⟨hstack, hlookups, hsending, hcloses⟩ =>
      ⟨⟨List.map_eq_nil_iff.mp hstack, hlookups, hsending⟩, hcloses⟩,
    fun ⟨⟨hstack, hlookups, hsending⟩, hcloses⟩ =>
      ⟨by rw [Config.tags, hstack, List.map_nil], hlookups, hsending, hcloses⟩⟩

/-- The socket has been closed, and `emitted` is what it emitted. -/
structure Closed (c : Config Dgram Yield Native) (emitted : List Yield) : Prop where
  handle : c.heap._handle = false
  once : emitted.count .close = 1
  /-- what needs the handle throws, unless it does without the check -/
  refused : ∀ (op : Operation) (r : List Int) (answer : Answer), op.accepted = true →
    (op.throws r answer c.heap = some "Not running" ↔ op.unchecked = false)

/-- On a closed socket the operations that begin with `_healthCheck` throw 'Not running', and the
setters throw what the engine throws. -/
theorem check_unchecked (hqueue : s._queue = none) (hhandle : s._handle = false) (op : Operation)
    (answer : Answer) (hop : op.accepted = true) :
    op.throws r answer s = some "Not running" ↔ op.unchecked = false := by
  have hrunning : running s = .error "Not running" := by
    rw [running, hhandle]
    rfl
  have hnull : onHandle s answer = .error "TypeError" := by
    rw [onHandle, hhandle]
    rfl
  cases op with
  | bind host =>
      rw [Operation.throws, bind, exec_healthCheck_fail hhandle]
      exact iff_of_true rfl rfl
  | close =>
      rw [Operation.throws, close_closed hqueue hhandle]
      exact iff_of_true rfl rfl
  | send args =>
      obtain ⟨e, hexec, hwhy⟩ := send_closed (r := r) (a := args) hhandle
      rw [Operation.throws, hexec, hwhy hop]
      exact iff_of_true rfl rfl
  | address =>
      rw [Operation.throws, address, hrunning]
      exact iff_of_true rfl rfl
  | addMembership host =>
      rw [Operation.throws, addMembership, membership, hrunning]
      exact iff_of_true rfl rfl
  | dropMembership host =>
      rw [Operation.throws, dropMembership, membership, hrunning]
      exact iff_of_true rfl rfl
  | setBroadcast =>
      rw [Operation.throws, setBroadcast, hnull]
      exact iff_of_false (by decide) (by decide)
  | setMulticastLoopback =>
      rw [Operation.throws, setMulticastLoopback, hnull]
      exact iff_of_false (by decide) (by decide)
  | setTTL arg =>
      cases arg with
      | other => cases hop
      | number m =>
          rw [Operation.throws, setTTL, setNumber, hnull]
          exact iff_of_false (by decide) (by simp [Operation.unchecked])
  | setMulticastTTL arg =>
      cases arg with
      | other => cases hop
      | number m =>
          rw [Operation.throws, setMulticastTTL, setNumber, hnull]
          exact iff_of_false (by decide) (by simp [Operation.unchecked])

/-- A run in which a `close` returned. -/
theorem ShutConfig.closed {emitted : List Yield} (h : ShutConfig True emitted c) (hquiet : Quiet c) :
    Closed c emitted := by
  have htags : c.tags = [] := by rw [Config.tags, hquiet.stack, List.map_nil]
  obtain ⟨hshut, -⟩ := h
  rw [htags] at hshut
  -- nothing is left that would flush a queue
  have hclosing : ¬ Closing c.heap := by
    intro hclosing
    rcases hshut.flush hclosing with hmem | hmem
    · rw [hquiet.lookups] at hmem
      cases hmem
    · cases hmem
  have hhandle := (hshut.asked trivial).resolve_right hclosing
  obtain ⟨hqueue, hone⟩ := hshut.closed hhandle
  rw [hquiet.closes] at hone
  exact ⟨hhandle, by omega, fun op r answer hop => check_unchecked hqueue hhandle op answer hop⟩

/-- In every run that leaves no `close` behind, in whatever order its `bind`, `send` and `close`
calls and their results come: when a `close` has returned and nothing is pending any more, the
socket is closed, has emitted 'close' once, and refuses what is asked of it. -/
theorem closed_of_completes {ms ms' : List (Move Call)} {answers : List Int} {t : Dgram}
    (hmeets : machine.Meets Completes ⟨new, []⟩ (ms ++ .call .close answers :: ms'))
    (hplay : machine.play ⟨new, []⟩ ms = some c)
    (hclose : close.exec answers c.heap = .done () t)
    (hplay' : machine.play ⟨new, []⟩ (ms ++ .call .close answers :: ms') = some c')
    (hquiet : Quiet c') :
    Closed c' (machine.trace ⟨new, []⟩ (ms ++ .call .close answers :: ms')) := by
  obtain ⟨hpre, hok, hpost⟩ := Machine.meets_append hplay hmeets
  have hinit : ShutConfig False [] ⟨new, []⟩ := ⟨shut_new, .inl rfl⟩
  have hshut := Machine.trace_invariant (I := ShutConfig False)
    (fun us c m c' h hok hstep => shut_step h hok hstep) hinit hpre hplay
  rw [List.nil_append] at hshut
  have hstep : machine.step c (.call .close answers) = some ⟨t, c.stack⟩ := by
    show some (Config.settle c.stack (close.exec answers c.heap)) = _
    rw [hclose]
    rfl
  -- from now on a `close` has been asked for
  obtain ⟨hleft, hstack⟩ := shut_step hshut hok hstep
  have hasked : ShutConfig True _ ⟨t, c.stack⟩ :=
    ⟨{ hleft with asked := fun _ => asked_of_close hclose }, hstack⟩
  have hrest : machine.play ⟨t, c.stack⟩ ms' = some c' := by
    rw [Machine.play_append, hplay, Option.bind_some, Machine.play, hstep] at hplay'
    exact hplay'
  have hend := Machine.trace_invariant (I := ShutConfig True)
    (fun us c m c' h hok hstep => shut_step h hok hstep) hasked (hpost _ hstep) hrest
  rw [Machine.trace_append _ hplay, Machine.trace_cons hstep, ← List.append_assoc]
  exact hend.closed hquiet

/-- A `send` and a `close` wait for a `bind`. The flush carries both out, and the lookup of the
`send` comes back to a closed socket. -/
theorem closed_of_completes_queued : ∃ c : Config Dgram Yield Native, c.heap._handle = false ∧
    Operation.throws [] (.ok 0) c.heap (.addMembership (.name "a")) = some "Not running" ∧
    Operation.throws [] (.ok 0) c.heap .setBroadcast ≠ some "Not running" := by
  let ms : List (Move Call) := [.call (.send (.single (.data [1])) 80 .absent true) []]
  let ms' : List (Move Call) := [.call (.lookup 0 false) [], .ret [], .ret [], .call .tick [],
    .ret [], .call (.lookup 0 false) []]
  have hmeets : machine.Meets Completes ⟨new, []⟩ (ms ++ .call .close [] :: ms') := by decide
  have hends : (machine.play ⟨new, []⟩ (ms ++ .call .close [] :: ms')).any
      (fun c => decide (Quiet c)) = true := by decide
  obtain ⟨c', hplay', hquiet⟩ := Option.any_eq_true .. |>.mp hends
  have hclosed := closed_of_completes hmeets rfl rfl hplay' (of_decide_eq_true hquiet)
  refine ⟨c', hclosed.handle, (hclosed.refused _ [] _ rfl).mpr rfl, fun hbad => ?_⟩
  cases (hclosed.refused _ [] _ rfl).mp hbad

/-- The `bind` that a `send` and a `close` wait for fails. -/
theorem forgotten_by_failed_bind :
    ¬ ∀ (ms ms' : List (Move Call)) (answers : List Int) (c c' : Config Dgram Yield Native)
      (t : Dgram), machine.play ⟨new, []⟩ ms = some c → close.exec answers c.heap = .done () t →
      machine.play ⟨new, []⟩ (ms ++ .call .close answers :: ms') = some c' → Quiet c' →
      c'.heap._handle = false ∧
      (machine.trace ⟨new, []⟩ (ms ++ .call .close answers :: ms')).count .close = 1 ∧
      ∀ (op : Operation) (r : List Int) (answer : Answer), op.accepted = true →
        op.throws r answer c'.heap = some "Not running" := by
  intro hall
  let ms : List (Move Call) := [.call (.send (.single (.data [1])) 80 .absent true) []]
  let ms' : List (Move Call) := [.call (.lookup 0 true) [], .ret []]
  have hends : (machine.play ⟨new, []⟩ (ms ++ .call .close [] :: ms')).any
      (fun c => decide (Quiet c) && c.heap._handle) = true := by decide
  obtain ⟨c', hplay', htest⟩ := Option.any_eq_true .. |>.mp hends
  obtain ⟨hquiet, hopen⟩ := Bool.and_eq_true_iff.mp htest
  have hclosed := (hall ms ms' [] _ c' _ rfl rfl hplay' (of_decide_eq_true hquiet)).1
  rw [hopen] at hclosed
  cases hclosed

end runs

end IotJs.Dgram

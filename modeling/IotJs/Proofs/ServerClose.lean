import IotJs.Core.Server
import IotJs.Lib.Runs
import IotJs.Proofs.SocketTimed
import Mathlib.Data.List.Perm.Basic

/-!
# `IotJs.Proofs.ServerClose`: the sockets that a server counts, and its 'close'

`moved_of_step` says what a move can do. `Counted` holds in every run: a socket closes its handle
when it is destroyed, once, and tells its server in the same stretch of code (`owned_of_reach`,
`step_server`).

'close' is scheduled when the server has no handle and counts no socket, and emitted one tick
later. `Settling` is what makes the two moments agree: while a 'close' is scheduled the server
stays drained, unless it listens again (`Settled` excludes that). Each 'close' is paid for by a
call of `close`: one that finds the server drained schedules it, and one that finds open sockets
leaves it to the last of them (`waiting`).
-/

set_option autoImplicit false

namespace IotJs

open Reentrant

/-! ### What an accepted socket and its server know of each other -/

namespace Socket

/-- A socket belongs to its server until it is destroyed. -/
def Owned (s : Socket) : Prop := s._server = !s._socketState.destroyed

section owned

variable {E : Surroundings} {P : Platform} {s t u : Socket}

theorem Hands.owned {req : WriteReq} (h : Hands E req s t) (hs : Owned s) : Owned t := by
  cases h <;> exact hs

theorem Flush.owned (h : Flush E s t) (hs : Owned s) : Owned t := by
  cases h with
  | busy => exact hs
  | idle => exact hs
  | next hw hb h => exact h.owned hs

theorem Finish.owned (h : Finish E s t) (hs : Owned s) : Owned t := by
  cases h with
  | close => rfl
  | shutdown => exact hs
  | refused => exact hs

theorem Establishes.owned (h : Establishes s u) (hs : Owned s) : Owned u := by
  cases h <;> exact hs

theorem Action.owned {k : Kind} (h : Action E k s t) (hs : Owned s) : Owned t := by
  cases h with
  | write req he hr hw hb h => exact h.owned hs
  | close => rfl
  | establish h hf => exact hf.owned (h.owned hs)
  | establishFinish h hdue hf => exact hf.owned (h.owned hs)
  | complete hw hcall hf => exact hf.owned hs
  | completeFinish hw hcall hdue hf => exact hf.owned hs
  | shutdownClose => rfl
  | tickFinish hi hcall he hh hf => exact hf.owned hs
  | _ => exact hs

/-- In every run of a socket that a server accepted. -/
theorem owned_of_reach {allowHalfOpen : Bool} {c : Config Socket SocketYield SocketNative}
    (hc : (machine P).Reach .free (accepted allowHalfOpen) c) : Owned c.heap := by
  have hholds : Contract.Holds (machine P) .free .nil (basis.and (.ofInv Owned))
      (accepted allowHalfOpen) :=
    holds_of_sound (.inr ⟨_, rfl⟩) rfl fun _ _ _ _ hs ha => ⟨ha.owned hs, trivial⟩
  exact (hholds.inv_of_reach hc).2

end owned

end Socket

namespace Server

/-! ### Cycles -/

/-- The native `listen` succeeded: a cycle begins. -/
def begins : ServerObs → Bool
  | .listen _ err => err == 0
  | _ => false

/-- What was recorded in the present cycle. -/
def cycle (log : List ServerObs) : List ServerObs :=
  (log.reverse.takeWhile fun o => !begins o).reverse

theorem cycle_append (log : List ServerObs) (o : ServerObs) :
    cycle (log ++ [o]) = if begins o then [] else cycle log ++ [o] := by
  cases ho : begins o <;> simp [cycle, ho]

variable (s : Server)

/-- How often 'close' was emitted in the present cycle. -/
def closes : Nat := (cycle s.log).count (.event .close)

/-- How often `close` was called in the present cycle. -/
def closeCalls : Nat := (cycle s.log).count .closeCalled

/-- A 'close' that no tick holds yet: the last open socket will schedule it. -/
def waiting : Nat := if s._handle = none ∧ 0 < s._socketCount then 1 else 0

structure Settling : Prop where
  owed : s.ticks.count .close + s.closes + s.waiting ≤ s.closeCalls
  due : .close ∈ s.ticks → s._handle.all (·.closed) = true ∧ s._socketCount ≤ 0

section settling

variable {s}

theorem closes_record {o : ServerObs} (ho : begins o = false) :
    (s.record o).closes = s.closes + [o].count (.event .close) := by
  rw [closes, record, cycle_append, if_neg (by simp [ho]), List.count_append]
  rfl

theorem closeCalls_record {o : ServerObs} (ho : begins o = false) :
    (s.record o).closeCalls = s.closeCalls + [o].count .closeCalled := by
  rw [closeCalls, record, cycle_append, if_neg (by simp [ho]), List.count_append]
  rfl

/-- An entry that neither begins a cycle nor counts in one. -/
theorem Settling.record (h : Settling s) {o : ServerObs} (ho : begins o = false)
    (hclose : o ≠ .event .close) (hcalled : o ≠ .closeCalled) : Settling (s.record o) := by
  have hcloses : [o].count (.event .close) = 0 :=
    List.count_eq_zero.mpr (by simpa using hclose.symm)
  have hcalls : [o].count .closeCalled = 0 :=
    List.count_eq_zero.mpr (by simpa using hcalled.symm)
  refine ⟨?_, h.due⟩
  rw [closes_record ho, closeCalls_record ho, hcloses, hcalls]
  exact h.owed

/-- Another handle: it is closed, or no 'close' is scheduled. -/
theorem Settling.rehandle (h : Settling s) (handle : ListenHandle)
    (hclosed : .close ∈ s.ticks → handle.closed = true) :
    Settling { s with _handle := some handle } := by
  refine ⟨?_, fun hmem => ⟨by simpa using hclosed hmem, (h.due hmem).2⟩⟩
  have howed := h.owed
  show s.ticks.count .close + s.closes + 0 ≤ s.closeCalls
  omega

/-- `_emitCloseIfDrained` on a server that owes a 'close' if it has no handle. -/
theorem settling_emitCloseIfDrained
    (howed : s._handle = none → s.ticks.count .close + s.closes + 1 ≤ s.closeCalls)
    (hnone : s.ticks.count .close + s.closes ≤ s.closeCalls)
    (hdue : .close ∈ s.ticks → s._handle.all (·.closed) = true ∧ s._socketCount ≤ 0) :
    Settling s._emitCloseIfDrained := by
  rw [_emitCloseIfDrained]
  split
  · -- nothing is scheduled: without a handle, the last open socket still has to do it
    rename_i hnot
    refine ⟨?_, hdue⟩
    rw [waiting]
    split
    · rename_i hwait
      exact howed hwait.1
    · exact hnone
  · rename_i hdrained
    rw [not_or, Bool.not_eq_true, Option.isSome_eq_false_iff, Option.isNone_iff_eq_none] at hdrained
    obtain ⟨hhandle, hcount⟩ := hdrained
    have hwaiting : (s.nextTick .close).waiting = 0 := if_neg fun hwait => hcount hwait.2
    refine ⟨?_, fun _ => ⟨?_, Int.not_lt.mp hcount⟩⟩
    · have hticks : (s.nextTick .close).ticks.count .close = s.ticks.count .close + 1 := by
        simp [nextTick]
      rw [hticks, hwaiting]
      show s.ticks.count .close + 1 + s.closes + 0 ≤ s.closeCalls
      have := howed hhandle
      omega
    · show s._handle.all (·.closed) = true
      rw [hhandle]
      rfl

theorem Settling.close (h : Settling s) : Settling s.close := by
  have howed := h.owed
  -- the call that is made now pays for the 'close' that it may schedule
  have hnext : s.ticks.count .close + (s.record .closeCalled).closes + 1 ≤
      (s.record .closeCalled).closeCalls := by
    rw [closes_record rfl, closeCalls_record rfl]
    show s.ticks.count .close + (s.closes + 0) + 1 ≤ s.closeCalls + 1
    omega
  exact settling_emitCloseIfDrained (fun _ => hnext) (Nat.le_of_succ_le hnext)
    fun hmem => ⟨rfl, (h.due hmem).2⟩

/-- A socket that the server counts is destroyed. -/
theorem Settling.socketClosed (h : Settling s) (hcount : 0 < s._socketCount) :
    Settling s.socketClosed := by
  have howed := h.owed
  refine settling_emitCloseIfDrained (fun hhandle => ?_) (Nat.le_of_add_right_le howed)
    fun hmem => ?_
  · -- a server without a handle was waiting for this socket
    have hwaiting : s.waiting = 1 := if_pos ⟨hhandle, hcount⟩
    rw [hwaiting] at howed
    exact howed
  · have := (h.due hmem).2
    omega

/-- A connection comes to a server that listens: no 'close' is scheduled there. -/
theorem Settling.onconnection (h : Settling s) (hlistens : s.listens = true) (status : Int) :
    Settling (s.onconnection status) := by
  rw [Server.onconnection]
  split
  · exact h.record rfl nofun nofun
  · obtain ⟨handle, hhandle, hopen⟩ := (Option.any_eq_true _ _).mp hlistens
    have hnone : .close ∉ s.ticks := by
      intro hmem
      have hclosed := (h.due hmem).1
      rw [hhandle] at hclosed
      simp only [Option.all_some] at hclosed
      simp [hclosed] at hopen
    have hwaiting : waiting { s with _socketCount := s._socketCount + 1 } = 0 :=
      if_neg fun hwait => by simp [hhandle] at hwait
    have hcounted : Settling { s with _socketCount := s._socketCount + 1 } := by
      refine ⟨?_, fun hmem => absurd hmem hnone⟩
      rw [hwaiting]
      exact Nat.le_of_add_right_le h.owed
    exact hcounted.record rfl nofun nofun

/-- A tick that was scheduled runs. -/
theorem Settling.runTick (h : Settling s) {i : Nat} {tick : ServerTick}
    (hi : s.ticks[i]? = some tick) :
    Settling (Server.runTick { s with ticks := s.ticks.eraseIdx i } tick) := by
  obtain ⟨hlt, rfl⟩ := List.getElem?_eq_some_iff.mp hi
  have hcount := (List.getElem_cons_eraseIdx_perm hlt).count_eq ServerTick.close
  rw [List.count_cons] at hcount
  have howed := h.owed
  have hdue : .close ∈ s.ticks.eraseIdx i →
      s._handle.all (·.closed) = true ∧ s._socketCount ≤ 0 :=
    fun hmem => h.due (List.mem_of_mem_eraseIdx hmem)
  cases htick : s.ticks[i] with
  | listening =>
      have hrest : Settling { s with ticks := s.ticks.eraseIdx i } := by
        refine ⟨?_, hdue⟩
        show (s.ticks.eraseIdx i).count .close + s.closes + s.waiting ≤ s.closeCalls
        simp [htick] at hcount
        omega
      rw [Server.runTick]
      split
      · exact hrest.record rfl nofun nofun
      · exact hrest
  | close =>
      -- one fewer is scheduled and one more was emitted
      refine ⟨?_, hdue⟩
      rw [Server.runTick, closes_record rfl, closeCalls_record rfl]
      show (s.ticks.eraseIdx i).count .close + (s.closes + 1) + s.waiting ≤ s.closeCalls + 0
      simp [htick] at hcount
      omega

/-- A server that begins to listen begins a cycle. -/
theorem settling_of_listen {backlog : Int} (hnone : .close ∉ s.ticks) (hhandle : s._handle ≠ none) :
    Settling (s.record (.listen backlog 0)) := by
  have hcycle : cycle (s.log ++ [.listen backlog 0]) = [] := cycle_append ..
  have hwaiting : s.waiting = 0 := if_neg fun hwait => hhandle hwait.1
  refine ⟨?_, fun hmem => absurd hmem hnone⟩
  show s.ticks.count .close + (cycle (s.log ++ [.listen backlog 0])).count _ + s.waiting ≤
    (cycle (s.log ++ [.listen backlog 0])).count _
  rw [hcycle, hwaiting, List.count_eq_zero.mpr hnone]
  exact Nat.le_refl 0

theorem Settling.listen (h : Settling s) (options : ListenOptions) (bindErr listenErr : Int)
    (hsettled : bindErr = 0 → listenErr = 0 → .close ∉ s.ticks) :
    Settling (s.listen options bindErr listenErr).2 := by
  rw [Server.listen]
  cases options.port with
  | none => exact h
  | some port =>
      let handle := s._handle.getD ⟨false, false⟩
      have hclosed := (h.rehandle { handle with closed := true } fun _ => rfl).record
        (o := .bind (options.host.getD "0.0.0.0") port bindErr) rfl nofun nofun
      dsimp only
      -- the two error paths close the handle and keep it, and no cycle begins
      by_cases hbind : bindErr ≠ 0
      · rw [if_pos hbind]
        exact hclosed
      · rw [if_neg hbind]
        by_cases hlisten : listenErr ≠ 0
        · rw [if_pos hlisten]
          exact hclosed.record (o := .listen (options.backlog.getD 511) listenErr)
            (by simpa [begins] using hlisten) nofun nofun
        · rw [if_neg hlisten]
          rw [not_not] at hbind hlisten
          subst hlisten
          refine settling_of_listen (s := { s with
            _handle := some { handle with listening := true }
            ticks := s.ticks ++ [.listening]
            log := s.log ++ [.bind (options.host.getD "0.0.0.0") port bindErr] }) ?_ nofun
          simpa using hsettled hbind rfl

end settling

/-! ### What the functions of the server leave -/

@[simp] theorem emitCloseIfDrained_socketCount :
    s._emitCloseIfDrained._socketCount = s._socketCount := by
  rw [_emitCloseIfDrained]
  split <;> rfl

@[simp] theorem emitCloseIfDrained_log : s._emitCloseIfDrained.log = s.log := by
  rw [_emitCloseIfDrained]
  split <;> rfl

@[simp] theorem close_socketCount : s.close._socketCount = s._socketCount :=
  emitCloseIfDrained_socketCount ..

@[simp] theorem socketClosed_socketCount : s.socketClosed._socketCount = s._socketCount - 1 :=
  emitCloseIfDrained_socketCount ..

@[simp] theorem runTick_socketCount (tick : ServerTick) :
    (s.runTick tick)._socketCount = s._socketCount := by
  cases tick with
  | listening => rw [runTick]; split <;> rfl
  | close => rfl

@[simp] theorem listen_socketCount (options : ListenOptions) (bindErr listenErr : Int) :
    (s.listen options bindErr listenErr).2._socketCount = s._socketCount := by
  rw [listen]
  cases options.port with
  | none => rfl
  | some port =>
      dsimp only
      split
      · rfl
      · split <;> rfl

/-- `listen` records native calls only. -/
theorem listen_log (options : ListenOptions) (bindErr listenErr : Int) :
    ∃ new, (s.listen options bindErr listenErr).2.log = s.log ++ new ∧ .event .close ∉ new := by
  rw [listen]
  cases options.port with
  | none => exact ⟨[], (List.append_nil _).symm, nofun⟩
  | some port =>
      dsimp only
      split
      · exact ⟨[_], rfl, by simp⟩
      · split
        · exact ⟨[_, _], List.append_assoc .., by simp⟩
        · exact ⟨[_, _], List.append_assoc .., by simp⟩

end Server

/-! ### Runs -/

namespace Net

variable {P : Platform} {allowHalfOpen : Bool} {n n' : Net}

/-- The accepted sockets that are not destroyed. -/
def undestroyed (n : Net) : Nat := n.sockets.countP fun c => !c.heap._socketState.destroyed

/-- The server counts the sockets that it accepted and that are not destroyed. -/
def Counted (n : Net) : Prop := n.server._socketCount = n.undestroyed

/-- No handle is open, and every accepted socket is destroyed. -/
def Drained (n : Net) : Prop :=
  n.server._handle.all (·.closed) = true ∧
    ∀ c ∈ n.sockets, c.heap._socketState.destroyed = true

/-- The server does not begin to listen while a 'close' is scheduled. -/
def Settled (n : Net) : Move → Prop
  | .listen _ bindErr listenErr => bindErr = 0 → listenErr = 0 → .close ∉ n.server.ticks
  | _ => True

instance (n : Net) (m : Move) : Decidable (Settled n m) := by
  cases m <;> unfold Settled <;> infer_instance

/-- What is true of every net. -/
structure NetInv (P : Platform) (n : Net) : Prop where
  counted : Counted n
  sockets : ∀ c ∈ n.sockets, ∃ allowHalfOpen,
    (Socket.machine P).Reach .free (.accepted allowHalfOpen) c

/-- What a move does: the server alone for its own calls and ticks, one socket more for a
connection, and a move of one socket, after which the server may be told that it closed. -/
inductive Moved (P : Platform) (n : Net) : Move → Net → Prop
  | listen (options : ListenOptions) (bindErr listenErr : Int) :
      Moved P n (.listen options bindErr listenErr)
        { n with server := (n.server.listen options bindErr listenErr).2 }
  | close : Moved P n .close { n with server := n.server.close }
  | tick {i : Nat} {tick : ServerTick} (hi : n.server.ticks[i]? = some tick) :
      Moved P n (.tick i)
        { n with server :=
            Server.runTick { n.server with ticks := n.server.ticks.eraseIdx i } tick }
  | rejected {status : Int} (answers : List Int) (hlistens : n.server.listens = true)
      (hstatus : status ≠ 0) :
      Moved P n (.onconnection status answers) { n with server := n.server.onconnection status }
  | accepted {answers : List Int} {c : Config Socket SocketYield SocketNative}
      (hlistens : n.server.listens = true)
      (hc : (Socket.machine P).step ⟨.accepted n.server.allowHalfOpen, []⟩
        (.call .onconnection answers) = some c) :
      Moved P n (.onconnection 0 answers) ⟨n.server.onconnection 0, n.sockets ++ [c]⟩
  | socketClosed {i : Nat} {m : Reentrant.Move Socket.Call}
      {c c' : Config Socket SocketYield SocketNative} (hi : n.sockets[i]? = some c)
      (hc' : (Socket.machine P).step c m = some c')
      (hclosed : (c.heap._server && !c'.heap._server) = true) :
      Moved P n (.socket i m) ⟨n.server.socketClosed, n.sockets.set i c'⟩
  | socketKept {i : Nat} {m : Reentrant.Move Socket.Call}
      {c c' : Config Socket SocketYield SocketNative} (hi : n.sockets[i]? = some c)
      (hc' : (Socket.machine P).step c m = some c')
      (hkept : (c.heap._server && !c'.heap._server) = false) :
      Moved P n (.socket i m) ⟨n.server, n.sockets.set i c'⟩

theorem moved_of_step {m : Move} (hstep : n.step P m = some n') : Moved P n m n' := by
  cases m with
  | listen options bindErr listenErr =>
      cases hstep
      exact .listen options bindErr listenErr
  | close =>
      cases hstep
      exact .close
  | tick i =>
      obtain ⟨tick, hi, heq⟩ := Option.bind_eq_some_iff.mp hstep
      cases heq
      exact .tick hi
  | onconnection status answers =>
      simp only [Net.step] at hstep
      split at hstep
      · rename_i hlistens
        rw [accept] at hstep
        split at hstep
        · rename_i hstatus
          cases hstep
          exact .rejected answers hlistens hstatus
        · rename_i hstatus
          obtain rfl := Decidable.not_not.mp hstatus
          obtain ⟨c, hc, heq⟩ := Option.bind_eq_some_iff.mp hstep
          cases heq
          exact .accepted hlistens hc
      · cases hstep
  | socket i m =>
      obtain ⟨c, hi, hstep⟩ := Option.bind_eq_some_iff.mp hstep
      obtain ⟨c', hc', heq⟩ := Option.bind_eq_some_iff.mp hstep
      cases heq
      split
      · rename_i hclosed
        exact .socketClosed hi hc' hclosed
      · rename_i hkept
        exact .socketKept hi hc' (Bool.not_eq_true _ ▸ hkept)

/-- A connection that was just accepted. -/
theorem accepted_step (P : Platform) (allowHalfOpen : Bool) (answers : List Int) :
    ∃ c, (Socket.machine P).step ⟨.accepted allowHalfOpen, []⟩ (.call .onconnection answers) =
        some c ∧
      (Socket.machine P).Reach .free (.accepted allowHalfOpen) c ∧
      c.heap._socketState.destroyed = false := by
  refine ⟨_, rfl, ?_, rfl⟩
  exact Machine.Reach.start.step (m := .call .onconnection answers) rfl

/-- What a move of a socket does with the count. -/
theorem undestroyed_set {i : Nat} {c c' : Config Socket SocketYield SocketNative}
    (hi : n.sockets[i]? = some c) (server : Server) (howned : c.heap.Owned)
    (howned' : c'.heap.Owned) (hserver : c'.heap._server = true → c.heap._server = true) :
    (undestroyed ⟨server, n.sockets.set i c'⟩ : Int) =
      n.undestroyed - if c.heap._server && !c'.heap._server then 1 else 0 := by
  obtain ⟨hlt, rfl⟩ := List.getElem?_eq_some_iff.mp hi
  have hle : (if !(n.sockets[i]).heap._socketState.destroyed then 1 else 0) ≤ n.undestroyed :=
    List.boole_getElem_le_countP (p := fun c => !c.heap._socketState.destroyed) hlt
  have hset : undestroyed ⟨server, n.sockets.set i c'⟩ =
      n.undestroyed - (if !(n.sockets[i]).heap._socketState.destroyed then 1 else 0) +
        if !c'.heap._socketState.destroyed then 1 else 0 := List.countP_set hlt
  rw [hset]
  -- an accepted socket has its server until it is destroyed, and never gets it back
  rw [← howned] at hle ⊢
  rw [← howned']
  cases hc : (n.sockets[i]).heap._server with
  | false =>
      cases hc' : c'.heap._server with
      | false => simp
      | true =>
        rw [hserver hc'] at hc
        cases hc
  | true =>
      rw [hc] at hle
      simp only [if_true] at hle
      cases hc' : c'.heap._server with
      | false => simp; omega
      | true => simp; omega

section

/-- A move of one socket keeps what is true of every net, if the server counts it. -/
theorem NetInv.socket (h : NetInv P n) {i : Nat} {m : Reentrant.Move Socket.Call}
    {c c' : Config Socket SocketYield SocketNative} (hi : n.sockets[i]? = some c)
    (hc' : (Socket.machine P).step c m = some c') {server : Server}
    (hcount : server._socketCount =
      n.server._socketCount - if c.heap._server && !c'.heap._server then 1 else 0) :
    NetInv P ⟨server, n.sockets.set i c'⟩ := by
  obtain ⟨allowHalfOpen, hreach⟩ := h.sockets c (List.mem_of_getElem? hi)
  have hreach' := hreach.step hc'
  have hcounted : n.server._socketCount = n.undestroyed := h.counted
  refine ⟨?_, fun d hd => ?_⟩
  · rw [Counted, undestroyed_set hi _ (Socket.owned_of_reach hreach)
      (Socket.owned_of_reach hreach') (Socket.step_server hreach hc'), ← hcounted]
    exact hcount
  · rcases List.mem_or_eq_of_mem_set hd with hd | rfl
    · exact h.sockets d hd
    · exact ⟨_, hreach'⟩

/-- Every move keeps what is true of every net. -/
theorem NetInv.step (h : NetInv P n) {m : Move} (hstep : n.step P m = some n') : NetInv P n' := by
  cases moved_of_step hstep with
  | listen options bindErr listenErr =>
      exact ⟨(Server.listen_socketCount ..).trans h.counted, h.sockets⟩
  | close => exact ⟨(Server.close_socketCount _).trans h.counted, h.sockets⟩
  | tick hi => exact ⟨(Server.runTick_socketCount ..).trans h.counted, h.sockets⟩
  | @rejected status answers _ hstatus =>
      refine ⟨?_, h.sockets⟩
      show (n.server.onconnection status)._socketCount = n.undestroyed
      rw [Server.onconnection, if_pos hstatus]
      exact h.counted
  | @accepted answers c _ hc =>
      obtain ⟨d, hd, hreach, hnew⟩ := accepted_step P n.server.allowHalfOpen answers
      obtain rfl := Option.some.inj (hd.symm.trans hc)
      refine ⟨?_, fun e he => ?_⟩
      · have hone : undestroyed ⟨n.server.onconnection 0, n.sockets ++ [d]⟩ =
            n.undestroyed + 1 := by
          simp [undestroyed, hnew]
        have hcounted : n.server._socketCount = n.undestroyed := h.counted
        show n.server._socketCount + 1 = _
        rw [hone, hcounted]
        rfl
      · rcases List.mem_append.mp he with he | he
        · exact h.sockets e he
        · rw [List.mem_singleton] at he
          exact he ▸ ⟨_, hreach⟩
  | socketClosed hi hc' hclosed =>
      refine h.socket hi hc' ?_
      rw [if_pos hclosed]
      exact Server.socketClosed_socketCount _
  | socketKept hi hc' hkept =>
      refine h.socket hi hc' ?_
      rw [hkept]
      exact (Int.sub_zero _).symm

theorem netInv_new : NetInv P (new allowHalfOpen) :=
  ⟨rfl, fun _ hc => absurd hc List.not_mem_nil⟩

/-- A socket that closes its handle was counted. -/
theorem NetInv.counts (h : NetInv P n) {i : Nat} {c : Config Socket SocketYield SocketNative}
    (hi : n.sockets[i]? = some c) (hserver : c.heap._server = true) :
    0 < n.server._socketCount := by
  have hmem := List.mem_of_getElem? hi
  obtain ⟨allowHalfOpen, hreach⟩ := h.sockets c hmem
  have howned : c.heap._server = !c.heap._socketState.destroyed := Socket.owned_of_reach hreach
  rw [hserver] at howned
  have hpos : 0 < n.undestroyed := List.countP_pos_iff.mpr ⟨c, hmem, howned.symm⟩
  rw [show n.server._socketCount = n.undestroyed from h.counted]
  omega

/-- Every move that is settled keeps the server settling. -/
theorem Settling.step (h : n.server.Settling) (hinv : NetInv P n) {m : Move} (hm : Settled n m)
    (hstep : n.step P m = some n') : n'.server.Settling := by
  cases moved_of_step hstep with
  | listen options bindErr listenErr => exact h.listen options bindErr listenErr hm
  | close => exact h.close
  | tick hi => exact h.runTick hi
  | rejected answers hlistens _ => exact h.onconnection hlistens _
  | accepted hlistens _ => exact h.onconnection hlistens 0
  | socketClosed hi _ hclosed =>
      rw [Bool.and_eq_true] at hclosed
      exact h.socketClosed (hinv.counts hi hclosed.1)
  | socketKept => exact h

/-- A move that emits 'close' runs a tick that was scheduled. -/
theorem scheduled_of_emitted {m : Move} (hstep : n.step P m = some n')
    (hemit : n'.server.log = n.server.log ++ [.event .close]) : .close ∈ n.server.ticks := by
  have hsame : n'.server.log ≠ n.server.log := by
    rw [hemit]
    simp
  -- every other function appends another entry, or none
  have hother : ∀ o, o ≠ .event .close → n'.server.log ≠ n.server.log ++ [o] := by
    intro o ho heq
    rw [hemit, List.append_cancel_left_eq, List.singleton_inj] at heq
    exact ho heq.symm
  cases moved_of_step hstep with
  | listen options bindErr listenErr =>
      obtain ⟨new, hlog, hnew⟩ := n.server.listen_log options bindErr listenErr
      rw [hlog, List.append_cancel_left_eq] at hemit
      simp [hemit] at hnew
  | close => exact absurd (Server.emitCloseIfDrained_log _) (hother .closeCalled nofun)
  | @tick i tick hi =>
      cases tick with
      | close => exact List.mem_of_getElem? hi
      | listening =>
          simp only [Server.runTick] at hsame hother
          split at hsame
          · rename_i hsome
            rw [if_pos hsome] at hother
            exact absurd rfl (hother (.event .listening) nofun)
          · exact absurd rfl hsame
  | @rejected status answers _ hstatus =>
      refine absurd ?_ (hother (.event (.error ("accept error: " ++ toString status))) nofun)
      simp only [Server.onconnection, if_pos hstatus]
      rfl
  | accepted => exact absurd rfl (hother (.event .connection) nofun)
  | socketClosed => exact absurd (Server.emitCloseIfDrained_log _) hsame
  | socketKept => exact absurd rfl hsame

/-- In every run the server counts the sockets that it accepted and that are not destroyed. Where
it does not begin to listen while a 'close' is scheduled, it emits 'close' in each cycle at most
once for each call of `close`, and only when it has no open handle and every accepted socket is
destroyed. -/
theorem close_when_drained (P : Platform) (allowHalfOpen : Bool) :
    (∀ n, Runs.Reach (step P) Runs.Free (new allowHalfOpen) n → Counted n) ∧
    ∀ n, Runs.Reach (step P) Settled (new allowHalfOpen) n →
      n.server.closes ≤ n.server.closeCalls ∧
      ∀ m n', n.step P m = some n' → n'.server.log = n.server.log ++ [.event .close] →
        Drained n := by
  constructor
  · intro n hn
    exact (hn.invariant netInv_new fun _ _ _ h _ hstep => h.step hstep).counted
  · intro n hn
    have hboth : NetInv P n ∧ n.server.Settling :=
      hn.invariant (I := fun n => NetInv P n ∧ n.server.Settling)
        ⟨netInv_new, Nat.le_refl 0, nofun⟩
        fun _ _ _ h hm hstep => ⟨h.1.step hstep, Settling.step h.2 h.1 hm hstep⟩
    obtain ⟨hinv, hsettling⟩ := hboth
    refine ⟨?_, fun m n' hstep hemit => ?_⟩
    · have := hsettling.owed
      omega
    · obtain ⟨hclosed, hcount⟩ := hsettling.due (scheduled_of_emitted hstep hemit)
      refine ⟨hclosed, fun c hc => ?_⟩
      have hnone : n.undestroyed = 0 := by
        have : n.server._socketCount = n.undestroyed := hinv.counted
        omega
      simpa using List.countP_eq_zero.mp hnone c hc

/-- A server that is closed while a connection is open: 'close' waits for the socket. -/
theorem close_when_drained_connection :
    ∃ n : Net, n.sockets.length = 1 ∧ n.server.ticks = [.close] ∧ Counted n ∧ Drained n := by
  obtain ⟨n, hn, hrun⟩ := Runs.exists_reach_of_play (step (.ascii false)) Settled (new false)
    [.listen ⟨some 80, none, none⟩ 0 0, .tick 0, .onconnection 0 [], .close, .socket 0 (.ret []),
      .socket 0 (.call .destroy []), .socket 0 (.call (.tick 1) []), .socket 0 (.ret [])]
    (fun n => decide (n.sockets.length = 1) && decide (n.server.ticks = [.close]) &&
      (n.step (.ascii false) (.tick 0)).any fun n' : Net =>
        decide (n'.server.log = n.server.log ++ [.event .close])) rfl
  simp only [Bool.and_eq_true, decide_eq_true_eq, Option.any_eq_true] at hrun
  obtain ⟨⟨hlength, hticks⟩, n', hstep, hemit⟩ := hrun
  obtain ⟨hcounted, hdrained⟩ := close_when_drained (.ascii false) false
  exact ⟨n, hlength, hticks, hcounted n (hn.mono fun _ _ _ => trivial),
    (hdrained n hn).2 _ n' hstep hemit⟩

/-- `close` is called twice on a server that listens: it emits 'close' twice. -/
theorem close_twice :
    ¬ ∀ (P : Platform) (allowHalfOpen : Bool) (n : Net),
      Runs.Reach (step P) Runs.Free (new allowHalfOpen) n → n.server.closes ≤ 1 := by
  intro hall
  obtain ⟨n, hn, hrun⟩ := Runs.exists_reach_of_play (step (.ascii false)) Runs.Free (new false)
    [.listen ⟨some 80, none, none⟩ 0 0, .tick 0, .close, .close, .tick 0, .tick 0]
    (fun n => decide (n.server.closes = 2)) rfl
  have hone := hall (.ascii false) false n hn
  rw [of_decide_eq_true hrun] at hone
  omega

end

end Net

end IotJs

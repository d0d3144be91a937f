import IotJs.Proofs.SocketReceived
import IotJs.Proofs.SocketSent

/-!
# `IotJs.Proofs.ConnectionOrder`: one application reads what the other one writes

Two sockets are connected and run in any interleaving. Whatever the applications and the native
sides do, the bytes that came in at one end are the first ones that the other end gave to
`uv_write`, in order (`Ordered`). Together with what each end does on its own (`ReceivedOk`,
`SentInv`), this follows a byte all the way: it waits in the queue of the sender, is on its way,
waits in the buffer of the receiver, and is taken out, and it overtakes no other.

A receiver on NuttX is left out: there a block that ends in the six characters of the end mark is
cut, so bytes that an application has written are lost.
-/

set_option autoImplicit false

namespace IotJs.Connection

open Reentrant Socket

/-- What the other end of `b` gave to `uv_write`. -/
def sent (n : Connection) (b : Bool) : Bytes := bytesOf (given (n.ends !b).heap)

/-- What came in at `b` are the bytes that have arrived, but for those that came after EOF. -/
def InOrder (n : Connection) (b : Bool) : Prop :=
  ∃ late, pushedBytes (n.ends b).heap.log ++ late = (n.sent b).take (n.arrived b) ∧
    ((n.ends b).heap._readableState.ended = false → late = [])

structure Ordered (P : Bool → Platform) (s : Bool → Socket) (n : Connection) : Prop where
  reach : ∀ b, (machine (P b)).Reach .free (s b) (n.ends b)
  arrived : ∀ b, n.arrived b ≤ (n.sent b).length
  inOrder : ∀ b, (P b).nuttx = false → n.InOrder b

section step

variable {P : Bool → Platform} {s : Bool → Socket} {n n' : Connection} {b : Bool}
  {m : Move Socket.Call}

/-- What a move does: the end that moves, and the bytes that arrive there. -/
theorem step_cases (hstep : n.step P b m = some n') :
    block m <+: n.underWay b ∧ ∃ c, (machine (P b)).step (n.ends b) m = some c ∧
      n' = { ends := Function.update n.ends b c
             arrived := Function.update n.arrived b (n.arrived b + (block m).length) } := by
  simp only [step] at hstep
  split at hstep
  · rename_i hblock
    obtain ⟨c, hc, rfl⟩ := Option.map_eq_some_iff.mp hstep
    exact ⟨List.isPrefixOf_iff_prefix.mp hblock, c, hc, rfl⟩
  · cases hstep

/-- The block that arrives is the next part. -/
theorem take_arrived {sent block : Bytes} {k : Nat} (h : block <+: sent.drop k) :
    sent.take (k + block.length) = sent.take k ++ block := by
  rw [List.take_add, ← List.prefix_iff_eq_take.mp h]

/-- Bytes that have arrived are not sent again. -/
theorem take_sent {old new : Bytes} {k : Nat} (h : old <+: new) (hk : k ≤ old.length) :
    new.take k = old.take k := by
  obtain ⟨more, rfl⟩ := h
  exact List.take_append_of_le_length hk

/-- What a socket gives to `uv_write` stays given. -/
theorem given_step {c c' : Config Socket SocketYield SocketNative} {Q : Platform} {s₀ : Socket}
    (hs₀ : Initial s₀) (hc : (machine Q).Reach .free s₀ c)
    (hstep : (machine Q).step c m = some c') :
    bytesOf (given c.heap) <+: bytesOf (given c'.heap) := by
  have hsent := ((sent_holds Q .free hs₀).inv_of_reach hc).2
  have hsent' := ((sent_holds Q .free hs₀).inv_of_reach (hc.step hstep)).2
  obtain ⟨more, hmore⟩ := given_prefix hsent hsent' (step_logExtends hc hstep)
  refine ⟨bytesOf more, ?_⟩
  rw [← hmore]
  exact List.flatMap_append.symm

/-- At the end that moves, the bytes of the block come in behind the others. -/
theorem inOrder_step {c : Config Socket SocketYield SocketNative} (h : Ordered P s n)
    (hs : ∀ b, Initial (s b)) (hnuttx : (P b).nuttx = false)
    (hblock : block m <+: n.underWay b) (hc : (machine (P b)).step (n.ends b) m = some c) :
    ∃ late, pushedBytes c.heap.log ++ late = (n.sent b).take (n.arrived b + (block m).length) ∧
      (c.heap._readableState.ended = false → late = []) := by
  obtain ⟨late, hall, hnone⟩ := h.inOrder b hnuttx
  have hreceived : ∀ {d : Config Socket SocketYield SocketNative},
      (machine (P b)).Reach .free (s b) d → ReceivedOk d.heap := fun hd =>
    (received_holds (P b) .free (hs b)).inv_of_reach hd
  have htake : (n.sent b).take (n.arrived b + (block m).length) =
      (n.sent b).take (n.arrived b) ++ block m := take_arrived hblock
  rw [step_pushed hnuttx (h.reach b) hc, htake, ← hall]
  cases hended : (n.ends b).heap._readableState.ended with
  | true =>
      -- a stream that has met EOF stays so
      have heof := (hreceived (h.reach b)).met.mpr hended
      have heof' := (hreceived ((h.reach b).step hc)).met.mp
        ((step_logExtends (h.reach b) hc).subset heof)
      refine ⟨late ++ block m, ?_, fun hopen => ?_⟩
      · rw [if_pos rfl, List.append_nil, List.append_assoc]
      · rw [heof'] at hopen
        cases hopen
  | false =>
      refine ⟨[], ?_, fun _ => rfl⟩
      rw [hnone hended, if_neg Bool.false_ne_true, List.append_nil, List.append_nil]

theorem ordered_step (h : Ordered P s n) (hs : ∀ b, Initial (s b))
    (hstep : n.step P b m = some n') : Ordered P s n' := by
  obtain ⟨hblock, c, hc, rfl⟩ := step_cases hstep
  have hother : ∀ {x : Bool}, x ≠ b → (!x) = b := by
    intro x hx
    cases x <;> cases b <;> first | rfl | exact absurd rfl hx
  -- the end that moves has sent more, so the other one sees more
  have hsent : ∀ x, x ≠ b → n.sent x <+: bytesOf (given c.heap) := by
    intro x hx
    rw [sent, hother hx]
    exact given_step (hs b) (h.reach b) hc
  have hne : (!b) ≠ b := by cases b <;> exact Bool.noConfusion
  have hsame : ∀ d : Config Socket SocketYield SocketNative,
      Function.update n.ends b d (!b) = n.ends (!b) := fun d => Function.update_of_ne hne d n.ends
  constructor
  · intro x
    by_cases hx : x = b
    · subst hx
      show (machine (P x)).Reach .free (s x) (Function.update n.ends x c x)
      rw [Function.update_self]
      exact (h.reach x).step hc
    · show (machine (P x)).Reach .free (s x) (Function.update n.ends b c x)
      rw [Function.update_of_ne hx]
      exact h.reach x
  · intro x
    by_cases hx : x = b
    · subst hx
      show Function.update n.arrived x _ x ≤
        (bytesOf (given (Function.update n.ends x c (!x)).heap)).length
      rw [Function.update_self, hsame]
      have hle := hblock.length_le
      have harrived := h.arrived x
      rw [underWay, List.length_drop] at hle
      rw [sent] at harrived
      omega
    · show Function.update n.arrived b _ x ≤
        (bytesOf (given (Function.update n.ends b c (!x)).heap)).length
      rw [Function.update_of_ne hx, hother hx, Function.update_self]
      exact Nat.le_trans (h.arrived x) (hsent x hx).length_le
  · intro x hnuttx
    by_cases hx : x = b
    · subst hx
      show ∃ late, pushedBytes (Function.update n.ends x c x).heap.log ++ late =
          (bytesOf (given (Function.update n.ends x c (!x)).heap)).take
            (Function.update n.arrived x _ x) ∧
        ((Function.update n.ends x c x).heap._readableState.ended = false → late = [])
      rw [Function.update_self, Function.update_self, hsame]
      exact inOrder_step h hs hnuttx hblock hc
    · show ∃ late, pushedBytes (Function.update n.ends b c x).heap.log ++ late =
          (bytesOf (given (Function.update n.ends b c (!x)).heap)).take
            (Function.update n.arrived b _ x) ∧
        ((Function.update n.ends b c x).heap._readableState.ended = false → late = [])
      rw [Function.update_of_ne hx, Function.update_of_ne hx, hother hx, Function.update_self,
        take_sent (hsent x hx) (h.arrived x)]
      exact h.inOrder x hnuttx

theorem ordered_start (hs : ∀ b, Initial (s b)) : Ordered P s (start s) := by
  have hnothing : ∀ b, pushedBytes (s b).log = [] := by
    intro b
    obtain ⟨_, _, hnew⟩ | ⟨_, hnew⟩ := hs b
    · rw [hnew]
      rfl
    · rw [hnew]
      rfl
  refine ⟨fun b => .start, fun b => Nat.zero_le _, fun b _ => ⟨[], ?_, fun _ => rfl⟩⟩
  show pushedBytes (s b).log ++ [] = []
  rw [hnothing]
  rfl

/-- In every run, bytes come in in order. -/
theorem ordered_run {ms : List (Bool × Move Socket.Call)} (h : Ordered P s n)
    (hs : ∀ b, Initial (s b)) (hrun : run P n ms = some n') : Ordered P s n' := by
  induction ms generalizing n with
  | nil =>
      cases hrun
      exact h
  | cons move ms ih =>
      obtain ⟨next, hstep, hrest⟩ := Option.bind_eq_some_iff.mp hrun
      exact ih (ordered_step h hs hstep) hrest

end step

/-- A client, and the socket that a server accepts. -/
def clientAndServer (b : Bool) : Socket := if b then accepted false else new none false

/-- A client connects and writes two bytes, which arrive one by one. -/
def hello : List (Bool × Move Socket.Call) :=
  [(false, .call (.connect ⟨.absent, some 80, 0⟩) []),
    (false, .call (.write (.data (.buffer [104, 105])) none) []),
    (true, .call .onconnection []), (true, .ret []), (true, .call (.tick 0) []),
    (false, .call (.afterLookup 0) []), (false, .ret []),
    (false, .call (.afterConnect 0) []), (false, .ret []),
    (true, .call (.onread (.data [104])) []), (true, .ret []),
    (true, .call (.on "data") []), (true, .ret []),
    (true, .call (.onread (.data [105])) []), (true, .ret [])]

end IotJs.Connection

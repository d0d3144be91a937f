import IotJs.Core.Requests
import IotJs.Lib.Reentrant.Contract

/-!
# `IotJs.Proofs.RequestsOwned`: a function owns what it has taken

While a function of the native modules runs, everything that was taken belongs to someone: to libuv
(what a pending request has), to a function that waits for JavaScript, to the function itself, or it
is lost for good. `Accounts s d f` is the balance of a state: `d` counts what belongs to functions,
and `f` the requests that functions still have to answer.

`Owned b s₀ own todo s` is what a function that started in `s₀` knows in `s`: `own` is what it has
taken and not given back, `todo` the requests that it has to answer. The rules of this module say
what each primitive does with them. JavaScript that runs in between takes nothing away from the
function, and leaves the balance as it was: that is the contract `balanced`.
-/

set_option autoImplicit false

namespace IotJs

namespace Requests

open Reentrant Ledger

/-! ### The balance -/

/-- What the pending requests have. -/
def held (pending : List Request) : List (Nat × Resource) :=
  pending.flatMap fun r => [(r.wrap, .reqwrap), (r.jcallback, .jcallback)]

/-- How much is lost where the note is made. -/
def lost : RequestNote → Nat
  | .thrown message => if message = "bad address family" then 1 else 0
  | .acceptFailed _ => 4
  | _ => 0

def lostBy : List RequestNote → Nat
  | [] => 0
  | o :: log => lost o + lostBy log

/-- The request is answered. -/
def answers (wrap : Nat) : RequestNote → Bool
  | .called other _ => other == wrap
  | .rejected other => other == wrap
  | _ => false

/-- The entry is a request wrapper. -/
def wraps (heap : List (Entry Resource)) (i : Nat) : Nat :=
  if heap[i]?.any (fun e => e.kind == .reqwrap) then 1 else 0

/-- Everything belongs to libuv, is lost, or is one of the `d` that belong to functions; and each
request is answered, pending, or one that `f` says has to be answered. -/
structure Accounts (s : Requests) (d : Nat) (f : Nat → Nat) : Prop where
  live : live s.heap = 2 * s.pending.length + lostBy s.log + d
  answered : ∀ i, wraps s.heap i =
    s.log.countP (answers i) + (s.pending.map Request.wrap).count i + f i

/-- What was taken and not given back stays so, and is not handed to libuv. -/
structure Keeps (s t : Requests) : Prop where
  grows : s.heap.length ≤ t.heap.length
  holds : ∀ i k, Holds s.heap i k → Holds t.heap i k
  back : ∀ i k, Holds s.heap i k → i ∈ (held t.pending).map Prod.fst →
    i ∈ (held s.pending).map Prod.fst

structure Inv (library : Bool) (s : Requests) : Prop where
  once : Once s.heap
  valid : s.stale = false
  lives : library = true → s.aborted = false
  owns : Owns s.heap (held s.pending)
  accounts : ∃ d f, Accounts s d f

/-- A function that ends leaves the balance as it was. -/
def Settles (s t : Requests) : Prop :=
  (s.aborted = true → t.aborted = true) ∧
    (t.aborted = false → ∀ d f, Accounts s d f → Accounts t d f)

theorem Settles.trans {s t u : Requests} (h : Settles s t) (h' : Settles t u) : Settles s u := by
  refine ⟨fun hs => h'.1 (h.1 hs), fun hu d f hs => h'.2 hu d f (h.2 ?_ d f hs)⟩
  by_contra ht
  rw [h'.1 (eq_true_of_ne_false ht)] at hu
  cases hu

theorem Keeps.refl (s : Requests) : Keeps s s := ⟨Nat.le_refl _, fun _ _ h => h, fun _ _ _ h => h⟩

theorem Keeps.trans {s t u : Requests} (h : Keeps s t) (h' : Keeps t u) : Keeps s u where
  grows := Nat.le_trans h.grows h'.grows
  holds i k hi := h'.holds i k (h.holds i k hi)
  back i k hi hmem := h.back i k hi (h'.back i k (h.holds i k hi) hmem)

/-- Only the ledger and the pending requests count. -/
theorem Keeps.of_eq {s t t' : Requests} (h : Keeps s t) (hheap : t'.heap = t.heap)
    (hpending : t'.pending = t.pending) : Keeps s t' where
  grows := hheap ▸ h.grows
  holds i k hi := hheap ▸ h.holds i k hi
  back i k hi hmem := h.back i k hi (hpending ▸ hmem)

/-- A call leaves the balance as it was, and from inside a function it keeps what others own. -/
def balanced (library : Bool) : Contract Requests where
  inv := Inv library
  rely s t := Settles s t ∧ (t.aborted = false → Keeps s t)
  outer := Settles
  refl s := ⟨⟨id, fun _ _ _ h => h⟩, fun _ => Keeps.refl s⟩
  trans h h' := ⟨h.1.trans h'.1, fun hu => (h.2 (by
    by_contra ht
    rw [h'.1.1 (eq_true_of_ne_false ht)] at hu
    cases hu)).trans (h'.2 hu)⟩
  outer_of_rely h := h.1
  outer_trans h h' := h.trans h'

/-! ### What a function owns -/

/-- A function that started in `s₀`, at rest or not, has come to `s`. -/
structure Owned (atRest : Bool) (s₀ : Requests) (own : List (Nat × Resource)) (todo : List Nat)
    (s : Requests) : Prop where
  once : Once s.heap
  valid : s.stale = false
  began : s₀.aborted = false
  alive : s.aborted = false
  owns : Owns s.heap (own ++ held s.pending)
  start : ∃ d f, Accounts s₀ d f
  accounts : ∀ d f, Accounts s₀ d f →
    Accounts s (d + own.length) fun i => f i + todo.count i
  keeps : atRest = false → Keeps s₀ s ∧ ∀ p ∈ own, s₀.heap.length ≤ p.1

variable {α β : Type} {library atRest : Bool} {s₀ s : Requests}
  {own front back : List (Nat × Resource)} {todo : List Nat} {i : Nat} {k : Resource}

theorem Owned.inv (h : Owned atRest s₀ own todo s) : Inv library s := by
  obtain ⟨d, f, hstart⟩ := h.start
  exact ⟨h.once, h.valid, fun _ => h.alive, h.owns.sublist (List.sublist_append_right own _),
    ⟨_, _, h.accounts d f hstart⟩⟩

theorem owned_start (h : Inv library s) (halive : s.aborted = false) : Owned atRest s [] [] s where
  once := h.once
  valid := h.valid
  began := halive
  alive := halive
  owns := h.owns
  start := h.accounts
  accounts _ _ h := h
  keeps _ := ⟨Keeps.refl s, fun _ hp => absurd hp List.not_mem_nil⟩

/-- Who owns nothing any more may end. -/
theorem Owned.postAt (h : Owned atRest s₀ [] [] s) : (balanced library).PostAt atRest s₀ s := by
  have hsettles : Settles s₀ s := by
    refine ⟨fun haborted => ?_, fun _ d f hs => h.accounts d f hs⟩
    rw [h.began] at haborted
    cases haborted
  cases atRest with
  | true => exact ⟨h.inv, hsettles⟩
  | false => exact ⟨h.inv, hsettles, fun _ => (h.keeps rfl).1⟩

/-- An assertion that fails may leave everything as it is. -/
theorem Owned.postAt_aborted (h : Owned atRest s₀ own todo s) (hlibrary : library = false) :
    (balanced library).PostAt atRest s₀ { s with aborted := true } := by
  have hinv : Inv library { s with aborted := true } := by
    have hinv : Inv library s := h.inv
    obtain ⟨-, -, -, howns, d, f, hlive, hanswered⟩ := hinv
    refine ⟨h.once, h.valid, fun htrue => ?_, howns, d, f, hlive, hanswered⟩
    rw [hlibrary] at htrue
    cases htrue
  have hsettles : Settles s₀ { s with aborted := true } :=
    ⟨fun _ => rfl, fun hfalse => by cases hfalse⟩
  cases atRest with
  | true => exact ⟨hinv, hsettles⟩
  | false => exact ⟨hinv, hsettles, fun hfalse => by cases hfalse⟩

/-! ### The rules -/

/-- A part of a function that started in `s₀`. -/
def Part (library atRest : Bool) (s₀ : Requests) (p : Requesting α) (Q : α → Requests → Prop)
    (s : Requests) : Prop :=
  p.wp (surroundings library) .nil (balanced library) ((balanced library).PostAt atRest s₀) Q s

variable {Q : α → Requests → Prop} {R : Unit → Requests → Prop}

theorem Part.bind {p : Requesting α} {f : α → Requesting β} {Q : β → Requests → Prop}
    (h : Part library atRest s₀ p (fun a t => Part library atRest s₀ (f a) Q t) s) :
    Part library atRest s₀ (p >>= f) Q s :=
  (Prog.wp_bind p f Q s).mpr h

theorem Part.mono {p : Requesting α} {Q' : α → Requests → Prop} (h : Part library atRest s₀ p Q s)
    (hQ : ∀ a t, Q a t → Q' a t) : Part library atRest s₀ p Q' s :=
  Prog.wp_mono (fun _ h => h) hQ p h

theorem Part.ask {q : RequestAsk} {Q : Int → Requests → Prop}
    (hQ : ∀ answer, (library = true → libraryAnswers q answer) → Q answer s) :
    Part library atRest s₀ (Prog.askFor q) Q s :=
  hQ

theorem Part.get {Q : Requests → Requests → Prop} (hQ : Q s s) : Part library atRest s₀ get Q s :=
  hQ

/-- JavaScript may run. -/
theorem Owned.yieldTo (h : Owned atRest s₀ own todo s) {u : RequestYield}
    (hQ : ∀ t, Owned atRest s₀ own todo t → R () t) :
    Part library atRest s₀ (Prog.yieldTo u) R s := by
  refine ⟨h.inv, fun t _ ht => ⟨fun halive => hQ t ?_, fun hfalse => hfalse.elim⟩⟩
  obtain ⟨hinv, hsettles, hkeeps⟩ := ht
  have hkeeps := hkeeps halive
  refine ⟨hinv.once, hinv.valid, h.began, halive, ⟨?_, ?_⟩, h.start, fun d f hs =>
    hsettles.2 halive _ _ (h.accounts d f hs), fun hrest => ?_⟩
  · -- what the function owns is still held, and was not handed to libuv
    rw [List.map_append, List.nodup_append']
    have hnodup := h.owns.nodup
    rw [List.map_append, List.nodup_append'] at hnodup
    refine ⟨hnodup.1, hinv.owns.nodup, fun i hi hmem => ?_⟩
    obtain ⟨p, hp, rfl⟩ := List.mem_map.mp hi
    have hheld := h.owns.holds p (List.mem_append_left _ hp)
    exact hnodup.2.2 hi (hkeeps.back p.1 p.2 hheld hmem)
  · intro p hp
    rcases List.mem_append.mp hp with hp | hp
    · exact hkeeps.holds p.1 p.2 (h.owns.holds p (List.mem_append_left _ hp))
    · exact hinv.owns.holds p hp
  · exact ⟨(h.keeps hrest).1.trans hkeeps, (h.keeps hrest).2⟩

theorem wraps_take (heap : List (Entry Resource)) (k : Resource) (i : Nat) :
    wraps (take heap k) i = wraps heap i + if i = heap.length ∧ k = .reqwrap then 1 else 0 := by
  rw [wraps, wraps, take]
  rcases Nat.lt_trichotomy i heap.length with hlt | rfl | hgt
  · rw [List.getElem?_append_left hlt, if_neg (c := i = heap.length ∧ _) (by omega)]
    rfl
  · rw [List.getElem?_append_right (Nat.le_refl _), List.getElem?_eq_none (Nat.le_refl _)]
    simp
  · rw [List.getElem?_eq_none (by rw [List.length_append, List.length_singleton]; omega),
      List.getElem?_eq_none (by omega), if_neg (c := i = heap.length ∧ _) (by omega)]
    rfl

theorem wraps_release (heap : List (Entry Resource)) (j i : Nat) :
    wraps (release heap j) i = wraps heap i := by
  rw [wraps, wraps, release, List.getElem?_modify]
  cases heap[i]? with
  | none => rfl
  | some e =>
      simp only [Option.map_eq_map, Option.map_some, Option.any_some]
      split <;> rfl

/-- Something is taken that is no request. -/
theorem Owned.allocate (h : Owned atRest s₀ own todo s) (hk : k ≠ .reqwrap)
    {Q : Nat → Requests → Prop} (hQ : ∀ i t, Owned atRest s₀ ((i, k) :: own) todo t → Q i t) :
    Part library atRest s₀ (allocate k) Q s := by
  refine hQ s.heap.length { s with heap := take s.heap k }
    ⟨h.once.take k, h.valid, h.began, h.alive, h.owns.take k, h.start, fun d f hs => ?_,
      fun hrest => ?_⟩
  · obtain ⟨hlive, hanswered⟩ := h.accounts d f hs
    refine ⟨?_, fun i => ?_⟩
    · show live (take s.heap k) = _
      rw [live_take, hlive, List.length_cons]
      exact Nat.add_assoc ..
    · show wraps (take s.heap k) i = _
      rw [wraps_take, if_neg fun hboth => hk hboth.2]
      exact hanswered i
  · obtain ⟨hkeeps, hown⟩ := h.keeps hrest
    refine ⟨⟨?_, fun i k' hi => (hkeeps.holds i k' hi).take k, hkeeps.back⟩, ?_⟩
    · show _ ≤ (take s.heap k).length
      rw [length_take]
      exact Nat.le_trans hkeeps.grows (Nat.le_succ _)
    · exact List.forall_mem_cons.mpr ⟨hkeeps.grows, hown⟩

/-- A request is made, and has to be answered. -/
theorem Owned.allocate_reqwrap (h : Owned atRest s₀ own todo s)
    {Q : Nat → Requests → Prop}
    (hQ : ∀ i t, Owned atRest s₀ ((i, .reqwrap) :: own) (i :: todo) t → Q i t) :
    Part library atRest s₀ (Requests.allocate .reqwrap) Q s := by
  refine hQ s.heap.length { s with heap := take s.heap .reqwrap }
    ⟨h.once.take _, h.valid, h.began, h.alive, h.owns.take _, h.start, fun d f hs => ?_,
      fun hrest => ?_⟩
  · obtain ⟨hlive, hanswered⟩ := h.accounts d f hs
    refine ⟨?_, fun i => ?_⟩
    · show live (take s.heap _) = _
      rw [live_take, hlive, List.length_cons]
      exact Nat.add_assoc ..
    · show wraps (take s.heap _) i = _
      rw [wraps_take, hanswered i, List.count_cons]
      simp only [and_true, beq_iff_eq, eq_comm (a := i), Nat.add_assoc]
  · obtain ⟨hkeeps, hown⟩ := h.keeps hrest
    refine ⟨⟨?_, fun i k' hi => (hkeeps.holds i k' hi).take _, hkeeps.back⟩, ?_⟩
    · show _ ≤ (take s.heap _).length
      rw [length_take]
      exact Nat.le_trans hkeeps.grows (Nat.le_succ _)
    · exact List.forall_mem_cons.mpr ⟨hkeeps.grows, hown⟩

/-- What is given back was owned. -/
theorem Owned.giveBack (front : List (Nat × Resource))
    (h : Owned atRest s₀ (front ++ (i, k) :: back) todo s)
    (hQ : ∀ t, Owned atRest s₀ (front ++ back) todo t → R () t) :
    Part library atRest s₀ (giveBack i) R s := by
  have howns : Owns s.heap (front ++ (i, k) :: (back ++ held s.pending)) := by
    have howns := h.owns
    rw [List.append_assoc, List.cons_append] at howns
    exact howns
  refine hQ { s with heap := release s.heap i }
    ⟨h.once.release howns.at, h.valid, h.began, h.alive, ?_, h.start, fun d f hs => ?_,
      fun hrest => ?_⟩
  · rw [List.append_assoc]
    exact howns.release
  · obtain ⟨hlive, hanswered⟩ := h.accounts d f hs
    refine ⟨?_, fun j => (wraps_release s.heap i j).trans (hanswered j)⟩
    have hone := live_release howns.at
    rw [hlive, List.length_append, List.length_cons] at hone
    show live (release s.heap i) =
      2 * s.pending.length + lostBy s.log + (d + (front ++ back).length)
    rw [List.length_append]
    omega
  · obtain ⟨hkeeps, hown⟩ := h.keeps hrest
    refine ⟨⟨?_, fun j k' hj => ?_, hkeeps.back⟩, fun p hp => hown p ?_⟩
    · show _ ≤ (release s.heap i).length
      rw [length_release]
      exact hkeeps.grows
    · -- what is given back was taken after the start
      have hlt := hj.lt_length
      have hge := hown (i, k) (List.mem_append_right _ List.mem_cons_self)
      exact (holds_release_ne_iff (by omega)).mpr (hkeeps.holds j k' hj)
    · rcases List.mem_append.mp hp with hp | hp
      · exact List.mem_append_left _ hp
      · exact List.mem_append_right _ (List.mem_cons_of_mem _ hp)

/-- What is owned may be used. -/
theorem Owned.touch (h : Owned atRest s₀ own todo s) (hi : (i, k) ∈ own)
    (hQ : ∀ t, Owned atRest s₀ own todo t → R () t) : Part library atRest s₀ (touch i) R s := by
  refine hQ { s with stale := s.stale || !isLive s.heap i }
    ⟨h.once, ?_, h.began, h.alive, h.owns, h.start, fun d f hs => ?_, fun hrest => ?_⟩
  rotate_left
  · exact ⟨(h.accounts d f hs).live, (h.accounts d f hs).answered⟩
  · exact ⟨(h.keeps hrest).1.of_eq rfl rfl, (h.keeps hrest).2⟩
  show (s.stale || !isLive s.heap i) = false
  rw [h.valid, (h.owns.holds (i, k) (List.mem_append_left _ hi)).isLive]
  rfl

/-- What is only taken under a condition. -/
abbrev optional (taken : Option Nat) (k : Resource) : List (Nat × Resource) :=
  taken.toList.map fun i => (i, k)

theorem Owned.allocateIf (h : Owned atRest s₀ own todo s) (hk : k ≠ .reqwrap) {b : Bool}
    {Q : Option Nat → Requests → Prop}
    (hQ : ∀ taken t, Owned atRest s₀ (optional taken k ++ own) todo t → Q taken t) :
    Part library atRest s₀ (allocateIf b k) Q s := by
  cases b with
  | true => exact .bind (h.allocate hk fun i t h => hQ (some i) t h)
  | false => exact hQ none s h

theorem Owned.giveBackIf (front : List (Nat × Resource)) {taken : Option Nat}
    (h : Owned atRest s₀ (front ++ (optional taken k ++ back)) todo s)
    (hQ : ∀ t, Owned atRest s₀ (front ++ back) todo t → R () t) :
    Part library atRest s₀ (giveBackIf taken) R s := by
  cases taken with
  | none => exact hQ s h
  | some i => exact h.giveBack front hQ

theorem Owned.touchIf (front : List (Nat × Resource)) {taken : Option Nat}
    (h : Owned atRest s₀ (front ++ (optional taken k ++ back)) todo s)
    (hQ : ∀ t, Owned atRest s₀ (front ++ (optional taken k ++ back)) todo t → R () t) :
    Part library atRest s₀ (touchIf taken) R s := by
  cases taken with
  | none => exact hQ s h
  | some i => exact h.touch (List.mem_append_right _ List.mem_cons_self) hQ

theorem lostBy_append (log : List RequestNote) (o : RequestNote) :
    lostBy (log ++ [o]) = lostBy log + lost o := by
  induction log with
  | nil => exact Nat.add_comm ..
  | cons o' log ih =>
      rw [List.cons_append, lostBy, lostBy, ih]
      exact (Nat.add_assoc ..).symm

/-- A note that changes nothing in the balance. -/
theorem Owned.note (h : Owned atRest s₀ own todo s) {o : RequestNote} (hlost : lost o = 0)
    (hanswers : ∀ i, answers i o = false) (hQ : ∀ t, Owned atRest s₀ own todo t → R () t) :
    Part library atRest s₀ (note o) R s := by
  refine hQ { s with log := s.log ++ [o] }
    ⟨h.once, h.valid, h.began, h.alive, h.owns, h.start, fun d f hs => ?_, fun hrest =>
      ⟨(h.keeps hrest).1.of_eq rfl rfl, (h.keeps hrest).2⟩⟩
  obtain ⟨hlive, hanswered⟩ := h.accounts d f hs
  refine ⟨?_, fun i => ?_⟩
  · show live s.heap = 2 * s.pending.length + lostBy (s.log ++ [o]) + _
    rw [lostBy_append, hlost]
    exact hlive
  · show wraps s.heap i = (s.log ++ [o]).countP (answers i) + _ + _
    rw [List.countP_append, List.countP_singleton, hanswers i]
    exact hanswered i

/-- The note that a request is answered. -/
theorem Owned.answer (h : Owned atRest s₀ own (i :: todo) s) {o : RequestNote} (hlost : lost o = 0)
    (hanswers : ∀ j, answers j o = (i == j)) (hQ : ∀ t, Owned atRest s₀ own todo t → R () t) :
    Part library atRest s₀ (Requests.note o) R s := by
  refine hQ { s with log := s.log ++ [o] }
    ⟨h.once, h.valid, h.began, h.alive, h.owns, h.start, fun d f hs => ?_, fun hrest =>
      ⟨(h.keeps hrest).1.of_eq rfl rfl, (h.keeps hrest).2⟩⟩
  obtain ⟨hlive, hanswered⟩ := h.accounts d f hs
  refine ⟨?_, fun j => ?_⟩
  · show live s.heap = 2 * s.pending.length + lostBy (s.log ++ [o]) + _
    rw [lostBy_append, hlost]
    exact hlive
  · show wraps s.heap j = (s.log ++ [o]).countP (answers j) +
      (s.pending.map Request.wrap).count j + (f j + todo.count j)
    have hj := hanswered j
    rw [List.count_cons] at hj
    rw [List.countP_append, List.countP_singleton, hanswers j, hj]
    omega

/-- The note that something is lost, with what is lost. -/
theorem Owned.lose (h : Owned atRest s₀ own todo s) {own' : List (Nat × Resource)}
    (hsub : own'.Sublist own) {o : RequestNote} (hlost : lost o + own'.length = own.length)
    (hanswers : ∀ i, answers i o = false) (hQ : ∀ t, Owned atRest s₀ own' todo t → R () t) :
    Part library atRest s₀ (Requests.note o) R s := by
  refine hQ { s with log := s.log ++ [o] }
    ⟨h.once, h.valid, h.began, h.alive, ?_, h.start, fun d f hs => ?_, fun hrest => ?_⟩
  · exact h.owns.sublist (hsub.append_right _)
  · obtain ⟨hlive, hanswered⟩ := h.accounts d f hs
    refine ⟨?_, fun i => ?_⟩
    · show live s.heap = 2 * s.pending.length + lostBy (s.log ++ [o]) + (d + own'.length)
      rw [lostBy_append, hlive, ← hlost]
      omega
    · show wraps s.heap i = (s.log ++ [o]).countP (answers i) + _ + _
      rw [List.countP_append, List.countP_singleton, hanswers i]
      exact hanswered i
  · exact ⟨(h.keeps hrest).1.of_eq rfl rfl, fun p hp => (h.keeps hrest).2 p (hsub.subset hp)⟩

theorem Owned.iotjsAssert (h : Owned atRest s₀ own todo s) {holds : Bool}
    (hholds : library = true → holds = true) (hQ : holds = true → R () s) :
    Part library atRest s₀ (iotjsAssert holds) R s := by
  cases holds with
  | true => exact hQ rfl
  | false =>
      refine h.postAt_aborted ?_
      by_contra hlibrary
      exact Bool.false_ne_true (hholds (eq_true_of_ne_false hlibrary))

theorem Owned.assertHas (h : Owned atRest s₀ own todo s) {name : String} {type : JsType}
    (hQ : R () s) : Part library atRest s₀ (assertHas name type) R s :=
  .bind (.ask fun _ hanswer => h.iotjsAssert (fun hlibrary => decide_eq_true (hanswer hlibrary))
    fun _ => hQ)

/-- libuv gets what a request has. -/
theorem Owned.accept {r : Request}
    (h : Owned atRest s₀ ((r.jcallback, .jcallback) :: (r.wrap, .reqwrap) :: own)
      (r.wrap :: todo) s)
    (hQ : ∀ t, Owned atRest s₀ own todo t → R () t) : Part library atRest s₀ (accept r) R s := by
  have hheld : held (s.pending ++ [r]) =
      held s.pending ++ [(r.wrap, .reqwrap), (r.jcallback, .jcallback)] := by
    rw [held, List.flatMap_append]
    rfl
  refine hQ { s with pending := s.pending ++ [r] }
    ⟨h.once, h.valid, h.began, h.alive, ?_, h.start, fun d f hs => ?_, fun hrest => ?_⟩
  · refine h.owns.perm ?_
    rw [hheld]
    refine (List.Perm.swap _ _ _).trans ?_
    rw [← List.append_assoc]
    exact @List.perm_append_comm _ [(r.wrap, Resource.reqwrap), (r.jcallback, .jcallback)] _
  · obtain ⟨hlive, hanswered⟩ := h.accounts d f hs
    refine ⟨?_, fun i => ?_⟩
    · show live s.heap = 2 * (s.pending ++ [r]).length + lostBy s.log + (d + own.length)
      rw [hlive, List.length_append, List.length_singleton, List.length_cons, List.length_cons]
      omega
    · show wraps s.heap i = s.log.countP (answers i) +
        ((s.pending ++ [r]).map Request.wrap).count i + (f i + todo.count i)
      have hi := hanswered i
      rw [List.count_cons] at hi
      rw [List.map_append, List.map_singleton, List.count_append, List.count_singleton, hi]
      omega
  · obtain ⟨hkeeps, hown⟩ := h.keeps hrest
    refine ⟨⟨hkeeps.grows, hkeeps.holds, fun i k hi hmem => ?_⟩, fun p hp =>
      hown p (List.mem_cons_of_mem _ (List.mem_cons_of_mem _ hp))⟩
    rw [hheld, List.map_append, List.mem_append] at hmem
    rcases hmem with hmem | hmem
    · exact hkeeps.back i k hi hmem
    · -- what libuv gets was taken after the start
      have hlt := hi.lt_length
      have hwrap := hown _ (List.mem_cons_of_mem _ List.mem_cons_self)
      have hcallback := hown _ List.mem_cons_self
      simp only [List.map_cons, List.map_nil, List.mem_cons, List.not_mem_nil, or_false] at hmem
      rcases hmem with rfl | rfl <;> omega

/-! ### Arguments and calls -/

variable {capacity argc : Nat}

theorem argsOf_holds (h : Holds s.heap i (.jargs capacity argc)) :
    argsOf s i = (capacity, argc) := by
  rw [argsOf, h]

theorem wraps_update {heap : List (Entry Resource)} (h : Holds heap i (.jargs capacity argc))
    (capacity' argc' j : Nat) :
    wraps (update heap i (.jargs capacity' argc')) j = wraps heap j := by
  rw [wraps, wraps, update, List.getElem?_modify]
  by_cases hij : i = j
  · rw [← hij, h]
    simp
  · simp only [if_neg hij, Option.map_eq_map, Option.map_id_fun', id_eq]

theorem Owned.jargsAppend (front : List (Nat × Resource))
    (h : Owned atRest s₀ (front ++ (i, .jargs capacity argc) :: back) todo s)
    (hroom : argc < capacity)
    (hQ : ∀ t, Owned atRest s₀ (front ++ (i, .jargs capacity (argc + 1)) :: back) todo t → R () t) :
    Part library atRest s₀ (jargsAppend i) R s := by
  refine .bind (h.touch (List.mem_append_right _ List.mem_cons_self) fun s h => ?_)
  have howns : Owns s.heap (front ++ (i, .jargs capacity argc) :: (back ++ held s.pending)) := by
    have howns := h.owns
    rw [List.append_assoc, List.cons_append] at howns
    exact howns
  refine .bind (.get ?_)
  rw [argsOf_holds howns.at]
  refine .bind (h.iotjsAssert (fun _ => decide_eq_true hroom) fun _ => ?_)
  refine hQ { s with heap := update s.heap i (.jargs capacity (argc + 1)) }
    ⟨h.once.update _ _, h.valid, h.began, h.alive, ?_, h.start, fun d f hs => ?_, fun hrest => ?_⟩
  · rw [List.append_assoc, List.cons_append]
    exact howns.update _
  · obtain ⟨hlive, hanswered⟩ := h.accounts d f hs
    refine ⟨?_, fun j => (wraps_update howns.at _ _ j).trans (hanswered j)⟩
    rw [List.length_append, List.length_cons] at hlive ⊢
    exact (live_update ..).trans hlive
  · obtain ⟨hkeeps, hown⟩ := h.keeps hrest
    have hge := hown (i, .jargs capacity argc) (List.mem_append_right _ List.mem_cons_self)
    refine ⟨⟨?_, fun j k' hj => ?_, hkeeps.back⟩, fun p hp => ?_⟩
    · show _ ≤ (update s.heap i _).length
      rw [length_update]
      exact hkeeps.grows
    · have hlt := hj.lt_length
      exact (holds_update_ne_iff (by omega)).mpr (hkeeps.holds j k' hj)
    · rw [List.mem_append, List.mem_cons] at hp
      rcases hp with hp | rfl | hp
      · exact hown p (List.mem_append_left _ hp)
      · exact hge
      · exact hown p (List.mem_append_right _ (List.mem_cons_of_mem _ hp))

theorem Owned.jargsAppendNew (front : List (Nat × Resource))
    (h : Owned atRest s₀ (front ++ (i, .jargs capacity argc) :: back) todo s)
    (hroom : argc < capacity)
    (hQ : ∀ t, Owned atRest s₀ (front ++ (i, .jargs capacity (argc + 1)) :: back) todo t → R () t) :
    Part library atRest s₀ (jargsAppendNew i) R s :=
  .bind (h.allocate (by decide) fun j _ h => .bind (h.jargsAppend ((j, .jval) :: front) hroom
    fun _ h => h.giveBack [] hQ))

theorem Owned.jargsReplace (h : Owned atRest s₀ own todo s) (hi : (i, .jargs capacity argc) ∈ own)
    {index : Nat} (hindex : index < argc) (hQ : ∀ t, Owned atRest s₀ own todo t → R () t) :
    Part library atRest s₀ (jargsReplace i index) R s := by
  refine .bind (h.touch hi fun s h => .bind (.get ?_))
  rw [argsOf_holds (h.owns.holds _ (List.mem_append_left _ hi))]
  exact h.iotjsAssert (fun _ => decide_eq_true hindex) fun _ => hQ s h

theorem Owned.jargsDestroy (front : List (Nat × Resource))
    (h : Owned atRest s₀ (front ++ (i, .jargs capacity (argc + 1)) :: back) todo s)
    (hfits : argc < capacity) (hQ : ∀ t, Owned atRest s₀ (front ++ back) todo t → R () t) :
    Part library atRest s₀ (jargsDestroy i) R s := by
  refine .bind (.get ?_)
  rw [argsOf_holds (h.owns.holds _ (List.mem_append_left _
    (List.mem_append_right _ List.mem_cons_self)))]
  refine .bind (h.iotjsAssert (fun _ => decide_eq_true (Nat.succ_pos argc)) fun _ => ?_)
  exact .bind (h.iotjsAssert (fun _ => decide_eq_true hfits) fun _ => h.giveBack front hQ)

theorem Owned.jhelperCall (h : Owned atRest s₀ own todo s) {f : RequestYield} {jargs : Option Nat}
    (hjargs : ∀ j ∈ jargs, ∃ capacity argc, (j, .jargs capacity argc) ∈ own)
    {Q : Nat → Requests → Prop} (hQ : ∀ i t, Owned atRest s₀ ((i, .jval) :: own) todo t → Q i t) :
    Part library atRest s₀ (jhelperCall f jargs) Q s := by
  cases jargs with
  | none => exact .bind (h.yieldTo fun _ h => h.allocate (by decide) hQ)
  | some j =>
      obtain ⟨capacity, argc, hj⟩ := hjargs j rfl
      refine .bind (h.touch hj fun _ h => .bind (h.allocate (by decide) fun jargv _ h => ?_))
      exact .bind (h.yieldTo fun _ h => .bind (h.giveBack [] fun _ h => h.allocate (by decide) hQ))

theorem Owned.jhelperCallOk (h : Owned atRest s₀ own todo s) {f : RequestYield} {jargs : Option Nat}
    (hjargs : ∀ j ∈ jargs, ∃ capacity argc, (j, .jargs capacity argc) ∈ own)
    {Q : Nat → Requests → Prop} (hQ : ∀ i t, Owned atRest s₀ ((i, .jval) :: own) todo t → Q i t) :
    Part library atRest s₀ (jhelperCallOk f jargs) Q s :=
  .bind (h.jhelperCall hjargs fun i t h => .bind (.ask fun _ hanswer => .bind (h.iotjsAssert
    (fun hlibrary => decide_eq_true (hanswer hlibrary)) fun _ => hQ i t h)))

theorem Owned.uncaughtException (h : Owned atRest s₀ own todo s)
    (hQ : ∀ t, Owned atRest s₀ own todo t → R () t) :
    Part library atRest s₀ uncaughtException R s := by
  refine .bind (h.allocate (by decide) fun f _ h => .bind (h.assertHas ?_))
  refine .bind (h.allocate (by decide) fun args _ h => ?_)
  refine .bind (h.jargsAppend [] (by decide) fun _ h => ?_)
  refine .bind (h.jhelperCallOk (fun _ hj => ?_) fun jres _ h => ?_)
  · exact ⟨1, 1, by rw [← Option.mem_some.mp hj]; exact List.mem_cons_self⟩
  · refine .bind (h.giveBack [] fun _ h => ?_)
    exact .bind (h.jargsDestroy [] (by decide) fun _ h => h.giveBack [] hQ)

theorem Owned.processNextTick (h : Owned atRest s₀ own todo s)
    (hQ : ∀ t, Owned atRest s₀ own todo t → R () t) :
    Part library atRest s₀ processNextTick R s := by
  refine .bind (h.allocate (by decide) fun f _ h => .bind (h.assertHas ?_))
  refine .bind (h.jhelperCallOk (fun _ hj => by cases hj) fun jres _ h => ?_)
  refine .bind (h.assertHas ?_)
  exact .bind (h.giveBack [] fun _ h => h.giveBack [] hQ)

theorem Owned.makeCallback (h : Owned atRest s₀ own todo s) {f : RequestYield}
    (hi : (i, .jargs capacity argc) ∈ own) (hQ : ∀ t, Owned atRest s₀ own todo t → R () t) :
    Part library atRest s₀ (makeCallback f i) R s := by
  refine .bind (h.jhelperCall (fun _ hj => ?_) fun jres _ h => .bind (.ask fun throws _ => ?_))
  · exact ⟨capacity, argc, by rw [← Option.mem_some.mp hj]; exact hi⟩
  · have hrest : ∀ t, Owned atRest s₀ ((jres, .jval) :: own) todo t →
        Part library atRest s₀ (do Requests.processNextTick; Requests.giveBack jres) R t :=
      fun _ h => .bind (h.processNextTick fun _ h => h.giveBack [] hQ)
    dsimp only
    split
    · exact .bind (h.uncaughtException hrest)
    · exact hrest _ h

/-! ### What JavaScript gets -/

theorem Owned.returnNumber (h : Owned atRest s₀ own todo s) {n : Int}
    (hQ : ∀ t, Owned atRest s₀ own todo t → R () t) :
    Part library atRest s₀ (returnNumber n) R s :=
  .bind (h.allocate (by decide) fun _ _ h => .bind (h.note rfl (fun _ => rfl) fun _ h =>
    h.giveBack [] hQ))

theorem Owned.jhandlerThrow (h : Owned atRest s₀ own todo s) {message : String}
    (hlost : lost (.thrown message) = 0) (hQ : ∀ t, Owned atRest s₀ own todo t → R () t) :
    Part library atRest s₀ (jhandlerThrow message) R s :=
  .bind (h.allocate (by decide) fun _ _ h => .bind (h.note hlost (fun _ => rfl) fun _ h =>
    h.giveBack [] hQ))

/-- A function that has taken nothing may leave. -/
theorem Owned.fail (h : Owned atRest s₀ [] [] s) {e : String} :
    Part library atRest s₀ (Prog.fail e : Requesting α) Q s :=
  h.postAt

theorem lost_internal (name : String) :
    lost (.thrown ("Internal error (___" ++ name ++ "_native)")) = 0 := by
  rw [lost, if_neg]
  intro heq
  have hfirst : "Internal error (___".toList.head? = some 'I' := by decide
  have hhead := congrArg (fun text => text.toList.head?) heq
  simp only [String.toList_append, List.head?_append, hfirst, Option.some_or] at hhead
  exact absurd hhead (by decide)

theorem Owned.jhandlerCheck (h : Owned atRest s₀ [] [] s) {name : String} {holds : Bool}
    (hQ : ∀ t, Owned atRest s₀ [] [] t → holds = true → R () t) :
    Part library atRest s₀ (jhandlerCheck name holds) R s := by
  cases holds with
  | true => exact hQ s h rfl
  | false => exact .bind (h.jhandlerThrow (lost_internal name) fun _ h => h.fail)

theorem Owned.getArg (h : Owned atRest s₀ own todo s) {args : List JsType} {index : Nat}
    (hindex : library = true → index < args.length) {Q : JsType → Requests → Prop}
    (hQ : Q (args.getD index .undefined) s) : Part library atRest s₀ (getArg args index) Q s :=
  .bind (h.iotjsAssert (fun hlibrary => decide_eq_true (hindex hlibrary)) fun _ => hQ)

theorem Owned.checkTypes (h : Owned atRest s₀ [] [] s) {name : String} {args types : List JsType}
    {index : Nat} (hlength : library = true → index + types.length ≤ args.length)
    (hQ : ∀ t, Owned atRest s₀ [] [] t → R () t) :
    Part library atRest s₀ (checkTypes name args index types) R s := by
  induction types generalizing index s with
  | nil => exact hQ s h
  | cons type types ih =>
      refine .bind (h.getArg (fun hlibrary => ?_) (.bind (h.jhandlerCheck fun t h _ => ih h
        fun hlibrary => ?_)))
      · have hle := hlength hlibrary
        rw [List.length_cons] at hle
        omega
      · have hle := hlength hlibrary
        rw [List.length_cons] at hle
        omega

theorem Owned.checkArgs (h : Owned atRest s₀ [] [] s) {name : String} {args types : List JsType}
    (hQ : ∀ t, Owned atRest s₀ [] [] t → R () t) :
    Part library atRest s₀ (checkArgs name args types) R s :=
  .bind (h.jhandlerCheck fun _ h hlength => h.checkTypes
    (fun _ => by rw [Nat.zero_add]; exact of_decide_eq_true hlength) hQ)

theorem Owned.checkArgIfExist (h : Owned atRest s₀ [] [] s) {name : String} {args : List JsType}
    {index : Nat} {type : JsType} (hQ : ∀ t, Owned atRest s₀ [] [] t → R () t) :
    Part library atRest s₀ (checkArgIfExist name args index type) R s := by
  rw [Requests.checkArgIfExist]
  split
  · rename_i hindex
    exact .bind (h.getArg (fun _ => hindex) (h.jhandlerCheck fun t h _ => hQ t h))
  · exact hQ s h

/-! ### Requests -/

/-- What a function has that has made a request. -/
abbrev requestOwn (r : Request) (own : List (Nat × Resource)) : List (Nat × Resource) :=
  (r.jcallback, .jcallback) :: (r.wrap, .reqwrap) :: own

theorem Owned.reqwrapCreate (h : Owned atRest s₀ own todo s) {kind : RequestKind} {type : JsType}
    (htype : library = true → type = .function) {Q : Request → Requests → Prop}
    (hQ : ∀ r t, r.kind = kind → Owned atRest s₀ (requestOwn r own) (r.wrap :: todo) t → Q r t) :
    Part library atRest s₀ (reqwrapCreate kind type) Q s := by
  refine .bind (h.allocate_reqwrap fun wrap _ h => ?_)
  refine .bind (h.iotjsAssert (fun hlibrary => ?_) fun _ => ?_)
  · rw [htype hlibrary]
    rfl
  · exact .bind (h.allocate (by decide) fun copy t h => hQ ⟨kind, wrap, copy⟩ t rfl h)

theorem Owned.dispatched {r : Request} (h : Owned atRest s₀ (requestOwn r own) todo s)
    (hQ : ∀ t, Owned atRest s₀ own todo t → R () t) :
    Part library atRest s₀ (dispatched r) R s :=
  .bind (h.touch (List.mem_cons_of_mem _ List.mem_cons_self) fun _ h =>
    .bind (h.giveBack [] fun _ h => h.giveBack [] hQ))

theorem Owned.reject {r : Request} (h : Owned atRest s₀ (requestOwn r own) (r.wrap :: todo) s)
    (hQ : ∀ t, Owned atRest s₀ own todo t → R () t) : Part library atRest s₀ (reject r) R s :=
  .bind (h.answer rfl (fun _ => rfl) fun _ h => h.dispatched hQ)

theorem Owned.submit {r : Request} (h : Owned atRest s₀ (requestOwn r own) (r.wrap :: todo) s)
    {q : RequestAsk} {Q : Int → Requests → Prop}
    (hQ : ∀ err t, Owned atRest s₀ own todo t → Q err t) :
    Part library atRest s₀ (submit r q) Q s := by
  refine .bind (h.touch (List.mem_cons_of_mem _ List.mem_cons_self) fun _ h =>
    .bind (.ask fun err _ => ?_))
  dsimp only
  split
  · exact .bind (h.reject (hQ err))
  · exact .bind (h.accept (hQ err))

theorem Owned.callBack (front : List (Nat × Resource)) {r : Request}
    (h : Owned atRest s₀ (front ++ (i, .jargs capacity argc) :: requestOwn r own)
      (r.wrap :: todo) s)
    {args : List JsValue}
    (hQ : ∀ t, Owned atRest s₀ (front ++ (i, .jargs capacity argc) :: requestOwn r own) todo t →
      R () t) :
    Part library atRest s₀ (callBack r args i) R s := by
  have hmem : ∀ p ∈ requestOwn r own, p ∈ front ++ (i, .jargs capacity argc) :: requestOwn r own :=
    fun p hp => List.mem_append_right _ (List.mem_cons_of_mem _ hp)
  refine .bind (h.touch (hmem _ (List.mem_cons_of_mem _ List.mem_cons_self)) fun _ h => ?_)
  refine .bind (h.touch (hmem _ List.mem_cons_self) fun _ h => ?_)
  refine .bind (h.answer rfl (fun _ => rfl) fun _ h => ?_)
  exact h.makeCallback (List.mem_append_right _ List.mem_cons_self) hQ

end Requests

end IotJs

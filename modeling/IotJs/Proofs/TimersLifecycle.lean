import IotJs.Core.Timers
import IotJs.Lib.History
import IotJs.Lib.Reentrant.Contract
import IotJs.Lib.Reentrant.Play

/-!
# `IotJs.Proofs.TimersLifecycle`: the life of a timer

A timer is open while its callback is set: then the `Timeout` and the native `Timer` know each
other, and nobody has asked the handle to stop. `close` tears both apart and asks the handle to
stop; a second `close` finds no handle any more. `Cell` states this for one timer, with what is
recorded of it, and `TimersInv` for all of them. Every function changes one timer only
(`Changed`), so `TimersInv.changed` reduces each to the cell of that timer.

While a callback runs, outside code may do anything with any timer, the running one included.
What `handleTimeout` does afterwards is right in each case: a timer that was closed meanwhile has
no handle, and one that is open is closed, unless it repeats.
-/

set_option autoImplicit false

namespace IotJs.Timers

open Reentrant

/-! ### The cell of one timer -/

/-- What is true of a timer with the number `id` and the history `notes`. -/
structure Cell (id : Nat) (timeout : Timeout) (timer : TimerWrap) (notes : List TimerNote) :
    Prop where
  /-- a timer that does not repeat fires while it is active, and is inactive then -/
  once : timeout.isrepeat = false →
    notes.count .called + (if timer.active then 1 else 0) ≤ 1
  after : 1 ≤ timeout.after
  repeats : timer.repeats = if timeout.isrepeat then timeout.after else 0
  silent : History.Always (fun pre note => note = .called → .cleared ∉ pre) notes
  opened : timeout.callback = true →
    timeout.handler = some id ∧ timer.timeoutObj = some id ∧ timer.closing = false ∧
      .stopped ∉ notes ∧ .cleared ∉ notes ∧ (timeout.isrepeat = false → .returned ∉ notes) ∧
      (timeout.isrepeat = true → timer.active = true)
  closed : timeout.callback = false →
    timeout.handler = none ∧ timer.timeoutObj = none ∧ timer.active = false ∧
      notes.count .stopped = 1 ∧ (timeout.isrepeat = true → .cleared ∈ notes)

structure TimersInv (s : Timers) : Prop where
  length : s.timers.length = s.timeouts.length
  known : ∀ entry ∈ s.log, entry.1 < s.timeouts.length
  cell : ∀ id timeout timer, s.timeouts[id]? = some timeout → s.timers[id]? = some timer →
    Cell id timeout timer (s.history id)

section changed

variable {s s' : Timers} {id : Nat} {f : Timeout → Timeout} {g : TimerWrap → TimerWrap}
variable {notes : List TimerNote}

/-- Only the timer `id` changes, and `notes` are recorded of it. -/
structure Changed (id : Nat) (f : Timeout → Timeout) (g : TimerWrap → TimerWrap)
    (notes : List TimerNote) (s s' : Timers) : Prop where
  timeouts : s'.timeouts = s.timeouts.modify id f
  timers : s'.timers = s.timers.modify id g
  log : s'.log = s.log ++ notes.map (Prod.mk id)

theorem history_append (s : Timers) (new : List (Nat × TimerNote)) (id : Nat) :
    { s with log := s.log ++ new }.history id =
      s.history id ++ (new.filter fun entry => entry.1 = id).map Prod.snd := by
  rw [history, List.filter_append, List.map_append]
  rfl

theorem Changed.history_same (h : Changed id f g notes s s') :
    s'.history id = s.history id ++ notes := by
  have hlog := history_append s (notes.map (Prod.mk id)) id
  rw [history, h.log]
  refine hlog.trans (congrArg (s.history id ++ ·) ?_)
  rw [List.filter_eq_self.mpr (by simp), List.map_map]
  exact List.map_id notes

theorem Changed.history_other (h : Changed id f g notes s s') {j : Nat} (hj : id ≠ j) :
    s'.history j = s.history j := by
  have hlog := history_append s (notes.map (Prod.mk id)) j
  rw [history, h.log]
  refine hlog.trans ?_
  rw [List.filter_eq_nil_iff.mpr (by simp [hj]), List.map_nil, List.append_nil]

/-- A change keeps the invariant if it keeps the cell of its timer. -/
theorem TimersInv.changed (hs : TimersInv s) (h : Changed id f g notes s s')
    (hid : id < s.timeouts.length)
    (hcell : ∀ timeout timer, s.timeouts[id]? = some timeout → s.timers[id]? = some timer →
      Cell id (f timeout) (g timer) (s.history id ++ notes)) : TimersInv s' where
  length := by
    rw [h.timeouts, h.timers, List.length_modify, List.length_modify]
    exact hs.length
  known := by
    intro entry hentry
    rw [h.timeouts, List.length_modify]
    rw [h.log, List.mem_append] at hentry
    rcases hentry with hold | hnew
    · exact hs.known entry hold
    · obtain ⟨note, -, rfl⟩ := List.mem_map.mp hnew
      exact hid
  cell := by
    intro j timeout timer htimeout htimer
    rw [h.timeouts] at htimeout
    rw [h.timers] at htimer
    by_cases hj : id = j
    · subst hj
      rw [List.getElem?_modify_eq, Option.map_eq_map, Option.map_eq_some_iff] at htimeout htimer
      obtain ⟨timeout₀, htimeout, rfl⟩ := htimeout
      obtain ⟨timer₀, htimer, rfl⟩ := htimer
      rw [h.history_same]
      exact hcell timeout₀ timer₀ htimeout htimer
    · rw [List.getElem?_modify_ne _ _ hj] at htimeout htimer
      rw [h.history_other hj]
      exact hs.cell j timeout timer htimeout htimer

theorem changed_record (note : TimerNote) (s : Timers) :
    Changed id (fun timeout => timeout) (fun timer => timer) [note] s (s.record id note) where
  timeouts := (List.modify_id id s.timeouts).symm
  timers := (List.modify_id id s.timers).symm
  log := rfl

/-- A handle that is asked to stop. -/
def stopped (timer : TimerWrap) : TimerWrap :=
  if timer.closing then timer else { timer with active := false, closing := true }

/-- `close` of a timer that has its handle, after `note` was recorded. -/
theorem changed_close (note : TimerNote) (h : s.timeouts[id]?.bind Timeout.handler = some id) :
    Changed id (fun timeout => { timeout with callback := false, handler := none })
      (fun timer => stopped { timer with timeoutObj := none }) [note, .stopped] s
      (close id (s.record id note)) := by
  have hfind : (modifyTimeout id (fun timeout => { timeout with callback := false })
      (s.record id note)).timeouts[id]?.bind Timeout.handler = some id := by
    obtain ⟨timeout, htimeout, hhandler⟩ := Option.bind_eq_some_iff.mp h
    simp [modifyTimeout, record, htimeout, hhandler]
  rw [close, hfind]
  -- the two objects are torn apart by several writes to the same places
  constructor
  · simp only [modifyTimeout, stop, modifyTimer, record, List.modify_modify_eq]
    rfl
  · simp only [modifyTimeout, stop, modifyTimer, record, List.modify_modify_eq]
    rfl
  · simp only [modifyTimeout, stop, modifyTimer, record, List.append_assoc]
    rfl

/-- `close` of a timer that was closed before. -/
theorem changed_close_again (note : TimerNote) (h : s.timeouts[id]?.bind Timeout.handler = none) :
    Changed id (fun timeout => { timeout with callback := false }) (fun timer => timer) [note] s
      (close id (s.record id note)) := by
  have hfind : (modifyTimeout id (fun timeout => { timeout with callback := false })
      (s.record id note)).timeouts[id]?.bind Timeout.handler = none := by
    cases htimeout : s.timeouts[id]? with
    | none => simp [modifyTimeout, record, htimeout]
    | some timeout =>
        rw [htimeout] at h
        have hhandler : timeout.handler = none := h
        simp [modifyTimeout, record, htimeout, hhandler]
  rw [close, hfind]
  exact ⟨rfl, (List.modify_id id s.timers).symm, rfl⟩

end changed

/-! ### What is done to a timer -/

section cell

variable {id : Nat} {timeout : Timeout} {timer : TimerWrap} {notes : List TimerNote}

/-- A note that leaves the counts alone, after which the callback is not called again. -/
theorem Cell.silent_note (h : Cell id timeout timer notes) {note : TimerNote}
    (hnote : note ≠ .called) :
    History.Always (fun pre note => note = .called → .cleared ∉ pre) (notes ++ [note]) := by
  simp only [History.always_append, History.always_cons, History.always_nil, and_true]
  exact ⟨h.silent, fun hcalled => absurd hcalled hnote⟩

/-- An open timer is closed: it was cleared, or its callback returned and it does not repeat. -/
theorem Cell.close (h : Cell id timeout timer notes) (hopen : timeout.callback = true)
    {note : TimerNote} (hnote : note = .cleared ∨ note = .returned ∧ timeout.isrepeat = false) :
    Cell id { timeout with callback := false, handler := none }
      (stopped { timer with timeoutObj := none }) (notes ++ [note, .stopped]) := by
  obtain ⟨-, -, hclosing, hstopped, hcleared, -, -⟩ := h.opened hopen
  have hcalled : note ≠ .called ∧ note ≠ .stopped := by
    rcases hnote with rfl | ⟨rfl, -⟩
    · exact ⟨nofun, nofun⟩
    · exact ⟨nofun, nofun⟩
  -- the handle of an open timer does not close yet, so it is asked to
  have hstop : stopped { timer with timeoutObj := none } =
      { timer with timeoutObj := none, active := false, closing := true } := by
    rw [stopped, hclosing]
    rfl
  rw [hstop]
  refine ⟨fun hrepeat => ?_, h.after, h.repeats, ?_, nofun, fun _ => ⟨rfl, rfl, rfl, ?_, ?_⟩⟩
  · have hle := h.once hrepeat
    have hnone : [note, .stopped].count .called = 0 :=
      List.count_eq_zero.mpr (by simp [Ne.symm hcalled.1])
    rw [List.count_append, hnone]
    simp only [Bool.false_eq_true, if_false]
    omega
  · simp only [History.always_append, History.always_cons, History.always_nil, and_true]
    exact ⟨h.silent, fun heq => absurd heq hcalled.1, by simp⟩
  · rw [List.count_append, List.count_eq_zero.mpr hstopped, Nat.zero_add,
      List.count_cons_of_ne hcalled.2]
    rfl
  · intro hrepeat
    rcases hnote with rfl | ⟨-, hnone⟩
    · simp
    · rw [hrepeat] at hnone
      cases hnone

/-- A timer that is closed already only gets the note. -/
theorem Cell.close_again (h : Cell id timeout timer notes) (hclosed : timeout.callback = false)
    {note : TimerNote} (hnote : note = .cleared ∨ note = .returned) :
    Cell id { timeout with callback := false } timer (notes ++ [note]) := by
  obtain ⟨hhandler, hobj, hactive, hcount, hcleared⟩ := h.closed hclosed
  have hother : note ≠ .called ∧ note ≠ .stopped := by
    rcases hnote with rfl | rfl
    · exact ⟨nofun, nofun⟩
    · exact ⟨nofun, nofun⟩
  refine ⟨fun hrepeat => ?_, h.after, h.repeats, h.silent_note hother.1, nofun,
    fun _ => ⟨hhandler, hobj, hactive, ?_, fun hrepeat => ?_⟩⟩
  · have hle := h.once hrepeat
    have hnone : [note].count .called = 0 := List.count_eq_zero.mpr (by simp [Ne.symm hother.1])
    rw [List.count_append, hnone]
    exact hle
  · rw [List.count_append, hcount, List.count_eq_zero.mpr (by simp [Ne.symm hother.2])]
  · exact List.mem_append_left _ (hcleared hrepeat)

/-- The callback of a timer that repeats returned. -/
theorem Cell.returned (h : Cell id timeout timer notes) (hrepeat : timeout.isrepeat = true) :
    Cell id timeout timer (notes ++ [.returned]) := by
  refine ⟨fun hnone => ?_, h.after, h.repeats, h.silent_note nofun, fun hopen => ?_,
    fun hclosed => ?_⟩
  · rw [hrepeat] at hnone
    cases hnone
  · obtain ⟨hhandler, hobj, hclosing, hstopped, hcleared, -, hactive⟩ := h.opened hopen
    refine ⟨hhandler, hobj, hclosing, by simp [hstopped], by simp [hcleared], fun hnone => ?_,
      hactive⟩
    rw [hrepeat] at hnone
    cases hnone
  · obtain ⟨hhandler, hobj, hactive, hcount, hcleared⟩ := h.closed hclosed
    refine ⟨hhandler, hobj, hactive, ?_, fun _ => List.mem_append_left _ (hcleared hrepeat)⟩
    rw [List.count_append, hcount]
    rfl

/-- The handle of an open timer fires. -/
theorem Cell.called (h : Cell id timeout timer notes) (hopen : timeout.callback = true)
    (hactive : timer.active = true) :
    Cell id timeout { timer with active := timer.repeats ≠ 0 } (notes ++ [.called]) := by
  obtain ⟨hhandler, hobj, hclosing, hstopped, hcleared, hreturned, -⟩ := h.opened hopen
  refine ⟨fun hrepeat => ?_, h.after, h.repeats, ?_, fun _ => ?_, fun hclosed => ?_⟩
  · -- a handle that does not repeat is no longer active
    have hle := h.once hrepeat
    have hrepeats : timer.repeats = 0 := by
      rw [h.repeats, hrepeat]
      rfl
    rw [hactive, if_pos rfl] at hle
    rw [List.count_append, hrepeats]
    show notes.count .called + 1 + 0 ≤ 1
    omega
  · simp only [History.always_append, History.always_cons, History.always_nil, and_true]
    exact ⟨h.silent, fun _ => by simpa using hcleared⟩
  · refine ⟨hhandler, hobj, hclosing, by simp [hstopped], by simp [hcleared],
      fun hrepeat => by simp [hreturned hrepeat], fun hrepeat => ?_⟩
    -- a handle that repeats was re-armed, as its delay is not 0
    have hafter := h.after
    have hrepeats : timer.repeats = timeout.after := by
      rw [h.repeats, hrepeat]
      rfl
    exact decide_eq_true (by omega)
  · rw [hopen] at hclosed
    cases hclosed

theorem clamp_pos (delay : Int) : 1 ≤ clamp delay := by
  rw [clamp]
  split <;> omega

/-- A timer that was just made. -/
theorem Cell.new (id : Nat) (isrepeat : Bool) (delay : Int) :
    Cell id ⟨clamp delay, isrepeat, true, some id⟩
      ⟨some id, true, if isrepeat then clamp delay else 0, false⟩ [] where
  once _ := Nat.le_refl 1
  after := clamp_pos delay
  repeats := rfl
  silent := History.always_nil _
  opened _ := ⟨rfl, rfl, rfl, nofun, nofun, fun _ => nofun, fun _ => rfl⟩
  closed := nofun

end cell

/-! ### The functions keep the invariant -/

section inv

variable {s : Timers} {id : Nat}

theorem modify_concat {α : Type} (l : List α) (a : α) (f : α → α) :
    (l ++ [a]).modify l.length f = l ++ [f a] := by
  induction l with
  | nil => rfl
  | cons b l ih => exact congrArg (b :: ·) ih

theorem add_eq (isrepeat : Bool) (delay : Int) (s : Timers) :
    add isrepeat delay s =
      { s with
        timeouts := s.timeouts ++ [⟨clamp delay, isrepeat, true, some s.timers.length⟩]
        timers := s.timers ++
          [⟨some s.timeouts.length, true, if isrepeat then clamp delay else 0, false⟩] } := by
  simp only [add, activate, startTimer, modifyTimeout, modifyTimer, modify_concat]

theorem TimersInv.add (hs : TimersInv s) (isrepeat : Bool) (delay : Int) :
    TimersInv (add isrepeat delay s) := by
  rw [add_eq]
  refine ⟨by simp [hs.length], fun entry hentry => ?_, ?_⟩
  · have hlt := hs.known entry hentry
    simp only [List.length_append, List.length_singleton]
    omega
  · intro j timeout timer htimeout htimer
    by_cases hj : j < s.timeouts.length
    · rw [List.getElem?_append_left hj] at htimeout
      rw [List.getElem?_append_left (by rw [hs.length]; exact hj)] at htimer
      exact hs.cell j timeout timer htimeout htimer
    · -- the new timer, of which nothing is recorded yet
      have hlt : j < (s.timeouts ++ [_]).length := (List.getElem?_eq_some_iff.mp htimeout).1
      simp only [List.length_append, List.length_singleton] at hlt
      have hlast : j = s.timeouts.length := by omega
      subst hlast
      rw [List.getElem?_concat_length] at htimeout
      rw [← hs.length, List.getElem?_concat_length] at htimer
      cases htimeout
      cases htimer
      have hnone : s.history s.timeouts.length = [] := by
        rw [history, List.map_eq_nil_iff, List.filter_eq_nil_iff]
        intro entry hentry
        have hne := hs.known entry hentry
        simp only [decide_eq_true_eq]
        omega
      show Cell s.timeouts.length _ _ (s.history s.timeouts.length)
      rw [hnone, hs.length]
      exact Cell.new _ isrepeat delay

/-- The handle of an open timer is its own, and a closed timer has none. -/
theorem TimersInv.handler (hs : TimersInv s) {timeout : Timeout}
    (htimeout : s.timeouts[id]? = some timeout) :
    s.timeouts[id]?.bind Timeout.handler = if timeout.callback then some id else none := by
  obtain ⟨timer, htimer⟩ : ∃ timer, s.timers[id]? = some timer := by
    have hlt := (List.getElem?_eq_some_iff.mp htimeout).1
    rw [← hs.length] at hlt
    exact ⟨_, List.getElem?_eq_getElem hlt⟩
  have hcell := hs.cell id timeout timer htimeout htimer
  rw [htimeout, Option.bind_some]
  cases hopen : timeout.callback with
  | true => exact (hcell.opened hopen).1
  | false => exact (hcell.closed hopen).1

/-- A timer is cleared, or its callback returned and it does not repeat: it is closed, whether
it was closed before or not. -/
theorem TimersInv.close (hs : TimersInv s) {timeout : Timeout}
    (htimeout : s.timeouts[id]? = some timeout) {note : TimerNote}
    (hnote : note = .cleared ∨ note = .returned ∧ timeout.isrepeat = false) :
    TimersInv (close id (s.record id note)) := by
  have hid := (List.getElem?_eq_some_iff.mp htimeout).1
  have hhandler := hs.handler htimeout
  cases hopen : timeout.callback with
  | true =>
      rw [hopen, if_pos rfl] at hhandler
      refine hs.changed (changed_close note hhandler) hid fun timeout' timer htimeout' htimer => ?_
      obtain rfl : timeout = timeout' := Option.some.inj (htimeout.symm.trans htimeout')
      exact (hs.cell id timeout timer htimeout htimer).close hopen hnote
  | false =>
      rw [hopen, if_neg nofun] at hhandler
      refine hs.changed (changed_close_again note hhandler) hid
        fun timeout' timer htimeout' htimer => ?_
      obtain rfl : timeout = timeout' := Option.some.inj (htimeout.symm.trans htimeout')
      refine (hs.cell id timeout timer htimeout htimer).close_again hopen ?_
      rcases hnote with rfl | ⟨rfl, -⟩
      · exact .inl rfl
      · exact .inr rfl

theorem length_close (id : Nat) (s : Timers) :
    (close id s).timeouts.length = s.timeouts.length := by
  rw [close]
  split <;> simp [modifyTimeout, modifyTimer, stop, record]

end inv

/-! ### Runs -/

/-- Every function keeps the invariant, and no timer vanishes. -/
def lasting : Contract Timers :=
  .plain TimersInv (fun s t => s.timeouts.length ≤ t.timeouts.length) (fun _ => Nat.le_refl _)
    fun h₁ h₂ => Nat.le_trans h₁ h₂

section runs

variable {s : Timers}

/-- The surroundings of the timers. -/
abbrev anyone : Env Timers TimerYield Empty Call := .free

/-- A method keeps the contract from `s`. -/
abbrev Keeps (m : Method Unit) (s : Timers) : Prop :=
  m.wp anyone .nil lasting (lasting.Post s) (fun _ => lasting.Post s) s

theorem length_add (isrepeat : Bool) (delay : Int) (s : Timers) :
    (add isrepeat delay s).timeouts.length = s.timeouts.length + 1 := by
  rw [add_eq, List.length_append, List.length_singleton]

theorem Post.add (hs : TimersInv s) (isrepeat : Bool) (delay : Int) :
    lasting.Post s (Timers.add isrepeat delay s) := by
  refine ⟨hs.add isrepeat delay, ?_⟩
  show s.timeouts.length ≤ (Timers.add isrepeat delay s).timeouts.length
  rw [length_add]
  omega

theorem timer_of_find {test : Timeout → Bool} {arg : TimerArg} {id : Nat}
    (h : s.find test arg = some id) : ∃ timeout, s.timeouts[id]? = some timeout := by
  cases arg with
  | other => cases h
  | timeout id' =>
      rw [find] at h
      split at h
      · rename_i hany
        cases h
        cases htimeout : s.timeouts[id]? with
        | none =>
            rw [htimeout] at hany
            cases hany
        | some timeout => exact ⟨timeout, rfl⟩
      · cases h

theorem Post.cleared (hs : TimersInv s) {test : Timeout → Bool} {arg : TimerArg} {id : Nat}
    (h : s.find test arg = some id) : lasting.Post s (Timers.close id (s.record id .cleared)) := by
  obtain ⟨timeout, htimeout⟩ := timer_of_find h
  refine ⟨hs.close htimeout (.inl rfl), ?_⟩
  show s.timeouts.length ≤ (Timers.close id (s.record id .cleared)).timeouts.length
  rw [length_close]
  exact Nat.le_refl _

theorem clearTimeout_keeps (hs : TimersInv s) (arg : TimerArg) : Keeps (clearTimeout arg) s := by
  rw [Keeps, clearTimeout, Prog.wp_bind, Prog.wp_get]
  cases hfind : s.find Timeout.callback arg with
  | none => exact ⟨hs, Nat.le_refl _⟩
  | some id => exact Post.cleared hs hfind

theorem clearInterval_keeps (hs : TimersInv s) (arg : TimerArg) : Keeps (clearInterval arg) s := by
  rw [Keeps, clearInterval, Prog.wp_bind, Prog.wp_get]
  cases hfind : s.find Timeout.isrepeat arg with
  | none => exact ⟨hs, Nat.le_refl _⟩
  | some id => exact Post.cleared hs hfind

/-- The callback of the timer returned: what `handleTimeout` does afterwards is right for
whatever the callback did. -/
theorem Post.returned (hs : TimersInv s) {id : Nat} (hid : id < s.timeouts.length) :
    (s.timeouts[id]?.any Timeout.isrepeat = true → lasting.Post s (s.record id .returned)) ∧
      (s.timeouts[id]?.any Timeout.isrepeat = false →
        lasting.Post s (Timers.close id (s.record id .returned))) := by
  obtain ⟨timeout, htimeout⟩ : ∃ timeout, s.timeouts[id]? = some timeout :=
    ⟨_, List.getElem?_eq_getElem hid⟩
  rw [htimeout]
  constructor
  · intro hrepeat
    refine ⟨hs.changed (changed_record .returned s) hid fun timeout' timer htimeout' htimer => ?_,
      Nat.le_refl _⟩
    obtain rfl : timeout = timeout' := Option.some.inj (htimeout.symm.trans htimeout')
    exact (hs.cell id timeout timer htimeout htimer).returned hrepeat
  · intro hrepeat
    refine ⟨hs.close htimeout (.inr ⟨rfl, hrepeat⟩), ?_⟩
    show s.timeouts.length ≤ (Timers.close id (s.record id .returned)).timeouts.length
    rw [length_close]
    exact Nat.le_refl _

/-- An active handle belongs to an open timer, and knows it. -/
theorem TimersInv.active (hs : TimersInv s) {h : Nat} {timer : TimerWrap}
    (htimer : s.timers[h]? = some timer) (hactive : timer.active = true) :
    ∃ timeout, s.timeouts[h]? = some timeout ∧ timeout.callback = true ∧
      timer.timeoutObj = some h := by
  have hlt := (List.getElem?_eq_some_iff.mp htimer).1
  rw [hs.length] at hlt
  have htimeout : s.timeouts[h]? = some s.timeouts[h] := List.getElem?_eq_getElem hlt
  have hcell := hs.cell h _ timer htimeout htimer
  cases hopen : s.timeouts[h].callback with
  | true => exact ⟨_, htimeout, hopen, (hcell.opened hopen).2.1⟩
  | false =>
      rw [(hcell.closed hopen).2.2.1] at hactive
      cases hactive

/-- libuv has stopped or re-armed the handle. -/
def fired (h : Nat) (s : Timers) : Timers :=
  s.modifyTimer h fun timer => { timer with active := timer.repeats ≠ 0 }

theorem due_fired {h : Nat} {timer : TimerWrap} (htimer : s.timers[h]? = some timer)
    {timeout : Timeout} (htimeout : s.timeouts[h]? = some timeout)
    (hopen : timeout.callback = true) (hobj : timer.timeoutObj = some h) :
    (fired h s).due h = some h := by
  have hfired : (fired h s).timers[h]? = some { timer with active := timer.repeats ≠ 0 } := by
    simp [fired, modifyTimer, htimer]
  have hkept : (fired h s).timeouts[h]? = some timeout := htimeout
  rw [due, hfired, Option.bind_some, hobj, Option.filter_some, hkept]
  simp [hopen]

theorem expire_keeps (hs : TimersInv s) {h : Nat} (hen : enabled s true (.expire h) = true) :
    Keeps (expire h) s := by
  simp only [enabled, Bool.true_and, Option.any_eq_true, Bool.and_eq_true] at hen
  obtain ⟨timer, htimer, hactive, -⟩ := hen
  -- libuv fires active handles only, and these belong to open timers
  obtain ⟨timeout, htimeout, hopen, hobj⟩ := hs.active htimer hactive
  have hid := (List.getElem?_eq_some_iff.mp htimeout).1
  have hdue := due_fired htimer htimeout hopen hobj
  have hcalled : lasting.Post s ((fired h s).record h .called) := by
    have hchanged : Changed h (fun timeout => timeout)
        (fun timer => { timer with active := timer.repeats ≠ 0 }) [.called] s
        ((fired h s).record h .called) :=
      ⟨(List.modify_id h s.timeouts).symm, rfl, rfl⟩
    refine ⟨hs.changed hchanged hid fun timeout' timer' htimeout' htimer' => ?_, Nat.le_refl _⟩
    obtain rfl : timeout = timeout' := Option.some.inj (htimeout.symm.trans htimeout')
    obtain rfl : timer = timer' := Option.some.inj (htimer.symm.trans htimer')
    exact (hs.cell h timeout timer htimeout htimer).called hopen hactive
  rw [Keeps, expire, Prog.wp_bind, Prog.wp_modify, handleTimeout, Prog.wp_bind, Prog.wp_get]
  rw [fired] at hdue
  simp only [hdue, Prog.wp_bind, Prog.wp_modify, Prog.wp_get, Prog.wp_ite, Bool.not_eq_true',
    Bool.not_eq_false]
  refine ⟨hcalled.1, fun t _ ht => ⟨fun _ => ?_, fun _ => ⟨ht.1, lasting.trans hcalled.2 ht.2⟩⟩⟩
  -- control comes back: the timer is still known, and may be closed by now
  have hrely : s.timeouts.length ≤ t.timeouts.length := lasting.trans hcalled.2 ht.2
  obtain ⟨hrepeat, hnone⟩ := Post.returned ht.1 (Nat.lt_of_lt_of_le hid hrely)
  constructor
  · intro hif
    have hpost := hnone hif
    exact ⟨hpost.1, lasting.trans hrely hpost.2⟩
  · intro hif
    have hpost := hrepeat hif
    exact ⟨hpost.1, lasting.trans hrely hpost.2⟩

theorem holds_lasting : Contract.Holds machine anyone .nil lasting start := by
  have hinit : TimersInv start := ⟨rfl, nofun, nofun⟩
  refine .intro hinit fun i atRest s _ hs hen _ => ?_
  cases i with
  | setTimeout isFunction delay =>
      refine Prog.wp_ite .. |>.mpr ⟨fun _ => ⟨hs, Nat.le_refl _⟩, fun _ => Post.add hs ..⟩
  | setInterval isFunction delay =>
      refine Prog.wp_ite .. |>.mpr ⟨fun _ => ⟨hs, Nat.le_refl _⟩, fun _ => Post.add hs ..⟩
  | clearTimeout arg => exact clearTimeout_keeps hs arg
  | clearInterval arg => exact clearInterval_keeps hs arg
  | expire h =>
      refine expire_keeps hs ?_
      simp only [machine, enabled, Bool.and_eq_true] at hen
      simp only [enabled, Bool.true_and, hen.2]

end runs

/-- The handle can expire, and whenever it does, it runs the callback. -/
def Running (s : Timers) (id : Nat) : Prop :=
  enabled s true (.expire id) = true ∧
    ∀ rs, ∃ k t, (body (.expire id)).exec rs s = .yielded (.callback id) k t

/-- What the life of a timer is like. -/
structure Lifecycle (s : Timers) (id : Nat) (timeout : Timeout) : Prop where
  /-- the callback of `setTimeout` runs at most once -/
  once : timeout.isrepeat = false → (s.history id).count .called ≤ 1
  /-- no callback runs after the timer was cleared -/
  silent : History.Always (fun pre note => note = .called → .cleared ∉ pre) (s.history id)
  /-- an interval keeps running until it is cleared -/
  runs : timeout.isrepeat = true → .cleared ∉ s.history id → Running s id
  /-- the handle is asked to stop at most once -/
  stoppedOnce : (s.history id).count .stopped ≤ 1
  /-- and exactly once if the timer was cleared, or the callback of `setTimeout` returned -/
  stopped : (.cleared ∈ s.history id ∨ (timeout.isrepeat = false ∧ .returned ∈ s.history id)) →
    (s.history id).count .stopped = 1

theorem Cell.lifecycle {s : Timers} {id : Nat} {timeout : Timeout} {timer : TimerWrap}
    (h : Cell id timeout timer (s.history id)) (htimeout : s.timeouts[id]? = some timeout)
    (htimer : s.timers[id]? = some timer) : Lifecycle s id timeout where
  once hrepeat := by
    have hle := h.once hrepeat
    omega
  silent := h.silent
  runs hrepeat hcleared := by
    cases hopen : timeout.callback with
    | false => exact absurd ((h.closed hopen).2.2.2.2 hrepeat) hcleared
    | true =>
        obtain ⟨-, hobj, hclosing, -, -, -, hactive⟩ := h.opened hopen
        constructor
        · simp [enabled, htimer, hactive hrepeat, hclosing]
        · intro rs
          have hdue := due_fired htimer htimeout hopen hobj
          rw [fired] at hdue
          rw [body, expire, Prog.exec_modify_bind, handleTimeout, Prog.exec_get_bind]
          simp only [hdue]
          exact ⟨_, _, rfl⟩
  stoppedOnce := by
    cases hopen : timeout.callback with
    | true =>
        rw [List.count_eq_zero.mpr (h.opened hopen).2.2.2.1]
        omega
    | false => exact Nat.le_of_eq (h.closed hopen).2.2.2.1
  stopped hdone := by
    cases hopen : timeout.callback with
    | false => exact (h.closed hopen).2.2.2.1
    | true =>
        obtain ⟨-, -, -, -, hcleared, hreturned, -⟩ := h.opened hopen
        rcases hdone with hmem | ⟨hrepeat, hmem⟩
        · exact absurd hmem hcleared
        · exact absurd hmem (hreturned hrepeat)

/-- In every run, whoever makes and clears timers, and wherever: this is the life of each. -/
theorem timer_lifecycle {c : Config Timers TimerYield Empty} (hc : machine.Reach anyone start c)
    {id : Nat} {timeout : Timeout} (htimeout : c.heap.timeouts[id]? = some timeout) :
    Lifecycle c.heap id timeout := by
  have hinv : TimersInv c.heap := holds_lasting.inv_of_reach hc
  have hlt := (List.getElem?_eq_some_iff.mp htimeout).1
  rw [← hinv.length] at hlt
  have htimer : c.heap.timers[id]? = some c.heap.timers[id] := List.getElem?_eq_getElem hlt
  exact (hinv.cell id timeout _ htimeout htimer).lifecycle htimeout htimer

/-- An interval clears a timeout and itself from its own callback. -/
theorem timer_lifecycle_nested :
    ∃ c : Config Timers TimerYield Empty,
      c.heap.timeouts[1]?.any (fun timeout => timeout.isrepeat && !timeout.callback) ∧
      ∃ timeout, Lifecycle c.heap 1 timeout := by
  obtain ⟨c, hc, hp⟩ := machine.exists_reach_of_run anyone start
    [.call (.setTimeout true 5) [], .call (.setInterval true 7) [], .call (.expire 1) [],
      .call (.clearTimeout (.timeout 0)) [], .call (.clearInterval (.timeout 1)) [], .ret []]
    (fun c => c.heap.timeouts[1]?.any fun timeout => timeout.isrepeat && !timeout.callback)
    (by decide)
  obtain ⟨timeout, htimeout, -⟩ := Option.any_eq_true _ _ |>.mp hp
  exact ⟨c, hp, timeout, timer_lifecycle hc htimeout⟩

end IotJs.Timers

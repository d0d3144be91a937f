import IotJs.Proofs.SocketTimed

/-!
# `IotJs.Proofs.SocketTimeout`: when a socket times out

A 'timeout' comes from the timer alone (`step_emits`), and the timer was armed after the last
activity, with the configured timeout (`timed`). So a 'timeout' tells that the socket was idle for
as long as configured, if the global `setTimeout` took that delay as it is. It takes one
millisecond in place of what is out of range, and `resetSocketTimeout` arms the timer of every
socket that is used, also where the timeout is 0 (`timeout_sound`).

When the listeners of 'timeout' return, the callback clears the slot of the timer, whatever timer
they left there (`rearmed_iff`).
-/

set_option autoImplicit false

namespace IotJs.Socket

open Reentrant

/-! ### 'timeout' after idle time -/

/-- The global `setTimeout` replaces this delay by one millisecond. -/
def Clamped (msecs : Int) : Prop := msecs < 1 ∨ timeoutMax < msecs

instance (msecs : Int) : Decidable (Clamped msecs) := inferInstanceAs (Decidable (_ ∨ _))

/-- The socket has a timeout, and was idle for as long: in every run up to `c`, nothing since a
moment of rest `s` that is less than the timeout ago shows activity. -/
structure Idle (P : Platform) (s₀ : Socket) (c : Config Socket SocketYield SocketNative) : Prop where
  positive : 0 < c.heap._timeout
  passed : c.heap._timeout ≤ c.heap.now
  quiet : ∀ s, (machine P).Reach .free s₀ ⟨s, []⟩ → (machine P).Reach .free s c →
    c.heap.now < s.now + c.heap._timeout →
    (c.heap.log.drop s.log.length).any activity = false

section idle

variable {P : Platform} {s₀ s : Socket} {c c' : Config Socket SocketYield SocketNative}

/-- The delay that is not clamped is the one that was asked for. -/
theorem delay_of_not_clamped (h : ¬ Clamped s._timeout) : (s.delay : Int) = s._timeout := by
  rw [Clamped, not_or, Int.not_lt, Int.not_lt] at h
  simp only [delay, IotJs.setTimeout]
  rw [if_neg (by omega)]
  omega

/-- A timer that is due has waited for its delay. -/
theorem due_of_enabled (hen : enabled P s true .onTimeout = true) :
    ∃ timer, s._timer = some timer ∧ timer.active = true ∧ timer.start + timer.after ≤ s.now := by
  simp only [enabled, Bool.and_eq_true, Option.any_eq_true, decide_eq_true_eq] at hen
  obtain ⟨-, timer, htimer, hactive, hdue⟩ := hen
  exact ⟨timer, htimer, hactive, hdue⟩

/-- When the timer of a socket fires and its delay was not clamped, the socket was idle. -/
theorem idle_of_due (hinit : Initial s₀) (hc : (machine P).Reach .free s₀ ⟨s, []⟩)
    (hen : enabled P s true .onTimeout = true) (hrange : ¬ Clamped s._timeout) :
    Idle P s₀ ⟨s, []⟩ := by
  obtain ⟨timer, htimer, hactive, hdue⟩ := due_of_enabled hen
  have hholds := timed_holds (P := P) (E := .free) hinit
  have hinv : TimedInv s := (hholds.inv_of_reach hc).2
  have hdelay := delay_of_not_clamped hrange
  rw [← hinv.after timer htimer hactive] at hdelay
  refine ⟨?_, ?_, fun t ht hts hrecent => ?_⟩
  · show 0 < s._timeout
    rw [Clamped, not_or, Int.not_lt, Int.not_lt] at hrange
    omega
  · show s._timeout ≤ s.now
    omega
  · -- activity since `t` would have armed the timer since `t`
    obtain ⟨-, -, hstep⟩ := (hholds.restart ht).outer_of_rest hts rfl
    obtain ⟨new, hlog, hfresh⟩ := hstep.log
    show (s.log.drop t.log.length).any activity = false
    rw [hlog, List.drop_left]
    by_contra hactivity
    have hstart := hfresh (by simpa using hactivity) timer htimer hactive
    have hrecent' : (s.now : Int) < t.now + s._timeout := hrecent
    omega

/-- In every run of a socket, when a step emits 'timeout': where the configured timeout was not
clamped, the socket was idle for so long; where it is below 1, it was emitted nevertheless. -/
theorem timeout_sound (P : Platform) {s₀ : Socket} (hinit : Initial s₀)
    {c c' : Config Socket SocketYield SocketNative} {m : Move Call}
    (hc : (machine P).Reach .free s₀ c) (hstep : (machine P).step c m = some c')
    (hemit : c'.heap.log.count (.event .timeout) ≠ c.heap.log.count (.event .timeout)) :
    (¬ Clamped c.heap._timeout → Idle P s₀ c) ∧ (c.heap._timeout < 1 → ¬ Idle P s₀ c) := by
  -- only the timer emits it, at rest and when it is due
  obtain ⟨hrest, hen⟩ := step_emits hc hstep hemit
  obtain ⟨s, stack⟩ := c
  obtain rfl : stack = [] := hrest
  refine ⟨idle_of_due hinit hc hen, fun hlow hidle => ?_⟩
  have hpositive : 0 < s._timeout := hidle.positive
  have hnone : s._timeout < 1 := hlow
  omega

/-- A timeout of 10 milliseconds, after as many. -/
theorem timeout_sound_ten :
    ∃ c : Config Socket SocketYield SocketNative, c.heap._timeout = 10 ∧
      Idle (.ascii false) (new none false) c := by
  obtain ⟨c, hc, hrun⟩ := Machine.exists_reach_of_run (machine (.ascii false)) .free
    (new none false) [.call (.setTimeout 10) [], .call (.elapse 10) []]
    (fun c => decide (c.heap._timeout = 10) &&
      ((machine (.ascii false)).step c (.call .onTimeout [])).any fun c' =>
        decide (c'.heap.log.count (.event .timeout) ≠ c.heap.log.count (.event .timeout))) rfl
  simp only [Bool.and_eq_true, decide_eq_true_eq, Option.any_eq_true] at hrun
  obtain ⟨hten, c', hstep, hemit⟩ := hrun
  refine ⟨c, hten, (timeout_sound (.ascii false) (.inl ⟨_, _, rfl⟩) hc hstep hemit).1 ?_⟩
  rw [hten]
  decide

/-- A server's socket whose timeout was never set: it times out one millisecond after the
connection was established. -/
theorem timeout_unset :
    ¬ ∀ (P : Platform) (s₀ : Socket) (c c' : Config Socket SocketYield SocketNative)
      (m : Move Call), Initial s₀ → (machine P).Reach .free s₀ c → (machine P).step c m = some c' →
      c'.heap.log.count (.event .timeout) ≠ c.heap.log.count (.event .timeout) →
      Idle P s₀ c := by
  intro hall
  obtain ⟨c, hc, hrun⟩ := Machine.exists_reach_of_run (machine (.ascii false)) .free
    (accepted false) [.call .onconnection [], .ret [], .call (.elapse 1) []]
    (fun c => decide (c.heap._timeout = 0) &&
      ((machine (.ascii false)).step c (.call .onTimeout [])).any fun c' =>
        decide (c'.heap.log.count (.event .timeout) ≠ c.heap.log.count (.event .timeout))) rfl
  simp only [Bool.and_eq_true, decide_eq_true_eq, Option.any_eq_true] at hrun
  obtain ⟨hzero, c', hstep, hemit⟩ := hrun
  have hidle := hall _ _ c c' _ (.inr ⟨_, rfl⟩) hc hstep hemit
  have hpositive := hidle.positive
  omega

end idle

/-! ### A timer that is armed while the timer fires -/

/-- One firing of the timer: its callback is called at rest in `s`, and anything may happen until
the callback has returned. -/
inductive Firing (P : Platform) (s : Socket) : Config Socket SocketYield SocketNative → Prop
  | start {rs : List Int} {c : Config Socket SocketYield SocketNative} :
      (machine P).step ⟨s, []⟩ (.call .onTimeout rs) = some c → Firing P s c
  | next {c c' : Config Socket SocketYield SocketNative} {m : Move Call} :
      Firing P s c → c.stack ≠ [] → (machine P).step c m = some c' → Firing P s c'

/-- A timer that is active in the first state is still in the slot in the second. -/
def Survives (s t : Socket) : Prop :=
  ∀ timer, s._timer = some timer → timer.active = true → t._timer = some timer

/-- The slot holds an active timer. -/
def armed (s : Socket) : Bool := s._timer.any (·.active)

section firing

variable {P : Platform} {s : Socket} {c c' : Config Socket SocketYield SocketNative}

/-- While the timer fires, its callback waits at the bottom of the stack. -/
theorem Firing.bottom (h : Firing P s c) (hc : c.stack ≠ []) :
    ∃ st, c.stack = st ++ [(.event .timeout, clearSocketTimeout)] := by
  induction h with
  | start hstep =>
      obtain ⟨-, rfl⟩ := Machine.step_call hstep
      exact ⟨[], rfl⟩
  | @next c c' m _ hne hstep ih =>
      obtain ⟨st, hst⟩ := ih hne
      obtain ⟨t, stack⟩ := c
      obtain rfl : stack = st ++ [(.event .timeout, clearSocketTimeout)] := hst
      rcases Machine.step_bottom hstep with hbottom | ⟨-, rs, -, rfl⟩ | ⟨-, -, rfl⟩
      · exact hbottom
      · exact absurd rfl hc
      · exact absurd rfl hc

/-- How a firing ends: the callback clears the slot, or an exception of a listener drops the
callback. -/
theorem Firing.ends {m : Move Call} (h : Firing P s c) (hc : c.stack ≠ [])
    (hstep : (machine P).step c m = some c') (hdone : c'.stack = []) :
    (m ≠ .throw ∧ c'.heap._timer = none) ∨ (m = .throw ∧ c'.heap = c.heap) := by
  obtain ⟨st, hst⟩ := h.bottom hc
  obtain ⟨t, stack⟩ := c
  obtain rfl : stack = st ++ [(.event .timeout, clearSocketTimeout)] := hst
  rcases Machine.step_bottom hstep with ⟨st', hst'⟩ | ⟨-, rs, rfl, rfl⟩ | ⟨-, rfl, rfl⟩
  · rw [hst'] at hdone
    exact absurd hdone (List.append_ne_nil_of_right_ne_nil _ nofun)
  · exact .inl ⟨nofun, rfl⟩
  · exact .inr ⟨rfl, rfl⟩

/-- In every run of a socket, when a firing of its timer completes: a timer that was armed since
is still there if and only if there is none, or a listener throws. -/
theorem rearmed_iff (P : Platform) {s : Socket}
    {c c' : Config Socket SocketYield SocketNative} {m : Move Call} (h : Firing P s c)
    (hc : c.stack ≠ []) (hstep : (machine P).step c m = some c') (hdone : c'.stack = []) :
    Survives c.heap c'.heap ↔ armed c.heap = false ∨ m = .throw := by
  rcases h.ends hc hstep hdone with ⟨hret, hnone⟩ | ⟨hthrow, hheap⟩
  · constructor
    · intro hsurvives
      refine .inl ?_
      -- the slot is empty now, so an armed timer cannot have survived
      by_contra harmed
      rw [Bool.not_eq_false, armed, Option.any_eq_true] at harmed
      obtain ⟨timer, htimer, hactive⟩ := harmed
      rw [hsurvives timer htimer hactive] at hnone
      cases hnone
    · rintro (hidle | hthrow) timer htimer hactive
      · rw [armed, htimer, Option.any_some, hactive] at hidle
        cases hidle
      · exact absurd hthrow hret
  · refine ⟨fun _ => .inr hthrow, fun _ timer htimer _ => ?_⟩
    rw [hheap]
    exact htimer

/-- A firing whose listeners leave the timer alone. -/
theorem rearmed_iff_idle :
    ∃ c c' : Config Socket SocketYield SocketNative, c.stack ≠ [] ∧ c'.stack = [] ∧
      Survives c.heap c'.heap := by
  obtain ⟨c₀, -, hrun⟩ := Machine.exists_reach_of_run (machine (.ascii false)) .free
    (new none false) [.call (.setTimeout 10) [], .call (.elapse 10) []]
    (fun c₀ => c₀.stack.isEmpty &&
      ((machine (.ascii false)).step c₀ (.call .onTimeout [])).any fun c =>
        !c.stack.isEmpty && !armed c.heap &&
          ((machine (.ascii false)).step c (.ret [])).any fun c' => c'.stack.isEmpty) rfl
  obtain ⟨s, stack⟩ := c₀
  simp only [Bool.and_eq_true, Option.any_eq_true, List.isEmpty_iff, Bool.not_eq_true',
    List.isEmpty_eq_false_iff] at hrun
  obtain ⟨hrest, c, hstart, ⟨hne, hidle⟩, c', hstep, hdone⟩ := hrun
  obtain rfl : stack = [] := hrest
  exact ⟨c, c', hne, hdone,
    (rearmed_iff (.ascii false) (.start hstart) hne hstep hdone).mpr (.inl hidle)⟩

/-- A listener of 'timeout' sets the timeout again: when it returns, the new timer is cleared. -/
theorem rearmed_lost :
    ¬ ∀ (P : Platform) (s₀ s : Socket) (c c' : Config Socket SocketYield SocketNative)
      (m : Move Call), Initial s₀ → (machine P).Reach .free s₀ ⟨s, []⟩ → Firing P s c →
      c.stack ≠ [] → (machine P).step c m = some c' → c'.stack = [] →
      Survives c.heap c'.heap := by
  intro hall
  obtain ⟨c₀, hc₀, hrun⟩ := Machine.exists_reach_of_run (machine (.ascii false)) .free
    (new none false) [.call (.setTimeout 10) [], .call (.elapse 10) []]
    (fun c₀ => c₀.stack.isEmpty &&
      ((machine (.ascii false)).step c₀ (.call .onTimeout [])).any fun c₁ =>
        !c₁.stack.isEmpty &&
        ((machine (.ascii false)).step c₁ (.call (.setTimeout 20) [])).any fun c =>
          !c.stack.isEmpty && armed c.heap &&
          ((machine (.ascii false)).step c (.ret [])).any fun c' =>
            c'.stack.isEmpty && c'.heap._timer.isNone) rfl
  obtain ⟨s, stack⟩ := c₀
  simp only [Bool.and_eq_true, Option.any_eq_true, List.isEmpty_iff, Bool.not_eq_true',
    List.isEmpty_eq_false_iff, armed, Option.isNone_iff_eq_none] at hrun
  obtain ⟨hrest, c₁, hstart, hne₁, c, hset, ⟨hne, timer, htimer, hactive⟩, c', hstep, hdone, hnone⟩ :=
    hrun
  obtain rfl : stack = [] := hrest
  have hsurvives := hall _ _ s c c' _ (.inl ⟨_, _, rfl⟩) hc₀ (.next (.start hstart) hne₁ hset) hne
    hstep hdone
  rw [hsurvives timer htimer hactive] at hnone
  cases hnone

end firing

end IotJs.Socket

import IotJs.Proofs.Teardown

/-!
# `IotJs.Proofs.TeardownValues`: who uses the built-in objects behind their release

`iotjs_start` releases the built-in objects and the values of the binding, and only then does the
loop run for the last time. A callback in that run is made with a value that is gone.
`values_valid` says when there is none: from 'exit' on, JavaScript starts no request and closes no
tcp object itself. Everything else that the listeners of 'exit' may do leaves nothing behind that
native code calls back for.
-/

set_option autoImplicit false

namespace IotJs.Teardown

open Reentrant HandleWrap

/-- After it, native code owes JavaScript a call. -/
def owes : Call → Bool
  | .request | .wrap _ (.op .tcpClose) => true
  | _ => false

/-- Surroundings as before. From 'exit' on, JavaScript does nothing that it is called back for. -/
def quiet : Env Teardown TeardownYield UvCall Call where
  call i t := orderly.call i t ∧ (owes i = true → t.phase = .running)
  answer := orderly.answer
  returns := orderly.returns
  throws := orderly.throws

/-- From 'exit' on, nothing is owed to JavaScript. -/
structure Settled (t : Teardown) : Prop where
  valid : t.stale = false
  unmade : t.phase = .running → ∀ k, t.made ≤ k → (t.wraps k).pending = false
  requests : t.phase ≠ .running → t.requests = 0
  silent : t.phase ≠ .running → ∀ k, Silent (t.wraps k)

def settled : Contract Teardown where
  inv := Settled
  rely t u := u.phase = t.phase ∧ t.made ≤ u.made
  outer _ _ := True
  refl t := ⟨rfl, Nat.le_refl t.made⟩
  trans h₁ h₂ := ⟨h₂.1.trans h₁.1, Nat.le_trans h₁.2 h₂.2⟩
  outer_of_rely _ := trivial
  outer_trans _ _ := trivial

/-- A write to one wrapper, and to nothing else. -/
structure Only (noisy : Prop) (k : Nat) (t u : Teardown) : Prop where
  still : Still noisy t u
  others : ∀ j, j ≠ k → u.wraps j = t.wraps j
  stale : u.stale = t.stale
  requests : u.requests = t.requests

section settled

variable {noisy : Prop} {t s u : Teardown} {k : Nat} {w : HandleWrap} {i : HandleWrap.Call}
variable {atRest : Bool} {kinds : Nat → HandleKind}

theorem only_put (h : Onward noisy (t.wraps k) w) : Only noisy k t ((wrapFocus k).put w t) where
  still := still_put h
  others j hj := by
    show Function.update t.wraps k w j = t.wraps j
    rw [Function.update_of_ne hj]
  stale := rfl
  requests := rfl

theorem Only.post (hk : k < t.made) (hnoisy : noisy → t.phase = .running)
    (hs : settled.Post t s) (h : Only noisy k s u) : settled.Post t u := by
  have hphase : u.phase = s.phase := h.still.phase
  have hmade : u.made = s.made := h.still.made
  refine ⟨{ valid := h.stale.trans hs.1.valid, unmade := ?_, requests := ?_, silent := ?_ }, ?_⟩
  · intro hrunning j hj
    rw [hmade] at hj
    have hjk : j ≠ k := Nat.ne_of_gt (Nat.lt_of_lt_of_le hk (Nat.le_trans hs.2.2 hj))
    rw [h.others j hjk]
    exact hs.1.unmade (hphase.symm.trans hrunning) j hj
  · intro hleft
    exact h.requests.trans (hs.1.requests (hphase ▸ hleft))
  · intro hleft j
    have hquiet : ¬ noisy := fun hn => hleft ((hphase.trans hs.2.1).trans (hnoisy hn))
    exact (h.still.onward j).silent hquiet (hs.1.silent (hphase ▸ hleft) j)
  · exact ⟨hphase.trans hs.2.1, hmade.symm ▸ hs.2.2⟩

/-- Where the built-in objects are released, the object calls nothing back. -/
theorem wrap_settles (hG : (wrapping.and ordered).inv t) (h : Settled t)
    (hen : enabled (.wrap k i) atRest t = true) (hcall : quiet.call (.wrap k i) t) :
    (callingBack k (HandleWrap.machine.body i)).wp quiet (wrapping.and ordered) settled
      (settled.Post t) (fun _ => settled.Post t) t := by
  obtain ⟨hk, hcalled, hwrap⟩ := enabled_wrap hen
  have hnoisy : i = .op .tcpClose → t.phase = .running := fun hi => hcall.2 (hi ▸ rfl)
  have honly : (onWrap k (HandleWrap.machine.body i)).ChangesBy (Only (i = .op .tcpClose) k) :=
    (body_onward i).zoom fun _ _ => only_put
  refine Prog.wp_given _ (Prog.wp_intercept (A := fun _ s => s.phase ≠ .closing) (E := quiet)
    (fun _ _ _ => id) (fun _ _ => id) (fun _ _ => id) (fun u s hs hphase => ?_) _
    ((honly t).wp_post (fun s u hs hu => hu.post hk hnoisy hs) _ ⟨h, settled.refl t⟩) ?_)
  · refine (Prog.wp_modify ..).mpr ?_
    rw [if_neg hphase]
    exact ⟨hs, settled.refl s⟩
  by_cases hphase : t.phase = .closing
  · -- every handle closes, and nothing is registered: the program comes to its end
    refine Prog.hands_of_exec _ fun rs u p v hexec => ?_
    have hevent : i ≠ .event := by
      rintro rfl
      have hopen := (Bool.and_eq_true_iff.mp hcalled).2
      rw [hG.2.closing (.inl hphase) k hk] at hopen
      cases hopen
    have hnever := exec_silent (hG.1 k) (h.silent (hphase ▸ nofun) k) hwrap hevent rs
    rw [onWrap, Prog.exec_zoom] at hexec
    generalize hout : (HandleWrap.machine.body i).exec rs ((wrapFocus k).get t) = o at hexec
    cases o with
    | yielded u p v => exact hnever u p v hout
    | done => cases hexec
    | thrown => cases hexec
  · -- no write and no JavaScript moves the process to its next phase
    exact Prog.hands_of_changes (fun s u hs hu => hu.still.phase ▸ hs)
      (fun s u hs hu => hu.2.1 ▸ hs) _ (honly t) hphase

/-- The listeners of 'exit' find nothing that is owed. -/
theorem leave_settles (h : Settled t) (hphase : t.phase = .running) (hidle : t.idle = true) :
    leave.wp quiet (wrapping.and ordered) settled (settled.PostAt true t)
      (fun _ => settled.PostAt true t) t := by
  have hsilent : ∀ k, Silent (t.wraps k) := by
    intro k hpending
    have hnone : (t.wraps k).pending = false := by
      by_cases hk : k < t.made
      · exact pending_of_idle hidle k hk
      · exact h.unmade hphase k (Nat.le_of_not_lt hk)
    exact nomatch hnone.symm.trans hpending
  have hexiting : Settled { t with phase := .exiting } :=
    ⟨h.valid, nofun, fun _ => eq_of_beq (Bool.and_eq_true_iff.mp hidle).1, fun _ => hsilent⟩
  refine (Prog.wp_bind ..).mpr ((Prog.wp_modify ..).mpr ((Prog.wp_bind ..).mpr
    ((Prog.wp_yieldTo ..).mpr ⟨hexiting, fun u hG hu => ?_⟩)))
  refine ⟨fun _ => ?_, fun _ => ⟨hu.1, trivial⟩⟩
  refine (Prog.wp_bind ..).mpr ((Prog.wp_modify ..).mpr ((Prog.wp_bind ..).mpr
    ((Prog.wp_get ..).mpr (wp_uvWalk hG.1.1 fun v hv => ?_))))
  have hleft : u.phase ≠ .running := hu.2.1 ▸ nofun
  have hclosing : v.phase = .closing := hv.still.phase
  have hsettled : Settled v := {
    valid := hv.stale.trans hu.1.valid
    unmade := fun hrunning => nomatch hclosing.symm.trans hrunning
    requests := fun _ => hv.requests.trans (hu.1.requests hleft)
    silent := fun _ k => (hv.still.onward k).silent id (hu.1.silent hleft k) }
  exact ⟨hsettled, trivial⟩

theorem settled_holds (kinds : Nat → HandleKind) :
    Contract.Holds machine quiet (wrapping.and ordered) settled (new kinds) where
  init := ⟨rfl, fun _ _ _ => rfl, absurd rfl, absurd rfl⟩
  body i atRest t hG h hen hcall hrest := by
    cases i with
    | create =>
        have hpost : settled.Post t { t with made := t.made + 1 } :=
          ⟨⟨h.valid, fun hrunning k hk => h.unmade hrunning k (Nat.le_of_succ_le hk), h.requests,
            h.silent⟩, rfl, Nat.le_succ _⟩
        exact hpost.at atRest
    | request =>
        have hrunning : t.phase = .running := hcall.2 rfl
        have hpost : settled.Post t { t with requests := t.requests + 1 } :=
          ⟨⟨h.valid, h.unmade, absurd hrunning, h.silent⟩, rfl, Nat.le_refl t.made⟩
        exact hpost.at atRest
    | complete =>
        obtain ⟨-, hcalled⟩ := Bool.and_eq_true_iff.mp hen
        obtain ⟨-, hrequests⟩ := Bool.and_eq_true_iff.mp hcalled
        -- there is a request, so it was started before 'exit'
        have hrunning : t.phase = .running := by
          by_contra hleft
          rw [h.requests hleft] at hrequests
          cases hrequests
        have hpost : settled.Post t { t with requests := t.requests - 1 } :=
          ⟨⟨h.valid, h.unmade, absurd hrunning, h.silent⟩, rfl, Nat.le_refl _⟩
        refine Prog.wp_at atRest ((Prog.wp_bind ..).mpr ((Prog.wp_modify ..).mpr
          ((Prog.wp_bind ..).mpr ((Prog.wp_modify ..).mpr (Prog.wp_yieldTo_post ?_)))))
        rw [if_neg (hrunning ▸ nofun)]
        exact hpost
    | wrap k i =>
        exact Prog.wp_at atRest (wrap_settles hG h hen hcall)
    | leave =>
        obtain ⟨rfl, hphase, hidle⟩ := enabled_leave hen
        exact leave_settles h hphase hidle
    | finish =>
        obtain ⟨rfl, hphase, hidle⟩ := enabled_finish hen
        have hleft : t.phase ≠ .running := hphase ▸ nofun
        refine wp_finish hG hphase hidle (hrest rfl).1.1 fun u hu => ?_
        have hsettled : Settled { u with phase := .ended } := {
          valid := hu.stale.trans h.valid
          unmade := nofun
          requests := fun _ => hu.requests.trans (h.requests hleft)
          silent := fun _ k => (hu.still.onward k).silent id (h.silent hleft k) }
        exact ⟨hsettled, trivial⟩

theorem values_valid {c : Config Teardown TeardownYield UvCall}
    (hc : machine.Reach quiet (new kinds) c) : c.heap.stale = false :=
  have hteardown : Contract.Holds machine quiet .nil (wrapping.and ordered) (new kinds) :=
    (teardown_holds kinds).of_env (fun _ _ h => h.1) (fun _ _ _ => id) (fun _ _ => id)
      fun _ _ => id
  ((hteardown.and (settled_holds kinds)).inv_of_reach hc).2.valid

end settled

instance : quiet.Testable where
  call i t := @instDecidableAnd _ _ ((inferInstance : orderly.Testable).call i t)
    (inferInstanceAs (Decidable (owes i = true → t.phase = .running)))
  answer := (inferInstance : orderly.Testable).answer
  returns := (inferInstance : orderly.Testable).returns
  throws := (inferInstance : orderly.Testable).throws

theorem values_valid_sockets : ∃ c, machine.Reach quiet (new fun _ => .tcp) c ∧
    c.heap.phase = .ended ∧ c.heap.stale = false := by
  obtain ⟨c, hc, hphase⟩ := machine.exists_reach_of_run quiet (new fun _ => .tcp) socketsRun
    (fun c => c.heap.phase == .ended) (by decide +kernel)
  exact ⟨c, hc, eq_of_beq hphase, values_valid hc⟩

/-- A listener of 'exit' closes a socket that has an `onclose`. -/
def lateClose : List (Move Call) :=
  [.call .create [], .call .leave [], .call (.wrap 0 (.op .tcpClose)) [], .ret [],
    .call (.wrap 0 .closed) [1]]

example : ∃ c, machine.Reach orderly (new fun _ => .tcp) c ∧ c.heap.stale = true :=
  machine.exists_reach_of_run orderly (new fun _ => .tcp) lateClose (·.heap.stale)
    (by decide +kernel)

end IotJs.Teardown

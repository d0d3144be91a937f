import IotJs.Lib.Reentrant.Contract
import IotJs.Lib.Reentrant.Play

/-!
# `IotJs.Lib.Reentrant.Changes`: what each write of a program changes

Many properties of a program are properties of its single writes: a field that is never written,
a counter that never falls, two fields that are written together. `Prog.Changes R` says that each
write of a program changes the state by `R`, from a given state, and from any state after a yield.
It asks nothing of outside code, so it composes without a postcondition (`Changes.bind`), and a
function that only calls functions with the property has it.

Where `R` is what a contract asks of a call, such a program keeps the contract (`Changes.wp`).
Where all that waits on the stack has the property, so has each step that goes on with it
(`Machine.step_changes`).
-/

set_option autoImplicit false

namespace Reentrant

variable {σ υ κ ι α β : Type}

namespace Prog

/-- From `s`, every write of the program changes the state by `R`. -/
def Changes (R : σ → σ → Prop) : Prog σ υ κ α → σ → Prop
  | .ret _, _ => True
  | .read k, s => (k s).Changes R s
  | .write t k, s => R s t ∧ k.Changes R t
  | .yield _ k, _ => ∀ t, k.Changes R t
  | .ask _ k, s => ∀ r, (k r).Changes R s
  | .throw _, _ => True

/-- From every state, every write of the program changes the state by `R`. -/
def ChangesBy (R : σ → σ → Prop) (p : Prog σ υ κ α) : Prop := ∀ s, p.Changes R s

section rules

variable {R : σ → σ → Prop} {s : σ}

@[simp] theorem changes_pure (a : α) : (pure a : Prog σ υ κ α).Changes R s := trivial

@[simp] theorem changes_fail (e : String) : (fail e : Prog σ υ κ α).Changes R s := trivial

@[simp] theorem changes_yieldTo (u : υ) : (yieldTo u : Prog σ υ κ Unit).Changes R s :=
  fun _ => trivial

@[simp] theorem changes_askFor (q : κ) : (askFor q : Prog σ υ κ Int).Changes R s :=
  fun _ => trivial

@[simp] theorem changes_modify (f : σ → σ) :
    (modify f : Prog σ υ κ PUnit).Changes R s ↔ R s (f s) := and_iff_left trivial

@[simp] theorem changes_get_bind (f : σ → Prog σ υ κ β) :
    ((get : Prog σ υ κ σ) >>= f).Changes R s ↔ (f s).Changes R s := Iff.rfl

@[simp] theorem changes_modify_bind (g : σ → σ) (f : PUnit → Prog σ υ κ β) :
    ((modify g : Prog σ υ κ PUnit) >>= f).Changes R s ↔ R s (g s) ∧ (f ()).Changes R (g s) :=
  Iff.rfl

@[simp] theorem changes_askFor_bind (q : κ) (f : Int → Prog σ υ κ β) :
    (askFor q >>= f).Changes R s ↔ ∀ r, (f r).Changes R s := Iff.rfl

@[simp] theorem changes_yieldTo_bind (u : υ) (f : Unit → Prog σ υ κ β) :
    (yieldTo u >>= f).Changes R s ↔ ∀ t, (f ()).Changes R t := Iff.rfl

@[simp] theorem changes_ite (c : Prop) [Decidable c] (p q : Prog σ υ κ α) :
    (if c then p else q).Changes R s ↔ (c → p.Changes R s) ∧ (¬ c → q.Changes R s) := by
  by_cases hc : c <;> simp [hc]

/-- Sequencing: nothing is known of the state that the first part leaves. -/
theorem Changes.bind {p : Prog σ υ κ α} {f : α → Prog σ υ κ β} (hp : p.Changes R s)
    (hf : ∀ a, (f a).ChangesBy R) : (p >>= f).Changes R s := by
  show (p.bind f).Changes R s
  induction p generalizing s with
  | ret a => exact hf a s
  | read k ih => exact ih s hp
  | write t k ih => exact ⟨hp.1, ih hp.2⟩
  | yield u k ih => exact fun t => ih (hp t)
  | ask q k ih => exact fun r => ih r (hp r)
  | throw e => trivial

theorem ChangesBy.bind {p : Prog σ υ κ α} {f : α → Prog σ υ κ β} (hp : p.ChangesBy R)
    (hf : ∀ a, (f a).ChangesBy R) : (p >>= f).ChangesBy R :=
  fun s => (hp s).bind hf

theorem ChangesBy.ite {c : Prop} [Decidable c] {p q : Prog σ υ κ α} (hp : p.ChangesBy R)
    (hq : q.ChangesBy R) : (if c then p else q).ChangesBy R := by
  split
  · exact hp
  · exact hq

/-- A program whose writes keep what a call owes that started in `s₀`. -/
theorem Changes.wp_post {E : Env σ υ κ ι} {G C : Contract σ} {s₀ : σ}
    (hR : ∀ s t, C.Post s₀ s → R s t → C.Post s₀ t) :
    ∀ (p : Prog σ υ κ α) {s : σ}, p.Changes R s → C.Post s₀ s →
      p.wp E G C (C.Post s₀) (fun _ => C.Post s₀) s := by
  intro p
  induction p with
  | ret a => intro s _ h; exact h
  | read k ih => intro s hp h; exact ih s hp h
  | write t k ih => intro s hp h; exact ih hp.2 (hR s t h hp.1)
  | yield u k ih =>
      intro s hp h
      refine ⟨h.1, fun t _ ht => ?_⟩
      -- what outside code did belongs to the call as a whole
      have hpost : C.Post s₀ t := ⟨ht.1, C.trans h.2 ht.2⟩
      exact ⟨fun _ => ih (hp t) hpost, fun _ => hpost⟩
  | ask q k ih => intro s hp h r _; exact ih r (hp r) h
  | throw e => intro s _ h; exact h

/-- A program whose writes keep the contract keeps it as a whole. -/
theorem Changes.wp {E : Env σ υ κ ι} {G C : Contract σ} {s₀ : σ}
    (hR : ∀ s t, C.inv s → R s t → C.Post s t) (p : Prog σ υ κ α) {s : σ} (hp : p.Changes R s)
    (h : C.Post s₀ s) : p.wp E G C (C.Post s₀) (fun _ => C.Post s₀) s := by
  refine wp_post (fun t u ht htu => ?_) p hp h
  have hpost := hR t u ht.1 htu
  exact ⟨hpost.1, C.trans ht.2 hpost.2⟩

theorem Changes.mono {R' : σ → σ → Prop} (h : ∀ s t, R s t → R' s t) {p : Prog σ υ κ α}
    (hp : p.Changes R s) : p.Changes R' s := by
  induction p generalizing s with
  | ret a => trivial
  | read k ih => exact ih s hp
  | write t k ih => exact ⟨h s t hp.1, ih hp.2⟩
  | yield u k ih => exact fun t => ih (hp t)
  | ask q k ih => exact fun r => ih r (hp r)
  | throw e => trivial

theorem ChangesBy.mono {R' : σ → σ → Prop} (h : ∀ s t, R s t → R' s t) {p : Prog σ υ κ α}
    (hp : p.ChangesBy R) : p.ChangesBy R' :=
  fun s => (hp s).mono h

/-- Up to its first yield the program changes the state by `R` as a whole. -/
theorem Changes.exec (hrefl : ∀ s, R s s) (htrans : ∀ {s t u}, R s t → R t u → R s u)
    {p : Prog σ υ κ α} (hp : p.Changes R s) (rs : List Int) : R s (p.exec rs s).heap := by
  induction p generalizing s rs with
  | ret a => exact hrefl s
  | read k ih => exact ih s hp rs
  | write t k ih => exact htrans hp.1 (ih hp.2 rs)
  | yield u k => exact hrefl s
  | ask q k ih => exact ih _ (hp _) rs.tail
  | throw e => exact hrefl s

/-- What waits after a yield changes the state by `R` too. -/
theorem Changes.waiting {p : Prog σ υ κ α} (hp : p.Changes R s) {rs : List Int} {u : υ}
    {k : Prog σ υ κ α} {t : σ} (ho : p.exec rs s = .yielded u k t) : k.ChangesBy R := by
  induction p generalizing s rs with
  | ret => cases ho
  | read k ih => exact ih s hp ho
  | write t k ih => exact ih hp.2 ho
  | yield =>
      cases ho
      exact hp
  | ask q k ih => exact ih _ (hp _) ho
  | throw => cases ho

end rules

end Prog

/-! ### Runs -/

/-- Everything that waits on the stack changes the state by `R`. -/
def Config.ChangesBy (R : σ → σ → Prop) (c : Config σ υ κ) : Prop :=
  ∀ f ∈ c.stack, f.2.ChangesBy R

namespace Machine

variable {R : σ → σ → Prop} {M : Machine σ υ κ ι} {E : Env σ υ κ ι} {s₀ : σ}
variable {c c' : Config σ υ κ}

theorem settle_changesBy {stack : List (υ × Prog σ υ κ Unit)} {o : Outcome σ υ κ Unit}
    (ho : ∀ u k t, o = .yielded u k t → k.ChangesBy R)
    (hstack : ∀ f ∈ stack, f.2.ChangesBy R) : (Config.settle stack o).ChangesBy R := by
  cases o with
  | done => exact hstack
  | thrown => exact hstack
  | yielded u k t => exact List.forall_mem_cons.mpr ⟨ho u k t rfl, hstack⟩

/-- In every run, all that waits changes the state by `R`, where this is so of what each call
leaves waiting. -/
theorem reach_changesBy
    (hbody : ∀ i s rs u k t, (M.body i).exec rs s = .yielded u k t → k.ChangesBy R)
    (hc : M.Reach E s₀ c) : c.ChangesBy R := by
  induction hc with
  | start => exact nofun
  | @next c c' m _ _ hstep ih =>
      cases m with
      | call i rs =>
          obtain ⟨-, rfl⟩ := step_call hstep
          exact settle_changesBy (hbody i _ rs) ih
      | ret rs =>
          obtain ⟨u, k, st, hstack, rfl⟩ := step_ret hstep
          rw [Config.ChangesBy, hstack] at ih
          obtain ⟨hk, hst⟩ := List.forall_mem_cons.mp ih
          exact settle_changesBy (fun _ _ _ ho => (hk c.heap).waiting ho) hst
      | throw =>
          obtain ⟨f, st, hstack, rfl⟩ := step_throw hstep
          rw [Config.ChangesBy, hstack] at ih
          exact (List.forall_mem_cons.mp ih).2

/-- A step that goes on with what waits changes the state by `R`, and so does a call that
does. -/
theorem step_changes (hrefl : ∀ s, R s s) (htrans : ∀ {s t u}, R s t → R t u → R s u)
    (hc : c.ChangesBy R) {m : Move ι} (hstep : M.step c m = some c')
    (hcall : ∀ i rs, m = .call i rs → (M.body i).Changes R c.heap) : R c.heap c'.heap := by
  cases m with
  | call i rs =>
      obtain ⟨-, rfl⟩ := step_call hstep
      rw [settle_heap]
      exact (hcall i rs rfl).exec hrefl htrans rs
  | ret rs =>
      obtain ⟨u, k, st, hstack, rfl⟩ := step_ret hstep
      rw [Config.ChangesBy, hstack] at hc
      rw [settle_heap]
      exact ((List.forall_mem_cons.mp hc).1 c.heap).exec hrefl htrans rs
  | throw =>
      obtain ⟨f, st, hstack, rfl⟩ := step_throw hstep
      exact hrefl c.heap

end Machine

end Reentrant

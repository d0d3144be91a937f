import IotJs.Lib.Reentrant.Prog

/-!
# `IotJs.Lib.Reentrant.Contract`: invariants of re-entrant code

A `Contract` is an invariant `inv`, which holds whenever outside code has control, and a
relation `rely`, which every call of the machine guarantees between the state at its start and
the state at its end. So a function that yields may count on both when control comes back,
whatever outside code did meanwhile. A call that starts at rest, with nothing waiting, may
guarantee less than a call from inside a yield: that is the weaker relation `outer`.

`Prog.wp` is the weakest precondition under that reading: at a `yield` the invariant must
hold, and the rest of the program must be correct from every state that the contract leaves
possible. `Contract.Holds` asks for it of every call of a machine, and
`Contract.Holds.stackOk` is the induction over runs: then `inv` holds in every reachable
configuration, and whenever nothing waits on the stack the run so far satisfies `outer`. A
property that holds at rest and not in the middle of a call is such a relation.

The proof of one contract may use another, `given`, that is already proved: `Holds.and` puts
the two together. Where nothing is given, it is `Contract.nil`.
-/

set_option autoImplicit false

namespace Reentrant

variable {σ υ κ ι α β : Type}

/-- What holds whenever outside code has control (`inv`), and what a call guarantees from its
start to its end: `rely` from inside a yield, `outer` at rest. -/
structure Contract (σ : Type) where
  inv : σ → Prop
  rely : σ → σ → Prop
  outer : σ → σ → Prop
  refl : ∀ s, rely s s
  trans : ∀ {s t u}, rely s t → rely t u → rely s u
  outer_of_rely : ∀ {s t}, rely s t → outer s t
  outer_trans : ∀ {s t u}, outer s t → outer t u → outer s u

namespace Contract

/-- A contract that asks the same of every call. -/
abbrev plain (inv : σ → Prop) (rely : σ → σ → Prop) (refl : ∀ s, rely s s)
    (trans : ∀ {s t u}, rely s t → rely t u → rely s u) : Contract σ where
  inv := inv
  rely := rely
  outer := rely
  refl := refl
  trans := trans
  outer_of_rely := id
  outer_trans := trans

/-- The contract that says nothing. -/
def nil : Contract σ :=
  plain (fun _ => True) (fun _ _ => True) (fun _ => trivial) fun _ _ => trivial

/-- A plain invariant. -/
def ofInv (inv : σ → Prop) : Contract σ :=
  plain inv (fun _ _ => True) (fun _ => trivial) fun _ _ => trivial

/-- Two contracts at once. -/
def and (C D : Contract σ) : Contract σ where
  inv s := C.inv s ∧ D.inv s
  rely s t := C.rely s t ∧ D.rely s t
  outer s t := C.outer s t ∧ D.outer s t
  refl s := ⟨C.refl s, D.refl s⟩
  trans h₁ h₂ := ⟨C.trans h₁.1 h₂.1, D.trans h₁.2 h₂.2⟩
  outer_of_rely h := ⟨C.outer_of_rely h.1, D.outer_of_rely h.2⟩
  outer_trans h₁ h₂ := ⟨C.outer_trans h₁.1 h₂.1, D.outer_trans h₁.2 h₂.2⟩

/-- What a call from inside a yield owes, when it started in `s` and ends in `t`. -/
def Post (C : Contract σ) (s t : σ) : Prop := C.inv t ∧ C.rely s t

/-- What a call owes, when it started in `s` and ends in `t`. -/
def PostAt (C : Contract σ) : Bool → σ → σ → Prop
  | true, s, t => C.inv t ∧ C.outer s t
  | false, s, t => C.Post s t

theorem Post.at {C : Contract σ} {s t : σ} (h : C.Post s t) (atRest : Bool) :
    C.PostAt atRest s t := by
  cases atRest with
  | true => exact ⟨h.1, C.outer_of_rely h.2⟩
  | false => exact h

@[simp] theorem ofInv_post (I : σ → Prop) (s t : σ) : (ofInv I).Post s t ↔ I t :=
  and_iff_left trivial

@[simp] theorem nil_inv (s : σ) : (nil : Contract σ).inv s := trivial
@[simp] theorem nil_rely (s t : σ) : (nil : Contract σ).rely s t := trivial

end Contract

/-! ### The weakest precondition -/

namespace Prog

/-- From `s` the program keeps the contract `C` at each yield, ends in `Q`, and leaves by an
exception, its own or one of outside code, only where `X` holds. -/
def wp (E : Env σ υ κ ι) (G C : Contract σ) (X : σ → Prop) :
    Prog σ υ κ α → (α → σ → Prop) → σ → Prop
  | .ret a, Q, s => Q a s
  | .read k, Q, s => (k s).wp E G C X Q s
  | .write t k, Q, _ => k.wp E G C X Q t
  | .yield u k, Q, s => C.inv s ∧ ∀ t, G.Post s t → C.Post s t →
      (E.returns u t → k.wp E G C X Q t) ∧ (E.throws u t → X t)
  | .ask q k, Q, s => ∀ r, E.answer q s r → (k r).wp E G C X Q s
  | .throw _, _, s => X s

section rules

variable {E : Env σ υ κ ι} {G C : Contract σ} {X : σ → Prop}

@[simp] theorem wp_pure (a : α) (Q : α → σ → Prop) (s : σ) :
    (pure a : Prog σ υ κ α).wp E G C X Q s ↔ Q a s := Iff.rfl

@[simp] theorem wp_get (Q : σ → σ → Prop) (s : σ) :
    (get : Prog σ υ κ σ).wp E G C X Q s ↔ Q s s := Iff.rfl

@[simp] theorem wp_set (t : σ) (Q : PUnit → σ → Prop) (s : σ) :
    (set t : Prog σ υ κ PUnit).wp E G C X Q s ↔ Q () t := Iff.rfl

@[simp] theorem wp_modify (f : σ → σ) (Q : PUnit → σ → Prop) (s : σ) :
    (modify f : Prog σ υ κ PUnit).wp E G C X Q s ↔ Q () (f s) := Iff.rfl

@[simp] theorem wp_yieldTo (u : υ) (Q : Unit → σ → Prop) (s : σ) :
    (yieldTo u : Prog σ υ κ Unit).wp E G C X Q s ↔
      C.inv s ∧ ∀ t, G.Post s t → C.Post s t →
        (E.returns u t → Q () t) ∧ (E.throws u t → X t) := Iff.rfl

@[simp] theorem wp_askFor (q : κ) (Q : Int → σ → Prop) (s : σ) :
    (askFor q : Prog σ υ κ Int).wp E G C X Q s ↔ ∀ r, E.answer q s r → Q r s := Iff.rfl

@[simp] theorem wp_fail (e : String) (Q : α → σ → Prop) (s : σ) :
    (fail e : Prog σ υ κ α).wp E G C X Q s ↔ X s := Iff.rfl

/-- Sequencing. -/
@[simp] theorem wp_bind (p : Prog σ υ κ α) (f : α → Prog σ υ κ β) (Q : β → σ → Prop) (s : σ) :
    (p >>= f).wp E G C X Q s ↔ p.wp E G C X (fun a t => (f a).wp E G C X Q t) s := by
  show (p.bind f).wp E G C X Q s ↔ _
  induction p generalizing s with
  | ret a => rfl
  | read k ih => exact ih s s
  | write t k ih => exact ih t
  | yield u k ih => simp only [Prog.bind, wp, ih]
  | ask q k ih => simp only [Prog.bind, wp, ih]
  | throw e => rfl

/-- Both branches, each under its condition. An `if` in `Prop` would carry a `Decidable`
instance that no longer matches once its condition is simplified. -/
@[simp] theorem wp_ite (c : Prop) [Decidable c] (p q : Prog σ υ κ α) (Q : α → σ → Prop) (s : σ) :
    (if c then p else q).wp E G C X Q s ↔
      (c → p.wp E G C X Q s) ∧ (¬ c → q.wp E G C X Q s) := by
  by_cases hc : c <;> simp [hc]

/-- A yield under a plain invariant: establish it, and use nothing else afterwards. -/
theorem wp_yieldTo_inv {I : σ → Prop} {u : υ} {Q : Unit → σ → Prop} {s : σ} (h : I s)
    (hQ : ∀ t, I t → Q () t) (hX : ∀ t, I t → X t) :
    (yieldTo u : Prog σ υ κ Unit).wp E G (.ofInv I) X Q s :=
  ⟨h, fun t _ ht => ⟨fun _ => hQ t ht.1, fun _ => hX t ht.1⟩⟩

/-- A yield in the middle of a function that started in `s₀`: outside code adds nothing to what
the function owes. -/
theorem wp_yieldTo_post {u : υ} {s₀ s : σ} (h : C.Post s₀ s) :
    (yieldTo u : Prog σ υ κ Unit).wp E G C (C.Post s₀) (fun _ => C.Post s₀) s := by
  refine ⟨h.1, fun t _ ht => ?_⟩
  have hpost : C.Post s₀ t := ⟨ht.1, C.trans h.2 ht.2⟩
  exact ⟨fun _ => hpost, fun _ => hpost⟩

/-- A yield in the middle of a call that came at rest. -/
theorem wp_yieldTo_at {u : υ} {s₀ s : σ} (h : C.PostAt true s₀ s) :
    (yieldTo u : Prog σ υ κ Unit).wp E G C (C.PostAt true s₀) (fun _ => C.PostAt true s₀) s := by
  refine ⟨h.1, fun t _ ht => ?_⟩
  have hpost : C.PostAt true s₀ t := ⟨ht.1, C.outer_trans h.2 (C.outer_of_rely ht.2)⟩
  exact ⟨fun _ => hpost, fun _ => hpost⟩

/-- A weaker goal: what the program guarantees is only used through `Q` and `X`. -/
theorem wp_mono {X' : σ → Prop} {Q Q' : α → σ → Prop} (hX : ∀ t, X t → X' t)
    (hQ : ∀ a t, Q a t → Q' a t) :
    ∀ (p : Prog σ υ κ α) {s : σ}, p.wp E G C X Q s → p.wp E G C X' Q' s := by
  intro p
  induction p with
  | ret a => intro s h; exact hQ a s h
  | read k ih => intro s h; exact ih s h
  | write t k ih => intro s h; exact ih h
  | yield u k ih =>
      intro s h
      refine ⟨h.1, fun t hg hc => ?_⟩
      obtain ⟨hk, hthrow⟩ := h.2 t hg hc
      exact ⟨fun hu => ih (hk hu), fun hu => hX t (hthrow hu)⟩
  | ask q k ih => intro s h r hr; exact ih r (h r hr)
  | throw e => intro s h; exact hX s h

/-- A program that guarantees what a call from inside a yield owes may be called at rest too. -/
theorem wp_at {p : Prog σ υ κ α} {s₀ s : σ} (atRest : Bool)
    (h : p.wp E G C (C.Post s₀) (fun _ => C.Post s₀) s) :
    p.wp E G C (C.PostAt atRest s₀) (fun _ => C.PostAt atRest s₀) s :=
  wp_mono (fun _ ht => ht.at atRest) (fun _ _ ht => ht.at atRest) p h

/-- Nothing is asked of a program that owes nothing. -/
theorem wp_trivial {E : Env σ υ κ ι} :
    ∀ (p : Prog σ υ κ α) (s : σ), p.wp E .nil .nil (fun _ => True) (fun _ _ => True) s := by
  intro p
  induction p with
  | ret a => intro s; trivial
  | read k ih => intro s; exact ih s s
  | write t k ih => intro s; exact ih t
  | yield u k ih => intro s; exact ⟨trivial, fun t _ _ => ⟨fun _ => ih t, fun _ => trivial⟩⟩
  | ask q k ih => intro s r _; exact ih r s
  | throw e => intro s; trivial

end rules

/-- Two contracts at once: the second one was proved with the first one given. -/
theorem wp_and {E : Env σ υ κ ι} {C D : Contract σ} {X Y : σ → Prop} {Q R : α → σ → Prop} :
    ∀ (p : Prog σ υ κ α) {s : σ}, p.wp E .nil C X Q s → p.wp E C D Y R s →
      p.wp E .nil (C.and D) (fun t => X t ∧ Y t) (fun a t => Q a t ∧ R a t) s := by
  intro p
  induction p with
  | ret a => intro s h₁ h₂; exact ⟨h₁, h₂⟩
  | read k ih => intro s h₁ h₂; exact ih s h₁ h₂
  | write t k ih => intro s h₁ h₂; exact ih h₁ h₂
  | yield u k ih =>
      intro s h₁ h₂
      refine ⟨⟨h₁.1, h₂.1⟩, fun t hg hcd => ?_⟩
      -- outside code kept both contracts, and the second program may use the first one
      have hc : C.Post s t := ⟨hcd.1.1, hcd.2.1⟩
      have hd : D.Post s t := ⟨hcd.1.2, hcd.2.2⟩
      obtain ⟨hk₁, hthrow₁⟩ := h₁.2 t hg hc
      obtain ⟨hk₂, hthrow₂⟩ := h₂.2 t hc hd
      exact ⟨fun hu => ih (hk₁ hu) (hk₂ hu), fun hu => ⟨hthrow₁ hu, hthrow₂ hu⟩⟩
  | ask q k ih => intro s h₁ h₂ r hr; exact ih r (h₁ r hr) (h₂ r hr)
  | throw e => intro s h₁ h₂; exact ⟨h₁, h₂⟩

/-- A contract that was proved from nothing may be given another one. -/
theorem wp_given {E : Env σ υ κ ι} {G C : Contract σ} {X : σ → Prop} {Q : α → σ → Prop} :
    ∀ (p : Prog σ υ κ α) {s : σ}, p.wp E .nil C X Q s → p.wp E G C X Q s := by
  intro p
  induction p with
  | ret a => intro s h; exact h
  | read k ih => intro s h; exact ih s h
  | write t k ih => intro s h; exact ih h
  | yield u k ih =>
      intro s h
      refine ⟨h.1, fun t _ hc => ?_⟩
      obtain ⟨hk, hthrow⟩ := h.2 t ⟨trivial, trivial⟩ hc
      exact ⟨fun hu => ih (hk hu), hthrow⟩
  | ask q k ih => intro s h r hr; exact ih r (h r hr)
  | throw e => intro s h; exact h

/-- Surroundings that may do less need less. -/
theorem wp_env {E F : Env σ υ κ ι} {G C : Contract σ} {X : σ → Prop} {Q : α → σ → Prop}
    (ha : ∀ q s r, F.answer q s r → E.answer q s r)
    (hr : ∀ u s, F.returns u s → E.returns u s) (ht : ∀ u s, F.throws u s → E.throws u s) :
    ∀ (p : Prog σ υ κ α) {s : σ}, p.wp E G C X Q s → p.wp F G C X Q s := by
  intro p
  induction p with
  | ret a => intro s h; exact h
  | read k ih => intro s h; exact ih s h
  | write t k ih => intro s h; exact ih h
  | yield u k ih =>
      intro s h
      refine ⟨h.1, fun t hg hc => ?_⟩
      obtain ⟨hk, hthrow⟩ := h.2 t hg hc
      exact ⟨fun hu => ih (hk (hr u t hu)), fun hu => hthrow (ht u t hu)⟩
  | ask q k ih => intro s h r hans; exact ih r (h r (ha q s r hans))
  | throw e => intro s h; exact h

end Prog

/-! ### Contracts of machines -/

namespace Contract

/-- What holds of an `Outcome` when the program met its weakest precondition. -/
def Sat (E : Env σ υ κ ι) (C : Contract σ) (X : σ → Prop) (Q : α → σ → Prop) :
    Outcome σ υ κ α → Prop
  | .done a s => Q a s
  | .thrown _ s => X s
  | .yielded u k s => C.inv s ∧ ∀ t, C.Post s t →
      (E.returns u t → k.wp E .nil C X Q t) ∧ (E.throws u t → X t)

/-- The weakest precondition is sound for `exec`. -/
theorem wp_exec {E : Env σ υ κ ι} {C : Contract σ} {X : σ → Prop} {Q : α → σ → Prop} :
    ∀ (p : Prog σ υ κ α) (rs : List Int) (s : σ), p.wp E .nil C X Q s →
      p.AnswersOk E.answer rs s → Sat E C X Q (p.exec rs s) := by
  intro p
  induction p with
  | ret a => intro rs s h _; exact h
  | read k ih => intro rs s h ha; exact ih s rs s h ha
  | write t k ih => intro rs s h ha; exact ih rs t h ha
  | yield u k ih => intro rs s h _; exact ⟨h.1, fun t hc => h.2 t ⟨trivial, trivial⟩ hc⟩
  | ask q k ih => intro rs s h ha; exact ih _ rs.tail s (h _ ha.1) ha.2
  | throw e => intro rs s h _; exact h

/-- And it is complete: what holds of all outcomes is the weakest precondition. -/
theorem wp_of_exec {E : Env σ υ κ ι} {C : Contract σ} {X : σ → Prop} {Q : α → σ → Prop} :
    ∀ (p : Prog σ υ κ α) {s : σ},
      (∀ rs, p.AnswersOk E.answer rs s → Sat E C X Q (p.exec rs s)) → p.wp E .nil C X Q s := by
  intro p
  induction p with
  | ret a => exact fun h => h [] trivial
  | read k ih => exact fun h => ih _ h
  | write t k ih => exact fun h => ih h
  | yield u k ih =>
      intro s h
      obtain ⟨hinv, hrest⟩ := h [] trivial
      exact ⟨hinv, fun t _ ht => hrest t ht⟩
  | ask q k ih => exact fun h r hr => ih r fun rs hrs => h (r :: rs) ⟨hr, hrs⟩
  | throw e => exact fun h => h [] trivial

/-- Every call of the machine keeps the contract `C`, when `G` is given. A call at rest may
use what the run so far guarantees. -/
structure Holds (M : Machine σ υ κ ι) (E : Env σ υ κ ι) (G C : Contract σ) (s₀ : σ) : Prop where
  init : C.inv s₀
  body : ∀ (i : ι) (atRest : Bool) (s : σ), G.inv s → C.inv s → M.enabled i atRest s = true →
    E.call i s → (atRest = true → G.outer s₀ s ∧ C.outer s₀ s) →
    (M.body i).wp E G C (C.PostAt atRest s) (fun _ => C.PostAt atRest s) s

/-- Calls that guarantee `rely` everywhere. -/
theorem Holds.intro {M : Machine σ υ κ ι} {E : Env σ υ κ ι} {G C : Contract σ} {s₀ : σ}
    (init : C.inv s₀)
    (body : ∀ (i : ι) (atRest : Bool) (s : σ), G.inv s → C.inv s →
      M.enabled i atRest s = true → E.call i s →
      (M.body i).wp E G C (C.Post s) (fun _ => C.Post s) s) : Holds M E G C s₀ where
  init := init
  body i atRest s hg hc he hcall _ :=
    Prog.wp_at atRest (body i atRest s hg hc he hcall)

/-- A proved contract, together with one that was proved with it given. -/
theorem Holds.and {M : Machine σ υ κ ι} {E : Env σ υ κ ι} {C D : Contract σ} {s₀ : σ}
    (hC : Holds M E .nil C s₀) (hD : Holds M E C D s₀) : Holds M E .nil (C.and D) s₀ where
  init := ⟨hC.init, hD.init⟩
  body i atRest s hg hcd he hcall hrest := by
    have h₁ := hC.body i atRest s hg hcd.1 he hcall fun h => ⟨trivial, (hrest h).2.1⟩
    have h₂ := hD.body i atRest s hcd.1 hcd.2 he hcall fun h => ⟨(hrest h).2.1, (hrest h).2.2⟩
    have hpost : ∀ t, C.PostAt atRest s t ∧ D.PostAt atRest s t →
        (C.and D).PostAt atRest s t := by
      intro t h
      cases atRest with
      | true => exact ⟨⟨h.1.1, h.2.1⟩, ⟨h.1.2, h.2.2⟩⟩
      | false => exact ⟨⟨h.1.1, h.2.1⟩, ⟨h.1.2, h.2.2⟩⟩
    exact Prog.wp_mono hpost (fun _ => hpost) _ (Prog.wp_and _ h₁ h₂)

/-- A contract that was proved from nothing may be given another one. -/
theorem Holds.of_given {M : Machine σ υ κ ι} {E : Env σ υ κ ι} {G C : Contract σ} {s₀ : σ}
    (h : Holds M E .nil C s₀) : Holds M E G C s₀ where
  init := h.init
  body i atRest s _ hc he hcall hrest :=
    Prog.wp_given _ (h.body i atRest s trivial hc he hcall fun hr => ⟨trivial, (hrest hr).2⟩)

/-- Surroundings that may do less keep the contract as well. -/
theorem Holds.of_env {M : Machine σ υ κ ι} {E F : Env σ υ κ ι} {G C : Contract σ} {s₀ : σ}
    (h : Holds M E G C s₀) (hcall : ∀ i s, F.call i s → E.call i s)
    (hanswer : ∀ q s r, F.answer q s r → E.answer q s r)
    (hreturns : ∀ u s, F.returns u s → E.returns u s)
    (hthrows : ∀ u s, F.throws u s → E.throws u s) : Holds M F G C s₀ where
  init := h.init
  body i atRest s hg hc he hi hrest :=
    Prog.wp_env hanswer hreturns hthrows _ (h.body i atRest s hg hc he (hcall i s hi) hrest)

/-- A contract that holds in free surroundings holds in all. -/
theorem Holds.of_free {M : Machine σ υ κ ι} {E : Env σ υ κ ι} {G C : Contract σ} {s₀ : σ}
    (h : Holds M .free G C s₀) : Holds M E G C s₀ :=
  h.of_env (fun _ _ _ => trivial) (fun _ _ _ _ => trivial) (fun _ _ _ => trivial)
    fun _ _ _ => trivial

/-- Each function that waits on the stack goes on correctly from every state that the contract
leaves possible; `s` is the present state. -/
def StackOk (E : Env σ υ κ ι) (C : Contract σ) (s₀ : σ) :
    List (υ × Prog σ υ κ Unit) → σ → Prop
  | [], s => C.outer s₀ s
  | (u, k) :: st, s => ∃ s₁ sy, StackOk E C s₀ st s₁ ∧ C.rely sy s ∧
      ∀ t, C.Post sy t →
        (E.returns u t → k.wp E .nil C (C.PostAt st.isEmpty s₁)
          (fun _ => C.PostAt st.isEmpty s₁) t) ∧
        (E.throws u t → C.PostAt st.isEmpty s₁ t)

/-- What a call guarantees keeps the stack under it correct. -/
theorem StackOk.after {E : Env σ υ κ ι} {C : Contract σ} {s₀ s t : σ}
    {st : List (υ × Prog σ υ κ Unit)} (h : StackOk E C s₀ st s)
    (ht : C.PostAt st.isEmpty s t) : C.inv t ∧ StackOk E C s₀ st t := by
  cases st with
  | nil => exact ⟨ht.1, C.outer_trans h ht.2⟩
  | cons f st =>
      obtain ⟨s₁, sy, hst, hsy, hk⟩ := h
      exact ⟨ht.1, s₁, sy, hst, C.trans hsy ht.2, hk⟩

/-- A function that started in `s₁` over a correct stack leaves a correct configuration. -/
theorem stackOk_settle {E : Env σ υ κ ι} {C : Contract σ} {s₀ s₁ : σ}
    {st : List (υ × Prog σ υ κ Unit)} {o : Outcome σ υ κ Unit} (hst : StackOk E C s₀ st s₁)
    (ho : Sat E C (C.PostAt st.isEmpty s₁) (fun _ => C.PostAt st.isEmpty s₁) o) :
    C.inv (Config.settle st o).heap ∧
      StackOk E C s₀ (Config.settle st o).stack (Config.settle st o).heap := by
  cases o with
  | done a s => exact hst.after ho
  | thrown e s => exact hst.after ho
  | yielded u k s => exact ⟨ho.1, s₁, s, hst, C.refl s, ho.2⟩

/-- The induction over runs: the invariant holds whenever outside code has control, and every
waiting function is still correct. -/
theorem Holds.stackOk {M : Machine σ υ κ ι} {E : Env σ υ κ ι} {C : Contract σ} {s₀ : σ}
    (h : Holds M E .nil C s₀) {c : Config σ υ κ} (hc : M.Reach E s₀ c) :
    C.inv c.heap ∧ StackOk E C s₀ c.stack c.heap := by
  induction hc with
  | start => exact ⟨h.init, C.outer_of_rely (C.refl s₀)⟩
  | @next c c' m _ hallow hstep ih =>
      obtain ⟨hinv, hstack⟩ := ih
      cases m with
      | call i rs =>
          obtain ⟨hen, rfl⟩ := Machine.step_call hstep
          have hwp := h.body i _ c.heap trivial hinv hen hallow.1 (fun hrest => by
            rw [List.isEmpty_iff] at hrest
            rw [hrest] at hstack
            -- with nothing waiting, the correct stack is what the run guarantees so far
            exact ⟨trivial, hstack⟩)
          exact stackOk_settle hstack (wp_exec _ rs _ hwp hallow.2)
      | ret rs =>
          obtain ⟨s, stack⟩ := c
          match stack, hstack, hstep, hallow with
          | (u, k) :: st, hstack, hstep, hallow =>
              cases hstep
              obtain ⟨s₁, sy, hst, hsy, hk⟩ := hstack
              exact stackOk_settle hst
                (wp_exec k rs s ((hk s ⟨hinv, hsy⟩).1 hallow.1) hallow.2)
      | throw =>
          obtain ⟨s, stack⟩ := c
          match stack, hstack, hstep, hallow with
          | (u, k) :: st, hstack, hstep, hallow =>
              cases hstep
              obtain ⟨s₁, sy, hst, hsy, hk⟩ := hstack
              -- the function that waited is dropped, and has kept its contract up to here
              exact hst.after ((hk s ⟨hinv, hsy⟩).2 hallow)

/-- The invariant holds in every reachable configuration. -/
theorem Holds.inv_of_reach {M : Machine σ υ κ ι} {E : Env σ υ κ ι} {C : Contract σ} {s₀ : σ}
    (h : Holds M E .nil C s₀) {c : Config σ υ κ} (hc : M.Reach E s₀ c) : C.inv c.heap :=
  (h.stackOk hc).1

/-- Whenever nothing waits on the stack, the run so far satisfies `outer`. -/
theorem Holds.outer_of_rest {M : Machine σ υ κ ι} {E : Env σ υ κ ι} {C : Contract σ} {s₀ : σ}
    (h : Holds M E .nil C s₀) {c : Config σ υ κ} (hc : M.Reach E s₀ c) (hrest : c.stack = []) :
    C.outer s₀ c.heap := by
  have hstack := (h.stackOk hc).2
  rw [hrest] at hstack
  exact hstack

/-- The contract holds of what follows, once the run has come to rest. -/
theorem Holds.restart {M : Machine σ υ κ ι} {E : Env σ υ κ ι} {C : Contract σ} {s₀ s : σ}
    (h : Holds M E .nil C s₀) (hs : M.Reach E s₀ ⟨s, []⟩) : Holds M E .nil C s where
  init := h.inv_of_reach hs
  body i atRest t hg hc he hcall hrest :=
    h.body i atRest t hg hc he hcall fun hr =>
      ⟨trivial, C.outer_trans (h.outer_of_rest hs rfl) (hrest hr).2⟩

end Contract

end Reentrant

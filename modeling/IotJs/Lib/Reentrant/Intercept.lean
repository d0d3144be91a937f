import IotJs.Lib.Reentrant.Contract

/-!
# `IotJs.Lib.Reentrant.Intercept`: known code among the outside code

A program yields to outside code, and some of that outside code may be known after all: a
listener that another library registered. `Prog.intercept` puts it back. Wherever the program
yields to `u`, the known code `listen u` runs first, and then control goes on to the rest of
the outside code, under a new name. An exception of the known code leaves the program, as one
of outside code would.

What was proved of the program alone stays true of the whole: `Prog.wp_intercept` asks of the
known code what a contract asks of outside code, that it keeps the contract. Where the known
code needs more than the invariant, the program has to see to it before it yields.
`Prog.hands` is that obligation: whenever the program yields to `u`, the state meets `A u`.
-/

set_option autoImplicit false

namespace Reentrant

variable {σ υ κ ι ω μ ι' α β : Type}

namespace Prog

/-- The program with `listen u` in front of each yield to `u`. -/
def intercept (listen : υ → Prog σ ω μ Unit) (f : υ → ω) (g : κ → μ) :
    Prog σ υ κ α → Prog σ ω μ α
  | .ret a => .ret a
  | .read k => .read fun s => (k s).intercept listen f g
  | .write s k => .write s (k.intercept listen f g)
  | .yield u k => (listen u).bind fun _ => .yield (f u) (k.intercept listen f g)
  | .ask q k => .ask (g q) fun r => (k r).intercept listen f g
  | .throw e => .throw e

/-- From `s` the program meets `A u` whenever it yields to `u`, and ends in `Q`. Outside code
keeps the contract `C`. -/
def hands (E : Env σ υ κ ι) (C : Contract σ) (A : υ → σ → Prop) :
    Prog σ υ κ α → (α → σ → Prop) → σ → Prop
  | .ret a, Q, s => Q a s
  | .read k, Q, s => (k s).hands E C A Q s
  | .write t k, Q, _ => k.hands E C A Q t
  | .yield u k, Q, s => A u s ∧ ∀ t, C.Post s t → E.returns u t → k.hands E C A Q t
  | .ask q k, Q, s => ∀ r, E.answer q s r → (k r).hands E C A Q s
  | .throw _, _, _ => True

section rules

variable {E : Env σ υ κ ι} {C : Contract σ} {A : υ → σ → Prop}

@[simp] theorem hands_pure (a : α) (Q : α → σ → Prop) (s : σ) :
    (pure a : Prog σ υ κ α).hands E C A Q s ↔ Q a s := Iff.rfl

@[simp] theorem hands_get (Q : σ → σ → Prop) (s : σ) :
    (get : Prog σ υ κ σ).hands E C A Q s ↔ Q s s := Iff.rfl

@[simp] theorem hands_modify (f : σ → σ) (Q : PUnit → σ → Prop) (s : σ) :
    (modify f : Prog σ υ κ PUnit).hands E C A Q s ↔ Q () (f s) := Iff.rfl

@[simp] theorem hands_yieldTo (u : υ) (Q : Unit → σ → Prop) (s : σ) :
    (yieldTo u : Prog σ υ κ Unit).hands E C A Q s ↔
      A u s ∧ ∀ t, C.Post s t → E.returns u t → Q () t := Iff.rfl

@[simp] theorem hands_askFor (q : κ) (Q : Int → σ → Prop) (s : σ) :
    (askFor q : Prog σ υ κ Int).hands E C A Q s ↔ ∀ r, E.answer q s r → Q r s := Iff.rfl

@[simp] theorem hands_fail (e : String) (Q : α → σ → Prop) (s : σ) :
    (fail e : Prog σ υ κ α).hands E C A Q s ↔ True := Iff.rfl

@[simp] theorem hands_bind (p : Prog σ υ κ α) (f : α → Prog σ υ κ β) (Q : β → σ → Prop)
    (s : σ) :
    (p >>= f).hands E C A Q s ↔ p.hands E C A (fun a t => (f a).hands E C A Q t) s := by
  show (p.bind f).hands E C A Q s ↔ _
  induction p generalizing s with
  | ret a => rfl
  | read k ih => exact ih s s
  | write t k ih => exact ih t
  | yield u k ih => simp only [Prog.bind, hands, ih]
  | ask q k ih => simp only [Prog.bind, hands, ih]
  | throw e => rfl

@[simp] theorem hands_ite (c : Prop) [Decidable c] (p q : Prog σ υ κ α) (Q : α → σ → Prop)
    (s : σ) :
    (if c then p else q).hands E C A Q s ↔
      (c → p.hands E C A Q s) ∧ (¬ c → q.hands E C A Q s) := by
  by_cases hc : c <;> simp [hc]

theorem hands_mono {Q Q' : α → σ → Prop} (hQ : ∀ a t, Q a t → Q' a t) :
    ∀ (p : Prog σ υ κ α) {s : σ}, p.hands E C A Q s → p.hands E C A Q' s := by
  intro p
  induction p with
  | ret a => intro s h; exact hQ a s h
  | read k ih => intro s h; exact ih s h
  | write t k ih => intro s h; exact ih h
  | yield u k ih => intro s h; exact ⟨h.1, fun t ht hret => ih (h.2 t ht hret)⟩
  | ask q k ih => intro s h r hr; exact ih r (h r hr)
  | throw e => intro s h; trivial

/-- Known code that needs nothing. -/
theorem hands_trivial (p : Prog σ υ κ α) :
    ∀ s : σ, p.hands E C (fun _ _ => True) (fun _ _ => True) s := by
  induction p with
  | ret a => intro s; trivial
  | read k ih => intro s; exact ih s s
  | write t k ih => intro s; exact ih t
  | yield u k ih => intro s; exact ⟨trivial, fun t _ _ => ih t⟩
  | ask q k ih => intro s r _; exact ih r s
  | throw e => intro s; trivial

/-- Known code needs nothing of a program that gets to its end. -/
theorem hands_of_exec (p : Prog σ υ κ α) :
    ∀ {s : σ}, (∀ rs u k t, p.exec rs s ≠ .yielded u k t) →
      p.hands E C A (fun _ _ => True) s := by
  induction p with
  | ret a => exact fun _ => trivial
  | read k ih => exact fun h => ih _ h
  | write t k ih => exact fun h => ih h
  | yield u k => exact fun h => absurd rfl (h [] u k _)
  | ask q k ih => exact fun h r _ => ih r fun rs => h (r :: rs)
  | throw e => exact fun _ => trivial

end rules

/-! ### The rule of interception -/

/-- The known code keeps the contract, as outside code does, from every state in which the
program yields. So what the program keeps alone it keeps with the known code in it. -/
theorem wp_intercept {E : Env σ υ κ ι} {F : Env σ ω μ ι'} {C : Contract σ}
    {A : υ → σ → Prop} {listen : υ → Prog σ ω μ Unit} {f : υ → ω} {g : κ → μ}
    (hanswer : ∀ q s r, F.answer (g q) s r → E.answer q s r)
    (hreturns : ∀ u t, F.returns (f u) t → E.returns u t)
    (hthrows : ∀ u t, F.throws (f u) t → E.throws u t)
    (hlisten : ∀ u s, C.inv s → A u s →
      (listen u).wp F .nil C (fun t => C.Post s t ∧ E.throws u t) (fun _ => C.Post s) s)
    {X : σ → Prop} {Q : α → σ → Prop} :
    ∀ (p : Prog σ υ κ α) {s : σ}, p.wp E .nil C X Q s →
      p.hands E C A (fun _ _ => True) s → (p.intercept listen f g).wp F .nil C X Q s := by
  intro p
  induction p with
  | ret a => intro s h _; exact h
  | read k ih => intro s h hA; exact ih s h hA
  | write t k ih => intro s h hA; exact ih h hA
  | yield u k ih =>
      intro s h hA
      refine (wp_bind (listen u) _ Q s).mpr ?_
      refine wp_mono ?_ ?_ _ (hlisten u s h.1 hA.1)
      · intro t ht
        exact (h.2 t ⟨trivial, trivial⟩ ht.1).2 ht.2
      · intro _ t ht
        refine ⟨ht.1, fun v _ hv => ?_⟩
        -- the known code and the rest of the outside code are one piece for the program
        have hpost : C.Post s v := ⟨hv.1, C.trans ht.2 hv.2⟩
        obtain ⟨hk, hthrow⟩ := h.2 v ⟨trivial, trivial⟩ hpost
        constructor
        · intro hret
          exact ih (hk (hreturns u v hret)) (hA.2 v hpost (hreturns u v hret))
        · intro hth
          exact hthrow (hthrows u v hth)
  | ask q k ih =>
      intro s h hA r hr
      exact ih r (h r (hanswer q s r hr)) (hA r (hanswer q s r hr))
  | throw e => intro s h _; exact h

end Prog

end Reentrant

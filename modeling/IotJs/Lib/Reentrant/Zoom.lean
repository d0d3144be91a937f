import IotJs.Lib.Reentrant.Play

/-!
# `IotJs.Lib.Reentrant.Zoom`: a program on a part of a larger state

An object is often made of others that have their own functions. `Prog.zoom` runs a function of
such a part on the whole: it reads and writes its part through a `Focus`, and its yields and the
primitives that it asks get the names that the whole has for them. What the function does to its
part is what it does alone (`Prog.exec_zoom`), so what is known of it need not be proved again.
-/

set_option autoImplicit false

namespace Reentrant

variable {σ τ υ ω κ μ α β : Type}

/-- A part `σ` of the state `τ`. -/
structure Focus (τ σ : Type) where
  get : τ → σ
  put : σ → τ → τ
  get_put : ∀ s t, get (put s t) = s
  put_get : ∀ t, put (get t) t = t
  put_put : ∀ s s' t, put s' (put s t) = put s' t

/-- The program on its part of a larger state. -/
def Prog.zoom (F : Focus τ σ) (f : υ → ω) (g : κ → μ) : Prog σ υ κ α → Prog τ ω μ α
  | .ret a => .ret a
  | .read k => .read fun t => (k (F.get t)).zoom F f g
  | .write s k => .read fun t => .write (F.put s t) (k.zoom F f g)
  | .yield u k => .yield (f u) (k.zoom F f g)
  | .ask q k => .ask (g q) fun r => (k r).zoom F f g
  | .throw e => .throw e

/-- The outcome, in the larger state. -/
def Outcome.zoom (F : Focus τ σ) (f : υ → ω) (g : κ → μ) (t : τ) :
    Outcome σ υ κ α → Outcome τ ω μ α
  | .done a s => .done a (F.put s t)
  | .thrown e s => .thrown e (F.put s t)
  | .yielded u k s => .yielded (f u) (k.zoom F f g) (F.put s t)

section rules

variable {F : Focus τ σ} {f : υ → ω} {g : κ → μ}

@[simp] theorem Outcome.zoom_zoom (t : τ) (s : σ) (o : Outcome σ υ κ α) :
    o.zoom F f g (F.put s t) = o.zoom F f g t := by
  cases o <;> simp [Outcome.zoom, F.put_put]

/-- On its part the program does what it does alone. -/
theorem Prog.exec_zoom (p : Prog σ υ κ α) :
    ∀ (rs : List Int) (t : τ), (p.zoom F f g).exec rs t = (p.exec rs (F.get t)).zoom F f g t := by
  induction p with
  | ret a =>
      intro rs t
      show Outcome.done a t = Outcome.done a (F.put (F.get t) t)
      rw [F.put_get]
  | read k ih =>
      intro rs t
      exact ih (F.get t) rs t
  | write s k ih =>
      intro rs t
      show (k.zoom F f g).exec rs (F.put s t) = (k.exec rs s).zoom F f g t
      rw [ih, F.get_put, Outcome.zoom_zoom]
  | yield u k =>
      intro rs t
      show Outcome.yielded (f u) (k.zoom F f g) t =
        .yielded (f u) (k.zoom F f g) (F.put (F.get t) t)
      rw [F.put_get]
  | ask q k ih =>
      intro rs t
      exact ih (rs.headD 0) rs.tail t
  | throw e =>
      intro rs t
      show Outcome.thrown e t = Outcome.thrown e (F.put (F.get t) t)
      rw [F.put_get]

theorem Prog.zoom_bind (p : Prog σ υ κ α) (h : α → Prog σ υ κ β) :
    (p >>= h).zoom F f g = p.zoom F f g >>= fun a => (h a).zoom F f g := by
  show (p.bind h).zoom F f g = (p.zoom F f g).bind fun a => (h a).zoom F f g
  induction p with
  | ret a => rfl
  | read k ih => exact congrArg Prog.read (funext fun t => ih (F.get t))
  | write s k ih => exact congrArg Prog.read (funext fun t => congrArg (Prog.write _) ih)
  | yield u k ih => exact congrArg (Prog.yield (f u)) ih
  | ask q k ih => exact congrArg (Prog.ask (g q)) (funext fun r => ih r)
  | throw e => rfl

/-- A part that asks nothing leaves the answers to what follows. -/
theorem Prog.exec_zoom_bind {p : Prog σ υ Empty α} {g : Empty → μ} (h : α → Prog τ ω μ β) :
    ∀ {rs : List Int} {t : τ} {s : σ} {a : α}, p.exec rs (F.get t) = .done a s →
      (p.zoom F f g >>= h).exec rs t = (h a).exec rs (F.put s t) := by
  induction p with
  | ret a =>
      intro rs t s b hexec
      cases hexec
      show (h a).exec rs t = (h a).exec rs (F.put (F.get t) t)
      rw [F.put_get]
  | read k ih => exact fun hexec => ih (F.get _) hexec
  | write s k ih =>
      intro rs t s' a hexec
      have hget : k.exec rs (F.get (F.put s t)) = .done a s' := by
        rw [F.get_put]
        exact hexec
      show (k.zoom F f g >>= h).exec rs (F.put s t) = _
      rw [ih hget, F.put_put]
  | yield u k =>
      intro rs t s a hexec
      cases hexec
  | ask q k => exact q.elim
  | throw e =>
      intro rs t s a hexec
      cases hexec

/-- The state after the outcome has the part that the program left, and the tag is renamed. -/
theorem Outcome.heap_zoom (t : τ) (o : Outcome σ υ κ α) :
    (o.zoom F f g t).heap = F.put o.heap t := by
  cases o <;> rfl

theorem Outcome.tag_zoom (t : τ) (o : Outcome σ υ κ α) :
    (o.zoom F f g t).tag = o.tag.map f := by
  cases o <;> rfl

end rules

end Reentrant

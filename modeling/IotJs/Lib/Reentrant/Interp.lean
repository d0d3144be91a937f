import IotJs.Lib.Reentrant.Prog

/-!
# `IotJs.Lib.Reentrant.Interp`: outside code that is known

Where the code that a program yields to is known, the two together are one function. `Prog.interp`
runs a program over a handler: what the outside code of each tag does with the state, if it ever
gives control back.
-/

set_option autoImplicit false

namespace Reentrant

variable {σ υ κ α : Type}

/-- What a function leaves that runs to its end, or `none` where it does not. -/
abbrev Answer (σ α : Type) : Type := Option (EStateM.Result String σ α)

/-- Run the program, with the outside code `handler` and the primitives' answers. -/
def Prog.interp (handler : υ → σ → Answer σ Unit) (answer : κ → σ → Int) :
    Prog σ υ κ α → σ → Answer σ α
  | .ret a, s => some (.ok a s)
  | .read k, s => (k s).interp handler answer s
  | .write s k, _ => k.interp handler answer s
  | .yield u k, s =>
      match handler u s with
      | some (.ok _ t) => k.interp handler answer t
      | some (.error e t) => some (.error e t)
      | none => none
  | .ask q k, s => (k (answer q s)).interp handler answer s
  | .throw e, s => some (.error e s)

namespace Prog

variable {handler : υ → σ → Answer σ Unit} {answer : κ → σ → Int} {β : Type}

@[simp] theorem interp_pure (a : α) (s : σ) :
    (pure a : Prog σ υ κ α).interp handler answer s = some (.ok a s) := rfl

@[simp] theorem interp_get_bind (f : σ → Prog σ υ κ β) (s : σ) :
    ((get : Prog σ υ κ σ) >>= f).interp handler answer s = (f s).interp handler answer s := rfl

@[simp] theorem interp_modify (g : σ → σ) (s : σ) :
    (modify g : Prog σ υ κ PUnit).interp handler answer s = some (.ok ⟨⟩ (g s)) := rfl

@[simp] theorem interp_fail (e : String) (s : σ) :
    (fail e : Prog σ υ κ α).interp handler answer s = some (.error e s) := rfl

@[simp] theorem interp_yieldTo (u : υ) (s : σ) :
    (yieldTo u : Prog σ υ κ Unit).interp handler answer s = handler u s := by
  simp only [yieldTo, interp]
  cases handler u s with
  | none => rfl
  | some r => cases r <;> rfl

/-- A program followed by another: the second runs where the first returns. -/
theorem interp_bind (p : Prog σ υ κ α) (f : α → Prog σ υ κ β) (s : σ) :
    (p >>= f).interp handler answer s =
      match p.interp handler answer s with
      | some (.ok a t) => (f a).interp handler answer t
      | some (.error e t) => some (.error e t)
      | none => none := by
  show (p.bind f).interp handler answer s = _
  induction p generalizing s with
  | ret a => rfl
  | read k ih => exact ih s s
  | write t k ih => exact ih t
  | yield u k ih =>
      simp only [Prog.bind, interp]
      cases handler u s with
      | none => rfl
      | some r =>
          cases r with
          | ok a t => exact ih t
          | error e t => rfl
  | ask q k ih => exact ih (answer q s) s
  | throw e => rfl

end Prog

end Reentrant

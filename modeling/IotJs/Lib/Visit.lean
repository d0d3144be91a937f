import Mathlib.Data.Fintype.Card
import Mathlib.Data.List.Nodup
import Mathlib.Data.Set.Finite.Basic
import Mathlib.Logic.Relation

/-!
# `IotJs.Lib.Visit`: depth-first visits that are remembered when they are over

`visit next n a t` visits `a`: if it is remembered as done there is nothing to do, else its
successors `next a` are visited in order, and then `a` is remembered. A visit that needs more than
`n` levels fails. `Trace` also lists the visits that were started.

A vertex is remembered only after its successors, so a visit that leads back to a vertex in
progress starts it again, and never ends. `visit_acc` and `exists_visit` say that a visit ends if
and only if `a` is accessible (`Acc`), which for finitely many vertices means that no cycle is
reachable (`acc_of_acyclic`). A visit that ends starts no vertex twice (`visit_orderly`) and leaves
every vertex that `a` reaches done (`visit_closed`).
-/

set_option autoImplicit false

namespace Visit

variable {α : Type} [DecidableEq α]

/-- The visits that were started, in order, and the vertices whose visits are over. -/
structure Trace (α : Type) where
  started : List α
  done : List α

variable (next : α → List α)

def visit : Nat → α → Trace α → Option (Trace α)
  | 0, a, t => if a ∈ t.done then some t else none
  | n + 1, a, t =>
      if a ∈ t.done then some t
      else do
        -- `a` is not done while its successors are visited
        let t' ← (next a).foldlM (fun t b => visit n b t) ⟨t.started ++ [a], t.done⟩
        some ⟨t'.started, a :: t'.done⟩

/-- `b` is a successor of `a`. -/
def Next (b a : α) : Prop := b ∈ next a

variable {next} {n m : Nat} {a b : α} {t t' : Trace α}

theorem visit_of_done (h : a ∈ t.done) : visit next n a t = some t := by
  cases n <;> rw [visit, if_pos h]

/-- A visit that is not done yet visits the successors first. -/
theorem visit_of_foldlM {u : Trace α} (ha : a ∉ t.done)
    (hu : (next a).foldlM (fun t b => visit next n b t) ⟨t.started ++ [a], t.done⟩ = some u) :
    visit next (n + 1) a t = some ⟨u.started, a :: u.done⟩ := by
  rw [visit, if_neg ha, hu]
  rfl

/-- The induction of a visit that is over: it was done before, or its successors were visited. -/
@[elab_as_elim]
theorem visit_induction
    {motive : (n : Nat) → (a : α) → (t t' : Trace α) → visit next n a t = some t' → Prop}
    (done : ∀ n a t (ha : a ∈ t.done), motive n a t t (visit_of_done ha))
    (fresh : ∀ n a t u (ha : a ∉ t.done)
      (hu : (next a).foldlM (fun t b => visit next n b t) ⟨t.started ++ [a], t.done⟩ = some u),
      (∀ b v v' (h : visit next n b v = some v'), motive n b v v' h) →
      motive (n + 1) a t ⟨u.started, a :: u.done⟩ (visit_of_foldlM ha hu))
    (h : visit next n a t = some t') : motive n a t t' h := by
  induction n generalizing a t t' with
  | zero =>
      by_cases ha : a ∈ t.done
      · obtain rfl : t = t' := Option.some.inj ((visit_of_done ha).symm.trans h)
        exact done 0 a t ha
      · rw [visit, if_neg ha] at h
        cases h
  | succ n ih =>
      by_cases ha : a ∈ t.done
      · obtain rfl : t = t' := Option.some.inj ((visit_of_done ha).symm.trans h)
        exact done _ a t ha
      · have hvisit := h
        rw [visit, if_neg ha] at hvisit
        obtain ⟨u, hu, heq⟩ := Option.bind_eq_some_iff.mp hvisit
        obtain rfl : _ = t' := Option.some.inj heq
        exact fresh n a t u ha hu fun _ _ _ => ih

/-- What each visit of a list preserves, all of them preserve. -/
theorem foldlM_invariant {I : Trace α → Prop} {as : List α}
    (hstep : ∀ b ∈ as, ∀ t t', I t → visit next n b t = some t' → I t') (ht : I t)
    (h : as.foldlM (fun t b => visit next n b t) t = some t') : I t' := by
  induction as generalizing t with
  | nil =>
      cases h
      exact ht
  | cons b as ih =>
      rw [List.foldlM_cons] at h
      obtain ⟨u, hu, hrest⟩ := Option.bind_eq_some_iff.mp h
      refine ih (fun c hc => hstep c (List.mem_cons_of_mem _ hc)) ?_ hrest
      exact hstep b List.mem_cons_self t u ht hu

/-- Nothing is forgotten. -/
theorem visit_mono (h : visit next n a t = some t') :
    t.done ⊆ t'.done ∧ t.started ⊆ t'.started := by
  induction h using visit_induction with
  | done n a t => exact ⟨List.Subset.refl _, List.Subset.refl _⟩
  | fresh n a t u _ hu ih =>
      have hsub : t.done ⊆ u.done ∧ t.started ⊆ u.started := by
        refine foldlM_invariant (I := fun v => t.done ⊆ v.done ∧ t.started ⊆ v.started)
          (fun b _ v v' hv hvisit => ?_) ?_ hu
        · have hstep := ih b v v' hvisit
          exact ⟨List.Subset.trans hv.1 hstep.1, List.Subset.trans hv.2 hstep.2⟩
        · exact ⟨List.Subset.refl _, List.subset_append_left ..⟩
      exact ⟨List.Subset.trans hsub.1 (List.subset_cons_self ..), hsub.2⟩

theorem mem_done (h : visit next n a t = some t') : a ∈ t'.done := by
  induction h using visit_induction with
  | done n a t ha => exact ha
  | fresh n a t u => exact List.mem_cons_self

/-- After all the visits of a list, each of its vertices is done. -/
theorem foldlM_done {as : List α} (h : as.foldlM (fun t b => visit next n b t) t = some t') :
    ∀ b ∈ as, b ∈ t'.done := by
  induction as generalizing t with
  | nil => exact nofun
  | cons b as ih =>
      rw [List.foldlM_cons] at h
      obtain ⟨u, hu, hrest⟩ := Option.bind_eq_some_iff.mp h
      have hmono : u.done ⊆ t'.done :=
        foldlM_invariant (I := fun v => u.done ⊆ v.done)
          (fun c _ v v' hv hvisit => List.Subset.trans hv (visit_mono hvisit).1)
          (List.Subset.refl _) hrest
      intro c hc
      rcases List.mem_cons.mp hc with rfl | hc
      · exact hmono (mem_done hu)
      · exact ih hrest c hc

/-! ### Visits that end -/

/-- A visit that ends remembers accessible vertices only. -/
theorem visit_acc (h : visit next n a t = some t') (ht : ∀ b ∈ t.done, Acc (Next next) b) :
    ∀ b ∈ t'.done, Acc (Next next) b := by
  induction h using visit_induction with
  | done n a t => exact ht
  | fresh n a t u _ hu ih =>
      have hacc : ∀ b ∈ u.done, Acc (Next next) b := by
        refine foldlM_invariant (I := fun v => ∀ b ∈ v.done, Acc (Next next) b)
          (fun b _ v v' hv hvisit => ih b v v' hvisit hv) ?_ hu
        exact ht
      intro b hb
      rcases List.mem_cons.mp hb with rfl | hb
      · exact ⟨_, fun c hc => hacc c (foldlM_done hu c hc)⟩
      · exact hacc b hb

/-- More levels change nothing. -/
theorem visit_succ (h : visit next n a t = some t') : visit next (n + 1) a t = some t' := by
  induction h using visit_induction with
  | done n a t ha => exact visit_of_done ha
  | fresh n a t u ha hu ih =>
      -- one level more for each successor, by induction on the list of successors
      have hfold : ∀ (as : List α) (v : Trace α),
          as.foldlM (fun t b => visit next n b t) v = some u →
          as.foldlM (fun t b => visit next (n + 1) b t) v = some u := by
        intro as
        induction as with
        | nil => exact fun _ hv => hv
        | cons b as ihas =>
            intro v hv
            rw [List.foldlM_cons] at hv ⊢
            obtain ⟨w, hw, hrest⟩ := Option.bind_eq_some_iff.mp hv
            exact Option.bind_eq_some_iff.mpr ⟨w, ih b v w hw, ihas w hrest⟩
      exact visit_of_foldlM ha (hfold _ _ hu)

theorem visit_le (h : visit next n a t = some t') (hnm : n ≤ m) : visit next m a t = some t' := by
  induction hnm with
  | refl => exact h
  | step _ ih => exact visit_succ ih

theorem foldlM_le {as : List α} (h : as.foldlM (fun t b => visit next n b t) t = some t')
    (hnm : n ≤ m) : as.foldlM (fun t b => visit next m b t) t = some t' := by
  induction as generalizing t with
  | nil => exact h
  | cons b as ih =>
      rw [List.foldlM_cons] at h ⊢
      obtain ⟨u, hu, hrest⟩ := Option.bind_eq_some_iff.mp h
      exact Option.bind_eq_some_iff.mpr ⟨u, visit_le hu hnm, ih hrest⟩

/-- The visit of an accessible vertex ends. -/
theorem exists_visit (h : Acc (Next next) a) (t : Trace α) : ∃ n t', visit next n a t = some t' := by
  induction h generalizing t with
  | intro a _ ih =>
      by_cases ha : a ∈ t.done
      · exact ⟨0, t, visit_of_done ha⟩
      · -- finitely many successors, so the largest of their levels is enough for all
        have hfold : ∀ as : List α, (∀ b ∈ as, b ∈ next a) → ∀ v : Trace α,
            ∃ n u, as.foldlM (fun t b => visit next n b t) v = some u := by
          intro as
          induction as with
          | nil => exact fun _ v => ⟨0, v, rfl⟩
          | cons b as ihas =>
              intro has v
              obtain ⟨n₁, w, hw⟩ := ih b (has b List.mem_cons_self) v
              obtain ⟨n₂, u, hu⟩ := ihas (fun c hc => has c (List.mem_cons_of_mem _ hc)) w
              refine ⟨max n₁ n₂, u, ?_⟩
              rw [List.foldlM_cons]
              exact Option.bind_eq_some_iff.mpr
                ⟨w, visit_le hw (Nat.le_max_left ..), foldlM_le hu (Nat.le_max_right ..)⟩
        obtain ⟨n, u, hu⟩ := hfold (next a) (fun _ hb => hb) ⟨t.started ++ [a], t.done⟩
        exact ⟨n + 1, _, visit_of_foldlM ha hu⟩

/-! ### What is done when a visit ends -/

/-- A visit leaves its vertex, or what it reaches. -/
theorem visit_reached (h : visit next n a t = some t') :
    ∀ b ∈ t'.done, b ∈ t.done ∨ Relation.ReflTransGen (Next next) b a := by
  induction h using visit_induction with
  | done n a t => exact fun b hb => .inl hb
  | fresh n a t u _ hu ih =>
      have hbelow : ∀ b ∈ u.done, b ∈ t.done ∨ Relation.ReflTransGen (Next next) b a := by
        refine foldlM_invariant
          (I := fun v => ∀ b ∈ v.done, b ∈ t.done ∨ Relation.ReflTransGen (Next next) b a)
          (t := ⟨t.started ++ [a], t.done⟩) (fun c hc v v' hv hvisit d hd => ?_)
          (fun c hc => .inl hc) hu
        rcases ih c v v' hvisit d hd with hd | hd
        · exact hv d hd
        · exact .inr (hd.tail hc)
      intro b hb
      rcases List.mem_cons.mp hb with rfl | hb
      · exact .inr .refl
      · exact hbelow b hb

/-- The successors of what is done are done. -/
def Closed (next : α → List α) (t : Trace α) : Prop := ∀ a ∈ t.done, ∀ b ∈ next a, b ∈ t.done

theorem visit_closed (h : visit next n a t = some t') (ht : Closed next t) : Closed next t' := by
  induction h using visit_induction with
  | done n a t => exact ht
  | fresh n a t u _ hu ih =>
      have hclosed : Closed next u := by
        refine foldlM_invariant (I := Closed next) (fun b _ v v' hv hvisit => ih b v v' hvisit hv)
          ?_ hu
        exact ht
      intro b hb c hc
      refine List.mem_cons_of_mem _ ?_
      rcases List.mem_cons.mp hb with rfl | hb
      · exact foldlM_done hu c hc
      · exact hclosed b hb c hc

omit [DecidableEq α] in
/-- What a vertex that is done reaches is done. -/
theorem Closed.reach (h : Closed next t) (ha : a ∈ t.done)
    (hab : Relation.ReflTransGen (Next next) b a) : b ∈ t.done := by
  induction hab using Relation.ReflTransGen.head_induction_on with
  | refl => exact ha
  | head hcd _ ih => exact h _ ih _ hcd

/-- While the visits of `open_` are in progress: no vertex was started twice, and what was started
is over or in progress. -/
structure Orderly (open_ : List α) (t : Trace α) : Prop where
  nodup : t.started.Nodup
  known : ∀ a ∈ t.started, a ∈ t.done ∨ a ∈ open_
  started : t.done ⊆ t.started

omit [DecidableEq α] in
/-- An accessible vertex is in no cycle. -/
theorem not_loop_of_acc (h : Acc (Next next) a) : ¬ Relation.TransGen (Next next) a a :=
  fun hloop => h.transGen.rec (fun x _ ih hx => ih x hx hx) hloop

/-- A visit that ends starts no vertex twice: it is in no cycle, so none of the visits in progress
leads back to itself. -/
theorem visit_orderly {open_ : List α} (h : visit next n a t = some t') (hacc : Acc (Next next) a)
    (hopen : ∀ b ∈ open_, Relation.TransGen (Next next) a b) (ht : Orderly open_ t) :
    Orderly open_ t' := by
  induction h using visit_induction generalizing open_ with
  | done n a t => exact ht
  | fresh n a t u hnot hu ih =>
      -- if `a` had been started it would be in progress, and so on a cycle
      have hnew : a ∉ t.started := by
        intro hmem
        rcases ht.known a hmem with hdone | hmem
        · exact hnot hdone
        · exact not_loop_of_acc hacc (hopen a hmem)
      have hstart : Orderly (a :: open_) ⟨t.started ++ [a], t.done⟩ := by
        refine ⟨?_, fun b hb => ?_, fun b hb => List.mem_append_left _ (ht.started hb)⟩
        · exact List.nodup_append.mpr ⟨ht.nodup, List.nodup_singleton a, by grind⟩
        · rcases List.mem_append.mp hb with hb | hb
          · exact (ht.known b hb).imp_right (List.mem_cons_of_mem _)
          · exact .inr (List.mem_cons.mpr (.inl (List.mem_singleton.mp hb)))
      have hend : Orderly (a :: open_) u ∧ a ∈ u.started := by
        refine foldlM_invariant (I := fun v => Orderly (a :: open_) v ∧ a ∈ v.started)
          (fun b hb v v' hv hvisit => ?_)
          ⟨hstart, List.mem_append_right _ List.mem_cons_self⟩ hu
        refine ⟨ih b v v' hvisit (hacc.inv hb) (fun c hc => ?_) hv.1, (visit_mono hvisit).2 hv.2⟩
        rcases List.mem_cons.mp hc with rfl | hc
        · exact .single hb
        · exact .head hb (hopen c hc)
      refine ⟨hend.1.nodup, fun b hb => ?_, fun b hb => ?_⟩
      · rcases hend.1.known b hb with hdone | hmem
        · exact .inl (List.mem_cons_of_mem _ hdone)
        · rcases List.mem_cons.mp hmem with rfl | hmem
          · exact .inl List.mem_cons_self
          · exact .inr hmem
      · rcases List.mem_cons.mp hb with rfl | hb
        · exact hend.2
        · exact hend.1.started hb

/-- A visit that starts with nothing done ends in an accessible vertex, and started each vertex
that it reaches, once. -/
theorem visit_new (h : visit next n a ⟨[], []⟩ = some t') :
    Acc (Next next) a ∧ t'.started.Nodup ∧
      ∀ b, b ∈ t'.started ↔ Relation.ReflTransGen (Next next) b a := by
  have hacc : Acc (Next next) a := visit_acc h nofun a (mem_done h)
  have horderly : Orderly [] t' :=
    visit_orderly h hacc nofun ⟨List.nodup_nil, nofun, List.Subset.refl _⟩
  refine ⟨hacc, horderly.nodup, fun b => ⟨fun hb => ?_, fun hb => ?_⟩⟩
  · have hdone : b ∈ t'.done := (horderly.known b hb).resolve_right nofun
    exact (visit_reached h b hdone).resolve_left nofun
  · exact horderly.started ((visit_closed h nofun).reach (mem_done h) hb)

/-! ### Finitely many vertices -/

/-- No vertex that `a` reaches is in a cycle. -/
def Acyclic (next : α → List α) (a : α) : Prop :=
  ∀ b, Relation.ReflTransGen (Next next) b a → ¬ Relation.TransGen (Next next) b b

omit [DecidableEq α] in
theorem acyclic_of_acc (h : Acc (Next next) a) : Acyclic next a := by
  intro b hb hloop
  have hacc : Acc (Next next) b := by
    rcases Relation.reflTransGen_iff_eq_or_transGen.mp hb with rfl | hb
    · exact h
    · exact h.inv_of_transGen hb
  exact not_loop_of_acc hacc hloop

omit [DecidableEq α] in
/-- Among finitely many vertices, a vertex that reaches no cycle is accessible. -/
theorem acc_of_acyclic (hfinite : { b | Relation.ReflTransGen (Next next) b a }.Finite)
    (h : Acyclic next a) : Acc (Next next) a := by
  let S := { b : α // Relation.ReflTransGen (Next next) b a }
  have : Finite S := hfinite
  let r : S → S → Prop := fun x y => Relation.TransGen (Next next) x.1 y.1
  have : IsTrans S r := ⟨fun _ _ _ h₁ h₂ => h₁.trans h₂⟩
  have : Std.Irrefl r := ⟨fun x => h x.1 x.2⟩
  have hwf : WellFounded r := Finite.wellFounded_of_trans_of_irrefl r
  have hall : ∀ x : S, Acc (Next next) x.1 := by
    intro x
    induction x using hwf.induction with
    | _ x ih =>
        constructor
        intro b hb
        exact ih ⟨b, .head hb x.2⟩ (.single hb)
  exact hall ⟨a, .refl⟩

end Visit

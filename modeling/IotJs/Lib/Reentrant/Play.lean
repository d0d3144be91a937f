import IotJs.Lib.Reentrant.Prog

/-!
# `IotJs.Lib.Reentrant.Play`: runs given by their moves

`Machine.play` makes a list of moves, one after the other, and `Machine.Meets` says that each of
them is made where a condition on the configuration allows it. The condition sees the stack, so
it can speak about the functions that wait.

In many programs what is left to do after a yield follows from what was yielded: a loop that
hands control away yields what it has not done yet. Then a function `K` from the tags of the
yields to the programs that go on gives the whole stack (`Machine.Tagged`). An invariant of such
a machine is a property of the state and the tags that wait (`Tagged.play`), and a simulation
relates the states and, tag by tag, what waits (`Simulates.play`).
-/

set_option autoImplicit false

namespace Reentrant

variable {σ τ υ ω κ ι : Type}

namespace Machine

/-- The configuration after the moves, where each of them can be made. -/
def play (M : Machine σ υ κ ι) : Config σ υ κ → List (Move ι) → Option (Config σ υ κ)
  | c, [] => some c
  | c, m :: ms => (M.step c m).bind fun c' => M.play c' ms

/-- Each of the moves is made where `A` allows it. -/
def Meets (M : Machine σ υ κ ι) (A : Config σ υ κ → Move ι → Prop) :
    Config σ υ κ → List (Move ι) → Prop
  | _, [] => True
  | c, m :: ms => A c m ∧ ∀ c' ∈ M.step c m, M.Meets A c' ms

/-- The condition of a run can be tested. -/
def decidableMeets (M : Machine σ υ κ ι) {A : Config σ υ κ → Move ι → Prop}
    (dec : ∀ c m, Decidable (A c m)) :
    ∀ (ms : List (Move ι)) (c : Config σ υ κ), Decidable (M.Meets A c ms)
  | [], _ => .isTrue trivial
  | m :: ms, c =>
      match hstep : M.step c m, dec c m with
      | _, .isFalse ha => .isFalse fun h => ha h.1
      | none, .isTrue ha => .isTrue ⟨ha, by simp [hstep]⟩
      | some c', .isTrue ha =>
          match decidableMeets M dec ms c' with
          | .isTrue h => .isTrue ⟨ha, by simpa [hstep] using h⟩
          | .isFalse h => .isFalse fun hall => h (hall.2 c' hstep)

instance (M : Machine σ υ κ ι) (A : Config σ υ κ → Move ι → Prop) [dec : ∀ c m, Decidable (A c m)]
    (c : Config σ υ κ) (ms : List (Move ι)) : Decidable (M.Meets A c ms) :=
  decidableMeets M dec ms c

/-- A condition on the calls alone, and on the states in which they come. -/
def OnCalls (A : ι → σ → Prop) (c : Config σ υ κ) : Move ι → Prop
  | .call i _ => A i c.heap
  | _ => True

instance (A : ι → σ → Prop) [dec : ∀ i s, Decidable (A i s)] (c : Config σ υ κ) :
    ∀ m : Move ι, Decidable (OnCalls A c m)
  | .call i _ => dec i c.heap
  | .ret _ => .isTrue trivial
  | .throw => .isTrue trivial

/-- An invariant of each move is one of every run. -/
theorem play_invariant {M : Machine σ υ κ ι} {A : Config σ υ κ → Move ι → Prop}
    {I : Config σ υ κ → Prop}
    (hstep : ∀ c m c', I c → A c m → M.step c m = some c' → I c') {ms : List (Move ι)} :
    ∀ {c d : Config σ υ κ}, I c → M.Meets A c ms → M.play c ms = some d → I d := by
  induction ms with
  | nil =>
      intro c d hc _ hplay
      cases hplay
      exact hc
  | cons m ms ih =>
      intro c d hc hmeets hplay
      obtain ⟨c', hc', hrest⟩ := Option.bind_eq_some_iff.mp hplay
      exact ih (hstep c m c' hc hmeets.1 hc') (hmeets.2 c' hc') hrest

/-- A run whose first move can be made. -/
theorem meets_cons_iff {M : Machine σ υ κ ι} {A : Config σ υ κ → Move ι → Prop}
    {c c' : Config σ υ κ} {m : Move ι} (hstep : M.step c m = some c') (ms : List (Move ι)) :
    M.Meets A c (m :: ms) ↔ A c m ∧ M.Meets A c' ms := by
  constructor
  · rintro ⟨ha, hall⟩
    exact ⟨ha, hall c' hstep⟩
  · rintro ⟨ha, hrest⟩
    refine ⟨ha, fun e he => ?_⟩
    -- the move leads to one configuration
    have heq : e = c' := Option.some.inj (he.symm.trans hstep)
    rw [heq]
    exact hrest

/-- Where a move keeps `G` exactly if it meets `A`, a run does. -/
theorem play_iff {M : Machine σ υ κ ι} {R A : Config σ υ κ → Move ι → Prop}
    {I G : Config σ υ κ → Prop}
    (hstep : ∀ c m c', I c → R c m → M.step c m = some c' → I c' ∧ (G c' ↔ G c ∧ A c m))
    {ms : List (Move ι)} :
    ∀ {c d : Config σ υ κ}, I c → M.Meets R c ms → M.play c ms = some d →
      (G d ↔ G c ∧ M.Meets A c ms) := by
  induction ms with
  | nil =>
      intro c d _ _ hplay
      cases hplay
      exact (and_iff_left trivial).symm
  | cons m ms ih =>
      intro c d hc hmeets hplay
      obtain ⟨c', hc', hrest⟩ := Option.bind_eq_some_iff.mp hplay
      obtain ⟨hi, hone⟩ := hstep c m c' hc hmeets.1 hc'
      rw [ih hi (hmeets.2 c' hc') hrest, hone, and_assoc, meets_cons_iff hc']

end Machine

/-! ### Evaluating a program -/

namespace Prog

variable {α β γ : Type}

theorem bind_assoc (p : Prog σ υ κ α) (f : α → Prog σ υ κ β) (g : β → Prog σ υ κ γ) :
    p >>= f >>= g = p >>= fun a => f a >>= g := by
  show (p.bind f).bind g = p.bind fun a => (f a).bind g
  induction p with
  | ret a => rfl
  | read k ih => exact congrArg Prog.read (funext fun s => ih s)
  | write t k ih => exact congrArg (Prog.write t) ih
  | yield u k ih => exact congrArg (Prog.yield u) ih
  | ask q k ih => exact congrArg (Prog.ask q) (funext fun r => ih r)
  | throw e => rfl

theorem bind_pure (p : Prog σ υ κ α) : p >>= pure = p := by
  show p.bind Prog.ret = p
  induction p with
  | ret a => rfl
  | read k ih => exact congrArg Prog.read (funext fun s => ih s)
  | write t k ih => exact congrArg (Prog.write t) ih
  | yield u k ih => exact congrArg (Prog.yield u) ih
  | ask q k ih => exact congrArg (Prog.ask q) (funext fun r => ih r)
  | throw e => rfl

section exec

variable (rs : List Int) (s : σ)

@[simp] theorem exec_pure (a : α) : (pure a : Prog σ υ κ α).exec rs s = .done a s := rfl

@[simp] theorem exec_modify (f : σ → σ) :
    (modify f : Prog σ υ κ PUnit).exec rs s = .done () (f s) := rfl

@[simp] theorem exec_fail (e : String) :
    (fail e : Prog σ υ κ α).exec rs s = .thrown e s := rfl

@[simp] theorem exec_yieldTo (u : υ) :
    (yieldTo u : Prog σ υ κ Unit).exec rs s = .yielded u (.ret ()) s := rfl

@[simp] theorem exec_pure_bind (a : α) (f : α → Prog σ υ κ β) :
    (pure a >>= f).exec rs s = (f a).exec rs s := rfl

@[simp] theorem exec_get_bind (f : σ → Prog σ υ κ β) :
    ((get : Prog σ υ κ σ) >>= f).exec rs s = (f s).exec rs s := rfl

@[simp] theorem exec_modify_bind (g : σ → σ) (f : PUnit → Prog σ υ κ β) :
    ((modify g : Prog σ υ κ PUnit) >>= f).exec rs s = (f ()).exec rs (g s) := rfl

@[simp] theorem exec_fail_bind (e : String) (f : α → Prog σ υ κ β) :
    ((fail e : Prog σ υ κ α) >>= f).exec rs s = .thrown e s := rfl

@[simp] theorem exec_askFor_bind (q : κ) (f : Int → Prog σ υ κ β) :
    (askFor q >>= f).exec rs s = (f (rs.headD 0)).exec rs.tail s := rfl

@[simp] theorem exec_yieldTo_bind (u : υ) (f : Unit → Prog σ υ κ β) :
    (yieldTo u >>= f).exec rs s = .yielded u (f ()) s := rfl

end exec

/-- A program after one that runs to its end uses the answers that are left. -/
theorem exec_bind_done {p : Prog σ υ κ α} (f : α → Prog σ υ κ β) {rs : List Int} {s t : σ} {a : α}
    (h : p.exec rs s = .done a t) : ∃ n, (p >>= f).exec rs s = (f a).exec (rs.drop n) t := by
  show ∃ n, (p.bind f).exec rs s = _
  induction p generalizing rs s with
  | ret b =>
      cases h
      exact ⟨0, rfl⟩
  | read k ih => exact ih s h
  | write s' k ih => exact ih h
  | yield u k => cases h
  | ask q k ih =>
      -- the first program has used one answer more
      obtain ⟨n, hn⟩ := ih (rs.headD 0) h
      refine ⟨n + 1, ?_⟩
      show ((k (rs.headD 0)).bind f).exec rs.tail s = _
      rw [hn, ← List.drop_one, List.drop_drop, Nat.add_comm]
  | throw e => cases h

/-- A program after one that throws does not run. -/
theorem exec_bind_thrown {p : Prog σ υ κ α} (f : α → Prog σ υ κ β) {rs : List Int} {s t : σ}
    {e : String} (h : p.exec rs s = .thrown e t) : (p >>= f).exec rs s = .thrown e t := by
  show (p.bind f).exec rs s = _
  induction p generalizing rs s with
  | ret b => cases h
  | read k ih => exact ih s h
  | write s' k ih => exact ih h
  | yield u k => cases h
  | ask q k ih => exact ih (rs.headD 0) h
  | throw e' =>
      cases h
      rfl

/-- A program that comes to a yield has the rest of both to do. -/
theorem exec_bind_yielded {p : Prog σ υ κ α} (f : α → Prog σ υ κ β) {rs : List Int} {s t : σ}
    {u : υ} {k : Prog σ υ κ α} (h : p.exec rs s = .yielded u k t) :
    (p >>= f).exec rs s = .yielded u (k >>= f) t := by
  show (p.bind f).exec rs s = _
  induction p generalizing rs s with
  | ret b => cases h
  | read k' ih => exact ih s h
  | write s' k' ih => exact ih h
  | yield u' k' =>
      cases h
      rfl
  | ask q k' ih => exact ih (rs.headD 0) h
  | throw e => cases h

end Prog

/-! ### Tags that say how a program goes on -/

namespace Outcome

variable {α : Type}

/-- The state that the program leaves. -/
def heap : Outcome σ υ κ α → σ
  | .done _ s => s
  | .thrown _ s => s
  | .yielded _ _ s => s

/-- The tag that it leaves on the stack. -/
def tag : Outcome σ υ κ α → Option υ
  | .done _ _ => none
  | .thrown _ _ => none
  | .yielded u _ _ => some u

end Outcome

/-- The tags that wait, innermost first. -/
def Config.tags (c : Config σ υ κ) : List υ := c.stack.map Prod.fst

/-- What goes on after each yield of the program is what `K` gives for its tag. -/
def Prog.Tagged (K : υ → Prog σ υ κ Unit) : Prog σ υ κ Unit → Prop
  | .ret _ => True
  | .read k => ∀ s, (k s).Tagged K
  | .write _ k => k.Tagged K
  | .yield u k => k = K u
  | .ask _ k => ∀ r, (k r).Tagged K
  | .throw _ => True

namespace Prog

variable {K : υ → Prog σ υ κ Unit} {α : Type}

@[simp] theorem tagged_pure (a : Unit) : (pure a : Prog σ υ κ Unit).Tagged K := trivial

@[simp] theorem tagged_modify (f : σ → σ) : (modify f : Prog σ υ κ PUnit).Tagged K :=
  fun _ => trivial

@[simp] theorem tagged_fail (e : String) : (fail e : Prog σ υ κ Unit).Tagged K := trivial

@[simp] theorem tagged_pure_bind (a : α) (f : α → Prog σ υ κ Unit) :
    (pure a >>= f).Tagged K ↔ (f a).Tagged K := Iff.rfl

@[simp] theorem tagged_get_bind (f : σ → Prog σ υ κ Unit) :
    ((get : Prog σ υ κ σ) >>= f).Tagged K ↔ ∀ s, (f s).Tagged K := Iff.rfl

@[simp] theorem tagged_modify_bind (g : σ → σ) (f : PUnit → Prog σ υ κ Unit) :
    ((modify g : Prog σ υ κ PUnit) >>= f).Tagged K ↔ ∀ _ : σ, (f ()).Tagged K := Iff.rfl

@[simp] theorem tagged_askFor_bind (q : κ) (f : Int → Prog σ υ κ Unit) :
    (askFor q >>= f).Tagged K ↔ ∀ r, (f r).Tagged K := Iff.rfl

@[simp] theorem tagged_fail_bind (e : String) (f : α → Prog σ υ κ Unit) :
    ((fail e : Prog σ υ κ α) >>= f).Tagged K := trivial

@[simp] theorem tagged_yieldTo_bind (u : υ) (f : Unit → Prog σ υ κ Unit) :
    (yieldTo u >>= f).Tagged K ↔ f () = K u := Iff.rfl

end Prog

/-- The tags of the machine determine its stack. -/
structure Machine.Tagged (M : Machine σ υ κ ι) (K : υ → Prog σ υ κ Unit) : Prop where
  body : ∀ i, (M.body i).Tagged K
  resume : ∀ u, (K u).Tagged K

/-- Each function that waits goes on as its tag says. -/
def Config.Tagged (K : υ → Prog σ υ κ Unit) (c : Config σ υ κ) : Prop :=
  ∀ f ∈ c.stack, f.2 = K f.1

namespace Prog

variable {K : υ → Prog σ υ κ Unit}

theorem Tagged.exec {p : Prog σ υ κ Unit} (hp : p.Tagged K) (rs : List Int) (s : σ)
    {u : υ} {k : Prog σ υ κ Unit} {t : σ} (ho : p.exec rs s = .yielded u k t) : k = K u := by
  induction p generalizing rs s with
  | ret => cases ho
  | read k ih => exact ih s (hp s) rs s ho
  | write t k ih => exact ih hp rs t ho
  | yield u' k' =>
      cases ho
      exact hp
  | ask q k ih => exact ih _ (hp _) rs.tail s ho
  | throw => cases ho

end Prog

section settle

variable {K : υ → Prog σ υ κ Unit} {o : Outcome σ υ κ Unit}
variable {stack : List (υ × Prog σ υ κ Unit)}

theorem settle_heap (stack : List (υ × Prog σ υ κ Unit)) (o : Outcome σ υ κ Unit) :
    (Config.settle stack o).heap = o.heap := by
  cases o <;> rfl

theorem settle_tags (stack : List (υ × Prog σ υ κ Unit)) (o : Outcome σ υ κ Unit) :
    (Config.settle stack o).tags = o.tag.toList ++ stack.map Prod.fst := by
  cases o <;> rfl

theorem settle_tagged {p : Prog σ υ κ Unit} (hp : p.Tagged K) (rs : List Int) (s : σ)
    (hstack : ∀ f ∈ stack, f.2 = K f.1) : (Config.settle stack (p.exec rs s)).Tagged K := by
  cases ho : p.exec rs s with
  | done => exact hstack
  | thrown => exact hstack
  | yielded u k t =>
      intro f hf
      rcases List.mem_cons.mp hf with rfl | hf
      · exact hp.exec rs s ho
      · exact hstack f hf

/-- What waits at the bottom of the stack. -/
theorem settle_bottom (st : List (υ × Prog σ υ κ Unit)) (f : υ × Prog σ υ κ Unit)
    (o : Outcome σ υ κ Unit) : ∃ st', (Config.settle (st ++ [f]) o).stack = st' ++ [f] := by
  cases o with
  | done => exact ⟨st, rfl⟩
  | thrown => exact ⟨st, rfl⟩
  | yielded u k t => exact ⟨(u, k) :: st, rfl⟩

/-- What waits at the bottom of the stack stays there, unless it is all that waits and the outside
code that it waits for returns or throws. -/
theorem Machine.step_bottom {M : Machine σ υ κ ι} {s : σ} {st : List (υ × Prog σ υ κ Unit)}
    {f : υ × Prog σ υ κ Unit} {m : Move ι} {c' : Config σ υ κ}
    (hstep : M.step ⟨s, st ++ [f]⟩ m = some c') :
    (∃ st', c'.stack = st' ++ [f]) ∨
      (st = [] ∧ ∃ rs, m = .ret rs ∧ c' = .settle [] (f.2.exec rs s)) ∨
      (st = [] ∧ m = .throw ∧ c' = ⟨s, []⟩) := by
  cases m with
  | call i rs =>
      obtain ⟨-, rfl⟩ := Machine.step_call hstep
      exact .inl (settle_bottom st f _)
  | ret rs =>
      cases st with
      | nil =>
          cases hstep
          exact .inr (.inl ⟨rfl, rs, rfl, rfl⟩)
      | cons g st =>
          cases hstep
          exact .inl (settle_bottom st f _)
  | throw =>
      cases st with
      | nil =>
          cases hstep
          exact .inr (.inr ⟨rfl, rfl, rfl⟩)
      | cons g st =>
          cases hstep
          exact .inl ⟨st, rfl⟩

end settle

namespace Machine

variable {M : Machine σ υ κ ι} {K : υ → Prog σ υ κ Unit}

/-- What a move makes of the state and the tags. -/
inductive TagStep (M : Machine σ υ κ ι) (K : υ → Prog σ υ κ Unit) (s : σ) :
    List υ → Move ι → σ → List υ → Prop
  | call (i : ι) (rs : List Int) (tags : List υ) (hen : M.enabled i tags.isEmpty s = true) :
      TagStep M K s tags (.call i rs) ((M.body i).exec rs s).heap
        (((M.body i).exec rs s).tag.toList ++ tags)
  | ret (rs : List Int) (u : υ) (tags : List υ) :
      TagStep M K s (u :: tags) (.ret rs) ((K u).exec rs s).heap
        (((K u).exec rs s).tag.toList ++ tags)
  | throw (u : υ) (tags : List υ) : TagStep M K s (u :: tags) .throw s tags

/-- A move keeps the stack determined, and acts on the state and the tags alone. -/
theorem Tagged.step (hM : M.Tagged K) {c c' : Config σ υ κ} {m : Move ι} (hc : c.Tagged K)
    (hstep : M.step c m = some c') : c'.Tagged K ∧ M.TagStep K c.heap c.tags m c'.heap c'.tags := by
  obtain ⟨s, stack⟩ := c
  cases m with
  | call i rs =>
      obtain ⟨hen, rfl⟩ := Machine.step_call hstep
      refine ⟨settle_tagged (hM.body i) rs s hc, ?_⟩
      rw [settle_heap, settle_tags]
      refine .call i rs _ ?_
      rw [← hen]
      cases stack <;> rfl
  | ret rs =>
      match stack, hc, hstep with
      | (u, k) :: st, hc, hstep =>
          cases hstep
          have hk : k = K u := hc (u, k) List.mem_cons_self
          subst hk
          refine ⟨settle_tagged (hM.resume u) rs s fun f hf => hc f (List.mem_cons_of_mem _ hf), ?_⟩
          rw [settle_heap, settle_tags]
          exact .ret rs u _
  | throw =>
      match stack, hc, hstep with
      | (u, k) :: st, hc, hstep =>
          cases hstep
          exact ⟨fun f hf => hc f (List.mem_cons_of_mem _ hf), .throw u _⟩

/-- An invariant of the state and the tags that every move keeps holds after every run. -/
theorem Tagged.play (hM : M.Tagged K) {A : Config σ υ κ → Move ι → Prop} {I : σ → List υ → Prop}
    (hI : ∀ c m s' tags', A c m → I c.heap c.tags → M.TagStep K c.heap c.tags m s' tags' →
      I s' tags')
    {s₀ : σ} {ms : List (Move ι)} {d : Config σ υ κ} (hinit : I s₀ [])
    (hmeets : M.Meets A ⟨s₀, []⟩ ms) (hplay : M.play ⟨s₀, []⟩ ms = some d) :
    I d.heap d.tags := by
  -- that the tags determine the stack is part of the invariant
  refine (play_invariant (I := fun c => c.Tagged K ∧ I c.heap c.tags) ?_ ⟨?_, hinit⟩ hmeets
    hplay).2
  · rintro c m c' ⟨hc, hi⟩ ha hstep
    obtain ⟨hc', htag⟩ := hM.step hc hstep
    exact ⟨hc', hI c m _ _ ha hi htag⟩
  · intro f hf
    cases hf

end Machine

/-! ### Simulations -/

section simulation

variable (R : σ → τ → Prop) (F : υ → ω → Prop)

/-- Both programs leave related states, and related tags or none. -/
structure Outcome.Matches (o : Outcome σ υ κ Unit) (o' : Outcome τ ω κ Unit) : Prop where
  heap : R o.heap o'.heap
  tag : Option.Rel F o.tag o'.tag

/-- Whatever `M` does where its calls meet `A`, `N` does too, by the same moves. -/
structure Machine.Simulates (M : Machine σ υ κ ι) (N : Machine τ ω κ ι)
    (K : υ → Prog σ υ κ Unit) (L : ω → Prog τ ω κ Unit) (A : ι → σ → Prop) : Prop where
  call : ∀ i b s t rs, R s t → A i s → M.enabled i b s = true → N.enabled i b t = true ∧
    Outcome.Matches R F ((M.body i).exec rs s) ((N.body i).exec rs t)
  resume : ∀ u w s t rs, R s t → F u w →
    Outcome.Matches R F ((K u).exec rs s) ((L w).exec rs t)

/-- The states are related, and so are, tag by tag, the functions that wait. -/
structure Config.Related (K : υ → Prog σ υ κ Unit) (L : ω → Prog τ ω κ Unit)
    (c : Config σ υ κ) (d : Config τ ω κ) : Prop where
  heap : R c.heap d.heap
  tags : List.Forall₂ F c.tags d.tags
  left : c.Tagged K
  right : d.Tagged L

variable {R F} {M : Machine σ υ κ ι} {N : Machine τ ω κ ι} {K : υ → Prog σ υ κ Unit}
variable {L : ω → Prog τ ω κ Unit} {A : ι → σ → Prop}

theorem Outcome.Matches.tags {o : Outcome σ υ κ Unit} {o' : Outcome τ ω κ Unit}
    (h : o.Matches R F o') {us : List υ} {ws : List ω} (hs : List.Forall₂ F us ws) :
    List.Forall₂ F (o.tag.toList ++ us) (o'.tag.toList ++ ws) := by
  have htag := h.tag
  cases hu : o.tag with
  | none =>
      cases hw : o'.tag with
      | none => exact hs
      | some w =>
          rw [hu, hw] at htag
          cases htag
  | some u =>
      cases hw : o'.tag with
      | none =>
          rw [hu, hw] at htag
          cases htag
      | some w =>
          rw [hu, hw] at htag
          cases htag with
          | some hF => exact .cons hF hs

/-- Where both stacks are empty, or neither is, the same calls come at rest. -/
theorem isEmpty_of_forall₂ {us : List υ} {ws : List ω} (h : List.Forall₂ F us ws) :
    ws.isEmpty = us.isEmpty := by
  cases h <;> rfl

theorem isEmpty_tags (c : Config σ υ κ) : c.stack.isEmpty = c.tags.isEmpty := by
  obtain ⟨s, stack⟩ := c
  cases stack <;> rfl

/-- One move. -/
theorem Machine.Simulates.step (h : Machine.Simulates R F M N K L A) (hM : M.Tagged K)
    (hN : N.Tagged L) {c c' : Config σ υ κ} {d : Config τ ω κ} {m : Move ι}
    (hcd : c.Related R F K L d) (ha : Machine.OnCalls A c m) (hstep : M.step c m = some c') :
    ∃ d', N.step d m = some d' ∧ c'.Related R F K L d' := by
  obtain ⟨hheap, htags, hleft, hright⟩ := hcd
  obtain ⟨hleft', htag⟩ := hM.step hleft hstep
  -- what `N` leaves is determined by its tags as well, so only states and tags are to be related
  suffices ∃ d', N.step d m = some d' ∧ R c'.heap d'.heap ∧ List.Forall₂ F c'.tags d'.tags by
    obtain ⟨d', hd', hh, ht⟩ := this
    exact ⟨d', hd', hh, ht, hleft', (hN.step hright hd').1⟩
  obtain ⟨t, stack⟩ := d
  generalize c'.heap = s' at htag ⊢
  generalize c'.tags = tags' at htag ⊢
  generalize c.tags = tags at htags htag
  cases htag with
  | call i rs tags hen =>
      obtain ⟨hen', hmatch⟩ := h.call i _ c.heap t rs hheap ha hen
      rw [← isEmpty_of_forall₂ htags, ← isEmpty_tags ⟨t, stack⟩] at hen'
      refine ⟨.settle stack ((N.body i).exec rs t), if_pos hen', ?_, ?_⟩
      · rw [settle_heap]
        exact hmatch.heap
      · rw [settle_tags]
        exact hmatch.tags htags
  | ret rs u tags =>
      match stack, htags, hright with
      | (w, l) :: st, .cons hF htags, hright =>
          have hl : l = L w := hright (w, l) List.mem_cons_self
          have hmatch := h.resume u w c.heap t rs hheap hF
          refine ⟨.settle st (l.exec rs t), rfl, ?_, ?_⟩
          · rw [settle_heap, hl]
            exact hmatch.heap
          · rw [settle_tags, hl]
            exact hmatch.tags htags
  | throw u tags =>
      match stack, htags with
      | (w, l) :: st, .cons hF htags => exact ⟨⟨t, st⟩, rfl, hheap, htags⟩

/-- Whole runs: what `M` does by some moves, `N` does by the same moves. -/
theorem Machine.Simulates.play (h : Machine.Simulates R F M N K L A) (hM : M.Tagged K)
    (hN : N.Tagged L) {ms : List (Move ι)} :
    ∀ {c c' : Config σ υ κ} {d : Config τ ω κ}, c.Related R F K L d →
      M.Meets (Machine.OnCalls A) c ms → M.play c ms = some c' →
      ∃ d', N.play d ms = some d' ∧ c'.Related R F K L d' := by
  induction ms with
  | nil =>
      intro c c' d hcd _ hplay
      cases hplay
      exact ⟨d, rfl, hcd⟩
  | cons m ms ih =>
      intro c c' d hcd hmeets hplay
      obtain ⟨c₁, hc₁, hrest⟩ := Option.bind_eq_some_iff.mp hplay
      obtain ⟨d₁, hd₁, hcd₁⟩ := h.step hM hN hcd hmeets.1 hc₁
      obtain ⟨d', hd', hcd'⟩ := ih hcd₁ (hmeets.2 c₁ hc₁) hrest
      refine ⟨d', ?_, hcd'⟩
      show (N.step d m).bind _ = some d'
      rw [hd₁]
      exact hd'

end simulation

end Reentrant

import IotJs.Lib.Reentrant.Play

/-!
# `IotJs.Lib.Reentrant.Trace`: what a run hands control to

A move runs a function up to its next yield, and `Machine.raised` is the tag of that yield.
`Machine.trace` collects the tags of a run, in order: the outside code that it called. How often
some event was emitted is a count in the trace, and `trace_invariant` is the induction over runs
for a property of the configuration together with the trace so far.
-/

set_option autoImplicit false

namespace Reentrant

namespace Machine

variable {σ υ κ ι : Type} {M : Machine σ υ κ ι} {A : Config σ υ κ → Move ι → Prop}

/-- The tag of the yield that the move comes to. -/
def raised (M : Machine σ υ κ ι) (c : Config σ υ κ) : Move ι → Option υ
  | .call i rs => ((M.body i).exec rs c.heap).tag
  | .ret rs =>
      match c.stack with
      | [] => none
      | (_, k) :: _ => (k.exec rs c.heap).tag
  | .throw => none

/-- The tags of the yields of a run. -/
def trace (M : Machine σ υ κ ι) : Config σ υ κ → List (Move ι) → List υ
  | _, [] => []
  | c, m :: ms =>
      match M.step c m with
      | none => []
      | some c' => (M.raised c m).toList ++ M.trace c' ms

theorem trace_cons {c c' : Config σ υ κ} {m : Move ι} (hstep : M.step c m = some c')
    (ms : List (Move ι)) : M.trace c (m :: ms) = (M.raised c m).toList ++ M.trace c' ms := by
  rw [trace, hstep]

/-- A run is one part after the other. -/
theorem play_append (ms ms' : List (Move ι)) :
    ∀ c : Config σ υ κ, M.play c (ms ++ ms') = (M.play c ms).bind fun d => M.play d ms' := by
  induction ms with
  | nil =>
      intro c
      rfl
  | cons m ms ih =>
      intro c
      show (M.step c m).bind (fun c' => M.play c' (ms ++ ms')) = _
      simp only [ih, play, Option.bind_assoc]

theorem meets_append {ms ms' : List (Move ι)} :
    ∀ {c d : Config σ υ κ}, M.play c ms = some d → M.Meets A c (ms ++ ms') →
      M.Meets A c ms ∧ M.Meets A d ms' := by
  induction ms with
  | nil =>
      intro c d hplay hmeets
      cases hplay
      exact ⟨trivial, hmeets⟩
  | cons m ms ih =>
      intro c d hplay hmeets
      obtain ⟨c', hc', hrest⟩ := Option.bind_eq_some_iff.mp hplay
      obtain ⟨hpre, hpost⟩ := ih hrest (hmeets.2 c' hc')
      exact ⟨(meets_cons_iff hc' ms).mpr ⟨hmeets.1, hpre⟩, hpost⟩

/-- An invariant of the configuration and the trace so far. -/
theorem trace_invariant {I : List υ → Config σ υ κ → Prop}
    (hstep : ∀ us c m c', I us c → A c m → M.step c m = some c' →
      I (us ++ (M.raised c m).toList) c') {ms : List (Move ι)} :
    ∀ {us : List υ} {c d : Config σ υ κ}, I us c → M.Meets A c ms → M.play c ms = some d →
      I (us ++ M.trace c ms) d := by
  induction ms with
  | nil =>
      intro us c d hc _ hplay
      cases hplay
      rw [trace, List.append_nil]
      exact hc
  | cons m ms ih =>
      intro us c d hc hmeets hplay
      obtain ⟨c', hc', hrest⟩ := Option.bind_eq_some_iff.mp hplay
      rw [trace_cons hc', ← List.append_assoc]
      exact ih (hstep us c m c' hc hmeets.1 hc') (hmeets.2 c' hc') hrest

/-- The trace of a run is that of its first part, and that of the rest. -/
theorem trace_append {ms : List (Move ι)} (ms' : List (Move ι)) :
    ∀ {c d : Config σ υ κ}, M.play c ms = some d →
      M.trace c (ms ++ ms') = M.trace c ms ++ M.trace d ms' := by
  induction ms with
  | nil =>
      intro c d hplay
      cases hplay
      rfl
  | cons m ms ih =>
      intro c d hplay
      obtain ⟨c', hc', hrest⟩ := Option.bind_eq_some_iff.mp hplay
      rw [List.cons_append, trace_cons hc', trace_cons hc', ih hrest, List.append_assoc]

end Machine

end Reentrant

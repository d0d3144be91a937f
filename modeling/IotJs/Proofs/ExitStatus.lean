import IotJs.Core.Exit
import IotJs.Lib.Reentrant.Play

/-!
# `IotJs.Proofs.ExitStatus`: one code for the event, `process.exitCode` and the status

`emitExit` decides the code of a process once, and `doExit` reads `process.exitCode` again after
the listeners of 'exit'. In between the listeners can assign another value, or throw, which makes
it 1. And the end of the event loop emits 0 whatever `process.exitCode` was. `Agreed` leaves these
moves out, and `Kept` is the invariant of the runs without them.
-/

set_option autoImplicit false

namespace IotJs.Exit

open Reentrant

/-! ### The tags determine the stack -/

theorem tagged_doExit (caller : Caller) : (doExit caller).Tagged resume := by
  rw [doExit, Prog.tagged_get_bind]
  intro s
  cases s.exitCode.orZero with
  | number n => exact fun _ => rfl
  | _ =>
      cases caller with
      | application => trivial
      | native => exact fun _ => rfl

theorem tagged_afterExit (caller : Caller) : (afterExit caller).Tagged resume := by
  rw [afterExit, Prog.tagged_askFor_bind]
  intro r
  split
  · rw [Prog.tagged_modify_bind]
    intro _
    rw [Prog.tagged_get_bind]
    intro s
    split
    · rfl
    · exact tagged_doExit caller
  · exact tagged_doExit caller

theorem tagged_exit (caller : Caller) (code : Value) : (exit caller code).Tagged resume := by
  rw [exit, Prog.tagged_get_bind]
  intro s
  split
  · exact tagged_doExit caller
  · exact fun _ => rfl

theorem tagged_afterUncaughtException : afterUncaughtException.Tagged resume := by
  rw [afterUncaughtException, Prog.tagged_askFor_bind]
  intro r
  split
  · exact tagged_exit .native (.number 1)
  · trivial

theorem tagged_afterFunction : afterFunction.Tagged resume := by
  rw [afterFunction, Prog.tagged_askFor_bind]
  intro r
  split
  · rw [_onUncaughtExcecption, Prog.tagged_get_bind]
    intro s
    split
    · rfl
    · exact tagged_exit .native (.number 1)
  · trivial

theorem tagged_afterExitLeft : afterExitLeft.Tagged resume := by
  rw [afterExitLeft, Prog.tagged_askFor_bind]
  intro r
  split
  · exact fun _ => trivial
  · exact fun _ => trivial

theorem tagged_leave : leave.Tagged resume := by
  rw [leave, Prog.tagged_modify_bind]
  intro _
  rw [Prog.tagged_get_bind]
  intro s
  split
  · exact fun _ => trivial
  · exact fun _ => rfl

theorem machine_tagged : machine.Tagged resume where
  body i := by
    cases i with
    | callback => exact rfl
    | leave => exact tagged_leave
    | exit code => exact tagged_exit .application code
    | assign value => exact fun _ => trivial
    | listen handled => exact fun _ => trivial
  resume tag := by
    cases tag with
    | function => exact tagged_afterFunction
    | uncaughtException => exact tagged_afterUncaughtException
    | exit caller => exact tagged_afterExit caller
    | uncaughtExit caller => exact tagged_doExit caller
    | exitLeft => exact tagged_afterExitLeft
    | gone => trivial

/-! ### The moves that keep the code -/

/-- A number that a process can have as its status. -/
def IsStatus : Value → Prop
  | .number n => 0 ≤ n ∧ n < 256
  | _ => False

instance : ∀ value, Decidable (IsStatus value)
  | .number _ => instDecidableAnd
  | .undefined | .null | .nan | .boolean _ | .string _ | .object => .isFalse id

/-- The code that `process.exit(code)` goes by. -/
def effective (code : Value) (s : Runtime) : Value := if code.isCode then code else s.exitCode

/-- No listener of 'exit' throws, unless the code is 1 anyway. -/
def AgreedReturn (s : Runtime) (threw : Int) : Option Tag → Prop
  | some (.exit _) => threw ≠ 0 → s.emitted = [.number 1]
  | some .exitLeft => threw = 0
  | _ => True

instance (s : Runtime) (threw : Int) : ∀ tag, Decidable (AgreedReturn s threw tag)
  | some (.exit _) => inferInstanceAs (Decidable (threw ≠ 0 → s.emitted = [.number 1]))
  | some .exitLeft => inferInstanceAs (Decidable (threw = 0))
  | none | some .function | some .uncaughtException | some (.uncaughtExit _) | some .gone =>
      .isTrue trivial

/-- What a call must find: `process.exit` gets a status, or there is one in `process.exitCode`;
nothing else is assigned once the process exits; and the event loop ends with 0 there. -/
def AgreedCall (s : Runtime) : Call → Prop
  | .exit code => s._exiting = false → IsStatus (effective code s)
  | .assign value => s._exiting = true → value = s.exitCode
  | .leave => s.exitCode = .number 0 ∧ (s.assigned = none ∨ s.assigned = some (.number 0))
  | _ => True

instance (s : Runtime) : ∀ i, Decidable (AgreedCall s i)
  | .exit code => inferInstanceAs (Decidable (s._exiting = false → IsStatus (effective code s)))
  | .assign value => inferInstanceAs (Decidable (s._exiting = true → value = s.exitCode))
  | .leave => instDecidableAnd
  | .callback | .listen _ => .isTrue trivial

def Agreed (c : Config Runtime Tag Ask) : Move Call → Prop
  | .call i _ => AgreedCall c.heap i
  | .ret answers => AgreedReturn c.heap (answers.headD 0) c.tags.head?
  | .throw => True

instance (c : Config Runtime Tag Ask) : ∀ m : Move Call, Decidable (Agreed c m)
  | .call i _ => inferInstanceAs (Decidable (AgreedCall c.heap i))
  | .ret answers => inferInstanceAs (Decidable (AgreedReturn c.heap (answers.headD 0) c.tags.head?))
  | .throw => .isTrue trivial

/-! ### The invariant -/

/-- The code that was decided. -/
structure Decided (s : Runtime) (n : Int) : Prop where
  low : 0 ≤ n
  high : n < 256
  exitCode : s.exitCode = .number n
  emitted : s.emitted = [.number n]
  status : ∀ status, s.status = some status → status = n
  left : s.left = true → n = 0 ∧ ∀ value, s.assigned = some value → value = .number n

/-- Nothing has been decided. -/
structure Undecided (s : Runtime) : Prop where
  emitted : s.emitted = []
  status : s.status = none
  left : s.left = false

/-- What a function that waits relies on. -/
def TagOk (s : Runtime) : Tag → Prop
  | .exit _ | .uncaughtExit _ => s._exiting = true
  | .exitLeft => s._exiting = true ∧ s.left = true
  | _ => True

structure Kept (s : Runtime) (tags : List Tag) : Prop where
  aborted : s.aborted = false
  undecided : s._exiting = false → Undecided s
  decided : s._exiting = true → ∃ n, Decided s n
  tags : ∀ tag ∈ tags, TagOk s tag

/-- A function leaves the invariant, with the tag of its yield on the stack. -/
def Keeps (tags : List Tag) (o : Outcome Runtime Tag Ask Unit) : Prop :=
  Kept o.heap (o.tag.toList ++ tags)

section steps

variable {s : Runtime} {tags : List Tag} {rs : List Int}

theorem Kept.push (h : Kept s tags) {tag : Tag} (htag : TagOk s tag) : Kept s (tag :: tags) where
  aborted := h.aborted
  undecided := h.undecided
  decided := h.decided
  tags := by
    intro tag' hmem
    rcases List.mem_cons.mp hmem with rfl | hmem
    · exact htag
    · exact h.tags tag' hmem

theorem Kept.pop {tag : Tag} (h : Kept s (tag :: tags)) : Kept s tags where
  aborted := h.aborted
  undecided := h.undecided
  decided := h.decided
  tags tag' hmem := h.tags tag' (List.mem_cons_of_mem tag hmem)

/-- The status is the code that was decided. -/
theorem Kept.setStatus (h : Kept s tags) {n : Int} (hexiting : s._exiting = true)
    (hcode : s.exitCode = .number n) :
    Kept { s with status := some (exitStatus n) } tags where
  aborted := h.aborted
  undecided hno := absurd hexiting (ne_true_of_eq_false hno)
  decided _ := by
    obtain ⟨n', hdecided⟩ := h.decided hexiting
    have hn : n' = n := Value.number.inj (hdecided.exitCode.symm.trans hcode)
    subst hn
    -- the operating system keeps the low byte, which is all of a status
    refine ⟨n', { hdecided with status := ?_ }⟩
    intro status hstatus
    have hmod : exitStatus n' = n' := Int.emod_eq_of_lt hdecided.low hdecided.high
    exact (Option.some.inj hstatus).symm.trans hmod
  tags := h.tags

/-- `emitExit` decides a code that is a status. -/
theorem Kept.emitExit (h : Kept s tags) (hexiting : s._exiting = false) {code : Value}
    (hcode : IsStatus (effective code s)) : Kept (emitExit code s) tags where
  aborted := h.aborted
  undecided hno := absurd rfl (ne_true_of_eq_false hno)
  decided _ := by
    have hun := h.undecided hexiting
    cases heff : effective code s with
    | number n =>
        rw [heff] at hcode
        have hemitted : (Exit.emitExit code s).emitted = s.emitted ++ [(effective code s).orZero] :=
          rfl
        refine ⟨n, hcode.1, hcode.2, heff, ?_, ?_, ?_⟩
        · rw [hemitted, hun.emitted, heff]
          rfl
        · intro status hstatus
          exact absurd (hun.status.symm.trans hstatus) (Option.some_ne_none status).symm
        · intro hleft
          exact absurd hun.left (ne_false_of_eq_true hleft)
    | _ =>
        rw [heff] at hcode
        exact hcode.elim
  tags := by
    intro tag hmem
    have htag := h.tags tag hmem
    cases tag with
    | exit caller => rfl
    | uncaughtExit caller => rfl
    | exitLeft => exact ⟨rfl, htag.2⟩
    | _ => trivial

theorem keeps_doExit (h : Kept s tags) (hexiting : s._exiting = true) (caller : Caller) :
    Keeps tags ((doExit caller).exec rs s) := by
  obtain ⟨n, hdecided⟩ := h.decided hexiting
  have hcode : s.exitCode.orZero = .number n := by
    rw [hdecided.exitCode]
    rfl
  rw [doExit, Prog.exec_get_bind, hcode]
  exact (h.setStatus hexiting hdecided.exitCode).push trivial

theorem keeps_exit (h : Kept s tags) (caller : Caller) {code : Value}
    (hcode : s._exiting = false → IsStatus (effective code s)) :
    Keeps tags ((exit caller code).exec rs s) := by
  rw [exit, Prog.exec_get_bind]
  by_cases hexiting : s._exiting = true
  · rw [if_pos hexiting]
    exact keeps_doExit h hexiting caller
  · rw [if_neg hexiting]
    have hno := eq_false_of_ne_true hexiting
    exact (h.emitExit hno (hcode hno)).push rfl

/-- A listener of 'exit' that throws makes the code 1, which it was. -/
theorem keeps_afterExit (h : Kept s tags) (hexiting : s._exiting = true) (caller : Caller)
    (hthrew : rs.headD 0 ≠ 0 → s.emitted = [.number 1]) :
    Keeps tags ((afterExit caller).exec rs s) := by
  rw [afterExit, Prog.exec_askFor_bind]
  by_cases hzero : rs.headD 0 = 0
  · rw [if_neg (not_not_intro hzero)]
    exact keeps_doExit h hexiting caller
  · obtain ⟨n, hdecided⟩ := h.decided hexiting
    -- the exception sets `process.exitCode` to 1, and that is what was emitted
    have hone : s.exitCode = .number 1 := by
      have hsame := hdecided.emitted.symm.trans (hthrew hzero)
      rw [hdecided.exitCode, List.head_eq_of_cons_eq hsame]
    have hs : { s with exitCode := .number 1 } = s := by
      rw [← hone]
    rw [if_pos hzero, Prog.exec_modify_bind, Prog.exec_get_bind, hs]
    by_cases hhandled : s.handled = true
    · rw [if_pos hhandled]
      exact h.push hexiting
    · rw [if_neg hhandled]
      exact keeps_doExit h hexiting caller

theorem isStatus_one (s : Runtime) : IsStatus (effective (.number 1) s) :=
  ⟨Int.one_nonneg, by decide⟩

theorem keeps_afterUncaughtException (h : Kept s tags) :
    Keeps tags (afterUncaughtException.exec rs s) := by
  rw [afterUncaughtException, Prog.exec_askFor_bind]
  by_cases hzero : rs.headD 0 = 0
  · rw [if_neg (not_not_intro hzero)]
    exact h
  · rw [if_pos hzero]
    exact keeps_exit h .native fun _ => isStatus_one s

theorem keeps_afterFunction (h : Kept s tags) : Keeps tags (afterFunction.exec rs s) := by
  rw [afterFunction, Prog.exec_askFor_bind]
  by_cases hzero : rs.headD 0 = 0
  · rw [if_neg (not_not_intro hzero)]
    exact h
  · rw [if_pos hzero, _onUncaughtExcecption, Prog.exec_get_bind]
    by_cases hhandled : s.handled = true
    · rw [if_pos hhandled]
      exact h.push trivial
    · rw [if_neg hhandled]
      exact keeps_exit h .native fun _ => isStatus_one s

/-- At the end of the event loop the code is 0. -/
theorem keeps_afterExitLeft (h : Kept s tags) (htag : TagOk s .exitLeft)
    (hzero : rs.headD 0 = 0) : Keeps tags (afterExitLeft.exec rs s) := by
  obtain ⟨n, hdecided⟩ := h.decided htag.1
  have hcode : s.exitCode = .number 0 := by
    rw [hdecided.exitCode, (hdecided.left htag.2).1]
  rw [afterExitLeft, Prog.exec_askFor_bind, if_neg (not_not_intro hzero)]
  exact h.setStatus htag.1 hcode

/-- The event loop has ended, and the code is 0. -/
theorem Kept.setLeft (h : Kept s tags) (hexiting : s._exiting = true)
    (hcode : s.exitCode = .number 0)
    (hassigned : s.assigned = none ∨ s.assigned = some (.number 0)) :
    Kept { s with left := true } tags where
  aborted := h.aborted
  undecided hno := absurd hexiting (ne_true_of_eq_false hno)
  decided _ := by
    obtain ⟨n, hdecided⟩ := h.decided hexiting
    have hzero : n = 0 := Value.number.inj (hdecided.exitCode.symm.trans hcode)
    subst hzero
    refine ⟨0, { hdecided with left := fun _ => ⟨rfl, fun value hvalue => ?_⟩ }⟩
    rcases hassigned with hnone | hsome
    · exact absurd (hnone.symm.trans hvalue) (Option.some_ne_none value).symm
    · exact Option.some.inj (hvalue.symm.trans hsome)
  tags := by
    intro tag hmem
    have htag := h.tags tag hmem
    cases tag with
    | exitLeft => exact ⟨hexiting, rfl⟩
    | _ => exact htag

/-- The end of the event loop, where nothing but 0 was assigned. -/
theorem keeps_leave (h : Kept s tags) (hcode : s.exitCode = .number 0)
    (hassigned : s.assigned = none ∨ s.assigned = some (.number 0)) :
    Keeps tags (leave.exec rs s) := by
  rw [leave, Prog.exec_modify_bind, Prog.exec_get_bind]
  by_cases hexiting : s._exiting = true
  · -- 'exit' was emitted before, and is not emitted again
    rw [if_pos hexiting]
    have hleft := h.setLeft hexiting hcode hassigned
    exact hleft.setStatus hexiting hcode
  · rw [if_neg hexiting]
    have hzero : IsStatus (effective (.number 0) s) := ⟨Int.le_refl 0, by decide⟩
    have hemit := h.emitExit (eq_false_of_ne_true hexiting) hzero
    have hleft := hemit.setLeft rfl rfl hassigned
    exact hleft.push ⟨rfl, rfl⟩

/-- An assignment that changes nothing once the code is decided. -/
theorem Kept.assign (h : Kept s tags) {value : Value}
    (hvalue : s._exiting = true → value = s.exitCode) :
    Kept { s with exitCode := value, assigned := some value } tags where
  aborted := h.aborted
  undecided hno := { h.undecided hno with }
  decided hexiting := by
    obtain ⟨n, hdecided⟩ := h.decided hexiting
    have hn : value = .number n := (hvalue hexiting).trans hdecided.exitCode
    refine ⟨n, { hdecided with exitCode := hn, left := ?_ }⟩
    intro hleft
    refine ⟨(hdecided.left hleft).1, ?_⟩
    rintro value' ⟨⟩
    exact hn
  tags := h.tags

theorem Kept.listen (h : Kept s tags) (handled : Bool) :
    Kept { s with handled := handled } tags where
  aborted := h.aborted
  undecided hno := { h.undecided hno with }
  decided hexiting := by
    obtain ⟨n, hdecided⟩ := h.decided hexiting
    exact ⟨n, { hdecided with }⟩
  tags := h.tags

/-- Each move that `Agreed` allows keeps the invariant. -/
theorem Kept.step {m : Move Call} {c : Config Runtime Tag Ask} {s' : Runtime} {tags' : List Tag}
    (hagreed : Agreed c m) (h : Kept c.heap c.tags)
    (hstep : machine.TagStep resume c.heap c.tags m s' tags') : Kept s' tags' := by
  obtain ⟨s, stack⟩ := c
  generalize htags : Config.tags ⟨s, stack⟩ = tags at *
  cases hstep with
  | call i rs _ hen =>
      cases i with
      | callback => exact h.push trivial
      | leave => exact keeps_leave h hagreed.1 hagreed.2
      | exit code => exact keeps_exit h .application hagreed
      | assign value => exact h.assign hagreed
      | listen handled => exact h.listen handled
  | ret rs tag tags =>
      have htag : TagOk s tag := h.tags tag List.mem_cons_self
      have hreturn : AgreedReturn s (rs.headD 0) (some tag) := by
        rw [Agreed, htags] at hagreed
        exact hagreed
      cases tag with
      | function => exact keeps_afterFunction h.pop
      | uncaughtException => exact keeps_afterUncaughtException h.pop
      | exit caller => exact keeps_afterExit h.pop htag caller hreturn
      | uncaughtExit caller => exact keeps_doExit h.pop htag caller
      | exitLeft => exact keeps_afterExitLeft h.pop htag hreturn
      | gone => exact h.pop
  | throw tag tags => exact h.pop

end steps

/-! ### Runs -/

/-- The 'exit' event comes once at most, and the code that its listeners got, `process.exitCode`
and the status are the same; at the end of the event loop also with what was assigned. -/
structure OneCode (s : Runtime) : Prop where
  once : s.emitted.length ≤ 1
  aborted : s.aborted = false
  status : ∀ status, s.status = some status →
    s.emitted = [.number status] ∧ s.exitCode = .number status
  left : s.left = true → ∀ status value, s.status = some status → s.assigned = some value →
    value = .number status

theorem Kept.oneCode {s : Runtime} {tags : List Tag} (h : Kept s tags) : OneCode s := by
  by_cases hexiting : s._exiting = true
  · obtain ⟨n, hdecided⟩ := h.decided hexiting
    refine ⟨?_, h.aborted, ?_, ?_⟩
    · rw [hdecided.emitted]
      exact Nat.le_refl 1
    · intro status hstatus
      rw [hdecided.status status hstatus]
      exact ⟨hdecided.emitted, hdecided.exitCode⟩
    · intro hleft status value hstatus hassigned
      rw [hdecided.status status hstatus]
      exact (hdecided.left hleft).2 value hassigned
  · have hun := h.undecided (eq_false_of_ne_true hexiting)
    refine ⟨?_, h.aborted, ?_, ?_⟩
    · rw [hun.emitted]
      exact Nat.zero_le 1
    · intro status hstatus
      exact absurd (hun.status.symm.trans hstatus) (Option.some_ne_none status).symm
    · intro hleft
      exact absurd hun.left (ne_false_of_eq_true hleft)

end IotJs.Exit

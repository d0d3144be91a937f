import IotJs.Core.EventLoop
import IotJs.Lib.Reentrant.Contract
import IotJs.Lib.Reentrant.Play

/-!
# `IotJs.Proofs.EventLoopSteps`: what one step of the process can do

The tag of a function that waits says how it goes on (`machine_tagged`), so a step acts on the
process and on the tags alone. There is little that it can do. Outside code makes a call that
only changes a field, or starts a function that waits for other outside code. Or outside code
returns: then its exception is handled, and `next` waits once more, or `next` goes on and does
what `proceeded` says, down to its own next yield. `Stepped` lists these cases once, for all
that is proved about runs of the process.
-/

set_option autoImplicit false

namespace IotJs.Process

open Reentrant

/-! ### The stack -/

section tagged

variable {next : Next} {caller : Caller}

theorem tagged_doExit : (doExit next >>= fun _ => proceed next).Tagged resume :=
  fun _ => rfl

theorem tagged_afterEmitExit : (afterEmitExit next >>= fun _ => proceed next).Tagged resume := by
  rw [afterEmitExit, Prog.bind_assoc, Prog.tagged_askFor_bind]
  intro r
  rw [Prog.bind_assoc, Prog.tagged_get_bind]
  intro s
  split
  · exact rfl
  · exact tagged_doExit

theorem tagged_exit : (exit next >>= fun _ => proceed next).Tagged resume := by
  rw [exit, Prog.bind_assoc, Prog.tagged_get_bind]
  intro s
  split
  · exact fun _ => rfl
  · exact tagged_doExit

theorem tagged_afterUncaughtException :
    (afterUncaughtException next >>= fun _ => proceed next).Tagged resume ↔
      (proceed next).Tagged resume := by
  rw [afterUncaughtException, Prog.bind_assoc, Prog.tagged_askFor_bind]
  constructor
  · intro h
    exact h 0
  · intro h r
    split
    · exact tagged_exit
    · exact h

theorem tagged_onUncaughtExcecption :
    (_onUncaughtExcecption next >>= fun _ => proceed next).Tagged resume := by
  rw [_onUncaughtExcecption, Prog.bind_assoc, Prog.tagged_get_bind]
  intro s
  split
  · exact rfl
  · exact tagged_exit

theorem tagged_catchException (h : (proceed next).Tagged resume) :
    (catchException next >>= fun _ => proceed next).Tagged resume := by
  rw [catchException, Prog.bind_assoc, Prog.tagged_askFor_bind]
  intro r
  split
  · exact tagged_onUncaughtExcecption
  · exact h

theorem tagged_finish (ticks : Bool) : (finish caller ticks).Tagged resume := by
  cases caller with
  | callback => trivial
  | runMain => exact fun _ => trivial
  | loop more =>
      rw [finish, Prog.tagged_get_bind]
      intro s
      have hleave : ∀ b : Prop, [Decidable b] → (if b then
          modify fun s => { s with phase := .left } else pure () : Method Unit).Tagged resume := by
        intro b _
        split
        · exact fun _ => trivial
        · trivial
      exact hleave _

theorem tagged_drain (rest : List Nat) :
    (drain caller rest >>= finish caller).Tagged resume := by
  cases rest with
  | nil => exact fun s => tagged_finish _
  | cons callback rest =>
      intro s
      show _ = catchException _ >>= fun _ => drain caller rest >>= finish caller
      rw [← Prog.bind_assoc]
      rfl

/-- What goes on after the outside code of a tag is what `resume` says. -/
theorem tagged_proceed (next : Next) : (proceed next).Tagged resume := by
  cases next with
  | drain rest caller => exact tagged_drain rest
  | onNextTick caller => exact fun s _ => tagged_drain s.nextTickQueue
  | enterLoop => exact fun _ => trivial
  | «return» => trivial

theorem machine_tagged : machine.Tagged resume where
  resume tag := by
    cases tag with
    | main =>
        rw [resume, Prog.tagged_askFor_bind]
        intro r
        split
        · exact tagged_onUncaughtExcecption
        · exact tagged_proceed _
    | uvRun => exact fun s => tagged_proceed (.onNextTick (.loop s.alive))
    | outside point next =>
        have hnext := tagged_proceed next
        cases point with
        | function => exact tagged_catchException hnext
        | tick => exact tagged_catchException hnext
        | uncaughtException => exact tagged_afterUncaughtException.mpr hnext
        | exit => exact tagged_afterEmitExit
        | uncaughtExit => exact tagged_doExit
        | gone => exact hnext
  body i := by
    cases i with
    | run => exact rfl
    | iterate => exact rfl
    | nextTick => exact fun _ => trivial
    | onNextTick => exact tagged_proceed (.onNextTick .callback)
    | makeCallback => exact rfl
    | exit =>
        have h := @tagged_exit .return
        rwa [show (fun _ => proceed .return) = (pure : Unit → Method Unit) from rfl,
          Prog.bind_pure] at h
    | listen handled => exact fun _ => trivial
    | activate alive => exact fun _ => trivial

end tagged

/-! ### What goes on -/

section stepped

variable {s : Process} {next : Next} {caller : Caller} {rs : List Int}

/-- Where the process stands when the caller of a drain has its answer. -/
def answered (s : Process) : Caller → Phase
  | .callback => s.phase
  | .runMain => .loop
  | .loop more => if more || !s.nextTickQueue.isEmpty || s.alive then s.phase else .left

/-- A drain starts the first callback of its copy, or returns to its caller. -/
def drained (s : Process) (caller : Caller) : List Nat → Process × List Tag
  | [] => ({ s with phase := answered s caller }, [])
  | callback :: rest =>
      ({ s with started := s.started ++ [callback] }, [.outside .tick (.drain rest caller)])

/-- What `next` does, up to the next yield: the process, and the tag that it leaves. -/
def proceeded (s : Process) : Next → Process × List Tag
  | .drain rest caller => drained s caller rest
  | .onNextTick caller => drained { s with nextTickQueue := [] } caller s.nextTickQueue
  | .enterLoop => ({ s with phase := .loop }, [])
  | .return => (s, [])

/-- The process and the tag that an outcome leaves. -/
abbrev Left (o : Outcome Process Tag Ask Unit) (left : Process × List Tag) : Prop :=
  o.heap = left.1 ∧ o.tag.toList = left.2

theorem left_finish :
    Left ((finish caller (!s.nextTickQueue.isEmpty)).exec rs s) (drained s caller []) := by
  cases caller with
  | callback => exact ⟨rfl, rfl⟩
  | runMain => exact ⟨rfl, rfl⟩
  | loop more =>
      rw [finish, Prog.exec_get_bind, drained, answered]
      -- the loop goes on while there is more to do
      cases more || !s.nextTickQueue.isEmpty with
      | true => exact ⟨rfl, rfl⟩
      | false =>
          obtain ⟨phase, registrations, queue, started, handled, alive, isExiting, exited⟩ := s
          cases alive <;> exact ⟨rfl, rfl⟩

theorem left_drain (rest : List Nat) :
    Left ((drain caller rest >>= finish caller).exec rs s) (drained s caller rest) := by
  cases rest with
  | nil => exact left_finish
  | cons callback rest => exact ⟨rfl, rfl⟩

theorem left_proceed : Left ((proceed next).exec rs s) (proceeded s next) := by
  cases next with
  | drain rest caller => exact left_drain rest
  | onNextTick caller => exact left_drain s.nextTickQueue
  | enterLoop => exact ⟨rfl, rfl⟩
  | «return» => exact ⟨rfl, rfl⟩

/-! ### What handles an exception -/

/-- The process is about to exit, or not: `next` waits for outside code once more. -/
def Waits (s : Process) (next : Next) (o : Outcome Process Tag Ask Unit) : Prop :=
  ∃ point isExiting hasExited,
    Left o ({ s with _exiting := isExiting, exited := hasExited }, [.outside point next])

theorem waits_doExit : Waits s next ((doExit next >>= fun _ => proceed next).exec rs s) :=
  ⟨.gone, s._exiting, true, rfl, rfl⟩

theorem waits_afterEmitExit :
    Waits s next ((afterEmitExit next >>= fun _ => proceed next).exec rs s) := by
  rw [afterEmitExit, Prog.bind_assoc, Prog.exec_askFor_bind, Prog.bind_assoc, Prog.exec_get_bind]
  split
  · exact ⟨.uncaughtExit, s._exiting, s.exited, rfl, rfl⟩
  · exact waits_doExit

theorem waits_exit : Waits s next ((exit next >>= fun _ => proceed next).exec rs s) := by
  rw [exit, Prog.bind_assoc, Prog.exec_get_bind]
  split
  · exact ⟨.exit, true, s.exited, rfl, rfl⟩
  · exact waits_doExit

theorem waits_onUncaughtExcecption :
    Waits s next ((_onUncaughtExcecption next >>= fun _ => proceed next).exec rs s) := by
  rw [_onUncaughtExcecption, Prog.bind_assoc, Prog.exec_get_bind]
  split
  · exact ⟨.uncaughtException, s._exiting, s.exited, rfl, rfl⟩
  · exact waits_exit

/-- Outside code returned, and there is no exception to handle. -/
def Point.returned (point : Point) (rs : List Int) : Bool :=
  match point with
  | .function | .tick | .uncaughtException => rs.headD 0 = 0
  | .exit | .uncaughtExit => false
  | .gone => true

theorem left_resume {point : Point} (h : point.returned rs = true) :
    Left ((resume (.outside point next)).exec rs s) (proceeded s next) := by
  cases point with
  | exit => cases h
  | uncaughtExit => cases h
  | gone => exact left_proceed
  | function | tick =>
      have hzero : rs.headD 0 = 0 := of_decide_eq_true h
      rw [resume, catchException, Prog.bind_assoc, Prog.exec_askFor_bind, hzero]
      exact left_proceed
  | uncaughtException =>
      have hzero : rs.headD 0 = 0 := of_decide_eq_true h
      rw [resume, afterUncaughtException, Prog.bind_assoc, Prog.exec_askFor_bind, hzero]
      exact left_proceed

theorem waits_resume {point : Point} (h : point.returned rs = false) :
    Waits s next ((resume (.outside point next)).exec rs s) := by
  cases point with
  | exit => exact waits_afterEmitExit
  | uncaughtExit => exact waits_doExit
  | gone => cases h
  | function | tick =>
      have hthrew : rs.headD 0 ≠ 0 := of_decide_eq_false h
      rw [resume, catchException, Prog.bind_assoc, Prog.exec_askFor_bind, if_pos hthrew]
      exact waits_onUncaughtExcecption
  | uncaughtException =>
      have hthrew : rs.headD 0 ≠ 0 := of_decide_eq_false h
      rw [resume, afterUncaughtException, Prog.bind_assoc, Prog.exec_askFor_bind, if_pos hthrew]
      exact waits_exit

end stepped

/-! ### Steps -/

/-- A registration of `process.nextTick`. -/
def registered (s : Process) : Process :=
  { s with
    nextTickQueue := s.nextTickQueue ++ [s.registrations]
    registrations := s.registrations + 1 }

/-- What goes on when the outside code of a tag returns without an exception. -/
def Tag.next (s : Process) : Tag → Next
  | .main => .onNextTick .runMain
  | .uvRun => .onNextTick (.loop s.alive)
  | .outside _ next => next

/-- The outside code of the tag returned, and there is no exception to handle. -/
def Tag.returned (rs : List Int) : Tag → Bool
  | .main => rs.headD 0 = 0
  | .uvRun => true
  | .outside point _ => point.returned rs

/-- What waits while an exception of the tag's outside code is handled. -/
def Tag.handled : Tag → Next
  | .outside _ next => next
  | _ => .enterLoop

section steps

variable {s : Process} {rs : List Int}

/-- What a move makes of the process and of the tags that wait. -/
inductive Stepped (s : Process) : List Tag → Move Call → Process → List Tag → Prop
  | run {rs : List Int} (hphase : s.phase = .main) : Stepped s [] (.call .run rs) s [.main]
  | iterate {rs : List Int} (hphase : s.phase = .loop) :
      Stepped s [] (.call .iterate rs) s [.uvRun]
  | nextTick {rs : List Int} {tag : Tag} {tags : List Tag} :
      Stepped s (tag :: tags) (.call .nextTick rs) (registered s) (tag :: tags)
  | onNextTick {rs : List Int} {tag : Tag} {tags : List Tag} :
      Stepped s (tag :: tags) (.call .onNextTick rs) (proceeded s (.onNextTick .callback)).1
        ((proceeded s (.onNextTick .callback)).2 ++ tag :: tags)
  | makeCallback {rs : List Int} {tag : Tag} {tags : List Tag} :
      Stepped s (tag :: tags) (.call .makeCallback rs) s
        (.outside .function (.onNextTick .callback) :: tag :: tags)
  | exit {rs : List Int} {tag : Tag} {tags : List Tag} {point : Point} {ex ed : Bool} :
      Stepped s (tag :: tags) (.call .exit rs) { s with _exiting := ex, exited := ed }
        (.outside point .return :: tag :: tags)
  | listen {rs : List Int} {tag : Tag} {tags : List Tag} {handled : Bool} :
      Stepped s (tag :: tags) (.call (.listen handled) rs) { s with handled := handled }
        (tag :: tags)
  | activate {rs : List Int} {tag : Tag} {tags : List Tag} {alive : Bool} :
      Stepped s (tag :: tags) (.call (.activate alive) rs) { s with alive := alive }
        (tag :: tags)
  | handle {rs : List Int} {tag : Tag} {tags : List Tag} {point : Point} {ex ed : Bool}
      (hthrew : tag.returned rs = false) :
      Stepped s (tag :: tags) (.ret rs) { s with _exiting := ex, exited := ed }
        (.outside point tag.handled :: tags)
  | proceed {rs : List Int} {tag : Tag} {tags : List Tag} (hreturned : tag.returned rs = true) :
      Stepped s (tag :: tags) (.ret rs) (proceeded s (tag.next s)).1
        ((proceeded s (tag.next s)).2 ++ tags)

theorem Stepped.of_waits {o : Outcome Process Tag Ask Unit} {tag : Tag} {tags : List Tag}
    (h : Waits s tag.handled o) (hthrew : tag.returned rs = false) :
    Stepped s (tag :: tags) (.ret rs) o.heap (o.tag.toList ++ tags) := by
  obtain ⟨point, ex, ed, hheap, htag⟩ := h
  rw [hheap, htag]
  exact .handle hthrew

theorem Stepped.of_left {o : Outcome Process Tag Ask Unit} {tag : Tag} {tags : List Tag}
    (h : Left o (proceeded s (tag.next s))) (hreturned : tag.returned rs = true) :
    Stepped s (tag :: tags) (.ret rs) o.heap (o.tag.toList ++ tags) := by
  rw [h.1, h.2]
  exact .proceed hreturned

/-- Outside code returns. -/
theorem stepped_ret (tag : Tag) (tags : List Tag) :
    Stepped s (tag :: tags) (.ret rs) ((resume tag).exec rs s).heap
      (((resume tag).exec rs s).tag.toList ++ tags) := by
  cases hreturned : tag.returned rs with
  | true =>
      refine .of_left ?_ hreturned
      cases tag with
      | main =>
          have hzero : rs.headD 0 = 0 := of_decide_eq_true hreturned
          rw [resume, Prog.exec_askFor_bind, hzero]
          exact @left_proceed s (.onNextTick .runMain) rs.tail
      | uvRun => exact @left_proceed s (.onNextTick (.loop s.alive)) rs
      | outside point next => exact left_resume hreturned
  | false =>
      refine .of_waits ?_ hreturned
      cases tag with
      | main =>
          have hthrew : rs.headD 0 ≠ 0 := of_decide_eq_false hreturned
          rw [resume, Prog.exec_askFor_bind, if_pos hthrew]
          exact waits_onUncaughtExcecption
      | uvRun => cases hreturned
      | outside point next => exact waits_resume hreturned

/-- A step does one of these. -/
theorem stepped_of_tagStep {tags tags' : List Tag} {m : Move Call} {s' : Process}
    (hm : m ≠ .throw) (h : machine.TagStep resume s tags m s' tags') :
    Stepped s tags m s' tags' := by
  cases h with
  | throw => exact absurd rfl hm
  | ret rs tag tags => exact stepped_ret tag tags
  | call i rs tags hen =>
      -- at rest the process starts or makes a round; other calls come from outside code
      cases tags with
      | nil =>
          cases i with
          | run =>
              simp only [machine, enabled, Bool.and_eq_true, decide_eq_true_eq] at hen
              exact .run hen.2
          | iterate =>
              simp only [machine, enabled, Bool.and_eq_true, decide_eq_true_eq] at hen
              exact .iterate hen.2
          | _ => cases hen
      | cons tag tags =>
          cases i with
          | run => cases hen
          | iterate => cases hen
          | nextTick => exact .nextTick
          | onNextTick =>
              have h := @left_proceed s (.onNextTick .callback) rs
              show Stepped s (tag :: tags) _
                ((Process.proceed (.onNextTick .callback)).exec rs s).heap
                (((Process.proceed (.onNextTick .callback)).exec rs s).tag.toList ++ tag :: tags)
              rw [h.1, h.2]
              exact .onNextTick
          | makeCallback => exact .makeCallback
          | exit =>
              have h := @waits_exit s .return rs
              rw [show (fun _ => Process.proceed .return) = (pure : Unit → Method Unit) from rfl,
                Prog.bind_pure] at h
              obtain ⟨point, ex, ed, hheap, htag⟩ := h
              show Stepped s (tag :: tags) _ ((Process.exit .return).exec rs s).heap
                (((Process.exit .return).exec rs s).tag.toList ++ tag :: tags)
              rw [hheap, htag]
              exact .exit
          | listen handled => exact .listen
          | activate alive => exact .activate

end steps

end IotJs.Process

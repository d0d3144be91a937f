import IotJs.Proofs.FsFailures
import IotJs.Proofs.FsTasks

/-!
# `IotJs.Proofs.FsReadFile`: what `readFile` reports

`Reading` is the task between two reads. A read that goes on leads from one to the next
(`ends_read_on`), so the first one that does not decides. Where it reads nothing, the descriptor is
closed and the callback called with what was read; the file may not have ended there. Where it
fails, `afterRead` closes the descriptor and does not return: it finds that no bytes were read, and
closes it again. `readFile_iff` puts the cases together.
-/

set_option autoImplicit false

namespace IotJs

namespace FsFiles

open Runs
open Fs (FsError Opens later position ReadsOn reading opening readBytes ClosedOnce)

/-- Once the descriptor is to be closed, no read is asked for. -/
def NoReadAfterClose : List UvCall → Prop
  | [] => True
  | .uvClose _ :: rest => ∀ fd length position, .uvRead fd length position ∉ rest
  | _ :: rest => NoReadAfterClose rest

/-- What `readFile` should have done at its end. -/
structure ReadReport (w : World) (path : String) (t : ReadTask) : Prop where
  /-- the callback was called once, with the error of the step that failed first -/
  reported : ∃ data, t.called = [(t.failure.map (FsError.uv · "open"), data)] ∧
    (t.failure = none → ∃ content, w.files path = some content ∧ data = some content)
  closed : ClosedOnce w t.world
  order : NoReadAfterClose t.asked

/-- The file cannot be opened, or no read fails and the last one is at the end of the file, or is
followed by a `close` that fails. -/
def ReadFileHolds (w : World) (path : String) : Prop :=
  ¬ Opens w path ∨ ∃ content : Bytes, w.files path = some content ∧ ∃ k,
    (∀ j < k, ReadsOn (later w) content.length j) ∧ 0 ≤ later w k ∧
      (position (later w) content.length k = content.length ∨
        later w k = 0 ∧ later w (k + 1) < 0)

theorem noReadAfterClose_append {calls : List UvCall} (h : ∀ call ∈ calls, call.isClose = false)
    (fd : Nat) : NoReadAfterClose (calls ++ [.uvClose fd]) := by
  induction calls with
  | nil => exact fun _ _ _ => List.not_mem_nil
  | cons call calls ih =>
      have hcall := h call List.mem_cons_self
      have hrest := ih fun call hmem => h call (List.mem_cons_of_mem _ hmem)
      cases call with
      | uvClose fd => cases hcall
      | uvOpen | uvRead | uvWrite => exact hrest

/-- The callbacks of `readFile` but the first ask for no `open`. -/
theorem adds_readHandler (callback : ReadCallback) (reply : Reply) (t : ReadTask)
    (hcallback : callback ≠ .opened) : Adds .opened t (readHandler callback reply t) := by
  have hsame : ∀ t u : ReadTask, u.world = t.world → u.pending = t.pending → Adds .opened t u :=
    fun t u hworld hpending => ⟨hworld, [], hpending.trans (List.append_nil _).symm, nofun⟩
  have hclose : ∀ (callback : ReadCallback) (t : ReadTask), callback ≠ .opened →
      Adds .opened t (ask (.uvClose t.vars.fd) callback t) :=
    fun callback t hne => adds_ask hne rfl t
  have hread : ∀ t u : ReadTask, u.world = t.world → u.pending = t.pending →
      Adds .opened t (read u) :=
    fun t u hworld hpending => (hsame t u hworld hpending).trans
      (adds_askIf _ (by decide) rfl u)
  cases callback with
  | opened => exact absurd rfl hcallback
  | closeFailed | closed => exact hsame _ _ rfl rfl
  | afterRead =>
      simp only [readHandler, afterRead]
      by_cases herr : reply.err.isSome = true
      -- the `close` for the error, and the one at the end of a file: `bytesRead` is 0 then
      · rw [if_pos herr, if_pos herr, if_pos rfl]
        exact (hclose .closeFailed t (by decide)).trans (hclose .closed _ (by decide))
      · rw [if_neg herr, if_neg herr]
        by_cases hzero : reply.result = 0
        · rw [if_pos hzero]
          exact hclose .closed t (by decide)
        · rw [if_neg hzero]
          exact hread t _ rfl rfl

section stages

variable {w : World} {path : String} {content : Bytes} {j : Nat} {t : ReadTask}

/-- The task when it is going to make the read number `j`. -/
structure Reading (w : World) (path : String) (content : Bytes) (j : Nat) (t : ReadTask) :
    Prop where
  pending : t.pending = []
  world : t.world = reading (opening w path) w.next path (position (later w) content.length j)
    (w.calls + 1 + j)
  fd : t.vars.fd = w.next
  buffers : t.vars.buffers.flatten = content.take (position (later w) content.length j)
  called : t.called = []
  failure : t.failure = none
  asked : ∀ call ∈ t.asked, call.isClose = false

theorem read_eq (t : ReadTask) : read t = ask (.uvRead t.vars.fd 1023 (-1)) .afterRead t := by
  -- the buffer has as many bytes as are asked for
  have hnone : Fs.rangeError "Read" 0 1023 1023 = none := by
    rw [Fs.rangeError, if_neg (by decide), if_neg (by decide), if_neg (by decide)]
  rw [read, hnone]
  rfl

/-- `afterRead` with an error closes the descriptor, and once more. -/
theorem afterRead_error {reply : Reply} (hneg : reply.result < 0) :
    afterRead reply t = close (ask (.uvClose t.vars.fd) .closeFailed t) := by
  have herr : reply.err.isSome = true := by
    rw [Reply.err, if_pos hneg]
    rfl
  simp only [afterRead, herr, if_true]

theorem afterRead_zero {reply : Reply} (hzero : reply.result = 0) :
    afterRead reply t = close t := by
  simp [afterRead, Reply.err, hzero]

theorem afterRead_more {reply : Reply} (hlength : reply.result = reply.bytes.length)
    (hbytes : reply.bytes ≠ []) : afterRead reply t =
      read { t with vars := { t.vars with buffers := t.vars.buffers ++ [reply.bytes] } } := by
  have hpos := List.length_pos_iff.mpr hbytes
  have herr : reply.err = none := if_neg (by omega)
  have hne : (reply.bytes.length : Int) ≠ 0 := by omega
  simp only [afterRead, herr, hlength, hne, Option.isSome_none, Bool.false_eq_true, if_false,
    Int.toNat_natCast, Fs.take_overwrite_zero]

/-- A read that succeeds. -/
theorem perform_read (hfile : w.files path = some content) (hr : 0 ≤ later w j) :
    (UvCall.uvRead w.next 1023 (-1)).perform (reading (opening w path) w.next path
        (position (later w) content.length j) (w.calls + 1 + j)) =
      let bytes := readBytes content (position (later w) content.length j) (later w j)
      (⟨bytes.length, bytes⟩, reading (opening w path) w.next path
        (position (later w) content.length (j + 1)) (w.calls + 1 + (j + 1))) := by
  have hcall : 0 ≤ (opening w path).results (w.calls + 1 + j) := hr
  have huv := Fs.uvRead_ok (w := opening w path) w.next 1023
    (position (later w) content.length j) hfile hcall
  have hnext := Fs.length_readBytes_position content (later w) j
  rw [← hnext]
  simp only [UvCall.perform, huv]
  rfl

/-- A read that fails. -/
theorem perform_read_error (pos : Nat) (hr : later w j < 0) :
    (UvCall.uvRead w.next 1023 (-1)).perform (reading (opening w path) w.next path pos
        (w.calls + 1 + j)) =
      (⟨later w j, []⟩, reading (opening w path) w.next path pos (w.calls + 1 + (j + 1))) := by
  have hcall : (opening w path).results (w.calls + 1 + j) < 0 := hr
  have huv := Fs.uvRead_error (w := opening w path) w.next 1023 path pos hcall
  simp only [UvCall.perform, huv]
  rfl

/-- The next step after a read was asked for. -/
theorem ends_read (h : Reading w path content j t) {good : ReadTask → Prop} :
    Ends (step readHandler) good (read t) ↔ Ends (step readHandler) good
      (settled readHandler (.uvRead w.next 1023 (-1)) .afterRead
        { t with asked := t.asked ++ [.uvRead w.next 1023 (-1)] }) := by
  have hpending : (read t).pending = [⟨.uvRead w.next 1023 (-1), .afterRead, none⟩] := by
    rw [read_eq, h.fd]
    show t.pending ++ _ = _
    rw [h.pending]
    rfl
  rw [ends_single hpending, read_eq, h.fd]
  rfl

/-- A read that goes on leads to the next one. -/
theorem ends_read_on (h : Reading w path content j t) (hfile : w.files path = some content)
    (hon : ReadsOn (later w) content.length j) (good : ReadTask → Prop) :
    ∃ u, Reading w path content (j + 1) u ∧
      (Ends (step readHandler) good (read t) ↔ Ends (step readHandler) good (read u)) := by
  have hperform := perform_read hfile (Int.le_of_lt hon.1)
  have hfar := Fs.lt_position_succ hon
  have hlen := Fs.length_readBytes_position content (later w) j
  have hflat := Fs.readBytes_position content (later w) j
  -- a read that moves the position is no end of the file for `afterRead`
  have hpos : readBytes content (position (later w) content.length j) (later w j) ≠ [] := by
    rw [← List.length_pos_iff]
    omega
  generalize readBytes content (position (later w) content.length j) (later w j) = bytes
    at hperform hlen hflat hpos
  let u : ReadTask := { t with
    world := reading (opening w path) w.next path (position (later w) content.length (j + 1))
      (w.calls + 1 + (j + 1))
    pending := []
    asked := t.asked ++ [.uvRead w.next 1023 (-1)]
    vars := { t.vars with buffers := t.vars.buffers ++ [bytes] } }
  refine ⟨u, ⟨rfl, rfl, h.fd, ?_, h.called, h.failure, ?_⟩, ?_⟩
  · rw [List.flatten_append, List.flatten_singleton, h.buffers, hflat]
  · intro call hmem
    rcases List.mem_append.mp hmem with hmem | hmem
    · exact h.asked call hmem
    · rw [List.mem_singleton.mp hmem]
      rfl
  · have hneg : ¬ (bytes.length : Int) < 0 := Int.not_lt.mpr (Int.natCast_nonneg _)
    rw [ends_read h]
    simp only [settled, h.world, hperform, readHandler]
    rw [afterRead_more rfl hpos, if_neg hneg, Option.or_none]

/-- The descriptor is closed twice after a read that fails. -/
theorem not_ends_read (h : Reading w path content j t) (hr : later w j < 0) :
    ¬ Ends (step readHandler) (ReadReport w path) (read t) := by
  rw [ends_read h]
  simp only [settled, h.world, perform_read_error _ hr, readHandler]
  rw [afterRead_error hr]
  refine not_ends_of_doubled w .opened adds_readHandler (fun t ht => ?_)
    ⟨fun request hmem => ?_, ?_, ?_⟩
  · obtain ⟨fds, -, hopened, hclosed⟩ := ht.closed
    rw [hopened, hclosed, List.length_append, List.length_append]
    omega
  · rcases List.mem_cons.mp hmem with rfl | hmem
    · exact ⟨ReadCallback.noConfusion, rfl⟩
    · rw [List.mem_singleton.mp hmem]
      exact ⟨ReadCallback.noConfusion, rfl⟩
  · show (w.opened ++ [w.next]).length = _
    rw [List.length_append]
    rfl
  · exact Nat.le_refl _

/-- The descriptor is closed, and `readFile` is done. -/
theorem report_iff {v : ReadTask} {pos : Nat} (hfile : w.files path = some content)
    (hworld : v.world = reading (opening w path) w.next path pos (w.calls + 1 + (j + 1)))
    (hcalled : v.called = []) (hfailure : v.failure = none)
    (hasked : ∀ call ∈ v.asked, call.isClose = false) :
    Ends (step readHandler) (ReadReport w path)
        (settled readHandler (.uvClose w.next) .closed (ask (.uvClose w.next) .closed v)) ↔
      v.vars.buffers.flatten = content ∨ later w (j + 1) < 0 := by
  have hperform : (UvCall.uvClose w.next).perform v.world =
      (⟨min (later w (j + 1)) 0, []⟩, (Fs.uvClose w.next v.world).2) := by
    rw [hworld]
    rfl
  have hclosed : ClosedOnce w (Fs.uvClose w.next v.world).2 := by
    rw [hworld]
    exact Fs.closedOnce_uvClose rfl rfl
  have horder := noReadAfterClose_append hasked w.next
  have hask : (ask (.uvClose w.next) ReadCallback.closed v).world = v.world := rfl
  simp only [settled, hask, hperform, readHandler]
  rw [ends_iff_of_stuck (stuck_iff.mpr rfl)]
  by_cases hneg : later w (j + 1) < 0
  · have hmin : min (later w (j + 1)) 0 = later w (j + 1) := Int.min_eq_left (Int.le_of_lt hneg)
    rw [hmin]
    -- a `close` that fails is a failed step, so no more is asked of the data
    refine iff_of_true ⟨⟨some v.vars.buffers.flatten, ?_, fun hnone => ?_⟩, hclosed, horder⟩
      (.inr hneg)
    · simp [Reply.err, hcalled, hfailure, hneg]
    · simp [hfailure, hneg] at hnone
  · have hmin : min (later w (j + 1)) 0 = 0 := Int.min_eq_right (Int.not_lt.mp hneg)
    rw [hmin, or_iff_left hneg]
    constructor
    · rintro ⟨⟨data, hdata, hwhole⟩, -, -⟩
      obtain ⟨content', hfile', rfl⟩ := hwhole (by simp [hfailure])
      obtain rfl : content = content' := Option.some.inj (hfile.symm.trans hfile')
      rw [called_callBack, called_ask, hcalled] at hdata
      exact Option.some.inj (Prod.mk.inj (List.cons.inj hdata).1).2
    · intro hflat
      refine ⟨⟨some v.vars.buffers.flatten, ?_, fun _ => ⟨content, hfile, congrArg some hflat⟩⟩,
        hclosed, horder⟩
      simp [Reply.err, hcalled, hfailure]

/-- The last read: the descriptor is closed, and the callback called. -/
theorem ends_read_last (h : Reading w path content j t) (hfile : w.files path = some content)
    (hr : 0 ≤ later w j) (hend : ¬ ReadsOn (later w) content.length j) :
    Ends (step readHandler) (ReadReport w path) (read t) ↔
      position (later w) content.length j = content.length ∨ later w (j + 1) < 0 := by
  have hperform := perform_read hfile hr
  have hlen := Fs.length_readBytes content (position (later w) content.length j) (later w j)
  have hle := Fs.position_le (later w) content.length j
  rw [ReadsOn, not_and_or] at hend
  -- nothing is read: the read is told so, or the file ends here
  have hnone : readBytes content (position (later w) content.length j) (later w j) = [] := by
    rw [← List.length_eq_zero_iff, hlen]
    omega
  rw [hnone] at hperform
  rw [ends_read h]
  simp only [settled, h.world, hperform, readHandler]
  rw [afterRead_zero rfl, close, h.fd, ends_single rfl]
  let v : ReadTask := { t with
    world := reading (opening w path) w.next path (position (later w) content.length (j + 1))
      (w.calls + 1 + (j + 1))
    pending := []
    asked := t.asked ++ [.uvRead w.next 1023 (-1)]
    failure := t.failure.or none }
  refine (report_iff (v := v) hfile rfl h.called (by simp [v, h.failure])
    fun call hmem => ?_).trans ?_
  · rcases List.mem_append.mp hmem with hmem | hmem
    · exact h.asked call hmem
    · rw [List.mem_singleton.mp hmem]
      rfl
  · show t.vars.buffers.flatten = content ∨ _ ↔ _
    rw [h.buffers, Fs.take_eq_self_iff hle]

end stages

/-! ### The whole function -/

section whole

variable {w : World} {path : String} {content : Bytes}

/-- The reads that go on lead to the first one that does not. -/
theorem ends_reads (hfile : w.files path = some content) {k : Nat}
    (hon : ∀ j < k, ReadsOn (later w) content.length j) {t : ReadTask}
    (h : Reading w path content 0 t) (good : ReadTask → Prop) :
    ∃ u, Reading w path content k u ∧
      (Ends (step readHandler) good (read t) ↔ Ends (step readHandler) good (read u)) := by
  induction k with
  | zero => exact ⟨t, h, .rfl⟩
  | succ k ih =>
      obtain ⟨u, hu, hiff⟩ := ih fun j hj => hon j (Nat.lt_succ_of_lt hj)
      obtain ⟨v, hv, hiff'⟩ := ends_read_on hu hfile (hon k (Nat.lt_succ_self k)) good
      exact ⟨v, hv, hiff.trans hiff'⟩

/-- The condition, at the first read that does not go on. -/
theorem readFileHolds_iff {k : Nat} (hopens : Opens w path) (hfile : w.files path = some content)
    (hon : ∀ j < k, ReadsOn (later w) content.length j)
    (hend : ¬ ReadsOn (later w) content.length k) :
    ReadFileHolds w path ↔ 0 ≤ later w k ∧
      (position (later w) content.length k = content.length ∨ later w (k + 1) < 0) := by
  have hle := Fs.position_le (later w) content.length k
  constructor
  · rintro (hfails | ⟨content', hfile', k', hon', hr, hlast⟩)
    · exact absurd hopens hfails
    · obtain rfl : content = content' := Option.some.inj (hfile.symm.trans hfile')
      -- the last read does not go on either
      have hend' : ¬ ReadsOn (later w) content.length k' := by
        rw [ReadsOn]
        omega
      have hkk' : k' = k := by
        rcases Nat.lt_trichotomy k' k with hlt | heq | hgt
        · exact absurd (hon k' hlt) hend'
        · exact heq
        · exact absurd (hon' k hgt) hend
      subst hkk'
      exact ⟨hr, hlast.imp_right And.right⟩
  · rintro ⟨hr, hlast⟩
    refine .inr ⟨content, hfile, k, hon, hr, ?_⟩
    by_cases hwhole : position (later w) content.length k = content.length
    · exact .inl hwhole
    · rw [ReadsOn] at hend
      exact .inr ⟨by omega, hlast.resolve_left hwhole⟩

theorem readFile_pending (w : World) (path : String) : (readFile w path).pending =
    [⟨.uvOpen path [.O_RDONLY], ReadCallback.opened, none⟩] := rfl

/-- After `open` the first read is asked for. -/
theorem ends_opened (hopens : Opens w path) (good : ReadTask → Prop) :
    ∃ t, Reading w path content 0 t ∧
      (Ends (step readHandler) good (readFile w path) ↔ Ends (step readHandler) good (read t)) := by
  let t : ReadTask := { readFile w path with
    world := reading (opening w path) w.next path 0 (w.calls + 1)
    vars := ⟨w.next, []⟩
    pending := [] }
  have hreading : Reading w path content 0 t := ⟨rfl, rfl, rfl, rfl, rfl, rfl, fun call hmem => by
    rw [List.mem_singleton.mp hmem]
    rfl⟩
  have hneg : ¬ (w.next : Int) < 0 := Int.not_lt.mpr (Int.natCast_nonneg _)
  have hperform : (UvCall.uvOpen path [.O_RDONLY]).perform (readFile w path).world =
      (⟨w.next, []⟩, reading (opening w path) w.next path 0 (w.calls + 1)) := by
    show (UvCall.uvOpen path [.O_RDONLY]).perform w = _
    simp only [UvCall.perform, Fs.uvOpen_read hopens]
  have hopened : settled readHandler (.uvOpen path [.O_RDONLY]) .opened (readFile w path) =
      read t := by
    simp only [settled, hperform, readHandler, Reply.err, hneg, if_false]
    rfl
  refine ⟨t, hreading, ?_⟩
  rw [ends_single (readFile_pending w path), hopened]

/-- The error of `open` is passed on. -/
theorem ends_not_opened (hopens : ¬ Opens w path) :
    Ends (step readHandler) (ReadReport w path) (readFile w path) := by
  obtain ⟨err, herr, huv⟩ := Fs.uvOpen_read_error hopens
  have hperform : (UvCall.uvOpen path [.O_RDONLY]).perform (readFile w path).world =
      (⟨err, []⟩, { w with calls := w.calls + 1 }) := by
    show (UvCall.uvOpen path [.O_RDONLY]).perform w = _
    simp only [UvCall.perform, huv]
  rw [ends_single (readFile_pending w path)]
  simp only [settled, hperform, readHandler, Reply.err, herr, if_true, Option.isSome_some]
  rw [ends_iff_of_stuck (stuck_iff.mpr rfl)]
  refine ⟨⟨none, rfl, fun hnone => ?_⟩, Fs.closedOnce_same rfl rfl, trivial⟩
  exact absurd hnone (Option.some_ne_none _)

/-- In every run, `readFile` reports once and truthfully and closes what it opened, exactly where
the file cannot be opened, or no read fails. -/
theorem readFile_iff (w : World) (path : String) :
    Ends (step readHandler) (ReadReport w path) (readFile w path) ↔ ReadFileHolds w path := by
  by_cases hopens : Opens w path
  · obtain ⟨content, hfile⟩ := Option.ne_none_iff_exists'.mp hopens.2
    obtain ⟨k, hon, hend⟩ := Fs.exists_not_readsOn (later w) content.length
    obtain ⟨t, hreading, hopened⟩ := ends_opened hopens (ReadReport w path)
    obtain ⟨u, hu, hreads⟩ := ends_reads hfile hon hreading (ReadReport w path)
    rw [hopened, hreads, readFileHolds_iff hopens hfile hon hend]
    by_cases hr : 0 ≤ later w k
    · rw [ends_read_last hu hfile hr hend, and_iff_right hr]
    · exact iff_of_false (not_ends_read hu (Int.not_le.mp hr)) fun h => hr h.1
  · exact iff_of_true (ends_not_opened hopens) (.inl hopens)

/-- A read fails, and the callback is called twice, without an error. -/
theorem readFile_calls_twice : ¬ ∀ (w : World) (path : String),
    Ends (step readHandler) (ReadReport w path) (readFile w path) := by
  intro hall
  let moves : List Move := [.perform 0, .deliver 0, .perform 0, .deliver 0, .perform 0, .perform 1,
    .deliver 0, .deliver 0]
  obtain ⟨t, hrun, hend⟩ := Option.any_eq_true .. |>.mp
    (show (run (step readHandler) (readFile (Fs.disk [0, -5]) "/a") moves).any (fun t =>
      t.pending.isEmpty && t.called == [(none, none), (none, some [])]) = true by decide)
  simp only [Bool.and_eq_true, List.isEmpty_iff, beq_iff_eq] at hend
  have hreport := (ends_iff_of_stuck (stuck_iff.mpr hend.1)).mp
    ((hall (Fs.disk [0, -5]) "/a").of_run hrun)
  obtain ⟨data, hdata, -⟩ := hreport.reported
  rw [hend.2] at hdata
  exact absurd (congrArg List.length hdata) (Nat.succ_ne_self 1)

end whole

end FsFiles

end IotJs

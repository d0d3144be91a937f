import IotJs.Proofs.FsFailures
import IotJs.Proofs.FsTasks

/-!
# `IotJs.Proofs.FsWriteFile`: what `writeFile` reports

`Writing` is the task between two writes, as `Reading` is for `readFile`, and the first write that
does not go on decides. A piece that the checks reject is an exception in a callback, and `callback`
is never called (`not_ends_rejected`); the first piece of empty data is one. A write of no bytes
closes the descriptor without an error. After a write that fails `afterWrite` closes the descriptor
and does not return: the number of bytes becomes NaN, and a write at that offset follows, which the
checks let through. Once the descriptor is closed it fails too, and the descriptor is closed again
(`not_ends_write`). `writeFile_iff` puts the cases together.
-/

set_option autoImplicit false

namespace IotJs

namespace FsFiles

open Runs
open Fs (FsError later written Fits writing opening ClosedOnce toInt rangeError)

/-- What `writeFile` should have done at its end. -/
structure WriteReport (w : World) (path : String) (data : Bytes) (t : WriteTask) : Prop where
  /-- the callback was called once, and without an error only where no step failed and all of the
  data is in the file -/
  reported : ∃ err, t.called = [(err, none)] ∧
    (err = none → t.failure = none ∧ t.world.files path = some data)
  closed : ClosedOnce w t.world

/-- The file cannot be opened; or the pieces fit and every write moves some bytes until all of the
data is written, or until a write of no bytes that is followed by a `close` that fails. -/
def WriteFileHolds (w : World) (data : Bytes) : Prop :=
  w.results w.calls < 0 ∨ ∃ k,
    (∀ j < k, Fits data.length (written (later w) data.length j) ∧ 0 < later w j) ∧
    Fits data.length (written (later w) data.length k) ∧
      (0 < later w k ∧ written (later w) data.length (k + 1) = data.length ∨
        later w k = 0 ∧ later w (k + 1) < 0)

variable {host : Host} {data : Bytes}

theorem adds_write (t : WriteTask) : Adds .opened t (write host data t) := by
  simp only [write]
  exact adds_askIf _ (by decide) rfl t

/-- The callbacks of `writeFile` but the first ask for no `open`. -/
theorem adds_writeHandler (callback : WriteCallback) (reply : Reply) (t : WriteTask)
    (hcallback : callback ≠ .opened) :
    Adds .opened t (writeHandler host data callback reply t) := by
  have hsame : ∀ t u : WriteTask, u.world = t.world → u.pending = t.pending → Adds .opened t u :=
    fun t u hworld hpending => ⟨hworld, [], hpending.trans (List.append_nil _).symm, nofun⟩
  have hclose : ∀ t : WriteTask, Adds .opened t (ask (.uvClose t.vars.fd) .closed t) :=
    fun t => adds_ask (by decide) rfl t
  cases callback with
  | opened => exact absurd rfl hcallback
  | closed => exact hsame _ _ rfl rfl
  | afterWrite =>
      -- the `close` after an error, and then the rest of `afterWrite` all the same
      have hfirst : Adds .opened t
          (if reply.err.isSome then ask (.uvClose t.vars.fd) .closed t else t) := by
        by_cases herr : reply.err.isSome = true
        · rw [if_pos herr]
          exact hclose t
        · rw [if_neg herr]
          exact .refl t
      have hrest : ∀ (t : WriteTask) (n sum : Option Nat), Adds .opened t
          (if n = some 0 ∨ sum = some data.length then ask (.uvClose t.vars.fd) .closed t
          else write host data { t with vars := { t.vars with bytesWritten := sum } }) := by
        intro t n sum
        by_cases hend : n = some 0 ∨ sum = some data.length
        · rw [if_pos hend]
          exact hclose t
        · rw [if_neg hend]
          exact (hsame t { t with vars := { t.vars with bytesWritten := sum } } rfl rfl).trans
            (adds_write _)
      exact hfirst.trans (hrest _ _ _)

section stages

variable {w : World} {path : String} {j : Nat} {t : WriteTask}

/-- The task when it is going to make the write number `j`. -/
structure Writing (w : World) (path : String) (data : Bytes) (j : Nat) (t : WriteTask) :
    Prop where
  pending : t.pending = []
  world : t.world = writing (opening w path) path data (written (later w) data.length j)
    (w.calls + 1 + j)
  fd : t.vars.fd = w.next
  bytesWritten : t.vars.bytesWritten = some (written (later w) data.length j)
  called : t.called = []
  failure : t.failure = none

/-- The piece that is written next. -/
def next (w : World) (data : Bytes) (j : Nat) : UvCall :=
  .uvWrite w.next ((data.drop (written (later w) data.length j)).take
    (Fs.tryN (data.length - written (later w) data.length j))) (written (later w) data.length j)

theorem write_fits (h : Writing w path data j t)
    (hfits : Fits data.length (written (later w) data.length j)) :
    write host data t = ask (next w data j) .afterWrite t := by
  have hpiece : ∀ offset length : Nat,
      host.piece data offset length = (data.drop offset).take length := fun offset length =>
    if_pos ⟨Int.natCast_nonneg offset, Int.natCast_nonneg length⟩
  simp only [write, h.bytesWritten, Option.map_some, Host.int, Fs.rangeError_fits "Write" hfits,
    hpiece, h.fd, askIf_none]
  rfl

/-- A piece that the checks reject: the exception ends the chain. -/
theorem not_ends_rejected (h : Writing w path data j t)
    (hfits : ¬ Fits data.length (written (later w) data.length j)) :
    ¬ Ends (step (writeHandler host data)) (WriteReport w path data) (write host data t) := by
  obtain ⟨e, he⟩ := Fs.rangeError_not_fits "Write" hfits
  have hstuck : Stuck (step (writeHandler host data)) { t with thrown := t.thrown ++ [e] } :=
    stuck_iff.mpr h.pending
  simp only [write, h.bytesWritten, Option.map_some, Host.int, he, askIf_some]
  -- no call waits any more, so nothing can call back
  rw [ends_iff_of_stuck hstuck]
  intro hreport
  obtain ⟨err, hcalled, -⟩ := hreport.reported
  have hnone : t.called = [(err, none)] := hcalled
  rw [h.called] at hnone
  cases hnone

theorem afterWrite_error {reply : Reply} (hneg : reply.result < 0) :
    afterWrite host data reply t =
      let u := ask (.uvClose t.vars.fd) .closed t
      write host data { u with vars := { u.vars with bytesWritten := none } } := by
  have herr : reply.err.isSome = true := by
    rw [Reply.err, if_pos hneg]
    rfl
  -- `AfterAsync` passes the error alone, and a number plus `undefined` is NaN
  have hsum : (t.vars.bytesWritten.bind fun bytesWritten =>
      (none : Option Nat).map fun n => bytesWritten + n) = none := by
    cases t.vars.bytesWritten <;> rfl
  simp only [afterWrite, herr, if_true, vars_ask, hsum]
  rw [if_neg (by simp)]

theorem afterWrite_zero {reply : Reply} (hzero : reply.result = 0) :
    afterWrite host data reply t = ask (.uvClose t.vars.fd) .closed t := by
  have herr : reply.err = none := if_neg (by omega)
  simp only [afterWrite, herr, hzero, Option.isSome_none, Bool.false_eq_true, if_false,
    Int.toNat_zero, true_or, if_true]

theorem afterWrite_more {reply : Reply} {offset n : Nat} (hn : reply.result = n) (hpos : 0 < n)
    (hoffset : t.vars.bytesWritten = some offset) : afterWrite host data reply t =
      if offset + n = data.length then ask (.uvClose t.vars.fd) .closed t
      else
        write host data { t with vars := { t.vars with bytesWritten := some (offset + n) } } := by
  have herr : reply.err = none := if_neg (by omega)
  have hne : n ≠ 0 := by omega
  simp only [afterWrite, herr, hn, hoffset, Option.isSome_none, Bool.false_eq_true, if_false,
    Int.toNat_natCast, Option.bind_some, Option.map_some, Option.some.injEq, hne, false_or]

/-- A write that succeeds. -/
theorem perform_write (path : String) (hr : 0 ≤ later w j) :
    (next w data j).perform (writing (opening w path) path data (written (later w) data.length j)
        (w.calls + 1 + j)) =
      (⟨(min (later w j).toNat
          (Fs.tryN (data.length - written (later w) data.length j)) : Nat), []⟩,
        writing (opening w path) path data (written (later w) data.length (j + 1))
          (w.calls + 1 + (j + 1))) := by
  have hcall : 0 ≤ (opening w path).results (w.calls + 1 + j) := hr
  have huv := Fs.uvWrite_ok (Fs.tryN (data.length - written (later w) data.length j))
    (Fs.opening_fds w path) (Fs.written_le (later w) data.length j) hcall
  rw [min_eq_left (Fs.tryN_le _)] at huv
  simp only [next, UvCall.perform, huv]
  rfl

/-- A write that fails. -/
theorem perform_write_error (path : String) (hr : later w j < 0) :
    (next w data j).perform (writing (opening w path) path data (written (later w) data.length j)
        (w.calls + 1 + j)) =
      (⟨later w j, []⟩, writing (opening w path) path data (written (later w) data.length j)
          (w.calls + 1 + (j + 1))) := by
  have hcall : (opening w path).results (w.calls + 1 + j) < 0 := hr
  have huv := Fs.uvWrite_error data
    ((data.drop (written (later w) data.length j)).take
      (Fs.tryN (data.length - written (later w) data.length j)))
    (written (later w) data.length j) (Fs.opening_fds w path) hcall
  simp only [next, UvCall.perform, huv]
  rfl

/-- The next step after a write was asked for. -/
theorem ends_write (h : Writing w path data j t)
    (hfits : Fits data.length (written (later w) data.length j)) {good : WriteTask → Prop} :
    Ends (step (writeHandler host data)) good (write host data t) ↔
      Ends (step (writeHandler host data)) good
        (settled (writeHandler host data) (next w data j) .afterWrite
          { t with asked := t.asked ++ [next w data j] }) := by
  have hpending : (write host data t).pending = [⟨next w data j, .afterWrite, none⟩] := by
    rw [write_fits h hfits]
    show t.pending ++ _ = _
    rw [h.pending]
    rfl
  rw [ends_single hpending, write_fits h hfits]
  rfl

theorem lt_of_fits {length offset : Nat} (hfits : Fits length offset) : offset < length := by
  have hle := Fs.toInt_le length
  have hlt := hfits.1
  omega

/-- A piece that fits is not empty, and a write that moves some bytes gets further. -/
theorem lt_written_succ {r : Nat → Int} {length : Nat} (hfits : Fits length (written r length j))
    (hr : 0 < r j) : written r length j < written r length (j + 1) := by
  have hlt := lt_of_fits hfits
  have hrest : 0 < length - written r length j := by omega
  have htry := Fs.tryN_pos hrest
  rw [written]
  omega

/-- How many bytes the write number `j` moves. -/
def moved (w : World) (data : Bytes) (j : Nat) : Nat :=
  min (later w j).toNat (Fs.tryN (data.length - written (later w) data.length j))

/-- The task when the write number `j` has succeeded. -/
def landed (w : World) (path : String) (data : Bytes) (j : Nat) (t : WriteTask) : WriteTask :=
  { t with
    world := writing (opening w path) path data (written (later w) data.length (j + 1))
      (w.calls + 1 + (j + 1))
    pending := []
    asked := t.asked ++ [next w data j] }

theorem ends_write_ok (h : Writing w path data j t)
    (hfits : Fits data.length (written (later w) data.length j)) (hr : 0 ≤ later w j)
    {good : WriteTask → Prop} :
    Ends (step (writeHandler host data)) good (write host data t) ↔
      Ends (step (writeHandler host data)) good
        (afterWrite host data ⟨(moved w data j : Nat), []⟩ (landed w path data j t)) := by
  have hneg : ¬ ((moved w data j : Nat) : Int) < 0 := Int.not_lt.mpr (Int.natCast_nonneg _)
  rw [moved] at hneg
  rw [ends_write h hfits, landed, moved]
  simp only [settled, h.world, perform_write path hr, writeHandler, hneg, if_false, Option.or_none]

/-- A write that leaves something to write leads to the next one. -/
theorem ends_write_on (h : Writing w path data j t)
    (hfits : Fits data.length (written (later w) data.length j)) (hr : 0 < later w j)
    (hmore : written (later w) data.length (j + 1) ≠ data.length) (good : WriteTask → Prop) :
    ∃ u, Writing w path data (j + 1) u ∧
      (Ends (step (writeHandler host data)) good (write host data t) ↔
        Ends (step (writeHandler host data)) good (write host data u)) := by
  have hfar := lt_written_succ hfits hr
  have hnext : written (later w) data.length (j + 1) =
      written (later w) data.length j + moved w data j := rfl
  rw [hnext] at hfar
  refine ⟨{ landed w path data j t with
    vars := { t.vars with bytesWritten := some (written (later w) data.length j + moved w data j) }
    }, ⟨rfl, rfl, h.fd, rfl, h.called, h.failure⟩, ?_⟩
  rw [ends_write_ok h hfits (Int.le_of_lt hr), afterWrite_more (t := landed w path data j t) rfl
    (by omega) h.bytesWritten, ← hnext, if_neg hmore]
  rfl

/-- The descriptor is closed, and `writeFile` is done. -/
theorem write_report_iff {v : WriteTask} {offset : Nat} (hoffset : offset ≤ data.length)
    (hworld : v.world = writing (opening w path) path data offset (w.calls + 1 + (j + 1)))
    (hcalled : v.called = []) (hfailure : v.failure = none) :
    Ends (step (writeHandler host data)) (WriteReport w path data)
        (settled (writeHandler host data) (.uvClose w.next) .closed
          (ask (.uvClose w.next) .closed v)) ↔
      offset = data.length ∨ later w (j + 1) < 0 := by
  have hperform : (UvCall.uvClose w.next).perform v.world =
      (⟨min (later w (j + 1)) 0, []⟩, (Fs.uvClose w.next v.world).2) := by
    rw [hworld]
    rfl
  have hclosed : ClosedOnce w (Fs.uvClose w.next v.world).2 := by
    rw [hworld]
    exact Fs.closedOnce_uvClose rfl rfl
  have hfile : (Fs.uvClose w.next v.world).2.files path = some (data.take offset) := by
    rw [hworld]
    exact Function.update_self ..
  simp only [settled, world_ask, hperform, writeHandler]
  rw [ends_iff_of_stuck (stuck_iff.mpr rfl)]
  by_cases hneg : later w (j + 1) < 0
  · have hmin : min (later w (j + 1)) 0 = later w (j + 1) := Int.min_eq_left (Int.le_of_lt hneg)
    rw [hmin]
    -- the error of `close` reaches the callback, which then says nothing of the file
    refine iff_of_true ⟨⟨some (.uv (later w (j + 1)) "open"), ?_, nofun⟩, hclosed⟩ (.inr hneg)
    simp [Reply.err, hcalled, hneg]
  · have hmin : min (later w (j + 1)) 0 = 0 := Int.min_eq_right (Int.not_lt.mp hneg)
    rw [hmin, or_iff_left hneg, ← Fs.take_eq_self_iff hoffset]
    constructor
    · rintro ⟨⟨err, hcall, hwhole⟩, -⟩
      rw [called_callBack, called_ask, hcalled] at hcall
      have herr : err = none := (Prod.mk.inj (List.cons.inj hcall).1).1.symm
      exact Option.some.inj (hfile.symm.trans (hwhole herr).2)
    -- no step has failed, so the callback gets no error
    · intro htake
      refine ⟨⟨none, ?_, fun _ => ⟨?_, hfile.trans (congrArg some htake)⟩⟩, hclosed⟩
      · simp [Reply.err, hcalled]
      · simp [hfailure]

/-- The last write: the descriptor is closed, and the callback called. -/
theorem ends_write_last (h : Writing w path data j t)
    (hfits : Fits data.length (written (later w) data.length j)) (hr : 0 ≤ later w j)
    (hlast : later w j = 0 ∨ written (later w) data.length (j + 1) = data.length) :
    Ends (step (writeHandler host data)) (WriteReport w path data) (write host data t) ↔
      written (later w) data.length (j + 1) = data.length ∨ later w (j + 1) < 0 := by
  have hnext : written (later w) data.length (j + 1) =
      written (later w) data.length j + moved w data j := rfl
  have hclose : afterWrite host data ⟨(moved w data j : Nat), []⟩ (landed w path data j t) =
      ask (.uvClose w.next) .closed (landed w path data j t) := by
    by_cases hzero : moved w data j = 0
    · rw [afterWrite_zero (congrArg Int.ofNat hzero)]
      exact congrArg (fun fd => ask (.uvClose fd) _ _) h.fd
    · rcases hlast with hr0 | hlast
      · exact absurd (by rw [moved, hr0]; exact Nat.zero_min _) hzero
      · rw [afterWrite_more (t := landed w path data j t) rfl (Nat.pos_of_ne_zero hzero)
          h.bytesWritten, ← hnext, if_pos hlast]
        exact congrArg (fun fd => ask (.uvClose fd) _ _) h.fd
  rw [ends_write_ok h hfits hr, hclose, ends_single rfl]
  exact write_report_iff (Fs.written_le (later w) data.length (j + 1)) rfl h.called h.failure

/-- A write at NaN passes the checks. -/
theorem write_nan (hlength : 0 < toInt data.length) (hnan : t.vars.bytesWritten = none) :
    write host data t = ask (.uvWrite t.vars.fd (host.piece data host.nan host.nan) host.nan)
      .afterWrite t := by
  have hnone : rangeError "Write" host.nan host.nan data.length = none := by
    -- the `int` made of NaN is 0 or the least one, and twice either is 0
    have hsum : toInt (host.nan + host.nan) = 0 := by
      rcases host.nan_eq with hzero | hmin
      · rw [hzero]
        decide
      · rw [hmin, toInt, Int.bmod_def]
        omega
    have hle : host.nan ≤ 0 := by
      rcases host.nan_eq with hzero | hmin <;> omega
    rw [rangeError, if_neg (by omega), if_neg (by omega), if_neg (by omega)]
  simp only [write, hnan, Option.map_none, Host.int, hnone, askIf_none]

/-- With a `close` that waits, a write at NaN ends in another `close`. -/
theorem not_ends_nan {u : WriteTask} (hlength : 0 < toInt data.length)
    (hpending : u.pending = [⟨.uvClose w.next, .closed, none⟩])
    (hnan : u.vars.bytesWritten = none) (hfd : u.vars.fd = w.next)
    (hopened : u.world.opened.length = w.opened.length + 1)
    (hclosed : u.world.closed.length = w.closed.length) :
    ¬ Ends (step (writeHandler host data)) (WriteReport w path data) (write host data u) := by
  rw [write_nan hlength hnan, hfd]
  intro hends
  let call : UvCall := .uvWrite w.next (host.piece data host.nan host.nan) host.nan
  let closed := Fs.uvClose w.next u.world
  let waiting : Request WriteCallback := ⟨.uvClose w.next, .closed, some ⟨closed.1, []⟩⟩
  -- the descriptor is closed, then the write fails, and its callback is called first
  let s₁ : WriteTask := { ask call .afterWrite u with
    world := closed.2
    pending := [waiting, ⟨call, .afterWrite, none⟩] }
  let s₂ : WriteTask := { s₁ with
    world := { closed.2 with calls := closed.2.calls + 1 }
    pending := [waiting, ⟨call, .afterWrite, some ⟨Fs.ebadf, []⟩⟩] }
  have h₁ : step (writeHandler host data) (ask call .afterWrite u) (.perform 0) = some s₁ := by
    simp [step, ask, hpending, s₁, call, waiting, closed, UvCall.perform]
  have hbad : closed.2.fds w.next = none := Function.update_self ..
  have h₂ : step (writeHandler host data) s₁ (.perform 1) = some s₂ := by
    simp [step, s₁, s₂, call, UvCall.perform, Fs.uvWrite, hbad]
  let s₃ : WriteTask := { s₂ with
    pending := [waiting]
    failure := u.failure.or (some Fs.ebadf) }
  have h₃ : step (writeHandler host data) s₂ (.deliver 1) =
      some (afterWrite host data ⟨Fs.ebadf, []⟩ s₃) := by
    have hneg : Fs.ebadf < 0 := by decide
    simp only [step, s₂, List.getElem?_cons_succ, List.getElem?_cons_zero, afterAsync, hneg,
      if_true, writeHandler]
    rfl
  -- from here on two calls of `close` are made, in whatever order the rest comes
  refine not_ends_of_doubled w .opened adds_writeHandler (fun t ht => ?_) ?_
    (((hends.of_step h₁).of_step h₂).of_step h₃)
  · obtain ⟨fds, -, hopened, hclosed⟩ := ht.closed
    rw [hopened, hclosed, List.length_append, List.length_append]
    omega
  · let v : WriteTask := { ask (.uvClose u.vars.fd) .closed s₃ with
      vars := { u.vars with bytesWritten := none } }
    rw [afterWrite_error (by decide)]
    refine Doubled.adds (t := v) ⟨fun request hmem => ?_, hopened, ?_⟩ (adds_write v)
    · rcases List.mem_cons.mp hmem with rfl | hmem
      · exact ⟨WriteCallback.noConfusion, rfl⟩
      · rw [List.mem_singleton.mp hmem]
        exact ⟨WriteCallback.noConfusion, rfl⟩
    · show w.closed.length + 2 ≤ (u.world.closed ++ [w.next]).length + 1
      rw [List.length_append, hclosed]
      exact Nat.le_refl _

/-- The descriptor is closed twice after a write that fails. -/
theorem not_ends_write (h : Writing w path data j t)
    (hfits : Fits data.length (written (later w) data.length j)) (hr : later w j < 0) :
    ¬ Ends (step (writeHandler host data)) (WriteReport w path data) (write host data t) := by
  rw [ends_write h hfits]
  simp only [settled, h.world, perform_write_error path hr, writeHandler]
  rw [afterWrite_error hr]
  refine not_ends_nan (Int.lt_of_le_of_lt (Int.natCast_nonneg _) hfits.1) ?_ rfl h.fd ?_ rfl
  · simp only [ask, h.fd]
    rfl
  · show (w.opened ++ [w.next]).length = _
    rw [List.length_append]
    rfl

end stages

/-! ### The whole function -/

section whole

variable {w : World} {path : String} {k : Nat}

/-- A write that moves some bytes and leaves something to write. -/
def GoesOn (r : Nat → Int) (length j : Nat) : Prop :=
  Fits length (written r length j) ∧ 0 < r j ∧ written r length (j + 1) ≠ length

variable (host) in
/-- The writes that go on lead to the first one that does not. -/
theorem ends_writes (hon : ∀ j < k, GoesOn (later w) data.length j) {t : WriteTask}
    (h : Writing w path data 0 t) (good : WriteTask → Prop) :
    ∃ u, Writing w path data k u ∧
      (Ends (step (writeHandler host data)) good (write host data t) ↔
        Ends (step (writeHandler host data)) good (write host data u)) := by
  induction k with
  | zero => exact ⟨t, h, .rfl⟩
  | succ k ih =>
      obtain ⟨u, hu, hiff⟩ := ih fun j hj => hon j (Nat.lt_succ_of_lt hj)
      obtain ⟨hfits, hr, hmore⟩ := hon k (Nat.lt_succ_self k)
      obtain ⟨v, hv, hiff'⟩ := ends_write_on hu hfits hr hmore good
      exact ⟨v, hv, hiff.trans hiff'⟩

/-- The condition, at the first write that does not go on. -/
theorem writeFileHolds_iff (hopen : 0 ≤ w.results w.calls)
    (hon : ∀ j < k, GoesOn (later w) data.length j) (hend : ¬ GoesOn (later w) data.length k) :
    WriteFileHolds w data ↔ Fits data.length (written (later w) data.length k) ∧
      0 ≤ later w k ∧
      (written (later w) data.length (k + 1) = data.length ∨ later w (k + 1) < 0) := by
  -- nothing fits behind the last write
  have hnext : ∀ j, Fits data.length (written (later w) data.length (j + 1)) →
      written (later w) data.length (j + 1) ≠ data.length :=
    fun j hfits => Nat.ne_of_lt (lt_of_fits hfits)
  have hzero : later w k = 0 → written (later w) data.length (k + 1) =
      written (later w) data.length k := by
    intro hr
    rw [written, hr]
    omega
  constructor
  · rintro (hfails | ⟨k', hon', hfits, hlast⟩)
    · exact absurd hopen (Int.not_le.mpr hfails)
    · have hbefore : ∀ j < k', GoesOn (later w) data.length j := by
        intro j hj
        refine ⟨(hon' j hj).1, (hon' j hj).2, hnext j ?_⟩
        rcases Nat.lt_or_ge (j + 1) k' with hlt | hge
        · exact (hon' (j + 1) hlt).1
        · rw [Nat.le_antisymm hge hj] at hfits
          exact hfits
      have hend' : ¬ GoesOn (later w) data.length k' := by
        rintro ⟨-, hr, hmore⟩
        rcases hlast with ⟨-, hall⟩ | ⟨hr0, -⟩
        · exact hmore hall
        · omega
      obtain rfl : k' = k := by
        rcases Nat.lt_trichotomy k' k with hlt | heq | hgt
        · exact absurd (hon k' hlt) hend'
        · exact heq
        · exact absurd (hbefore k hgt) hend
      rcases hlast with ⟨hr, hall⟩ | ⟨hr, hclose⟩
      · exact ⟨hfits, Int.le_of_lt hr, .inl hall⟩
      · exact ⟨hfits, Int.le_of_eq hr.symm, .inr hclose⟩
  · rintro ⟨hfits, hr, hlast⟩
    refine .inr ⟨k, fun j hj => ⟨(hon j hj).1, (hon j hj).2.1⟩, hfits, ?_⟩
    have hlt := lt_of_fits hfits
    by_cases hpos : 0 < later w k
    · left
      by_contra hnot
      exact hend ⟨hfits, hpos, fun hall => hnot ⟨hpos, hall⟩⟩
    · have hr0 : later w k = 0 := by omega
      have hnext := hzero hr0
      exact .inr ⟨hr0, hlast.resolve_left (by omega)⟩

theorem writeFile_pending (w : World) (path : String) : (writeFile w path).pending =
    [⟨.uvOpen path [.O_TRUNC, .O_CREAT, .O_WRONLY], WriteCallback.opened, none⟩] := rfl

variable (host) in
/-- After `open` the first write is asked for. -/
theorem ends_write_opened (path : String) (hopen : 0 ≤ w.results w.calls) (good : WriteTask → Prop) :
    ∃ t, Writing w path data 0 t ∧
      (Ends (step (writeHandler host data)) good (writeFile w path) ↔
        Ends (step (writeHandler host data)) good (write host data t)) := by
  let t : WriteTask := { writeFile w path with
    world := writing (opening w path) path data 0 (w.calls + 1)
    vars := ⟨w.next, some 0⟩
    pending := [] }
  have hneg : ¬ (w.next : Int) < 0 := Int.not_lt.mpr (Int.natCast_nonneg _)
  have hperform : (UvCall.uvOpen path [.O_TRUNC, .O_CREAT, .O_WRONLY]).perform
      (writeFile w path).world =
        (⟨w.next, []⟩, writing (opening w path) path data 0 (w.calls + 1)) := by
    show (UvCall.uvOpen path [.O_TRUNC, .O_CREAT, .O_WRONLY]).perform w = _
    simp only [UvCall.perform, Fs.uvOpen_write path data hopen]
  have hopened : settled (writeHandler host data) (.uvOpen path [.O_TRUNC, .O_CREAT, .O_WRONLY])
      .opened (writeFile w path) = write host data t := by
    simp only [settled, hperform, writeHandler, Reply.err, hneg, if_false, Option.isSome_none,
      Bool.false_eq_true, Int.toNat_natCast]
    rfl
  refine ⟨t, ⟨rfl, rfl, rfl, rfl, rfl, rfl⟩, ?_⟩
  rw [ends_single (writeFile_pending w path), hopened]

variable (host data) in
/-- The error of `open` is passed on. -/
theorem ends_write_not_opened (path : String) (hneg : w.results w.calls < 0) :
    Ends (step (writeHandler host data)) (WriteReport w path data) (writeFile w path) := by
  have hperform : (UvCall.uvOpen path [.O_TRUNC, .O_CREAT, .O_WRONLY]).perform
      (writeFile w path).world = (⟨w.results w.calls, []⟩, { w with calls := w.calls + 1 }) := by
    show (UvCall.uvOpen path [.O_TRUNC, .O_CREAT, .O_WRONLY]).perform w = _
    simp only [UvCall.perform, Fs.uvOpen_error path _ hneg]
  rw [ends_single (writeFile_pending w path)]
  simp only [settled, hperform, writeHandler, Reply.err, hneg, if_true, Option.isSome_some]
  rw [ends_iff_of_stuck (stuck_iff.mpr rfl)]
  refine ⟨⟨_, rfl, fun hnone => ?_⟩, Fs.closedOnce_same rfl rfl⟩
  exact absurd hnone (Option.some_ne_none _)

/-- In every run, `writeFile` reports once and truthfully and closes what it opened, exactly where
the file cannot be opened, or every write moves some bytes until all of the data is written, or the
`close` after a write of no bytes fails. -/
theorem writeFile_iff (host : Host) (w : World) (path : String) (data : Bytes) :
    Ends (step (writeHandler host data)) (WriteReport w path data) (writeFile w path) ↔
      WriteFileHolds w data := by
  by_cases hopen : 0 ≤ w.results w.calls
  · have hgrows : ∀ j, GoesOn (later w) data.length j →
        written (later w) data.length j < written (later w) data.length (j + 1) :=
      fun j hon => lt_written_succ hon.1 hon.2.1
    have hbound : ∀ j, GoesOn (later w) data.length j →
        written (later w) data.length j < data.length := fun j hon => lt_of_fits hon.1
    -- the offset grows up to the length of the data, so some write does not go on
    obtain ⟨k, hon, hend⟩ := Progress.exists_first_of_lt_succ _ hgrows hbound
    obtain ⟨t, hwriting, hopened⟩ := ends_write_opened host path hopen (WriteReport w path data)
    obtain ⟨u, hu, hwrites⟩ := ends_writes host hon hwriting (WriteReport w path data)
    rw [hopened, hwrites, writeFileHolds_iff hopen hon hend]
    by_cases hfits : Fits data.length (written (later w) data.length k)
    · by_cases hr : 0 ≤ later w k
      · rw [ends_write_last hu hfits hr ?_, and_iff_right hfits, and_iff_right hr]
        by_contra hnot
        obtain ⟨hne, hmore⟩ := not_or.mp hnot
        exact hend ⟨hfits, lt_of_le_of_ne hr (Ne.symm hne), hmore⟩
      · exact iff_of_false (not_ends_write hu hfits (Int.not_le.mp hr)) fun h => hr h.2.1
    · exact iff_of_false (not_ends_rejected hu hfits) fun h => hfits h.1
  · have hneg := Int.not_le.mp hopen
    exact iff_of_true (ends_write_not_opened host data path hneg) (.inl hneg)

/-- A write moves no bytes, and the callback is called without an error. The write of empty data is
rejected, and the callback is not called. -/
theorem writeFile_hides : (¬ ∀ (host : Host) (w : World) (path : String) (data : Bytes),
      Ends (step (writeHandler host data)) (WriteReport w path data) (writeFile w path)) ∧
    ∀ host : Host, ∃ t, run (step (writeHandler host [])) (writeFile (Fs.disk [0]) "/a")
      [.perform 0, .deliver 0] = some t ∧ t.pending = [] ∧ t.called = [] := by
  refine ⟨fun hall => ?_, fun host => ⟨_, rfl, rfl, rfl⟩⟩
  let host : Host := ⟨0, .inl rfl, fun _ _ => []⟩
  let moves : List Move := [.perform 0, .deliver 0, .perform 0, .deliver 0, .perform 0, .deliver 0]
  obtain ⟨t, hrun, hend⟩ := Option.any_eq_true .. |>.mp
    (show (run (step (writeHandler host [8])) (writeFile (Fs.disk [0, 0, 0]) "/a") moves).any
      (fun t => t.pending.isEmpty && t.called == [(none, none)] &&
        t.world.files "/a" == some []) = true by decide)
  simp only [Bool.and_eq_true, List.isEmpty_iff, beq_iff_eq] at hend
  obtain ⟨⟨hpending, hcalled⟩, hfile⟩ := hend
  have hreport := (ends_iff_of_stuck (stuck_iff.mpr hpending)).mp
    ((hall host (Fs.disk [0, 0, 0]) "/a" [8]).of_run hrun)
  obtain ⟨err, hone, hwhole⟩ := hreport.reported
  rw [hcalled] at hone
  have herr : err = none := (Prod.mk.inj (List.cons.inj hone).1).1.symm
  have hbytes := Option.some.inj (hfile.symm.trans (hwhole herr).2)
  cases hbytes

end whole

end FsFiles

end IotJs

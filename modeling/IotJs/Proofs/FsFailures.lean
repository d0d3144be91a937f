import IotJs.Proofs.FsLoops
import Mathlib.Data.List.Nodup

/-!
# `IotJs.Proofs.FsFailures`: the failures of `readFileSync` and `writeFileSync`

Both loops meet an exception with `catch (e) { break; }`, so a call that fails ends them as the end
of the file does, and what was read or written until then is returned. A write that is told to
move no bytes is made again, for ever. `fails_iff` gives the conditions under which neither
happens. `readFile` and `writeFile` of the same module do pass the error on.
-/

set_option autoImplicit false

namespace IotJs.Fs

/-- With enough fuel the outcome is always the same, and a good one. -/
def TerminatesWith {α : Type} (p : Nat → Sync α) (w : World)
    (good : EStateM.Result FsError World α → Prop) : Prop :=
  ∃ enough out, (∀ fuel, enough ≤ fuel → (p fuel).run w = out) ∧ good out

theorem terminatesWith_iff {α : Type} {p : Nat → Sync α} {w : World}
    {good : EStateM.Result FsError World α → Prop} {enough : Nat}
    {out : EStateM.Result FsError World α} (hout : ∀ fuel, enough < fuel → (p fuel).run w = out) :
    TerminatesWith p w good ↔ good out := by
  constructor
  · rintro ⟨enough', out', hout', hgood⟩
    -- both outcomes are the one of a run with fuel enough for either
    have hsame := hout (max (enough + 1) enough') (by omega)
    rw [hout' _ (Nat.le_max_right (enough + 1) enough')] at hsame
    exact hsame ▸ hgood
  · intro hgood
    exact ⟨enough + 1, out, fun fuel hfuel => hout fuel hfuel, hgood⟩

/-- Each descriptor that was opened was closed, once. -/
def ClosedOnce (w w' : World) : Prop :=
  ∃ fds : List Nat, fds.Nodup ∧ w'.opened = w.opened ++ fds ∧ w'.closed = w.closed ++ fds

theorem closedOnce_same {w w' : World} (hopened : w'.opened = w.opened)
    (hclosed : w'.closed = w.closed) : ClosedOnce w w' :=
  ⟨[], List.nodup_nil, hopened.trans (List.append_nil _).symm,
    hclosed.trans (List.append_nil _).symm⟩

/-- The one descriptor that was opened is closed. -/
theorem closedOnce_uvClose {w w' : World} {fd : Nat} (hopened : w'.opened = w.opened ++ [fd])
    (hclosed : w'.closed = w.closed) : ClosedOnce w (uvClose fd w').2 :=
  ⟨[fd], List.nodup_singleton fd, hopened, congrArg (· ++ [fd]) hclosed⟩

/-- The complete contents are returned, or an exception is thrown. -/
def ReadsWhole (w : World) (path : String) : EStateM.Result FsError World (Option Bytes) → Prop
  | .ok none _ => False
  | .ok (some bytes) w' => w.files path = some bytes ∧ ClosedOnce w w'
  | .error _ w' => ClosedOnce w w'

/-- All of the data has been written, or an exception is thrown. -/
def WritesWhole (w : World) (path : String) (data : Bytes) :
    EStateM.Result FsError World (Option Nat) → Prop
  | .ok none _ => False
  | .ok (some n) w' => n = data.length ∧ w'.files path = some data ∧ ClosedOnce w w'
  | .error _ w' => ClosedOnce w w'

/-! ### Reading -/

/-- The file cannot be opened; or no read fails or returns nothing before the end of the file; or
the call after the one that does, which is the one of `close`, fails. -/
def ReadHolds (w : World) (path : String) : Prop :=
  ¬ Opens w path ∨ ∃ content : Bytes, w.files path = some content ∧
    ((∀ j, position (later w) content.length j < content.length → 0 < later w j) ∨
      ∃ k, (∀ j < k, 0 < later w j) ∧ later w k ≤ 0 ∧ later w (k + 1) < 0)

/-- After the loop, `close` throws, or the pieces that were read are returned. -/
theorem readsWhole_iff {w w' : World} {path : String} {content bytes : Bytes} {r : Int}
    {e : FsError} (hfile : w.files path = some content) (hclosed : ClosedOnce w w') :
    ReadsWhole w path (if r < 0 then .error e w' else .ok (some bytes) w') ↔
      r < 0 ∨ bytes = content := by
  by_cases hr : r < 0
  · simp [hr, ReadsWhole, hclosed]
  · simp [hr, ReadsWhole, hclosed, hfile, eq_comm]

theorem position_mono (r : Nat → Int) (size : Nat) {j k : Nat} (hjk : j ≤ k) :
    position r size j ≤ position r size k := by
  induction k, hjk using Nat.le_induction with
  | base => exact Nat.le_refl _
  | succ k hk ih =>
      rw [position]
      omega

/-- The call number `k` ends the loop with the whole file, or with an error of `close` to come. -/
theorem readHolds_iff {w : World} {path : String} {content : Bytes} {k : Nat}
    (hopens : Opens w path) (hfile : w.files path = some content)
    (hon : ∀ i < k, ReadsOn (later w) content.length i)
    (hend : ¬ ReadsOn (later w) content.length k) :
    ReadHolds w path ↔
      position (later w) content.length k = content.length ∨ later w (k + 1) < 0 := by
  have hle := position_le (later w) content.length k
  constructor
  · rintro (hfails | ⟨content', hfile', hholds⟩)
    · exact absurd hopens hfails
    · obtain rfl : content = content' := Option.some.inj (hfile.symm.trans hfile')
      by_contra hnot
      obtain ⟨hne, hclose⟩ := not_or.mp hnot
      -- the file has not ended, so that the call was told to read nothing, or failed
      have hlt : position (later w) content.length k < content.length := by omega
      have hr : ¬ 0 < later w k := fun hr => hend ⟨hr, hlt⟩
      rcases hholds with hall | ⟨k', hbefore, hk', hclose'⟩
      · exact hr (hall k hlt)
      · -- the first result that is not above zero is the one of the call number `k`
        have hkk' : k' = k := by
          rcases Nat.lt_trichotomy k' k with hlt' | rfl | hgt
          · exact absurd (hon k' hlt').1 (Int.not_lt.mpr hk')
          · rfl
          · exact absurd (hbefore k hgt) hr
        exact hclose (hkk' ▸ hclose')
  · intro hor
    refine Or.inr ⟨content, hfile, ?_⟩
    by_cases hwhole : position (later w) content.length k = content.length
    · left
      intro j hlt
      by_cases hjk : j < k
      · exact (hon j hjk).1
      · -- behind the call number `k` the position is the end of the file
        have hmono := position_mono (later w) content.length (Nat.not_lt.mp hjk)
        omega
    · right
      have hlt : position (later w) content.length k < content.length := by omega
      have hr : ¬ 0 < later w k := fun hr => hend ⟨hr, hlt⟩
      exact ⟨k, fun j hj => (hon j hj).1, Int.not_lt.mp hr, hor.resolve_left hwhole⟩

/-- `readFileSync` returns the complete contents or throws exactly there. -/
theorem readFileSync_whole_iff (w : World) (path : String) :
    TerminatesWith (fun fuel => readFileSync fuel path) w (ReadsWhole w path) ↔
      ReadHolds w path := by
  by_cases hopens : Opens w path
  · obtain ⟨content, hfile⟩ := Option.ne_none_iff_exists'.mp hopens.2
    obtain ⟨k, hon, hend⟩ := exists_not_readsOn (later w) content.length
    have hclosed : ClosedOnce w (uvClose w.next (reading (opening w path) w.next path
        (position (later w) content.length k) (w.calls + 1 + k + 1))).2 :=
      closedOnce_uvClose rfl rfl
    rw [readHolds_iff hopens hfile hon hend,
      terminatesWith_iff fun fuel hfuel => run_readFileSync hopens hfile hon hend fuel hfuel]
    rw [readsWhole_iff hfile hclosed, or_comm]
    exact or_congr_left (take_eq_self_iff (position_le (later w) content.length k))
  · -- the exception of `openSync` is thrown, and no descriptor is open
    obtain ⟨e, herror⟩ := run_openSync_read_error hopens
    have hout : ∀ fuel, 0 < fuel → (readFileSync fuel path).run w =
        .error e { w with calls := w.calls + 1 } := by
      intro fuel _
      exact run_bind_error herror
    rw [terminatesWith_iff hout]
    exact iff_of_true (closedOnce_same rfl rfl) (Or.inl hopens)

/-! ### Writing -/

/-- At the call number `k` all of the data has been written, or the call fails and then the one of
`close` does too; where the checks reject the piece, `close` is the call number `k` itself. -/
def WriteStops (r : Nat → Int) (length k : Nat) : Prop :=
  written r length k = length ∨
    (Fits length (written r length k) ∧ r k < 0 ∧ r (k + 1) < 0) ∨
    (¬ Fits length (written r length k) ∧ r k < 0)

/-- The file cannot be opened, or the pieces fit and are written up to a call that stops. -/
def WriteHolds (w : World) (data : Bytes) : Prop :=
  w.results w.calls < 0 ∨ ∃ k,
    (∀ j < k, Fits data.length (written (later w) data.length j) ∧ 0 ≤ later w j) ∧
      WriteStops (later w) data.length k

/-- A call that goes on does not stop. -/
theorem not_writeStops {r : Nat → Int} {length k : Nat} (hon : WritesOn r length k) :
    ¬ WriteStops r length k := by
  obtain ⟨hfits, hr, -⟩ := hon
  rintro (hall | ⟨-, hneg, -⟩ | ⟨hnot, -⟩)
  · rw [hall] at hfits
    exact not_fits_length length hfits
  · exact absurd hneg (Int.not_lt.mpr hr)
  · exact hnot hfits

/-- Where the first calls go on, only later ones can stop. -/
theorem le_of_writeStops {r : Nat → Int} {length k k' : Nat}
    (hon : ∀ i < k, WritesOn r length i) (hstop : WriteStops r length k') : k ≤ k' := by
  by_contra hlt
  exact not_writeStops (hon k' (Nat.not_le.mp hlt)) hstop

/-- A call that is rejected or fails is the one that stops, where there is one. -/
theorem writeHolds_iff_stops {w : World} {data : Bytes} {k : Nat} (hopen : 0 ≤ w.results w.calls)
    (hon : ∀ i < k, WritesOn (later w) data.length i)
    (hend : ¬ (Fits data.length (written (later w) data.length k) ∧ 0 ≤ later w k)) :
    WriteHolds w data ↔ WriteStops (later w) data.length k := by
  constructor
  · rintro (hfails | ⟨k', hbefore, hstop⟩)
    · exact absurd hfails (Int.not_lt.mpr hopen)
    · have hle := le_of_writeStops hon hstop
      rcases Nat.eq_or_lt_of_le hle with rfl | hlt
      · exact hstop
      · exact absurd (hbefore k hlt) hend
  · intro hstop
    exact Or.inr ⟨k, fun j hj => ⟨(hon j hj).1, (hon j hj).2.1⟩, hstop⟩

/-- After the loop, `close` throws, or the number of bytes is returned. -/
theorem writesWhole_iff {w w' : World} {path : String} {data : Bytes} {n : Nat} {r : Int}
    {e : FsError} (hle : n ≤ data.length) (hfile : w'.files path = some (data.take n))
    (hclosed : ClosedOnce w w') :
    WritesWhole w path data (if r < 0 then .error e w' else .ok (some n) w') ↔
      n = data.length ∨ r < 0 := by
  by_cases hr : r < 0
  · simp [hr, WritesWhole, hclosed]
  · have htake := take_eq_self_iff hle
    simp only [hr, if_false, WritesWhole, hclosed, hfile, Option.some.injEq, htake, and_true,
      and_self, or_false]

/-- Once the loop has ended, all is well where all of the data was written or `close` throws. -/
theorem terminatesWith_writesWhole_iff {w : World} (path : String) {data : Bytes} {n calls k : Nat}
    (hopen : 0 ≤ w.results w.calls) (hle : n ≤ data.length)
    (hloop : ∀ fuel, k < fuel →
      (writeLoop w.next data fuel 0).run (writing (opening w path) path data 0 (w.calls + 1)) =
        .ok (some n) (writing (opening w path) path data n calls)) :
    TerminatesWith (fun fuel => writeFileSync fuel path data) w (WritesWhole w path data) ↔
      n = data.length ∨ w.results calls < 0 := by
  rw [terminatesWith_iff fun fuel hfuel => run_writeFileSync hopen (hloop fuel hfuel)]
  apply writesWhole_iff hle
  · simp [uvClose, writing]
  · exact closedOnce_uvClose rfl rfl

theorem opening_fds (w : World) (path : String) :
    (opening w path).fds w.next = some ⟨path, 0⟩ := by
  simp [opening]

/-- Where every call goes on, the data is written for ever. -/
theorem not_terminatesWith_of_writesOn {w : World} {path : String} {data : Bytes}
    (hopen : 0 ≤ w.results w.calls) (hon : ∀ i, WritesOn (later w) data.length i) :
    ¬ TerminatesWith (fun fuel => writeFileSync fuel path data) w (WritesWhole w path data) := by
  rintro ⟨enough, out, hout, hgood⟩
  obtain ⟨w', hloop⟩ := writeLoop_endless (w := opening w path) (opening_fds w path) hon enough
  have hrun : (writeFileSync enough path data).run w = .ok none w' := by
    rw [writeFileSync, run_bind_ok (run_openSync_write data hopen)]
    exact run_bind_ok hloop
  rw [← hout enough (Nat.le_refl enough), hrun] at hgood
  exact hgood

/-- The call number `k` is the first that does not go on. -/
theorem writes_iff_of_ends {w : World} {path : String} {data : Bytes} {k : Nat}
    (hopen : 0 ≤ w.results w.calls) (hon : ∀ i < k, WritesOn (later w) data.length i)
    (hend : ¬ WritesOn (later w) data.length k) :
    TerminatesWith (fun fuel => writeFileSync fuel path data) w (WritesWhole w path data) ↔
      WriteHolds w data := by
  have hle := written_le (later w) data.length k
  have hloop := writeLoop_ends (w := opening w path) (r := later w) rfl (opening_fds w path) hon hend
  by_cases hfits : Fits data.length (written (later w) data.length k)
  · have hne : written (later w) data.length k ≠ data.length := by
      intro hall
      rw [hall] at hfits
      exact not_fits_length data.length hfits
    by_cases hr : later w k < 0
    · -- the call fails, and the one after it is the one of `close`
      have hruns := terminatesWith_writesWhole_iff path (k := k) hopen hle
        fun fuel hfuel => by
          rw [hloop fuel hfuel, if_neg (not_not.mpr hfits)]
          exact if_pos hr
      rw [hruns, writeHolds_iff_stops hopen hon fun h => absurd hr (Int.not_lt.mpr h.2), WriteStops]
      have hclose : w.results (w.calls + 1 + k + 1) = later w (k + 1) := rfl
      simp [hne, hfits, hr, hclose]
    · -- the last piece
      have hruns := terminatesWith_writesWhole_iff path (k := k) hopen
        (Nat.le_refl data.length) fun fuel hfuel => by
          rw [hloop fuel hfuel, if_neg (not_not.mpr hfits)]
          exact if_neg hr
      rw [hruns]
      have hlast : written (later w) data.length (k + 1) = data.length := by
        by_contra hlast
        exact hend ⟨hfits, Int.not_lt.mp hr, hlast⟩
      have hbefore : ∀ j < k + 1,
          Fits data.length (written (later w) data.length j) ∧ 0 ≤ later w j := by
        intro j hj
        rcases Nat.eq_or_lt_of_le (Nat.le_of_lt_succ hj) with rfl | hlt
        · exact ⟨hfits, Int.not_lt.mp hr⟩
        · exact ⟨(hon j hlt).1, (hon j hlt).2.1⟩
      exact iff_of_true (Or.inl rfl) (Or.inr ⟨k + 1, hbefore, Or.inl hlast⟩)
  · -- the checks reject the piece
    have hruns := terminatesWith_writesWhole_iff path (k := k) hopen hle
      fun fuel hfuel => (hloop fuel hfuel).trans (if_pos hfits)
    rw [hruns, writeHolds_iff_stops hopen hon fun h => hfits h.1, WriteStops]
    have hclose : w.results (w.calls + 1 + k) = later w k := rfl
    simp [hfits, hclose]

/-- `writeFileSync` writes all of the data or throws exactly there. -/
theorem writeFileSync_whole_iff (w : World) (path : String) (data : Bytes) :
    TerminatesWith (fun fuel => writeFileSync fuel path data) w (WritesWhole w path data) ↔
      WriteHolds w data := by
  by_cases hopen : 0 ≤ w.results w.calls
  · by_cases hall : ∀ i, WritesOn (later w) data.length i
    · apply iff_of_false (not_terminatesWith_of_writesOn hopen hall)
      rintro (hfails | ⟨k, -, hstop⟩)
      · exact absurd hfails (Int.not_lt.mpr hopen)
      · exact not_writeStops (hall k) hstop
    · obtain ⟨k, hon, hend⟩ := Progress.exists_first hall
      exact writes_iff_of_ends hopen hon hend
  · obtain ⟨e, herror⟩ := run_openSync_write_error path (Int.not_le.mp hopen)
    have hout : ∀ fuel, 0 < fuel → (writeFileSync fuel path data).run w =
        .error e { w with calls := w.calls + 1 } := by
      intro fuel _
      exact run_bind_error herror
    rw [terminatesWith_iff hout]
    exact iff_of_true (closedOnce_same rfl rfl) (Or.inl (Int.not_le.mp hopen))

/-- A disk where `/a` holds one byte, nothing is open, and the calls return what is listed. -/
def disk (results : List Int) : World :=
  ⟨fun path => if path = "/a" then some [7] else none, fun _ => none, 3, fun i => results.getD i 0,
    0, [], []⟩

theorem written_of_zero {r : Nat → Int} (hr : ∀ i, r i = 0) (length j : Nat) :
    written r length j = 0 := by
  induction j with
  | zero => rfl
  | succ j ih => simp [written, ih, hr]

/-- A read that fails is taken for the end of the file, and what was read is returned. A write
that fails is taken for the end of the data, and a write of no bytes is made for ever. -/
theorem failures_hidden :
    (∃ w', (readFileSync 1 "/a").run (disk [0, -5]) = .ok (some []) w' ∧
      w'.files "/a" = some [7]) ∧
    (∃ w', (writeFileSync 1 "/a" [8]).run (disk [0, -5]) = .ok (some 0) w' ∧
      w'.files "/a" = some []) ∧
    ¬ TerminatesWith (fun fuel => writeFileSync fuel "/a" [8]) (disk [])
      (WritesWhole (disk []) "/a" [8]) := by
  have hfits : Fits [(8 : UInt8)].length 0 := fits_of_lt (by decide) Nat.one_pos
  refine ⟨?_, ?_, ?_⟩
  · have hopens : Opens (disk [0, -5]) "/a" := ⟨Int.le_refl 0, Option.some_ne_none _⟩
    have hend : ¬ ReadsOn (later (disk [0, -5])) 1 0 := by
      intro hon
      exact absurd hon.1 (by decide)
    have hrun := run_readFileSync hopens rfl (k := 0) (fun i hi => absurd hi (Nat.not_lt_zero i))
      hend 1 Nat.one_pos
    exact ⟨_, hrun.trans (if_neg (by decide)), rfl⟩
  · have hend : ¬ WritesOn (later (disk [0, -5])) [(8 : UInt8)].length 0 := by
      intro hon
      exact absurd hon.2.1 (by decide)
    have hresults : (fun i => (opening (disk [0, -5]) "/a").results (1 + i)) =
        later (disk [0, -5]) := rfl
    have hloop := writeLoop_ends (k := 0) hresults (opening_fds (disk [0, -5]) "/a")
      (fun i hi => absurd hi (Nat.not_lt_zero i)) hend 1 Nat.one_pos
    have hfail := hloop.trans ((if_neg (not_not.mpr hfits)).trans (if_pos (by decide)))
    have hrun := run_writeFileSync (w := disk [0, -5]) (Int.le_refl 0) hfail
    exact ⟨_, hrun.trans (if_neg (by decide)), rfl⟩
  · apply not_terminatesWith_of_writesOn (Int.le_refl 0)
    intro i
    have hzero := written_of_zero (r := later (disk [])) (fun i => rfl) [(8 : UInt8)].length
    rw [WritesOn, hzero, hzero]
    exact ⟨hfits, Int.le_refl 0, Nat.zero_ne_one⟩

/-- Neither function hides a failure exactly where no failure reaches its loop, or `close` fails
after it. -/
theorem fails_iff (w : World) (path : String) :
    (TerminatesWith (fun fuel => readFileSync fuel path) w (ReadsWhole w path) ↔
      ReadHolds w path) ∧
    ∀ data : Bytes,
      TerminatesWith (fun fuel => writeFileSync fuel path data) w (WritesWhole w path data) ↔
        WriteHolds w data :=
  ⟨readFileSync_whole_iff w path, writeFileSync_whole_iff w path⟩

end IotJs.Fs

import IotJs.Core.Fs
import IotJs.Lib.Progress
import Mathlib.Tactic.Set

/-!
# `IotJs.Proofs.FsLoops`: the loops of `readFileSync` and `writeFileSync`

Both loops depend on the results of their calls alone. `position` and `written` say how far the
results take them: a call that is told `r` moves `r` bytes, or what is left of the file or of the
piece that it was given. `readLoop_runs` and `writeLoop_runs` are the inductions over the calls
that go on, and the lemmas after them say what the call does that ends the loop.
-/

set_option autoImplicit false

namespace IotJs.Fs

/-! ### Running a function -/

section run

variable {α β : Type} {w w' : World}

theorem run_bind (p : Sync α) (f : α → Sync β) (w : World) :
    (p >>= f).run w = match p.run w with
      | .ok a w' => (f a).run w'
      | .error e w' => .error e w' := by
  show EStateM.bind p f w = _
  rw [EStateM.bind, EStateM.run]
  cases p w <;> rfl

theorem run_bind_ok {p : Sync α} {f : α → Sync β} {a : α} (h : p.run w = .ok a w') :
    (p >>= f).run w = (f a).run w' := by
  rw [run_bind, h]

theorem run_bind_error {p : Sync α} {f : α → Sync β} {e : FsError} (h : p.run w = .error e w') :
    (p >>= f).run w = .error e w' := by
  rw [run_bind, h]

theorem run_map (f : α → β) (p : Sync α) (w : World) :
    (f <$> p).run w = match p.run w with
      | .ok a w' => .ok (f a) w'
      | .error e w' => .error e w' := by
  show EStateM.map f p w = _
  rw [EStateM.map, EStateM.run]
  cases p w <;> rfl

theorem run_orBreak (p : Sync α) (w : World) :
    (orBreak p).run w = match p.run w with
      | .ok a w' => .ok (some a) w'
      | .error _ w' => .ok none w' := by
  show EStateM.tryCatch (EStateM.map some p) (fun _ => pure none) w = _
  rw [EStateM.tryCatch, EStateM.map, EStateM.run]
  cases p w <;> rfl

theorem run_fsSync (syscall : String) (err : α → Int) {call : World → α × World} {a : α}
    (hcall : call w = (a, w')) :
    (fsSync syscall err call).run w =
      if err a < 0 then .error (.uv (err a) syscall) w' else .ok a w' := by
  simp only [EStateM.run, fsSync, hcall]

theorem run_throwIf (error : Option FsError) (w : World) :
    (throwIf error).run w = match error with
      | some e => .error e w
      | none => .ok () w := by
  cases error <;> rfl

/-- A whole block passes the native checks. -/
theorem run_checkRange_block (function : String) :
    (checkRange function (0 : Nat) (1023 : Nat) 1023).run w = .ok () w := by
  have hnone : rangeError function (0 : Nat) (1023 : Nat) 1023 = none := by
    rw [rangeError, if_neg (by decide), if_neg (by decide), if_neg (by decide)]
  rw [checkRange, hnone, run_throwIf]

end run

/-! ### The buffers -/

/-- What is written into a block and read off its front. -/
theorem take_overwrite_zero (content bytes : Bytes) :
    (overwrite content 0 bytes).take bytes.length = bytes := by
  simp [overwrite]

/-- Bytes written at the end of a content. -/
theorem overwrite_append (content bytes : Bytes) :
    overwrite content content.length bytes = content ++ bytes := by
  simp [overwrite]

/-- A front of a content is the content itself where it is as long. -/
theorem take_eq_self_iff {content : Bytes} {n : Nat} (hle : n ≤ content.length) :
    content.take n = content ↔ n = content.length := by
  constructor
  · intro htake
    have hlength := congrArg List.length htake
    rw [List.length_take_of_le hle] at hlength
    exact hlength
  · rintro rfl
    exact List.take_length

/-! ### Reading -/

/-- The world while the descriptor `fd` is read: `calls` calls have been made, and the position is
`position`. -/
def reading (w : World) (fd : Nat) (path : String) (position calls : Nat) : World :=
  { w with fds := Function.update w.fds fd (some ⟨path, position⟩), calls := calls }

/-- The bytes that a call reads that is told `r`. -/
def readBytes (content : Bytes) (position : Nat) (r : Int) : Bytes :=
  ((content.drop position).take 1023).take r.toNat

section read

variable {w : World} {fd : Nat} {path : String} {content : Bytes} {pos calls : Nat}

theorem uvRead_error (fd length : Nat) (path : String) (pos : Nat) (hr : w.results calls < 0) :
    uvRead fd length (-1) (reading w fd path pos calls) =
      ((w.results calls, []), reading w fd path pos (calls + 1)) := by
  simp [uvRead, reading, hr]

theorem uvRead_ok (fd length pos : Nat) (hfile : w.files path = some content)
    (hr : 0 ≤ w.results calls) :
    uvRead fd length (-1) (reading w fd path pos calls) =
      let bytes : Bytes := ((content.drop pos).take length).take (w.results calls).toNat
      (((bytes.length : Int), bytes), reading w fd path (pos + bytes.length) (calls + 1)) := by
  simp [uvRead, reading, hfile, Int.not_lt.mpr hr]

/-- A block is read, or the error is thrown. -/
theorem run_readSync (fd pos calls : Nat) {buffer : Bytes} (hbuffer : buffer.length = 1023)
    (hfile : w.files path = some content) :
    (readSync fd buffer 0 1023 none).run (reading w fd path pos calls) =
      if w.results calls < 0 then
        .error (.uv (w.results calls) "read") (reading w fd path pos (calls + 1))
      else
        let bytes := readBytes content pos (w.results calls)
        .ok (bytes.length, overwrite buffer 0 bytes)
          (reading w fd path (pos + bytes.length) (calls + 1)) := by
  rw [readSync, read, hbuffer, run_bind_ok (run_checkRange_block "Read"), Option.getD_none]
  by_cases hr : w.results calls < 0
  · have huv := run_fsSync "read" Prod.fst
      (uvRead_error fd 1023 path pos hr)
    rw [if_pos hr] at huv ⊢
    rw [run_bind_error huv]
  · have hr' := Int.not_lt.mp hr
    have huv := run_fsSync "read" Prod.fst
      (uvRead_ok fd 1023 pos hfile hr')
    rw [if_neg (Int.not_lt.mpr (Int.natCast_nonneg _))] at huv
    rw [if_neg hr, run_bind_ok huv]
    rfl

theorem length_readBytes (content : Bytes) (pos : Nat) (r : Int) :
    (readBytes content pos r).length = min r.toNat (min 1023 (content.length - pos)) := by
  simp [readBytes]

/-- One round of the loop: it ends, or it goes on with one more piece. -/
theorem run_readLoop_succ (fd pos calls : Nat) (hfile : w.files path = some content) (fuel : Nat)
    (buffers : List Bytes) :
    (readLoop fd (fuel + 1) buffers).run (reading w fd path pos calls) =
      let bytes := readBytes content pos (w.results calls)
      if w.results calls < 0 ∨ bytes = [] then
        .ok (some buffers) (reading w fd path pos (calls + 1))
      else (readLoop fd fuel (buffers ++ [bytes])).run
        (reading w fd path (pos + bytes.length) (calls + 1)) := by
  have hread := run_readSync fd pos calls
    (List.length_replicate (n := 1023) (a := (0 : UInt8))) hfile
  have hbody := run_orBreak (readSync fd (List.replicate 1023 0) 0 1023 none)
    (reading w fd path pos calls)
  rw [hread] at hbody
  rw [readLoop]
  by_cases hr : w.results calls < 0
  · rw [if_pos hr] at hbody
    rw [run_bind_ok hbody]
    simp only [hr, true_or, if_true]
    rfl
  · rw [if_neg hr] at hbody
    rw [run_bind_ok hbody]
    simp only [hr, false_or, Int.toNat_natCast, take_overwrite_zero]
    by_cases hbytes : readBytes content pos (w.results calls) = []
    · simp only [hbytes, List.length_nil, Nat.add_zero, if_true]
      rfl
    · have hpos : ((readBytes content pos (w.results calls)).length : Int) ≠ 0 := by
        have hlt := List.length_pos_iff.mpr hbytes
        omega
      simp only [hbytes, hpos, ne_eq, not_false_eq_true, if_true, if_false]

/-- How far the first `j` calls get in a file of `size` bytes. -/
def position (r : Nat → Int) (size : Nat) : Nat → Nat
  | 0 => 0
  | j + 1 => position r size j + min (r j).toNat (min 1023 (size - position r size j))

/-- The call goes on: it is told to read, and there is something to read. -/
def ReadsOn (r : Nat → Int) (size j : Nat) : Prop := 0 < r j ∧ position r size j < size

theorem position_le (r : Nat → Int) (size j : Nat) : position r size j ≤ size := by
  induction j with
  | zero => exact Nat.zero_le size
  | succ j ih =>
      rw [position]
      omega

/-- A call that goes on gets further. -/
theorem lt_position_succ {r : Nat → Int} {size j : Nat} (h : ReadsOn r size j) :
    position r size j < position r size (j + 1) := by
  obtain ⟨hr, hlt⟩ := h
  rw [position]
  omega

/-- So one call does not go on. -/
theorem exists_not_readsOn (r : Nat → Int) (size : Nat) :
    ∃ k, (∀ j < k, ReadsOn r size j) ∧ ¬ ReadsOn r size k :=
  Progress.exists_first_of_lt_succ (position r size) (fun _ hon => lt_position_succ hon)
    fun _ hon => hon.2

/-- What a call reads is the content up to its new position. -/
theorem readBytes_position (content : Bytes) (r : Nat → Int) (j : Nat) :
    content.take (position r content.length j) ++
      readBytes content (position r content.length j) (r j) =
      content.take (position r content.length (j + 1)) := by
  rw [position, readBytes, List.take_take]
  have hmin : min (r j).toNat (min 1023 (content.length - position r content.length j)) =
      min (min (r j).toNat 1023) (content.drop (position r content.length j)).length := by
    rw [List.length_drop, min_assoc]
  rw [hmin, List.take_add, List.take_eq_take_min (i := min (r j).toNat 1023)]

theorem length_readBytes_position (content : Bytes) (r : Nat → Int) (j : Nat) :
    position r content.length j +
      (readBytes content (position r content.length j) (r j)).length =
      position r content.length (j + 1) := by
  rw [length_readBytes, position]

/-- The calls that go on collect the content. -/
theorem readLoop_runs (fd : Nat) (hfile : w.files path = some content) {j : Nat}
    (hon : ∀ i < j, ReadsOn (fun i => w.results (calls + i)) content.length i) :
    ∀ fuel, ∃ buffers : List Bytes,
      buffers.flatten = content.take (position (fun i => w.results (calls + i)) content.length j) ∧
      (readLoop fd (j + fuel) []).run (reading w fd path 0 calls) =
        (readLoop fd fuel buffers).run (reading w fd path
          (position (fun i => w.results (calls + i)) content.length j) (calls + j)) := by
  induction j with
  | zero =>
      intro fuel
      rw [Nat.zero_add]
      exact ⟨[], by simp [position], rfl⟩
  | succ j ih =>
      intro fuel
      obtain ⟨buffers, hflat, hrun⟩ := ih (fun i hi => hon i (Nat.lt_succ_of_lt hi)) (fuel + 1)
      obtain ⟨hr, hlt⟩ := hon j (Nat.lt_succ_self j)
      have hround := run_readLoop_succ fd (position (fun i => w.results (calls + i))
        content.length j) (calls + j) hfile fuel buffers
      have hlen := length_readBytes_position content (fun i => w.results (calls + i)) j
      have hnext := readBytes_position content (fun i => w.results (calls + i)) j
      -- the piece is not empty, so that the loop goes on
      have hfar := lt_position_succ (hon j (Nat.lt_succ_self j))
      have hgo : ¬ (w.results (calls + j) < 0 ∨ readBytes content
          (position (fun i => w.results (calls + i)) content.length j)
          (w.results (calls + j)) = []) := by
        rintro (hneg | hnil)
        · exact absurd hr (Int.not_lt.mpr (Int.le_of_lt hneg))
        · rw [hnil, List.length_nil] at hlen
          omega
      rw [if_neg hgo, hlen] at hround
      refine ⟨_, ?_, (Nat.succ_add_eq_add_succ j fuel) ▸ hrun.trans hround⟩
      rw [List.flatten_append, List.flatten_singleton, hflat, hnext]

/-- The call that ends the loop. -/
theorem readLoop_ends (fd : Nat) (hfile : w.files path = some content) {k : Nat}
    (hon : ∀ i < k, ReadsOn (fun i => w.results (calls + i)) content.length i)
    (hend : ¬ ReadsOn (fun i => w.results (calls + i)) content.length k) (fuel : Nat)
    (hfuel : k < fuel) :
    ∃ buffers : List Bytes,
      buffers.flatten = content.take (position (fun i => w.results (calls + i)) content.length k) ∧
      (readLoop fd fuel []).run (reading w fd path 0 calls) =
        .ok (some buffers) (reading w fd path
          (position (fun i => w.results (calls + i)) content.length k) (calls + k + 1)) := by
  obtain ⟨extra, rfl⟩ := Nat.exists_eq_add_of_lt hfuel
  obtain ⟨buffers, hflat, hrun⟩ := readLoop_runs fd hfile hon (extra + 1)
  have hround := run_readLoop_succ fd (position (fun i => w.results (calls + i))
    content.length k) (calls + k) hfile extra buffers
  have hstop : w.results (calls + k) < 0 ∨ readBytes content
      (position (fun i => w.results (calls + i)) content.length k) (w.results (calls + k)) = [] := by
    rw [or_iff_not_imp_left]
    intro hneg
    -- the call reads nothing: it is told so, or the file ends here
    have hlen := length_readBytes content
      (position (fun i => w.results (calls + i)) content.length k) (w.results (calls + k))
    rw [ReadsOn, not_and_or] at hend
    rw [← List.length_eq_zero_iff, hlen]
    omega
  rw [if_pos hstop] at hround
  exact ⟨buffers, hflat, hrun.trans hround⟩

end read

/-! ### Writing -/

/-- The world while `data` is written: `calls` calls have been made, and the file holds the first
`offset` bytes. -/
def writing (w : World) (path : String) (data : Bytes) (offset calls : Nat) : World :=
  { w with files := Function.update w.files path (some (data.take offset)), calls := calls }

/-- The native checks let the piece at this offset through. -/
def Fits (length offset : Nat) : Prop :=
  (offset : Int) < toInt length ∧ toInt (offset + tryN (length - offset)) ≤ toInt length

instance (length offset : Nat) : Decidable (Fits length offset) := instDecidableAnd

theorem toInt_of_lt {n : Nat} (hn : n < 2147483648) : toInt n = n := by
  rw [toInt, Int.bmod_def]
  omega

theorem toInt_le (n : Nat) : toInt n ≤ n := by
  rw [toInt, Int.bmod_def]
  omega

theorem tryN_le (rest : Nat) : tryN rest ≤ rest := by
  rw [tryN]
  split <;> omega

theorem tryN_pos {rest : Nat} (h : 0 < rest) : 0 < tryN rest := by
  rw [tryN]
  split <;> omega

/-- With less than 2 GiB every piece fits. -/
theorem fits_of_lt {length offset : Nat} (hlength : length < 2147483648)
    (hoffset : offset < length) : Fits length offset := by
  have htry := tryN_le (length - offset)
  have hend : toInt (offset + tryN (length - offset)) = offset + tryN (length - offset) := by
    exact_mod_cast toInt_of_lt (n := offset + tryN (length - offset)) (by omega)
  rw [Fits, toInt_of_lt hlength, hend]
  omega

/-- There is nothing to write at the end. -/
theorem not_fits_length (length : Nat) : ¬ Fits length length := by
  intro h
  exact absurd h.1 (Int.not_lt.mpr (toInt_le length))

section write

variable {w : World} {fd : Nat} {path : String} {data : Bytes} {offset calls start : Nat}

theorem rangeError_fits (function : String) {length offset : Nat} (hfits : Fits length offset) :
    rangeError function offset (tryN (length - offset) : Nat) length = none := by
  obtain ⟨hoffset, hend⟩ := hfits
  have hpos := Int.lt_of_le_of_lt (Int.natCast_nonneg offset) hoffset
  rw [rangeError, if_neg (Int.not_le.mpr hpos), if_neg (Int.not_le.mpr hoffset),
    if_neg (Int.not_lt.mpr hend)]

theorem rangeError_not_fits (function : String) {length offset : Nat}
    (hfits : ¬ Fits length offset) :
    ∃ e, rangeError function offset (tryN (length - offset) : Nat) length = some e := by
  rw [rangeError]
  by_cases hpos : toInt length ≤ 0
  · exact ⟨_, if_pos hpos⟩
  · by_cases hoffset : toInt length ≤ offset
    · exact ⟨_, (if_neg hpos).trans (if_pos hoffset)⟩
    · have hend : toInt length < toInt (offset + (tryN (length - offset) : Nat)) := by
        rw [Fits, not_and] at hfits
        exact Int.not_le.mp (hfits (Int.not_le.mp hoffset))
      exact ⟨_, (if_neg hpos).trans ((if_neg hoffset).trans (if_pos hend))⟩

theorem run_checkRange_fits (function : String) (hfits : Fits data.length offset) :
    (checkRange function offset (tryN (data.length - offset) : Nat) data.length).run w =
      .ok () w := by
  rw [checkRange, rangeError_fits function hfits, run_throwIf]

theorem run_checkRange_not_fits (function : String) (hfits : ¬ Fits data.length offset) :
    ∃ e, (checkRange function offset (tryN (data.length - offset) : Nat) data.length).run w =
      .error e w := by
  obtain ⟨e, he⟩ := rangeError_not_fits function hfits
  exact ⟨e, by rw [checkRange, he, run_throwIf]⟩

theorem uvWrite_error (data piece : Bytes) (offset : Nat) (hfd : w.fds fd = some ⟨path, start⟩)
    (hr : w.results calls < 0) :
    uvWrite fd piece offset (writing w path data offset calls) =
      (w.results calls, writing w path data offset (calls + 1)) := by
  simp [uvWrite, writing, hfd, hr]

/-- A piece of the data continues what has been written. -/
theorem overwrite_take (hoffset : offset ≤ data.length) (n m : Nat) :
    overwrite (data.take offset) offset (((data.drop offset).take n).take m) =
      data.take (offset + min m (min n (data.length - offset))) := by
  have hlength : (data.take offset).length = offset := List.length_take_of_le hoffset
  have happend := overwrite_append (data.take offset) (((data.drop offset).take n).take m)
  rw [hlength] at happend
  rw [happend, List.take_take, List.take_add]
  congr 1
  rw [← List.length_drop, ← min_assoc]
  exact List.take_eq_take_min

theorem uvWrite_ok (n : Nat) (hfd : w.fds fd = some ⟨path, start⟩)
    (hoffset : offset ≤ data.length) (hr : 0 ≤ w.results calls) :
    uvWrite fd ((data.drop offset).take n) offset (writing w path data offset calls) =
      let moved := min (w.results calls).toNat (min n (data.length - offset))
      ((moved : Int), writing w path data (offset + moved) (calls + 1)) := by
  have hover := overwrite_take hoffset n (w.results calls).toNat
  have hnonneg : ¬ (offset : Int) < 0 := Int.not_lt.mpr (Int.natCast_nonneg offset)
  simp [uvWrite, writing, hfd, Int.not_lt.mpr hr, hnonneg, hover]

/-- A piece is written, or an error is thrown: by the checks, or by the call. -/
theorem run_writeSync (calls : Nat) (hfd : w.fds fd = some ⟨path, start⟩)
    (hoffset : offset ≤ data.length) :
    (orBreak (writeSync fd data offset (tryN (data.length - offset)) (some offset))).run
        (writing w path data offset calls) =
      if ¬ Fits data.length offset then .ok none (writing w path data offset calls)
      else if w.results calls < 0 then .ok none (writing w path data offset (calls + 1))
      else
        let moved := min (w.results calls).toNat (tryN (data.length - offset))
        .ok (some (moved : Int)) (writing w path data (offset + moved) (calls + 1)) := by
  rw [run_orBreak, writeSync, write, Option.getD_some]
  by_cases hfits : Fits data.length offset
  · rw [if_neg (not_not.mpr hfits), run_bind_ok (run_checkRange_fits "Write" hfits)]
    by_cases hr : w.results calls < 0
    · have huv := run_fsSync "write" id
        (uvWrite_error data ((data.drop offset).take (tryN (data.length - offset))) offset hfd hr)
      rw [id, if_pos hr] at huv
      rw [huv, if_pos hr]
    · have hmin : min (tryN (data.length - offset)) (data.length - offset) =
          tryN (data.length - offset) := min_eq_left (tryN_le _)
      have huv := run_fsSync "write" id
        (uvWrite_ok (tryN (data.length - offset)) hfd hoffset (Int.not_lt.mp hr))
      rw [id, if_neg (Int.not_lt.mpr (Int.natCast_nonneg _)), hmin] at huv
      rw [huv, if_neg hr]
  · obtain ⟨e, herror⟩ := run_checkRange_not_fits (w := writing w path data offset calls) "Write" hfits
    rw [if_pos hfits, run_bind_error herror]

/-- How far the first `j` calls get with `length` bytes. -/
def written (r : Nat → Int) (length : Nat) : Nat → Nat
  | 0 => 0
  | j + 1 => written r length j + min (r j).toNat (tryN (length - written r length j))

/-- The call is made and goes on: the checks let it through, it does not fail, and something is
left afterwards. -/
def WritesOn (r : Nat → Int) (length j : Nat) : Prop :=
  Fits length (written r length j) ∧ 0 ≤ r j ∧ written r length (j + 1) ≠ length

theorem written_le (r : Nat → Int) (length j : Nat) : written r length j ≤ length := by
  induction j with
  | zero => exact Nat.zero_le length
  | succ j ih =>
      have htry := tryN_le (length - written r length j)
      rw [written]
      omega

/-- One round of the loop. -/
theorem run_writeLoop_succ (calls : Nat) (hfd : w.fds fd = some ⟨path, start⟩)
    (hoffset : offset ≤ data.length) (fuel : Nat) :
    (writeLoop fd data (fuel + 1) offset).run (writing w path data offset calls) =
      let next := offset + min (w.results calls).toNat (tryN (data.length - offset))
      if ¬ Fits data.length offset then .ok (some offset) (writing w path data offset calls)
      else if w.results calls < 0 then
        .ok (some offset) (writing w path data offset (calls + 1))
      else if next = data.length then .ok (some next) (writing w path data next (calls + 1))
      else (writeLoop fd data fuel next).run (writing w path data next (calls + 1)) := by
  have hbody := run_writeSync calls hfd hoffset
  rw [writeLoop]
  by_cases hfits : Fits data.length offset
  · rw [if_neg (not_not.mpr hfits)] at hbody ⊢
    by_cases hr : w.results calls < 0
    · rw [if_pos hr] at hbody
      rw [run_bind_ok hbody]
      simp only [hr, if_true]
      rfl
    · rw [if_neg hr] at hbody
      rw [run_bind_ok hbody]
      simp only [hr, if_false, Int.toNat_natCast]
      split <;> rfl
  · rw [if_pos hfits] at hbody ⊢
    rw [run_bind_ok hbody]
    rfl

/-- The calls that go on write the data. -/
theorem writeLoop_runs (hfd : w.fds fd = some ⟨path, start⟩) {j : Nat}
    (hon : ∀ i < j, WritesOn (fun i => w.results (calls + i)) data.length i) :
    ∀ fuel, (writeLoop fd data (j + fuel) 0).run (writing w path data 0 calls) =
      (writeLoop fd data fuel (written (fun i => w.results (calls + i)) data.length j)).run
        (writing w path data (written (fun i => w.results (calls + i)) data.length j)
          (calls + j)) := by
  induction j with
  | zero =>
      intro fuel
      rw [Nat.zero_add]
      rfl
  | succ j ih =>
      intro fuel
      obtain ⟨hfits, hr, hne⟩ := hon j (Nat.lt_succ_self j)
      have hrun := ih (fun i hi => hon i (Nat.lt_succ_of_lt hi)) (fuel + 1)
      have hround := run_writeLoop_succ (calls + j) hfd
        (written_le (fun i => w.results (calls + i)) data.length j) fuel
      rw [written] at hne
      rw [if_neg (not_not.mpr hfits), if_neg (Int.not_lt.mpr hr), if_neg hne] at hround
      exact (Nat.succ_add_eq_add_succ j fuel) ▸ hrun.trans hround

/-- The round that ends the loop: the checks reject the piece, the call fails, or it was the last
one. -/
theorem writeLoop_ends {r : Nat → Int} (hresults : (fun i => w.results (calls + i)) = r)
    (hfd : w.fds fd = some ⟨path, start⟩) {k : Nat}
    (hon : ∀ i < k, WritesOn r data.length i) (hend : ¬ WritesOn r data.length k) (fuel : Nat)
    (hfuel : k < fuel) :
    (writeLoop fd data fuel 0).run (writing w path data 0 calls) =
      if ¬ Fits data.length (written r data.length k) then
        .ok (some (written r data.length k))
          (writing w path data (written r data.length k) (calls + k))
      else if r k < 0 then
        .ok (some (written r data.length k))
          (writing w path data (written r data.length k) (calls + k + 1))
      else .ok (some data.length) (writing w path data data.length (calls + k + 1)) := by
  subst hresults
  obtain ⟨extra, rfl⟩ := Nat.exists_eq_add_of_lt hfuel
  set r : Nat → Int := fun i => w.results (calls + i)
  have hround := run_writeLoop_succ (calls + k) hfd
    (written_le r data.length k) extra
  refine (writeLoop_runs hfd hon (extra + 1)).trans (hround.trans ?_)
  by_cases hfits : Fits data.length (written r data.length k)
  · rw [if_neg (not_not.mpr hfits), if_neg (not_not.mpr hfits)]
    by_cases hr : r k < 0
    · rw [if_pos hr, if_pos hr]
    · have hlast : written r data.length (k + 1) = data.length := by
        by_contra hne
        exact hend ⟨hfits, Int.not_lt.mp hr, hne⟩
      rw [written] at hlast
      rw [if_neg hr, if_neg hr, if_pos hlast, hlast]
  · rw [if_pos hfits, if_pos hfits]

/-- Where every call goes on, no fuel lasts. -/
theorem writeLoop_endless (hfd : w.fds fd = some ⟨path, start⟩)
    (hon : ∀ i, WritesOn (fun i => w.results (calls + i)) data.length i) (fuel : Nat) :
    ∃ w', (writeLoop fd data fuel 0).run (writing w path data 0 calls) = .ok none w' := by
  have hrun := writeLoop_runs (j := fuel) hfd (fun i _ => hon i) 0
  exact ⟨_, hrun⟩

end write

/-! ### The two functions -/

/-- The world with the descriptor that `open` gives. -/
def opening (w : World) (path : String) : World :=
  { w with
    fds := Function.update w.fds w.next (some ⟨path, 0⟩)
    next := w.next + 1
    opened := w.opened ++ [w.next] }

/-- What the calls after `open` return. -/
def later (w : World) : Nat → Int := fun i => w.results (w.calls + 1 + i)

section functions

variable {w : World} {path : String} {content data : Bytes}

/-- The file is there, and the system lets it be opened. -/
def Opens (w : World) (path : String) : Prop := 0 ≤ w.results w.calls ∧ w.files path ≠ none

theorem uvOpen_read (hopens : Opens w path) :
    uvOpen path [.O_RDONLY] w =
      ((w.next : Int), reading (opening w path) w.next path 0 (w.calls + 1)) := by
  obtain ⟨hr, hfile⟩ := hopens
  obtain ⟨content, hcontent⟩ := Option.ne_none_iff_exists'.mp hfile
  simp [uvOpen, reading, opening, Int.not_lt.mpr hr, hcontent]

theorem uvOpen_read_error (hopens : ¬ Opens w path) :
    ∃ err < 0, uvOpen path [.O_RDONLY] w = (err, { w with calls := w.calls + 1 }) := by
  by_cases hr : w.results w.calls < 0
  · exact ⟨w.results w.calls, hr, by simp [uvOpen, hr]⟩
  · have hnone : w.files path = none := by
      by_contra hfile
      exact hopens ⟨Int.not_lt.mp hr, hfile⟩
    exact ⟨enoent, by decide, by simp [uvOpen, hr, hnone]⟩

theorem uvOpen_write (path : String) (data : Bytes) (hr : 0 ≤ w.results w.calls) :
    uvOpen path [.O_TRUNC, .O_CREAT, .O_WRONLY] w =
      ((w.next : Int), writing (opening w path) path data 0 (w.calls + 1)) := by
  simp [uvOpen, writing, opening, Int.not_lt.mpr hr]

theorem uvOpen_error (path : String) (flags : List OpenFlag) (hr : w.results w.calls < 0) :
    uvOpen path flags w = (w.results w.calls, { w with calls := w.calls + 1 }) := by
  simp [uvOpen, hr]

theorem run_openSync_read (hopens : Opens w path) :
    (openSync path "r").run w =
      .ok w.next (reading (opening w path) w.next path 0 (w.calls + 1)) := by
  have huv := run_fsSync "open" id (uvOpen_read hopens)
  rw [id, if_neg (Int.not_lt.mpr (Int.natCast_nonneg _))] at huv
  show (Int.toNat <$> fsSync "open" id (uvOpen path [.O_RDONLY])).run w = _
  rw [run_map, huv]
  rfl

theorem run_openSync_read_error (hopens : ¬ Opens w path) :
    ∃ e, (openSync path "r").run w = .error e { w with calls := w.calls + 1 } := by
  obtain ⟨err, herr, hcall⟩ := uvOpen_read_error hopens
  have huv := run_fsSync "open" id hcall
  rw [id, if_pos herr] at huv
  show ∃ e, (Int.toNat <$> fsSync "open" id (uvOpen path [.O_RDONLY])).run w = _
  rw [run_map, huv]
  exact ⟨_, rfl⟩

theorem run_openSync_write (data : Bytes) (hr : 0 ≤ w.results w.calls) :
    (openSync path "w").run w =
      .ok w.next (writing (opening w path) path data 0 (w.calls + 1)) := by
  have huv := run_fsSync "open" id (uvOpen_write path data hr)
  rw [id, if_neg (Int.not_lt.mpr (Int.natCast_nonneg _))] at huv
  show (Int.toNat <$> fsSync "open" id (uvOpen path [.O_TRUNC, .O_CREAT, .O_WRONLY])).run w = _
  rw [run_map, huv]
  rfl

theorem run_openSync_write_error (path : String) (hr : w.results w.calls < 0) :
    ∃ e, (openSync path "w").run w = .error e { w with calls := w.calls + 1 } := by
  have huv := run_fsSync "open" id (uvOpen_error path [.O_TRUNC, .O_CREAT, .O_WRONLY] hr)
  rw [id, if_pos hr] at huv
  show ∃ e, (Int.toNat <$> fsSync "open" id (uvOpen path [.O_TRUNC, .O_CREAT, .O_WRONLY])).run w = _
  rw [run_map, huv]
  exact ⟨_, rfl⟩

/-- The descriptor is closed, and an error is thrown where the call returns one. -/
theorem run_closeSync (fd : Nat) {w : World} {r : Int} (hr : w.results w.calls = r) :
    (closeSync fd).run w =
      if r < 0 then .error (.uv r "close") (uvClose fd w).2 else .ok () (uvClose fd w).2 := by
  have hcall : uvClose fd w = (min r 0, (uvClose fd w).2) := by
    simp only [uvClose, hr]
  have huv := run_fsSync "close" id hcall
  rw [closeSync]
  by_cases hneg : r < 0
  · have hmin : min r 0 = r := Int.min_eq_left (Int.le_of_lt hneg)
    rw [hmin, id, if_pos hneg] at huv
    rw [run_bind_error huv, if_pos hneg]
  · have hmin : min r 0 = 0 := Int.min_eq_right (Int.not_lt.mp hneg)
    rw [hmin, id, if_neg (Int.lt_irrefl 0)] at huv
    rw [run_bind_ok huv, if_neg hneg]
    rfl

/-- What `readFileSync` does where the file opens and the call number `k` ends the loop. -/
theorem run_readFileSync (hopens : Opens w path) (hfile : w.files path = some content) {k : Nat}
    (hon : ∀ i < k, ReadsOn (later w) content.length i)
    (hend : ¬ ReadsOn (later w) content.length k) (fuel : Nat) (hfuel : k < fuel) :
    let w' := (uvClose w.next (reading (opening w path) w.next path
      (position (later w) content.length k) (w.calls + 1 + k + 1))).2
    (readFileSync fuel path).run w =
      if later w (k + 1) < 0 then .error (.uv (later w (k + 1)) "close") w'
      else .ok (some (content.take (position (later w) content.length k))) w' := by
  intro w'
  obtain ⟨buffers, hflat, hloop⟩ := readLoop_ends (w := opening w path) w.next hfile hon hend
    fuel hfuel
  have hclose := run_closeSync w.next (r := later w (k + 1)) (w := reading (opening w path) w.next
    path (position (later w) content.length k) (w.calls + 1 + k + 1)) rfl
  rw [readFileSync, run_bind_ok (run_openSync_read hopens), run_bind_ok hloop]
  by_cases hr : later w (k + 1) < 0
  · rw [if_pos hr] at hclose ⊢
    exact run_bind_error hclose
  · rw [if_neg hr] at hclose ⊢
    have hcontent : content.take (position (later w) content.length k) = buffers.flatten :=
      hflat.symm
    rw [hcontent]
    exact run_bind_ok hclose

/-- What `writeFileSync` does once the loop has ended. -/
theorem run_writeFileSync {n calls fuel : Nat} (hr : 0 ≤ w.results w.calls)
    (hloop : (writeLoop w.next data fuel 0).run (writing (opening w path) path data 0 (w.calls + 1)) =
      .ok (some n) (writing (opening w path) path data n calls)) :
    let w' := (uvClose w.next (writing (opening w path) path data n calls)).2
    (writeFileSync fuel path data).run w =
      if w.results calls < 0 then .error (.uv (w.results calls) "close") w'
      else .ok (some n) w' := by
  intro w'
  have hclose := run_closeSync w.next (r := w.results calls)
    (w := writing (opening w path) path data n calls) rfl
  rw [writeFileSync, run_bind_ok (run_openSync_write data hr), run_bind_ok hloop]
  by_cases hneg : w.results calls < 0
  · rw [if_pos hneg] at hclose ⊢
    exact run_bind_error hclose
  · rw [if_neg hneg] at hclose ⊢
    exact run_bind_ok hclose

end functions

end IotJs.Fs

import IotJs.Proofs.FsLoops

/-!
# `IotJs.Proofs.FsRoundTrip`: what `writeFileSync` writes, `readFileSync` reads

No call fails here, but each may move less than it was asked to. The writer names the position of
each piece and the reader takes the current one, so neither depends on where the other's pieces
end.
-/

set_option autoImplicit false

namespace IotJs.Fs

variable {w : World} {path : String} {data : Bytes}

/-- A call that moves something gets further. -/
theorem lt_written_succ {r : Nat → Int} {length j : Nat} (hr : 0 < r j)
    (hlt : written r length j < length) : written r length j < written r length (j + 1) := by
  have htry := tryN_pos (Nat.sub_pos_of_lt hlt)
  rw [written]
  omega

/-- Where each call moves something, one of them is the last. -/
theorem exists_last_write {r : Nat → Int} {length : Nat} (hr : ∀ j, 0 < r j) (hlength : 0 < length) :
    ∃ k, (∀ j ≤ k, written r length j < length) ∧ written r length (k + 1) = length := by
  have hgrows : ∀ j, written r length j < length → written r length j < written r length (j + 1) :=
    fun j => lt_written_succ (hr j)
  obtain ⟨k, hbefore, hend⟩ :=
    Progress.exists_first_of_lt_succ (written r length) hgrows fun _ hlt => hlt
  -- the call number `k` is the first that has nothing to write, so the one before it is the last
  cases k with
  | zero => exact absurd hlength hend
  | succ k =>
      refine ⟨k, fun j hj => hbefore j (Nat.lt_succ_of_le hj), ?_⟩
      exact Nat.le_antisymm (written_le r length (k + 1)) (Nat.not_lt.mp hend)

/-- All of the data is written, and the file holds it. -/
theorem writeFileSync_writes (path : String) (hdata : data ≠ [])
    (hlength : data.length < 2147483648) (hresults : ∀ k, 0 < w.results k) :
    ∃ enough w', w'.files path = some data ∧ w'.results = w.results ∧
      ∀ fuel, enough < fuel → (writeFileSync fuel path data).run w = .ok (some data.length) w' := by
  have hr : ∀ j, 0 < later w j := fun j => hresults _
  obtain ⟨k, hbefore, hlast⟩ := exists_last_write hr (List.length_pos_iff.mpr hdata)
  have hon : ∀ i < k, WritesOn (later w) data.length i := by
    intro i hi
    exact ⟨fits_of_lt hlength (hbefore i (Nat.le_of_lt hi)), Int.le_of_lt (hr i),
      Nat.ne_of_lt (hbefore (i + 1) hi)⟩
  have hend : ¬ WritesOn (later w) data.length k := fun h => h.2.2 hlast
  have hfd : (opening w path).fds w.next = some ⟨path, 0⟩ := by simp [opening]
  refine ⟨k, (uvClose w.next (writing (opening w path) path data data.length
    (w.calls + 1 + k + 1))).2, by simp [uvClose, writing], rfl, ?_⟩
  intro fuel hfuel
  have hloop := writeLoop_ends (w := opening w path) (r := later w) rfl hfd hon hend fuel hfuel
  rw [if_neg (not_not.mpr (fits_of_lt hlength (hbefore k (Nat.le_refl k)))),
    if_neg (Int.not_lt.mpr (Int.le_of_lt (hr k)))] at hloop
  have hrun := run_writeFileSync (Int.le_of_lt (hresults w.calls)) hloop
  exact hrun.trans (if_neg (Int.not_lt.mpr (Int.le_of_lt (hresults _))))

/-- The contents of a file are read. -/
theorem readFileSync_reads (hfile : w.files path = some data) (hresults : ∀ k, 0 < w.results k) :
    ∃ enough w', ∀ fuel, enough < fuel →
      (readFileSync fuel path).run w = .ok (some data) w' := by
  have hopens : Opens w path := ⟨Int.le_of_lt (hresults w.calls), by simp [hfile]⟩
  obtain ⟨k, hon, hend⟩ := exists_not_readsOn (later w) data.length
  -- no call fails, so only the end of the file ends the loop
  have hwhole : position (later w) data.length k = data.length := by
    by_contra hne
    exact hend ⟨hresults _, Nat.lt_of_le_of_ne (position_le _ _ _) hne⟩
  refine ⟨k, (uvClose w.next (reading (opening w path) w.next path
    (position (later w) data.length k) (w.calls + 1 + k + 1))).2, fun fuel hfuel => ?_⟩
  have hrun := run_readFileSync hopens hfile hon hend fuel hfuel
  have hclose : ¬ later w (k + 1) < 0 := Int.not_lt.mpr (Int.le_of_lt (hresults _))
  have htake := (take_eq_self_iff (position_le (later w) data.length k)).mpr hwhole
  exact (hrun.trans (if_neg hclose)).trans (by rw [htake])

/-- Where no call fails and each one moves something, a file that was written is read as it was
written, and both functions end. -/
theorem round_trip (w : World) (path : String) (data : Bytes) (hdata : data ≠ [])
    (hlength : data.length < 2147483648) (hresults : ∀ k, 0 < w.results k) :
    ∃ enough w' w'', ∀ fuel, enough < fuel →
      (writeFileSync fuel path data).run w = .ok (some data.length) w' ∧
      (readFileSync fuel path).run w' = .ok (some data) w'' := by
  obtain ⟨enough, w', hfile, hsame, hwrite⟩ :=
    writeFileSync_writes path hdata hlength hresults
  obtain ⟨enough', w'', hread⟩ := readFileSync_reads hfile fun k => hsame ▸ hresults k
  refine ⟨max enough enough', w', w'', fun fuel hfuel => ⟨hwrite fuel ?_, hread fuel ?_⟩⟩
  · exact Nat.lt_of_le_of_lt (Nat.le_max_left enough enough') hfuel
  · exact Nat.lt_of_le_of_lt (Nat.le_max_right enough enough') hfuel

/-- Two bytes, one a call. -/
theorem round_trip_short :
    let w : World := ⟨fun _ => none, fun _ => none, 3, fun _ => 1, 0, [], []⟩
    ([1, 2] : Bytes) ≠ [] ∧ (∀ k, 0 < w.results k) ∧
    ∃ enough w' w'', ∀ fuel, enough < fuel →
      (writeFileSync fuel "/a" [1, 2]).run w = .ok (some 2) w' ∧
      (readFileSync fuel "/a").run w' = .ok (some [1, 2]) w'' :=
  ⟨List.cons_ne_nil 1 [2], fun _ => Int.one_pos,
    round_trip ⟨fun _ => none, fun _ => none, 3, fun _ => 1, 0, [], []⟩ "/a" [1, 2]
      (List.cons_ne_nil 1 [2]) (by decide) fun _ => Int.one_pos⟩

end IotJs.Fs

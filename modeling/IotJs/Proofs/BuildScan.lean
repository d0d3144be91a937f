import IotJs.Core.Build
import Mathlib.Data.List.Forall2
import Mathlib.Data.List.ReduceOption

/-!
# `IotJs.Proofs.BuildScan`: what `re.findall` finds in a source

The expressions of the build have a `(.*)` in the middle, and it takes as much of a line as it can.
So there is at most one match in a line: it begins at the first front of the line and ends with the
last back, and what stands between them is the group, also where it holds other quotes
(`Captures`).

`scans_reJsModule` says that the names that are found are these groups, line by line. The steps are
`findFrom_append_newline`, which takes off one line, and `findFrom_eq_toList`, which leaves at most
one match for it.
-/

set_option autoImplicit false

namespace IotJs

namespace Build

/-- The characters are of the given classes, one by one. -/
def Fits (classes : List (Char → Bool)) (text : List Char) : Prop :=
  List.Forall₂ (fun p c => p c = true) classes text

/-- `name` is what stands between the first front of the line and the last back. -/
def Captures (e : Capture) (line name : List Char) : Prop :=
  ∃ before f b after, line = before ++ f ++ name ++ b ++ after ∧ Fits e.front f ∧ Fits e.back b ∧
    (∀ before' f' after', line = before' ++ f' ++ after' → Fits e.front f' →
      before.length ≤ before'.length) ∧
    ∀ before' b' after', line = before' ++ b' ++ after' → Fits e.back b' →
      before'.length ≤ (before ++ f ++ name).length

/-- Neither part of the expression is empty, and no class of them has an end of a line in it. -/
structure Capture.OneLine (e : Capture) : Prop where
  front_ne : e.front ≠ []
  back_ne : e.back ≠ []
  front_newline : ∀ p ∈ e.front, p '\n' = false
  back_newline : ∀ p ∈ e.back, p '\n' = false

variable {e : Capture} {classes back : List (Char → Bool)} {text line rest name : List Char}

/-! ### One match -/

theorem behind_eq_some_iff :
    behind classes text = some rest ↔ ∃ part, Fits classes part ∧ text = part ++ rest := by
  induction classes generalizing text with
  | nil =>
      rw [behind]
      constructor
      · intro h
        exact ⟨[], .nil, Option.some.inj h⟩
      · rintro ⟨part, hpart, rfl⟩
        cases hpart
        rfl
  | cons p classes ih =>
      cases text with
      | nil =>
          refine iff_of_false (fun h => by cases h) ?_
          rintro ⟨part, hpart, heq⟩
          cases hpart
          cases heq
      | cons c text =>
          rw [behind]
          constructor
          · intro h
            split at h
            · rename_i hc
              obtain ⟨part, hpart, rfl⟩ := ih.mp h
              exact ⟨c :: part, .cons hc hpart, rfl⟩
            · cases h
          · rintro ⟨part, hpart, heq⟩
            cases hpart with
            | cons hc hpart =>
                cases heq
                rw [if_pos hc]
                exact ih.mpr ⟨_, hpart, rfl⟩

theorem Fits.length_pos (h : Fits classes text) (hne : classes ≠ []) : 0 < text.length := by
  rw [← List.Forall₂.length_eq h]
  exact List.length_pos_of_ne_nil hne

theorem dot_of_notMem {c : Char} (hline : '\n' ∉ c :: line) : dot c = true := by
  simp only [dot, decide_eq_true_eq]
  exact fun hc => hline (hc ▸ List.mem_cons_self)

/-- A back fits somewhere in the line. -/
def HasBack (back : List (Char → Bool)) (line : List Char) : Prop :=
  ∃ before b after, line = before ++ b ++ after ∧ Fits back b

theorem not_hasBack_nil (hback : back ≠ []) : ¬ HasBack back [] := by
  rintro ⟨before, b, after, heq, hb⟩
  have hpos := hb.length_pos hback
  have hlength := congrArg List.length heq
  simp only [List.length_nil, List.length_append] at hlength
  omega

theorem hasBack_cons_iff {c : Char} :
    HasBack back (c :: line) ↔ HasBack back line ∨ ∃ rest, behind back (c :: line) = some rest := by
  constructor
  · rintro ⟨before, b, after, heq, hb⟩
    cases before with
    | nil => exact .inr ⟨after, behind_eq_some_iff.mpr ⟨b, hb, heq⟩⟩
    | cons d before => exact .inl ⟨before, b, after, (List.cons.inj heq).2, hb⟩
  · rintro (⟨before, b, after, rfl, hb⟩ | ⟨rest, hrest⟩)
    · exact ⟨c :: before, b, after, rfl, hb⟩
    · obtain ⟨b, hb, heq⟩ := behind_eq_some_iff.mp hrest
      exact ⟨[], b, rest, heq, hb⟩

theorem group_eq_none_iff (hback : back ≠ []) (hline : '\n' ∉ line) :
    group back line = none ↔ ¬ HasBack back line := by
  induction line with
  | nil =>
      refine iff_of_true ?_ (not_hasBack_nil hback)
      cases back with
      | nil => exact absurd rfl hback
      | cons p back => rfl
  | cons c line ih =>
      have hrest : '\n' ∉ line := fun h => hline (List.mem_cons_of_mem c h)
      rw [hasBack_cons_iff, not_or, ← ih hrest, group, if_pos (dot_of_notMem hline)]
      cases group back line with
      | some found => simp
      | none => cases behind back (c :: line) <;> simp

/-- The group is the longest one: no back begins behind its end. -/
theorem group_eq_some_iff (hback : back ≠ []) (hline : '\n' ∉ line) :
    group back line = some (name, rest) ↔
      ∃ b, line = name ++ b ++ rest ∧ Fits back b ∧
        ∀ before b' after, line = before ++ b' ++ after → Fits back b' →
          before.length ≤ name.length := by
  induction line generalizing name rest with
  | nil =>
      rw [(group_eq_none_iff hback hline).mpr (not_hasBack_nil hback)]
      refine iff_of_false (fun h => by cases h) ?_
      rintro ⟨b, heq, hb, -⟩
      exact not_hasBack_nil hback ⟨name, b, rest, heq, hb⟩
  | cons c line ih =>
      have hrest : '\n' ∉ line := fun h => hline (List.mem_cons_of_mem c h)
      simp only [group, if_pos (dot_of_notMem hline)]
      cases hgroup : group back line with
      | some found =>
          -- a longer group has precedence
          obtain ⟨b, heq, hb, hlast⟩ := (ih hrest).mp hgroup
          simp only [Option.map_some, Option.orElse_some, Option.some.injEq, Prod.mk.injEq]
          constructor
          · rintro ⟨rfl, rfl⟩
            refine ⟨b, by rw [heq]; rfl, hb, fun before b' after heq' hb' => ?_⟩
            cases before with
            | nil => exact Nat.zero_le _
            | cons d before =>
                have hsame : line = before ++ b' ++ after := (List.cons.inj heq').2
                exact Nat.succ_le_succ (hlast before b' after hsame hb')
          · rintro ⟨b', heq', hb', hlast'⟩
            have hfound : (c :: found.1).length ≤ name.length :=
              hlast' (c :: found.1) b found.2 (by rw [heq]; rfl) hb
            cases name with
            | nil => cases hfound
            | cons d name =>
                obtain ⟨rfl, hsame⟩ := List.cons.inj heq'
                have hagain : group back line = some (name, rest) := by
                  refine (ih hrest).mpr ⟨b', hsame, hb', fun before b'' after heq'' hb'' => ?_⟩
                  have hle := hlast' (c :: before) b'' after (by rw [heq'']; rfl) hb''
                  exact Nat.le_of_succ_le_succ hle
                rw [hgroup] at hagain
                obtain rfl := Option.some.inj hagain
                exact ⟨rfl, rfl⟩
      | none =>
          have hnone := (group_eq_none_iff hback hrest).mp hgroup
          simp only [Option.map_none, Option.orElse_none, Option.map_eq_some_iff, Prod.mk.injEq]
          constructor
          · rintro ⟨rest', hbehind, rfl, rfl⟩
            obtain ⟨b, hb, heq⟩ := behind_eq_some_iff.mp hbehind
            refine ⟨b, heq, hb, fun before b' after heq' hb' => ?_⟩
            cases before with
            | nil => exact Nat.le_refl 0
            | cons d before =>
                exact absurd ⟨before, b', after, (List.cons.inj heq').2, hb'⟩ hnone
          · rintro ⟨b, heq, hb, -⟩
            cases name with
            | nil => exact ⟨rest, behind_eq_some_iff.mpr ⟨b, hb, heq⟩, rfl, rfl⟩
            | cons d name =>
                exact absurd ⟨name, b, rest, (List.cons.inj heq).2, hb⟩ hnone

/-! ### One line -/

/-- What stands behind a match has no back in it, so no other match follows. -/
theorem not_hasBack_of_group (hback : back ≠ []) (hline : '\n' ∉ line)
    (h : group back line = some (name, rest)) : ¬ HasBack back rest := by
  obtain ⟨b, heq, hb, hlast⟩ := (group_eq_some_iff hback hline).mp h
  rintro ⟨before, b', after, rfl, hb'⟩
  have hle := hlast (name ++ b ++ before) b' after (by rw [heq]; simp) hb'
  have hpos := hb.length_pos hback
  simp only [List.length_append] at hle
  omega

theorem matchAt_eq_some_iff (h : e.OneLine) (hline : '\n' ∉ line) :
    e.matchAt line = some (name, rest) ↔
      ∃ f b, line = f ++ name ++ b ++ rest ∧ Fits e.front f ∧ Fits e.back b ∧
        ∀ before b' after, line = f ++ before ++ b' ++ after → Fits e.back b' →
          before.length ≤ name.length := by
  rw [Capture.matchAt, Option.bind_eq_some_iff]
  constructor
  · rintro ⟨text, htext, hgroup⟩
    obtain ⟨f, hf, rfl⟩ := behind_eq_some_iff.mp htext
    have hrest : '\n' ∉ text := fun hmem => hline (List.mem_append_right f hmem)
    obtain ⟨b, rfl, hb, hlast⟩ := (group_eq_some_iff h.back_ne hrest).mp hgroup
    refine ⟨f, b, by simp, hf, hb, fun before b' after heq hb' => ?_⟩
    simp only [List.append_assoc] at heq
    refine hlast before b' after ?_ hb'
    rw [List.append_assoc, List.append_assoc, List.append_cancel_left heq]
  · rintro ⟨f, b, rfl, hf, hb, hlast⟩
    refine ⟨name ++ b ++ rest, behind_eq_some_iff.mpr ⟨f, hf, by simp⟩, ?_⟩
    have hrest : '\n' ∉ name ++ b ++ rest := fun hmem => hline (by simp at hmem ⊢; tauto)
    refine (group_eq_some_iff h.back_ne hrest).mpr ⟨b, rfl, hb, fun before b' after heq hb' => ?_⟩
    exact hlast before b' after (by simp only [List.append_assoc] at heq ⊢; rw [heq]) hb'

theorem findFrom_eq_drop (e : Capture) (n : Nat) (text : List Char) :
    findFrom e n text = findFrom e 0 (text.drop n) := by
  induction n generalizing text with
  | zero => rfl
  | succ n ih =>
      cases text with
      | nil => rfl
      | cons c text => exact ih text

theorem findFrom_cons_of_none {c : Char} (h : e.matchAt (c :: line) = none) :
    findFrom e 0 (c :: line) = findFrom e 0 line := by
  rw [findFrom, h]

theorem findFrom_cons_of_some {c : Char} (h : e.matchAt (c :: line) = some (name, rest))
    (hrest : rest <:+ line) : findFrom e 0 (c :: line) = name :: findFrom e 0 rest := by
  rw [findFrom, h]
  refine congrArg (name :: ·) ?_
  obtain ⟨part, rfl⟩ := hrest
  rw [findFrom_eq_drop, List.length_append, Nat.add_sub_cancel, List.drop_left]

theorem hasBack_of_matchAt (h : e.OneLine) (hline : '\n' ∉ line)
    (hmatch : e.matchAt line = some (name, rest)) : HasBack e.back line := by
  obtain ⟨f, b, heq, -, hb, -⟩ := (matchAt_eq_some_iff h hline).mp hmatch
  exact ⟨f ++ name, b, rest, heq, hb⟩

/-- Without a back there is no match. -/
theorem findFrom_eq_nil (h : e.OneLine) (hline : '\n' ∉ line) (hnone : ¬ HasBack e.back line) :
    findFrom e 0 line = [] := by
  induction line with
  | nil => rfl
  | cons c line ih =>
      have hmatch : e.matchAt (c :: line) = none :=
        Option.eq_none_iff_forall_not_mem.mpr fun m hm => hnone (hasBack_of_matchAt h hline hm)
      rw [findFrom_cons_of_none hmatch]
      refine ih (fun hmem => hline (List.mem_cons_of_mem c hmem)) fun hback => ?_
      exact hnone (hasBack_cons_iff.mpr (.inl hback))

/-- A match at the beginning is what the line captures. -/
theorem captures_iff_of_matchAt {c : Char} {other : List Char} (h : e.OneLine)
    (hline : '\n' ∉ c :: line) (hmatch : e.matchAt (c :: line) = some (name, rest)) :
    Captures e (c :: line) other ↔ name = other := by
  obtain ⟨f, b, heq, hf, hb, hlast⟩ := (matchAt_eq_some_iff h hline).mp hmatch
  constructor
  · rintro ⟨before, f', b', after, heq', hf', hb', hfirst, hlast'⟩
    -- the front of the match is the first one
    have hlength := hfirst [] f (name ++ b ++ rest) (by rw [heq]; simp) hf
    obtain rfl := List.length_eq_zero_iff.mp (Nat.le_zero.mp hlength)
    have hagain : e.matchAt (c :: line) = some (other, after) := by
      refine (matchAt_eq_some_iff h hline).mpr
        ⟨f', b', heq', hf', hb', fun mid b'' after'' h'' hb'' => ?_⟩
      have hle := hlast' (f' ++ mid) b'' after'' h'' hb''
      simp only [List.nil_append, List.length_append] at hle
      omega
    rw [hmatch] at hagain
    exact (Prod.mk.inj (Option.some.inj hagain)).1
  · rintro rfl
    refine ⟨[], f, b, rest, heq, hf, hb, fun _ _ _ _ _ => Nat.zero_le _,
      fun before b' after h' hb' => ?_⟩
    simp only [List.nil_append, List.length_append]
    by_cases hshort : before.length ≤ f.length
    · omega
    · -- what stands in front of the back begins with the front
      have hsame : f ++ (name ++ b ++ rest) = before ++ (b' ++ after) := by
        rw [← List.append_assoc before, ← h', heq]
        simp
      obtain ⟨mid, rfl, -⟩ := (List.append_eq_append_iff.mp hsame).resolve_right fun ⟨mid, hf, _⟩ =>
        hshort (by rw [hf, List.length_append]; omega)
      have hle := hlast mid b' after h' hb'
      rw [List.length_append]
      omega

/-- Without a match at the beginning, a line captures what its rest does. -/
theorem captures_cons_iff {c : Char} (h : e.OneLine) (hline : '\n' ∉ c :: line)
    (hmatch : e.matchAt (c :: line) = none) :
    Captures e (c :: line) name ↔ Captures e line name := by
  constructor
  · rintro ⟨before, f, b, after, heq, hf, hb, hfirst, hlast⟩
    cases before with
    | nil =>
        have hsome : e.matchAt (c :: line) = some (name, after) := by
          refine (matchAt_eq_some_iff h hline).mpr
            ⟨f, b, heq, hf, hb, fun mid b' after' h' hb' => ?_⟩
          have hle := hlast (f ++ mid) b' after' h' hb'
          simp only [List.nil_append, List.length_append] at hle
          omega
        rw [hmatch] at hsome
        cases hsome
    | cons d before =>
        refine ⟨before, f, b, after, (List.cons.inj heq).2, hf, hb,
          fun before' f' after' h' hf' => ?_, fun before' b' after' h' hb' => ?_⟩
        · have hle := hfirst (c :: before') f' after' (by rw [h']; rfl) hf'
          exact Nat.le_of_succ_le_succ hle
        · have hle := hlast (c :: before') b' after' (by rw [h']; rfl) hb'
          exact Nat.le_of_succ_le_succ hle
  · rintro ⟨before, f, b, after, rfl, hf, hb, hfirst, hlast⟩
    refine ⟨c :: before, f, b, after, rfl, hf, hb, fun before' f' after' h' hf' => ?_,
      fun before' b' after' h' hb' => ?_⟩
    · cases before' with
      | nil =>
          -- a front at the beginning would have the back behind it
          have hlength : f'.length = f.length := by
            rw [← List.Forall₂.length_eq hf', ← List.Forall₂.length_eq hf]
          have hsame : f' ++ after' = (c :: before ++ f) ++ (name ++ b ++ after) := by
            rw [List.nil_append] at h'
            rw [← h']
            simp
          obtain ⟨mid, hmid, hafter⟩ := (List.append_eq_append_iff.mp hsame).resolve_right
            fun ⟨mid, hf, _⟩ => by
              have hbad := congrArg List.length hf
              simp only [List.length_append, List.length_cons] at hbad
              omega
          have hrest : '\n' ∉ after' := fun hmem => hline (by rw [h']; simp [hmem])
          have hback : HasBack e.back after' :=
            ⟨mid ++ name, b, after, by rw [hafter]; simp, hb⟩
          rw [Capture.matchAt, h', List.nil_append, behind_eq_some_iff.mpr ⟨f', hf', rfl⟩,
            Option.bind_some, group_eq_none_iff h.back_ne hrest] at hmatch
          exact absurd hback hmatch
      | cons d before' =>
          have hle := hfirst before' f' after' (List.cons.inj h').2 hf'
          exact Nat.succ_le_succ hle
    · cases before' with
      | nil => exact Nat.zero_le _
      | cons d before' =>
          have hle := hlast before' b' after' (List.cons.inj h').2 hb'
          exact Nat.succ_le_succ hle

/-- A line has one match at most. -/
theorem findFrom_eq_toList (h : e.OneLine) (hline : '\n' ∉ line) :
    ∃ found : Option (List Char), findFrom e 0 line = found.toList ∧
      ∀ name, found = some name ↔ Captures e line name := by
  induction line with
  | nil =>
      refine ⟨none, rfl, fun name => iff_of_false (fun h => by cases h) ?_⟩
      rintro ⟨before, f, b, after, heq, -, hb, -⟩
      exact not_hasBack_nil h.back_ne ⟨before ++ f ++ name, b, after, heq, hb⟩
  | cons c line ih =>
      have hrest : '\n' ∉ line := fun hmem => hline (List.mem_cons_of_mem c hmem)
      cases hmatch : e.matchAt (c :: line) with
      | none =>
          obtain ⟨found, hfound, hall⟩ := ih hrest
          refine ⟨found, (findFrom_cons_of_none hmatch).trans hfound, fun name => ?_⟩
          rw [captures_cons_iff h hline hmatch, hall]
      | some m =>
          obtain ⟨name, rest⟩ := m
          obtain ⟨f, b, heq, hf, hb, -⟩ := (matchAt_eq_some_iff h hline).mp hmatch
          have hsuffix : rest <:+ line := by
            cases f with
            | nil => exact absurd (hf.length_pos h.front_ne) (Nat.lt_irrefl 0)
            | cons d f => exact ⟨f ++ name ++ b, (List.cons.inj heq).2.symm⟩
          have hnone : ¬ HasBack e.back rest := by
            rw [Capture.matchAt] at hmatch
            obtain ⟨text, htext, hgroup⟩ := Option.bind_eq_some_iff.mp hmatch
            obtain ⟨f', -, htext⟩ := behind_eq_some_iff.mp htext
            refine not_hasBack_of_group h.back_ne (fun hmem => hline ?_) hgroup
            rw [htext]
            exact List.mem_append_right f' hmem
          have hnil := findFrom_eq_nil h (fun hmem => hrest (hsuffix.mem hmem)) hnone
          refine ⟨some name, ?_, fun other => ?_⟩
          · rw [findFrom_cons_of_some hmatch hsuffix, hnil]
            rfl
          · rw [captures_iff_of_matchAt h hline hmatch, Option.some.injEq]

/-! ### The lines of a source -/

theorem behind_append_newline (h : ∀ p ∈ classes, p '\n' = false) (line rest : List Char) :
    behind classes (line ++ '\n' :: rest) = (behind classes line).map (· ++ '\n' :: rest) := by
  induction classes generalizing line with
  | nil => rfl
  | cons p classes ih =>
      cases line with
      | nil => exact if_neg (by rw [h p List.mem_cons_self]; exact Bool.false_ne_true)
      | cons c line =>
          rw [List.cons_append, behind, behind]
          by_cases hc : p c = true
          · rw [if_pos hc, if_pos hc, ih fun q hq => h q (List.mem_cons_of_mem p hq)]
          · rw [if_neg hc, if_neg hc]
            rfl

theorem group_append_newline (hback : back ≠ []) (h : ∀ p ∈ back, p '\n' = false)
    (line rest : List Char) :
    group back (line ++ '\n' :: rest) =
      (group back line).map fun m => (m.1, m.2 ++ '\n' :: rest) := by
  induction line with
  | nil =>
      have hnone : behind back ('\n' :: rest) = none := by
        cases back with
        | nil => exact absurd rfl hback
        | cons p back => exact if_neg (by rw [h p List.mem_cons_self]; exact Bool.false_ne_true)
      have hnil : behind back [] = none := by
        cases back with
        | nil => exact absurd rfl hback
        | cons p back => rfl
      rw [List.nil_append, group, group, hnone, hnil]
      rfl
  | cons c line ih =>
      rw [List.cons_append, group, group, ih, ← List.cons_append, behind_append_newline h]
      cases dot c <;> cases group back line <;> cases behind back (c :: line) <;> rfl

theorem matchAt_append_newline (h : e.OneLine) (line rest : List Char) :
    e.matchAt (line ++ '\n' :: rest) =
      (e.matchAt line).map fun m => (m.1, m.2 ++ '\n' :: rest) := by
  rw [Capture.matchAt, Capture.matchAt, behind_append_newline h.front_newline]
  cases behind e.front line with
  | none => rfl
  | some text => exact group_append_newline h.back_ne h.back_newline text rest

/-- A match does not go beyond its line. -/
theorem findFrom_append_newline (h : e.OneLine) (n : Nat) (line rest : List Char)
    (hn : n ≤ line.length) :
    findFrom e n (line ++ '\n' :: rest) = findFrom e n line ++ findFrom e 0 rest := by
  induction line generalizing n with
  | nil =>
      obtain rfl := Nat.le_zero.mp hn
      have hnone : e.matchAt ([] ++ '\n' :: rest) = none := by
        rw [matchAt_append_newline h, Capture.matchAt]
        cases hfront : e.front with
        | nil => exact absurd hfront h.front_ne
        | cons p front => rfl
      exact findFrom_cons_of_none hnone
  | cons c line ih =>
      cases n with
      | succ n => exact ih n (Nat.le_of_succ_le_succ hn)
      | zero =>
          have hmatch := matchAt_append_newline h (c :: line) rest
          rw [List.cons_append] at hmatch
          rw [List.cons_append, findFrom, hmatch]
          cases hline : e.matchAt (c :: line) with
          | none =>
              rw [findFrom_cons_of_none hline]
              exact ih 0 (Nat.zero_le _)
          | some m =>
              rw [findFrom, hline]
              simp only [Option.map_some, List.length_append, Nat.add_sub_add_right]
              rw [ih _ (Nat.sub_le _ _)]
              rfl

/-- What `re.findall` finds: line by line what the line captures. -/
def Scans (e : Capture) (content : String) : Prop :=
  ∃ found : List (Option (List Char)),
    List.Forall₂ (fun line name? => ∀ name, name? = some name ↔ Captures e line name)
      (content.toList.splitOn '\n') found ∧
    findall e content = found.reduceOption.map String.ofList

theorem reduceOption_cons {α : Type} (found : Option α) (all : List (Option α)) :
    (found :: all).reduceOption = found.toList ++ all.reduceOption := by
  cases found with
  | none => exact List.reduceOption_cons_of_none all
  | some a => exact List.reduceOption_cons_of_some a all

theorem scans_lines (h : e.OneLine) (text : List Char) :
    ∃ found : List (Option (List Char)),
      List.Forall₂ (fun line name? => ∀ name, name? = some name ↔ Captures e line name)
        (text.splitOn '\n') found ∧
      findFrom e 0 text = found.reduceOption := by
  induction hlength : text.length using Nat.strong_induction_on generalizing text with
  | h n ih =>
      by_cases hnewline : '\n' ∈ text
      · obtain ⟨line, rest, rfl, hline⟩ := List.eq_append_cons_of_mem hnewline
        rw [List.length_append, List.length_cons] at hlength
        obtain ⟨all, hall, hrest⟩ := ih rest.length (by omega) rest rfl
        obtain ⟨found, hfound, hone⟩ := findFrom_eq_toList h hline
        have hsplit : (line ++ '\n' :: rest).splitOn '\n' = line :: rest.splitOn '\n' := by
          refine List.splitOnP_append_cons_of_forall_mem (fun c hc => ?_) '\n' rfl rest
          exact beq_eq_false_iff_ne.mpr fun heq => hline (heq ▸ hc)
        refine ⟨found :: all, ?_, ?_⟩
        · rw [hsplit]
          exact .cons hone hall
        · rw [findFrom_append_newline h 0 line rest (Nat.zero_le _), hfound, hrest,
            reduceOption_cons]
      · obtain ⟨found, hfound, hone⟩ := findFrom_eq_toList h hnewline
        have hsplit : text.splitOn '\n' = [text] :=
          List.splitOnP_eq_singleton fun c hc =>
            beq_eq_false_iff_ne.mpr fun heq => hnewline (heq ▸ hc)
        refine ⟨[found], ?_, ?_⟩
        · rw [hsplit]
          exact .cons hone .nil
        · rw [hfound, reduceOption_cons, List.reduceOption_nil, List.append_nil]

theorem scans_of_oneLine (h : e.OneLine) (content : String) : Scans e content := by
  obtain ⟨found, hlines, hall⟩ := scans_lines h content.toList
  exact ⟨found, hlines, by rw [findall, hall]⟩

theorem reJsModule_oneLine : reJsModule.OneLine where
  front_ne := by decide
  back_ne := by decide
  front_newline := by decide
  back_newline := by decide

theorem reNativeModule_oneLine : reNativeModule.OneLine where
  front_ne := by decide
  back_ne := by decide
  front_newline := by decide
  back_newline := by decide

/-- The modules and the built-in objects that the build finds in a source: one a line at most, and
all that stands between the first front of the line and its last back. -/
theorem findall_scans (content : String) :
    Scans reJsModule content ∧ Scans reNativeModule content :=
  ⟨scans_of_oneLine reJsModule_oneLine content, scans_of_oneLine reNativeModule_oneLine content⟩

/-- Two modules that are required in one line are taken for one. -/
example :
    findall reJsModule "var fs = require('fs'), net = require('net');\nrequire(\x22util\x22)" =
      ["fs'), net = require('net", "util"] := by
  decide +kernel

end Build

end IotJs

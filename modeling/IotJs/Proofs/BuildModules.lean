import IotJs.Core.Build
import IotJs.Lib.Fallible
import IotJs.Lib.Worklist

/-!
# `IotJs.Proofs.BuildModules`: which modules a build takes in

`Needed` says which modules a build has to read: those of the options, and what their sources
require, in turn. It does not speak about the order in which the loop takes them.

* `analyzeModuleDependency_ok_iff`: for every order, the analysis succeeds if and only if the
  options are consistent (`Consistent`) and each needed module has a source that requires nothing
  that is excluded (`Readable`). Then it gives the needed modules and their bindings.
* `exists_analyzeLoop`: wherever the loop has come to, it can be brought to its end, and
  `length_order_le` bounds the number of turns by the number of files.

The loop refines `Worklist.Runs` (`analyzeLoop_iff_runs`) for the successors `required`, which are
missing where a turn fails.
-/

set_option autoImplicit false

namespace IotJs

namespace Build

open Fallible

/-! ### The options -/

/-- The names that the options and `build.config` exclude. -/
def excludedNames (option : BuildOption) : List String :=
  option.iotjsExcludeModule ++ option.config.exclude

/-- The modules of `build.config` that are not asked for on the command line. -/
def configuredNames (option : BuildOption) : List String :=
  option.config.always ++ if option.iotjsMinimalProfile then [] else option.config.optional

/-- The modules that wait in the queue at the beginning. -/
def queuedNames (option : BuildOption) : Finset String :=
  (option.iotjsIncludeModule ++ configuredNames option).toFinset \ (excludedNames option).toFinset

/-- The options do not contradict each other. -/
structure Consistent (option : BuildOption) : Prop where
  included : (configuredNames option).Nodup
  fresh : ∀ name ∈ configuredNames option, name ∉ option.iotjsIncludeModule
  excluded : (excludedNames option).Nodup
  optional : ∀ name ∈ excludedNames option, name ∉ option.config.always
  found : ∀ name ∈ excludedNames option,
    name ∈ option.iotjsIncludeModule ++ configuredNames option

theorem addModules_eq_ok_iff {message : String → String} {names list out : List String} :
    addModules message names list = .ok out ↔
      (names.Nodup ∧ ∀ name ∈ names, name ∉ list) ∧ out = list ++ names := by
  induction names generalizing list with
  | nil => simp [addModules, eq_comm]
  | cons name names ih =>
      rw [addModules]
      by_cases hname : name ∈ list
      · rw [if_pos hname]
        refine iff_of_false (fun h => by cases h) fun h => ?_
        exact h.1.2 name List.mem_cons_self hname
      · rw [if_neg hname, ih, List.nodup_cons, List.append_assoc, List.singleton_append]
        refine and_congr_left fun _ => ?_
        constructor
        · rintro ⟨hnodup, hfresh⟩
          refine ⟨⟨fun hmem => ?_, hnodup⟩, fun other hother => ?_⟩
          · exact hfresh name hmem (List.mem_append_right list List.mem_cons_self)
          · rcases List.mem_cons.mp hother with rfl | hother
            · exact hname
            · exact fun hmem => hfresh other hother (List.mem_append_left _ hmem)
        · rintro ⟨⟨hnew, hnodup⟩, hfresh⟩
          refine ⟨hnodup, fun other hother hmem => ?_⟩
          rcases List.mem_append.mp hmem with hmem | hmem
          · exact hfresh other (List.mem_cons_of_mem name hother) hmem
          · rw [List.mem_singleton.mp hmem] at hother
            exact hnew hother

theorem excludeModules_eq_ok_iff {always names : List String} {queue out : Finset String} :
    excludeModules always names queue = .ok out ↔
      (names.Nodup ∧ (∀ name ∈ names, name ∉ always) ∧ ∀ name ∈ names, name ∈ queue) ∧
        out = queue \ names.toFinset := by
  induction names generalizing queue with
  | nil => simp [excludeModules, eq_comm]
  | cons name names ih =>
      rw [excludeModules]
      by_cases halways : name ∈ always
      · rw [if_pos halways]
        refine iff_of_false (fun h => by cases h) fun h => ?_
        exact h.1.2.1 name List.mem_cons_self halways
      rw [if_neg halways]
      by_cases hqueue : name ∈ queue
      · rw [if_pos hqueue, ih, List.nodup_cons, List.toFinset_cons, Finset.sdiff_insert,
          Finset.erase_sdiff_comm]
        refine and_congr_left fun _ => ?_
        simp only [List.forall_mem_cons, Finset.mem_erase]
        constructor
        · rintro ⟨hnodup, hoptional, hfound⟩
          exact ⟨⟨fun hmem => (hfound name hmem).1 rfl, hnodup⟩, ⟨halways, hoptional⟩, hqueue,
            fun other hother => (hfound other hother).2⟩
        · rintro ⟨⟨hnew, hnodup⟩, ⟨-, hoptional⟩, -, hfound⟩
          refine ⟨hnodup, hoptional, fun other hother => ⟨fun heq => ?_, hfound other hother⟩⟩
          rw [heq] at hother
          exact hnew hother
      · rw [if_neg hqueue]
        refine iff_of_false (fun h => by cases h) fun h => ?_
        exact hqueue (h.1.2.2 name List.mem_cons_self)

/-- The queue can be set up exactly if the options are consistent. -/
theorem analyzeQueue_eq_ok_iff {option : BuildOption} {queue : Finset String}
    {excluded : List String} :
    analyzeQueue option = .ok (queue, excluded) ↔
      Consistent option ∧ queue = queuedNames option ∧ excluded = excludedNames option := by
  simp only [analyzeQueue, bind_eq_ok_iff, addModules_eq_ok_iff,
    excludeModules_eq_ok_iff, Except.ok.injEq, Prod.mk.injEq]
  constructor
  · rintro ⟨-, ⟨⟨halways, hnew⟩, rfl⟩, -, ⟨⟨hconfig, hnew'⟩, rfl⟩, -, ⟨⟨-, -⟩, rfl⟩, -,
      ⟨⟨hexcluded, hkept, hfound⟩, rfl⟩, rfl, rfl⟩
    refine ⟨⟨?_, ?_, hexcluded, hkept, fun name hname => ?_⟩, ?_, rfl⟩
    · refine List.Nodup.append halways hconfig fun name hone htwo => ?_
      exact hnew' name htwo (List.mem_append_right _ hone)
    · intro name hname
      rcases List.mem_append.mp hname with hname | hname
      · exact hnew name hname
      · exact fun hmem => hnew' name hname (List.mem_append_left _ hmem)
    · rw [configuredNames, ← List.append_assoc]
      exact List.mem_toFinset.mp (hfound name hname)
    · rw [queuedNames, configuredNames, ← List.append_assoc]
      rfl
  · rintro ⟨h, rfl, rfl⟩
    obtain ⟨halways, hconfig, hdisjoint⟩ := List.nodup_append'.mp h.included
    obtain ⟨-, hexcluded, hdisjoint'⟩ := List.nodup_append'.mp h.excluded
    refine ⟨_, ⟨⟨halways, fun name hname => ?_⟩, rfl⟩, _,
      ⟨⟨hconfig, fun name hname hmem => ?_⟩, rfl⟩, _, ⟨⟨hexcluded, fun name hname hmem => hdisjoint' hmem hname⟩, rfl⟩, _,
      ⟨⟨h.excluded, h.optional, fun name hname => ?_⟩, rfl⟩, ?_, rfl⟩
    · exact h.fresh name (List.mem_append_left _ hname)
    · rcases List.mem_append.mp hmem with hmem | hmem
      · exact h.fresh name (List.mem_append_right _ hname) hmem
      · exact hdisjoint hmem hname
    · rw [List.mem_toFinset, List.append_assoc]
      exact h.found name hname
    · rw [queuedNames, configuredNames, List.append_assoc]
      rfl

/-! ### One turn -/

/-- The modules that a source requires. -/
def requires (content : String) : List String := findall reJsModule content

/-- What a source needs, where it can be read and nothing of it is excluded. -/
def required (files : SourceFiles) (excluded : List String) (item : String) :
    Option (List String) :=
  match files.lookup item with
  | none => none
  | some content =>
      if ∀ name ∈ requires content, name ∉ excluded then some (requires content) else none

/-- The built-in objects that a source binds. -/
def bindings (files : SourceFiles) (item : String) : Finset String :=
  match files.lookup item with
  | none => ∅
  | some content => (findall reNativeModule content).toFinset

variable {files : SourceFiles} {excluded names : List String} {item : String} {s s' : Analysis}

theorem addRequired_eq_ok_iff :
    addRequired excluded item names s = .ok s' ↔ (∀ name ∈ names, name ∉ excluded) ∧
      s' = { s with analyzeQueue := s.analyzeQueue ∪ names.toFinset.filter (· ∉ s.jsModules) } := by
  induction names generalizing s with
  | nil => simp [addRequired, eq_comm]
  | cons name names ih =>
      rw [addRequired]
      by_cases hname : name ∈ excluded
      · rw [if_pos hname]
        exact iff_of_false (fun h => by cases h) fun h => h.1 name List.mem_cons_self hname
      rw [if_neg hname, List.forall_mem_cons, and_iff_right hname]
      by_cases hold : name ∈ s.jsModules
      · rw [if_pos hold, ih, List.toFinset_cons, Finset.filter_insert, if_neg (not_not.mpr hold)]
      · rw [if_neg hold, ih, List.toFinset_cons, Finset.filter_insert, if_pos hold,
          Finset.insert_union, Finset.union_insert]

/-- The queue and the modules of the loop. -/
def worklist (s : Analysis) : Worklist.State String := ⟨s.analyzeQueue, s.jsModules⟩

theorem analyzeItem_eq_ok_iff :
    analyzeItem files excluded item s = .ok s' ↔
      ∃ names, required files excluded item = some names ∧
        worklist s' = (worklist s).take item names ∧
        s'.nativeModules = s.nativeModules ∪ bindings files item := by
  rw [analyzeItem, required, bindings]
  cases files.lookup item with
  | none =>
      refine iff_of_false (fun h => by cases h) ?_
      rintro ⟨names, hnames, -⟩
      cases hnames
  | some content =>
      simp only [bind_eq_ok_iff, addRequired_eq_ok_iff]
      by_cases hall : ∀ name ∈ requires content, name ∉ excluded
      · simp only [if_pos hall, Option.some.injEq, exists_eq_left']
        constructor
        · rintro ⟨-, ⟨-, rfl⟩, h⟩
          cases h
          exact ⟨rfl, rfl⟩
        · rintro ⟨hwork, hnative⟩
          refine ⟨_, ⟨hall, rfl⟩, ?_⟩
          obtain ⟨queue, modules, natives⟩ := s'
          have hqueue : queue = _ := congrArg Worklist.State.waiting hwork
          have hmodules : modules = _ := congrArg Worklist.State.taken hwork
          have hnatives : natives = _ := hnative
          rw [hqueue, hmodules, hnatives]
          rfl
      · rw [if_neg hall]
        refine iff_of_false ?_ ?_
        · rintro ⟨-, ⟨hnone, -⟩, -⟩
          exact hall hnone
        · rintro ⟨names, hnames, -⟩
          cases hnames

/-- A turn fails where what the source needs is missing. -/
theorem required_eq_none_of_error {failure : BuildFailure}
    (h : analyzeItem files excluded item s = .error failure) :
    required files excluded item = none := by
  cases hrequired : required files excluded item with
  | none => rfl
  | some names =>
      let next := (worklist s).take item names
      have hok : analyzeItem files excluded item s =
          .ok ⟨next.waiting, next.taken, s.nativeModules ∪ bindings files item⟩ :=
        analyzeItem_eq_ok_iff.mpr ⟨names, hrequired, rfl, rfl⟩
      rw [h] at hok
      cases hok

/-! ### The loop -/

variable {order : List String}

/-- A loop that succeeds is a run of the worklist, and it collects the bindings. -/
theorem runs_of_analyzeLoop_ok (h : analyzeLoop files excluded order s = some (.ok s')) :
    Worklist.Runs (required files excluded) order (worklist s) (some s'.jsModules) ∧
      ∀ name, name ∈ s'.nativeModules ↔
        name ∈ s.nativeModules ∨ ∃ item ∈ order, name ∈ bindings files item := by
  induction order generalizing s with
  | nil =>
      rw [analyzeLoop] at h
      split at h
      · rename_i hempty
        cases h
        refine ⟨.done hempty, fun name => ?_⟩
        simp
      · cases h
  | cons item order ih =>
      rw [analyzeLoop] at h
      split at h
      · rename_i hitem
        split at h
        · split at h
          · cases h
          · cases h
        · rename_i hturn
          obtain ⟨names, hnames, hwork, hnative⟩ := analyzeItem_eq_ok_iff.mp hturn
          obtain ⟨hrun, hall⟩ := ih h
          rw [hwork] at hrun
          refine ⟨.take hitem hnames hrun, fun name => ?_⟩
          rw [hall, hnative, Finset.mem_union, List.exists_mem_cons_iff, or_assoc]
      · cases h

/-- A loop that fails is a run of the worklist as well. -/
theorem runs_of_analyzeLoop_error {failure : BuildFailure}
    (h : analyzeLoop files excluded order s = some (.error failure)) :
    Worklist.Runs (required files excluded) order (worklist s) none := by
  induction order generalizing s with
  | nil =>
      rw [analyzeLoop] at h
      split at h
      · cases h
      · cases h
  | cons item order ih =>
      rw [analyzeLoop] at h
      split at h
      · rename_i hitem
        split at h
        · rename_i hturn
          split at h
          · rename_i hlast
            rw [hlast]
            exact .fail hitem (required_eq_none_of_error hturn)
          · cases h
        · rename_i hturn
          obtain ⟨names, hnames, hwork, -⟩ := analyzeItem_eq_ok_iff.mp hturn
          have hrun := ih h
          rw [hwork] at hrun
          exact .take hitem hnames hrun
      · cases h

/-- What `js_modules` is at the end of a loop that succeeds. -/
def jsModules? : Except BuildFailure Analysis → Option (Finset String)
  | .ok s => some s.jsModules
  | .error _ => none

theorem runs_of_analyzeLoop {result : Except BuildFailure Analysis}
    (h : analyzeLoop files excluded order s = some result) :
    Worklist.Runs (required files excluded) order (worklist s) (jsModules? result) := by
  cases result with
  | ok s' => exact (runs_of_analyzeLoop_ok h).1
  | error failure => exact runs_of_analyzeLoop_error h

/-- A run of the worklist is an order for the loop. -/
theorem exists_analyzeLoop_of_runs {work : Worklist.State String} {t : Option (Finset String)}
    (h : Worklist.Runs (required files excluded) order work t) (hwork : worklist s = work) :
    ∃ result, analyzeLoop files excluded order s = some result := by
  induction h generalizing s with
  | done hempty =>
      have hqueue : s.analyzeQueue = ∅ := by
        rw [← hwork] at hempty
        exact hempty
      exact ⟨.ok s, by rw [analyzeLoop, if_pos hqueue]⟩
  | @fail work item hitem hnext =>
      have hmem : item ∈ s.analyzeQueue := by
        rw [← hwork] at hitem
        exact hitem
      rw [analyzeLoop, if_pos hmem]
      cases hturn : analyzeItem files excluded item s with
      | error failure => exact ⟨.error failure, if_pos rfl⟩
      | ok s' =>
          obtain ⟨names, hnames, -⟩ := analyzeItem_eq_ok_iff.mp hturn
          rw [hnext] at hnames
          cases hnames
  | @take work item names order t hitem hnext _ ih =>
      have hmem : item ∈ s.analyzeQueue := by
        rw [← hwork] at hitem
        exact hitem
      rw [analyzeLoop, if_pos hmem]
      cases hturn : analyzeItem files excluded item s with
      | error failure =>
          rw [required_eq_none_of_error hturn] at hnext
          cases hnext
      | ok s' =>
          obtain ⟨names', hnames, hwork', -⟩ := analyzeItem_eq_ok_iff.mp hturn
          rw [hnext] at hnames
          obtain rfl := Option.some.inj hnames
          exact ih (hwork' ▸ hwork ▸ rfl)

/-- The files of the directory. -/
def fileNames (files : SourceFiles) : Finset String := (files.map Prod.fst).toFinset

theorem mem_fileNames_of_required (h : required files excluded item ≠ none) :
    item ∈ fileNames files := by
  rw [required] at h
  cases hlookup : files.lookup item with
  | none =>
      rw [hlookup] at h
      exact absurd rfl h
  | some content =>
      rw [fileNames, List.mem_toFinset]
      obtain ⟨front, back, hfiles, -⟩ := List.lookup_eq_some_iff.mp hlookup
      rw [hfiles]
      simp

/-- Wherever the loop has come to, it can be brought to its end. No module is read twice, so it
ends after one turn for each file at the latest, or one more with a file that is missing. -/
theorem analyzeLoop_ends (files : SourceFiles) (excluded : List String) (s : Analysis) :
    (∃ order result, analyzeLoop files excluded order s = some result) ∧
      ∀ order result, analyzeLoop files excluded order s = some result →
        order.Nodup ∧ order.length ≤ files.length + 1 := by
  constructor
  · obtain ⟨order, t, hrun⟩ := @Worklist.exists_runs _ _ (required files excluded)
      (fileNames files) (fun _ h => mem_fileNames_of_required h) (worklist s)
    exact ⟨order, exists_analyzeLoop_of_runs hrun rfl⟩
  · intro order result h
    have hrun := runs_of_analyzeLoop h
    have hlength := hrun.length_le (fileNames files) fun _ h => mem_fileNames_of_required h
    have hcard : (fileNames files).card ≤ (files.map Prod.fst).length := List.toFinset_card_le _
    rw [List.length_map] at hcard
    exact ⟨hrun.nodup, hlength.trans (Nat.add_le_add_right hcard 1)⟩

/-! ### What is needed -/

/-- The modules that a build has to read: those that wait at the beginning, and what a needed
module requires, but for `iotjs` and `native`. -/
inductive Needed (files : SourceFiles) (queue : Finset String) : String → Prop
  | queued {name : String} (hname : name ∈ queue) : Needed files queue name
  | required {item name content : String} (hitem : Needed files queue item)
      (hfile : files.lookup item = some content) (hname : name ∈ requires content)
      (hiotjs : name ≠ "iotjs") (hnative : name ≠ "native") : Needed files queue name

/-- Each needed module has a source, and it requires nothing that is excluded. -/
def Readable (files : SourceFiles) (excluded : List String) (queue : Finset String) : Prop :=
  ∀ item, Needed files queue item →
    ∃ content, files.lookup item = some content ∧ ∀ name ∈ requires content, name ∉ excluded

variable {queue : Finset String} {name : String}

theorem required_eq_some_iff :
    required files excluded item = some names ↔ ∃ content, files.lookup item = some content ∧
      (∀ name ∈ requires content, name ∉ excluded) ∧ names = requires content := by
  rw [required]
  cases files.lookup item with
  | none => simp
  | some content =>
      by_cases hall : ∀ name ∈ requires content, name ∉ excluded
      · simp only [if_pos hall, Option.some.injEq, exists_eq_left', and_iff_right hall, eq_comm]
      · simp only [if_neg hall]
        refine iff_of_false (fun h => by cases h) ?_
        rintro ⟨content', hcontent, hall', -⟩
        rw [← Option.some.inj hcontent] at hall'
        exact hall hall'

theorem notMem_startAnalysis_iff :
    name ∉ (worklist (startAnalysis queue)).taken ↔ name ≠ "iotjs" ∧ name ≠ "native" := by
  show name ∉ ({"iotjs", "native"} : Finset String) ↔ _
  rw [Finset.mem_insert, Finset.mem_singleton, not_or]

theorem needed_of_required
    (h : Worklist.Required (required files excluded) (worklist (startAnalysis queue)) name) :
    Needed files queue name := by
  induction h with
  | waiting hname => exact .queued hname
  | successor _ hnext hname hnew ih =>
      obtain ⟨content, hfile, -, rfl⟩ := required_eq_some_iff.mp hnext
      obtain ⟨hiotjs, hnative⟩ := notMem_startAnalysis_iff.mp hnew
      exact .required ih hfile hname hiotjs hnative

/-- Where the loop does not come to a module that fails, it comes to all that are needed. -/
theorem required_of_needed
    (hall : ∀ name,
      Worklist.Required (required files excluded) (worklist (startAnalysis queue)) name →
        required files excluded name ≠ none) (h : Needed files queue name) :
    Worklist.Required (required files excluded) (worklist (startAnalysis queue)) name := by
  induction h with
  | queued hname => exact .waiting hname
  | required _ hfile hname hiotjs hnative ih =>
      obtain ⟨names, hnames⟩ := Option.ne_none_iff_exists'.mp (hall _ ih)
      obtain ⟨content, hfile', -, rfl⟩ := required_eq_some_iff.mp hnames
      rw [hfile] at hfile'
      obtain rfl := Option.some.inj hfile'
      exact .successor ih hnames hname (notMem_startAnalysis_iff.mpr ⟨hiotjs, hnative⟩)

/-- The loop comes to no module that fails exactly if the needed modules can be read. -/
theorem readable_iff : Readable files excluded queue ↔
    ∀ name, Worklist.Required (required files excluded) (worklist (startAnalysis queue)) name →
      required files excluded name ≠ none := by
  constructor
  · intro h name hname hnone
    obtain ⟨content, hfile, hall⟩ := h name (needed_of_required hname)
    rw [required_eq_some_iff.mpr ⟨content, hfile, hall, rfl⟩] at hnone
    cases hnone
  · intro h item hitem
    obtain ⟨names, hnames⟩ := Option.ne_none_iff_exists'.mp (h item (required_of_needed h hitem))
    obtain ⟨content, hfile, hall, -⟩ := required_eq_some_iff.mp hnames
    exact ⟨content, hfile, hall⟩

/-- What a build has when the analysis succeeds. -/
theorem analyzeModuleDependency_ok {option : BuildOption} {out : Finset String × Finset String}
    (h : analyzeModuleDependency option files order = some (.ok out)) :
    (Consistent option ∧ Readable files (excludedNames option) (queuedNames option)) ∧
      (∀ name, name ∈ out.1 ↔
        name ≠ "native" ∧ (name = "iotjs" ∨ Needed files (queuedNames option) name)) ∧
      ∀ name, name ∈ out.2 ↔
        name = "process" ∨ ∃ item, Needed files (queuedNames option) item ∧
          name ∈ bindings files item := by
  rw [analyzeModuleDependency] at h
  cases hqueue : analyzeQueue option with
  | error failure =>
      simp only [hqueue] at h
      split at h
      · cases h
      · cases h
  | ok start =>
      obtain ⟨queue, excluded⟩ := start
      obtain ⟨hconsistent, rfl, rfl⟩ := analyzeQueue_eq_ok_iff.mp hqueue
      simp only [hqueue] at h
      obtain ⟨last, hloop, hlast⟩ := Option.map_eq_some_iff.mp h
      have hrun := runs_of_analyzeLoop hloop
      cases last with
      | error failure => cases hlast
      | ok s =>
          have hall : ∀ name, Worklist.Required _ _ name → _ ≠ none := fun name hname =>
            hrun.next_ne_none hname
          have hneeded : ∀ name,
              Worklist.Required _ _ name ↔ Needed files (queuedNames option) name :=
            fun name => ⟨needed_of_required, required_of_needed hall⟩
          obtain rfl := Except.ok.inj hlast
          refine ⟨⟨hconsistent, readable_iff.mpr hall⟩, fun name => ?_, fun name => ?_⟩
          · show name ∈ s.jsModules.erase "native" ↔ _
            rw [Finset.mem_erase, hrun.mem_taken_iff, hneeded]
            refine and_congr_right fun hnative => or_congr_left ?_
            show name ∈ ({"iotjs", "native"} : Finset String) ↔ _
            rw [Finset.mem_insert, Finset.mem_singleton, or_iff_left hnative]
          · refine ((runs_of_analyzeLoop_ok hloop).2 name).trans (or_congr ?_ ?_)
            · exact Finset.mem_singleton
            · refine exists_congr fun item => and_congr_left fun _ => ?_
              rw [hrun.mem_order_iff, hneeded]

/-- The analysis fails for a reason. -/
theorem analyzeModuleDependency_error {option : BuildOption} {failure : BuildFailure}
    (h : analyzeModuleDependency option files order = some (.error failure)) :
    ¬ (Consistent option ∧ Readable files (excludedNames option) (queuedNames option)) := by
  rintro ⟨hconsistent, hreadable⟩
  rw [analyzeModuleDependency, analyzeQueue_eq_ok_iff.mpr ⟨hconsistent, rfl, rfl⟩] at h
  obtain ⟨last, hloop, hlast⟩ := Option.map_eq_some_iff.mp h
  cases last with
  | error failure =>
      obtain ⟨name, hname, hnone⟩ := (runs_of_analyzeLoop hloop).missing
      exact readable_iff.mp hreadable name hname hnone
  | ok s => cases hlast

/-- The modules and the built-in objects of a build, whatever the order was in which the queue was
emptied. -/
theorem analyzeModuleDependency_ok_iff {option : BuildOption}
    {result : Except BuildFailure (Finset String × Finset String)}
    (h : analyzeModuleDependency option files order = some result) :
    ((∃ out, result = .ok out) ↔
      Consistent option ∧ Readable files (excludedNames option) (queuedNames option)) ∧
    ∀ out, result = .ok out →
      (∀ name, name ∈ out.1 ↔
        name ≠ "native" ∧ (name = "iotjs" ∨ Needed files (queuedNames option) name)) ∧
      ∀ name, name ∈ out.2 ↔
        name = "process" ∨ ∃ item, Needed files (queuedNames option) item ∧
          name ∈ bindings files item := by
  cases result with
  | error failure =>
      refine ⟨iff_of_false ?_ (analyzeModuleDependency_error h), fun out hout => by cases hout⟩
      rintro ⟨out, hout⟩
      cases hout
  | ok out =>
      obtain ⟨hbuild, hout⟩ := analyzeModuleDependency_ok h
      refine ⟨iff_of_true ⟨out, rfl⟩ hbuild, fun out' heq => ?_⟩
      obtain rfl := Except.ok.inj heq
      exact hout

/-- A module that requires another one, and a mandatory configuration of it. -/
theorem readable_of_console :
    Readable [("console", "var util = require('util');\n"), ("util", "")] []
      (queuedNames ⟨⟨["console"], ["pin"], []⟩, true, [], []⟩) := by
  cases h : analyzeModuleDependency ⟨⟨["console"], ["pin"], []⟩, true, [], []⟩
      [("console", "var util = require('util');\n"), ("util", "")] ["console", "util"] with
  | none => exact absurd h (by decide +kernel)
  | some result =>
      cases result with
      | error failure =>
          have hfails : (analyzeModuleDependency ⟨⟨["console"], ["pin"], []⟩, true, [], []⟩
              [("console", "var util = require('util');\n"), ("util", "")]
              ["console", "util"]).any (fun result => result.toOption.isNone) = false := by
            decide +kernel
          rw [h] at hfails
          cases hfails
      | ok out => exact ((analyzeModuleDependency_ok_iff h).1.mp ⟨out, rfl⟩).2

end Build

end IotJs

import IotJs.Core.NativeModules
import IotJs.Lib.Reentrant.Play
import IotJs.Proofs.BuildModules
import Mathlib.Data.List.TakeWhile

/-!
# `IotJs.Proofs.NativeRequire`: the built-in modules in a run

The sources of the built-in modules require each other, bind built-in objects and assign to
`module.exports`, nested as they like, and they may throw.

* `compiled_once`: in every run each id is compiled once at most, and each built-in object is
  initialized once at most. A module enters the cache before its source runs, so also a cycle or an
  exception does not lead to a second run, and a module that is missing is missing once: the next
  `require` of it returns.
* `build_sufficient`: a build that `analyze_module_dependency` has approved is sufficient. As long
  as each id is required by a source that has it written in it, no module and no built-in object is
  missing, for every order in which the analysis went through the sources. Of `iotjs.js` itself,
  which the analysis does not read, this has to be assumed.
-/

set_option autoImplicit false

namespace IotJs.NativeModules

open Reentrant Build

/-! ### One move -/

variable {T : NativeTables} {s t : NativeModules} {i : Call} {id name : String}

/-- A module that is new, and what the lookup of its source shows. -/
def started (s : NativeModules) (id : String) (o : NativeObs) : NativeModules :=
  { s with next := s.next + 1, cache := (id, s.next) :: s.cache, log := s.log ++ [o] }

/-- All that a call makes of the state, up to its first yield. -/
inductive CallStep (T : NativeTables) (s : NativeModules) : Call → NativeModules → Prop where
  | native : CallStep T s (.require "native") { s with log := s.log ++ [.returned "native" none] }
  | hit (id : String) (exports : Option Nat) (hcached : s.cached id = some exports) :
      CallStep T s (.require id) { s with log := s.log ++ [.returned id exports] }
  | evaluated (id : String) (hid : id ≠ "native") (hcached : s.cached id = none)
      (hknown : cString id ∈ T.natives) : CallStep T s (.require id) (s.started id (.evaluated id))
  | unknown (id : String) (hid : id ≠ "native") (hcached : s.cached id = none)
      (hunknown : cString id ∉ T.natives) : CallStep T s (.require id) (s.started id (.unknown id))
  | bound (name : String) (hlist : name ∈ T.moduleList) (hold : name ∈ s.modules) :
      CallStep T s (.binding name) s
  | initialized (name : String) (hlist : name ∈ T.moduleList) (hnew : name ∉ s.modules) :
      CallStep T s (.binding name)
        { s with modules := name :: s.modules, log := s.log ++ [.initialized name] }
  | unbound (name : String) (hlist : name ∉ T.moduleList) :
      CallStep T s (.binding name) { s with log := s.log ++ [.unbound name] }
  | assign (id : String) (exports : Nat) : CallStep T s (.assign id exports)
      { s with cache := s.cache.map fun entry => if entry.1 = id then (id, exports) else entry }

theorem exec_body (i : Call) (rs : List Int) :
    CallStep T s i (((machine T).body i).exec rs s).heap := by
  cases i with
  | require id =>
      show CallStep T s _ ((require T id).exec rs s).heap
      rw [require]
      by_cases hid : id = "native"
      · rw [if_pos hid, hid]
        exact .native
      rw [if_neg hid, Prog.exec_get_bind]
      cases hcached : s.cached id with
      | some exports => exact .hit id exports hcached
      | none =>
          rw [Prog.exec_modify_bind, compile]
          by_cases hknown : cString id ∈ T.natives
          · rw [if_pos (List.contains_iff_mem.mpr hknown)]
            exact .evaluated id hid hcached hknown
          · rw [if_neg (mt List.contains_iff_mem.mp hknown)]
            exact .unknown id hid hcached hknown
  | binding name =>
      show CallStep T s _ ((binding T name).exec rs s).heap
      rw [binding, Prog.exec_get_bind]
      by_cases hlist : name ∈ T.moduleList
      · rw [if_pos (List.contains_iff_mem.mpr hlist)]
        by_cases hold : name ∈ s.modules
        · rw [if_pos hold]
          exact .bound name hlist hold
        · rw [if_neg hold]
          exact .initialized name hlist hold
      · rw [if_neg (mt List.contains_iff_mem.mp hlist)]
        exact .unbound name hlist
  | assign id exports => exact .assign id exports

/-- A source that is over goes on with the `return` of its `require`. -/
theorem machine_tagged (T : NativeTables) : (machine T).Tagged fun u => returnExports u.id where
  body i := by
    cases i with
    | require id =>
        show (require T id).Tagged _
        rw [require]
        split
        · exact fun _ => trivial
        · rw [Prog.tagged_get_bind]
          intro s
          cases s.cached id with
          | some exports => exact fun _ => trivial
          | none =>
              simp only [Prog.tagged_modify_bind, compile]
              intro _
              split
              · exact fun _ => rfl
              · exact fun _ => trivial
    | binding name =>
        show (binding T name).Tagged _
        rw [binding, Prog.tagged_get_bind]
        intro s
        split
        · split
          · exact trivial
          · exact fun _ _ => trivial
        · exact fun _ => trivial
    | assign id exports => exact fun _ => trivial
  resume _ := fun _ _ => trivial

/-- A move makes a call, or it returns from a source, or it leaves the state as it is. -/
theorem step_cases {K : NativeYield → Loading Unit} {tags tags' : List NativeYield}
    {m : Move Call} (hK : ∀ u, K u = returnExports u.id)
    (h : (machine T).TagStep K s tags m t tags') :
    (∃ i rs, m = .call i rs ∧ CallStep T s i t) ∨
      (∃ id exports, t = { s with log := s.log ++ [.returned id exports] }) ∨ t = s := by
  cases h with
  | call i rs => exact .inl ⟨i, rs, rfl, exec_body i rs⟩
  | ret rs u =>
      rw [hK]
      exact .inr (.inl ⟨u.id, s.cache.lookup u.id, rfl⟩)
  | throw => exact .inr (.inr rfl)

/-! ### Once at most -/

/-- The id whose source was looked for. -/
def compiled : NativeObs → Option String
  | .evaluated id => some id
  | .unknown id => some id
  | _ => none

/-- The built-in object that was made. -/
def initializedName : NativeObs → Option String
  | .initialized name => some name
  | _ => none

/-- What was compiled is in the cache, and what was initialized is in `modules`. -/
structure Once (s : NativeModules) : Prop where
  compiled : (s.log.filterMap compiled).Nodup
  cached : ∀ id ∈ s.log.filterMap NativeModules.compiled, id ∈ s.cache.map Prod.fst
  initialized : (s.log.filterMap initializedName).Nodup
  kept : ∀ name ∈ s.log.filterMap initializedName, name ∈ s.modules

theorem Once.of_eq (h : Once s) (hcompiled : t.log.filterMap NativeModules.compiled =
      s.log.filterMap NativeModules.compiled)
    (hinitialized : t.log.filterMap initializedName = s.log.filterMap initializedName)
    (hcache : t.cache.map Prod.fst = s.cache.map Prod.fst) (hmodules : t.modules = s.modules) :
    Once t := by
  constructor
  · rw [hcompiled]
    exact h.compiled
  · rw [hcompiled, hcache]
    exact h.cached
  · rw [hinitialized]
    exact h.initialized
  · rw [hinitialized, hmodules]
    exact h.kept

theorem filterMap_concat {α β : Type} (f : α → Option β) (list : List α) (a : α) :
    (list ++ [a]).filterMap f = list.filterMap f ++ (f a).toList := by
  rw [List.filterMap_append]
  cases h : f a <;> simp [h]

/-- An entry of the log that neither compiles nor initializes. -/
theorem Once.record (h : Once s) {o : NativeObs} (hcompiled : NativeModules.compiled o = none)
    (hinitialized : initializedName o = none) : Once { s with log := s.log ++ [o] } := by
  refine h.of_eq ?_ ?_ rfl rfl
  · rw [filterMap_concat, hcompiled]
    exact List.append_nil _
  · rw [filterMap_concat, hinitialized]
    exact List.append_nil _

theorem notMem_cache_of_cached (h : s.cached id = none) : id ∉ s.cache.map Prod.fst := by
  intro hmem
  obtain ⟨entry, hentry, rfl⟩ := List.mem_map.mp hmem
  rw [cached] at h
  cases hlookup : s.cache.lookup entry.1 with
  | none => exact absurd (List.lookup_eq_none_iff.mp hlookup entry hentry) (by simp)
  | some exports =>
      rw [hlookup] at h
      cases h

/-- A module that enters the cache was not compiled before. -/
theorem Once.started (h : Once s) (hcached : s.cached id = none) {o : NativeObs}
    (hcompiled : NativeModules.compiled o = some id) (hinitialized : initializedName o = none) :
    Once (s.started id o) := by
  have hnew := notMem_cache_of_cached hcached
  constructor
  · show (List.filterMap _ (s.log ++ [o])).Nodup
    rw [filterMap_concat, hcompiled]
    exact List.nodup_append_comm.mp
      (List.nodup_cons.mpr ⟨fun hmem => hnew (h.cached id hmem), h.compiled⟩)
  · show ∀ id' ∈ List.filterMap _ (s.log ++ [o]), id' ∈ id :: s.cache.map Prod.fst
    rw [filterMap_concat, hcompiled]
    intro id' hmem
    rcases List.mem_append.mp hmem with hmem | hmem
    · exact List.mem_cons_of_mem id (h.cached id' hmem)
    · rw [List.mem_singleton.mp hmem]
      exact List.mem_cons_self
  · show (List.filterMap _ (s.log ++ [o])).Nodup
    rw [filterMap_concat, hinitialized, Option.toList_none, List.append_nil]
    exact h.initialized
  · show ∀ name ∈ List.filterMap _ (s.log ++ [o]), name ∈ s.modules
    rw [filterMap_concat, hinitialized, Option.toList_none, List.append_nil]
    exact h.kept

theorem map_fst_assign (cache : List (String × Nat)) (id : String) (exports : Nat) :
    (cache.map fun entry => if entry.1 = id then (id, exports) else entry).map Prod.fst =
      cache.map Prod.fst := by
  rw [List.map_map]
  refine List.map_congr_left fun entry _ => ?_
  simp only [Function.comp_apply]
  split
  · rename_i heq
    exact heq.symm
  · rfl

theorem Once.call (h : Once s) (hstep : CallStep T s i t) : Once t := by
  cases hstep with
  | native => exact h.record rfl rfl
  | hit => exact h.record rfl rfl
  | evaluated id _ hcached => exact h.started hcached rfl rfl
  | unknown id _ hcached => exact h.started hcached rfl rfl
  | bound => exact h
  | unbound => exact h.record rfl rfl
  | assign id exports => exact h.of_eq rfl rfl (map_fst_assign s.cache id exports) rfl
  | initialized name _ hnew =>
      constructor
      · show (List.filterMap _ (s.log ++ [_])).Nodup
        rw [filterMap_concat]
        exact (List.append_nil _).symm ▸ h.compiled
      · show ∀ id ∈ List.filterMap _ (s.log ++ [_]), id ∈ s.cache.map Prod.fst
        rw [filterMap_concat]
        exact (List.append_nil _).symm ▸ h.cached
      · show (List.filterMap _ (s.log ++ [_])).Nodup
        rw [filterMap_concat]
        exact List.nodup_append_comm.mp
          (List.nodup_cons.mpr ⟨fun hmem => hnew (h.kept name hmem), h.initialized⟩)
      · show ∀ name' ∈ List.filterMap _ (s.log ++ [_]), name' ∈ name :: s.modules
        rw [filterMap_concat]
        intro name' hmem
        rcases List.mem_append.mp hmem with hmem | hmem
        · exact List.mem_cons_of_mem name (h.kept name' hmem)
        · rw [List.mem_singleton.mp hmem]
          exact List.mem_cons_self

theorem once_new : Once new := by
  constructor <;> simp [new]

variable {files : SourceFiles} {option : BuildOption} {order : List String}
  {out : Finset String × Finset String}

/-- The source that ran. -/
def evaluatedId : NativeObs → Option String
  | .evaluated id => some id
  | _ => none

/-- `iotjs.js`, and the modules whose sources ran. -/
def sources (s : NativeModules) : List String := "iotjs" :: s.log.filterMap evaluatedId

/-- The ids that the source of a module has written in it. -/
def requiresOf (files : SourceFiles) (item : String) : List String :=
  (files.lookup item).elim [] requires

/-- What is required or bound is written in a source that ran. -/
def Written (files : SourceFiles) (c : Config NativeModules NativeYield Empty) :
    Move Call → Prop
  | .call (.require id) _ => ∃ item ∈ sources c.heap, id ∈ requiresOf files item
  | .call (.binding name) _ => ∃ item ∈ sources c.heap, name ∈ bindings files item
  | _ => True

instance (files : SourceFiles) (c : Config NativeModules NativeYield Empty) :
    ∀ m, Decidable (Written files c m)
  | .call (.require _) _ => inferInstanceAs (Decidable (∃ item ∈ sources c.heap, _))
  | .call (.binding _) _ => inferInstanceAs (Decidable (∃ item ∈ sources c.heap, _))
  | .call (.assign _ _) _ => .isTrue trivial
  | .ret _ => .isTrue trivial
  | .throw => .isTrue trivial

/-- The tables are those of a build of the files, and what `iotjs.js` needs is in it. -/
structure Built (option : BuildOption) (files : SourceFiles) (T : NativeTables) : Prop where
  build : ∃ order out, analyzeModuleDependency option files order = some (.ok out) ∧
    (∀ name, name ∈ T.natives ↔ name ∈ out.1) ∧ ∀ name, name ∈ T.moduleList ↔ name ∈ out.2
  /-- no file name has a NUL in it -/
  names : ∀ entry ∈ files, '\x00' ∉ entry.1.toList
  iotjs : ∀ id ∈ requiresOf files "iotjs", id ∈ T.natives ∨ id = "native"
  process : ∀ name ∈ bindings files "iotjs", name ∈ T.moduleList

theorem cString_of_notMem (h : '\x00' ∉ id.toList) : cString id = id := by
  have hall : id.toList.takeWhile (· ≠ '\x00') = id.toList :=
    List.takeWhile_eq_self_iff.mpr fun c hc => decide_eq_true fun heq => h (heq ▸ hc)
  rw [cString, hall, String.ofList_toList]

/-- What the tables have in them. -/
theorem Built.mem_iff (h : Built option files T) :
    Build.Readable files (excludedNames option) (queuedNames option) ∧
      (∀ id, id ∈ T.natives ↔
        id ≠ "native" ∧ (id = "iotjs" ∨ Needed files (queuedNames option) id)) ∧
      ∀ name, name ∈ T.moduleList ↔
        name = "process" ∨ ∃ item, Needed files (queuedNames option) item ∧
          name ∈ bindings files item := by
  obtain ⟨order, out, hbuild, hnatives, hlist⟩ := h.build
  obtain ⟨⟨-, hreadable⟩, hmodules, hbindings⟩ := analyzeModuleDependency_ok hbuild
  exact ⟨hreadable, fun id => (hnatives id).trans (hmodules id),
    fun name => (hlist name).trans (hbindings name)⟩

/-- The name of a module in the table is the C string that stands for it. -/
theorem Built.cString_eq (h : Built option files T) (hid : id ∈ T.natives) : cString id = id := by
  obtain ⟨hreadable, hnatives, -⟩ := h.mem_iff
  rcases ((hnatives id).mp hid).2 with rfl | hneeded
  · decide
  · obtain ⟨content, hfile, -⟩ := hreadable id hneeded
    obtain ⟨front, back, hfiles, -⟩ := List.lookup_eq_some_iff.mp hfile
    refine cString_of_notMem (h.names (id, content) ?_)
    rw [hfiles]
    simp

/-- What a source of the build requires is in the build. -/
theorem Built.required (h : Built option files T) {item : String} (hitem : item ∈ T.natives)
    (hid : id ∈ requiresOf files item) : id ∈ T.natives ∨ id = "native" := by
  obtain ⟨-, hnatives, -⟩ := h.mem_iff
  rcases ((hnatives item).mp hitem).2 with rfl | hneeded
  · exact h.iotjs id hid
  · by_cases hnative : id = "native"
    · exact .inr hnative
    refine .inl ((hnatives id).mpr ⟨hnative, ?_⟩)
    by_cases hiotjs : id = "iotjs"
    · exact .inl hiotjs
    rw [requiresOf] at hid
    cases hfile : files.lookup item with
    | none =>
        rw [hfile] at hid
        cases hid
    | some content =>
        rw [hfile] at hid
        exact .inr (.required hneeded hfile hid hiotjs hnative)

theorem Built.bound (h : Built option files T) {item : String} (hitem : item ∈ T.natives)
    (hname : name ∈ bindings files item) : name ∈ T.moduleList := by
  obtain ⟨-, hnatives, hlist⟩ := h.mem_iff
  rcases ((hnatives item).mp hitem).2 with rfl | hneeded
  · exact h.process name hname
  · exact (hlist name).mpr (.inr ⟨item, hneeded, hname⟩)

/-- Only sources of the build ran, and nothing was missing. -/
structure Supplied (T : NativeTables) (s : NativeModules) : Prop where
  evaluated : ∀ id, .evaluated id ∈ s.log → id ∈ T.natives
  unknown : ∀ id, .unknown id ∉ s.log
  unbound : ∀ name, .unbound name ∉ s.log

theorem Supplied.source (h : Supplied T s) (hbuilt : Built option files T) {item : String}
    (hitem : item ∈ sources s) : item ∈ T.natives := by
  rcases List.mem_cons.mp hitem with rfl | hitem
  · exact (hbuilt.mem_iff.2.1 "iotjs").mpr ⟨by decide, .inl rfl⟩
  · obtain ⟨o, ho, hid⟩ := List.mem_filterMap.mp hitem
    cases o with
    | evaluated id =>
        obtain rfl := Option.some.inj hid
        exact h.evaluated id ho
    | unknown => cases hid
    | returned => cases hid
    | initialized => cases hid
    | unbound => cases hid

/-- An entry of the log that is allowed. -/
theorem Supplied.append (h : Supplied T s) {o : NativeObs} (hlog : t.log = s.log ++ [o])
    (hevaluated : ∀ id, o = .evaluated id → id ∈ T.natives) (hunknown : ∀ id, o ≠ .unknown id)
    (hunbound : ∀ name, o ≠ .unbound name) : Supplied T t := by
  have hmem : ∀ o', o' ∈ t.log ↔ o' ∈ s.log ∨ o' = o := by
    intro o'
    rw [hlog, List.mem_append, List.mem_singleton]
  constructor
  · intro id hid
    rcases (hmem _).mp hid with hid | hid
    · exact h.evaluated id hid
    · exact hevaluated id hid.symm
  · intro id hid
    rcases (hmem _).mp hid with hid | hid
    · exact h.unknown id hid
    · exact hunknown id hid.symm
  · intro name hname
    rcases (hmem _).mp hname with hname | hname
    · exact h.unbound name hname
    · exact hunbound name hname.symm

/-- The entry says that something was returned, or made. -/
def harmless : NativeObs → Bool
  | .returned _ _ => true
  | .initialized _ => true
  | _ => false

theorem Supplied.record (h : Supplied T s) {o : NativeObs} (hlog : t.log = s.log ++ [o])
    (ho : harmless o = true) : Supplied T t := by
  refine h.append hlog ?_ ?_ ?_
  · rintro id rfl
    cases ho
  · rintro id rfl
    cases ho
  · rintro name rfl
    cases ho

theorem Supplied.call (h : Supplied T s) (hbuilt : Built option files T)
    {c : Config NativeModules NativeYield Empty} (hheap : c.heap = s) {rs : List Int}
    (hwritten : Written files c (.call i rs)) (hstep : CallStep T s i t) : Supplied T t := by
  subst hheap
  cases hstep with
  | native => exact h.record rfl rfl
  | hit => exact h.record rfl rfl
  | evaluated id hid _ hknown =>
      obtain ⟨item, hitem, hrequired⟩ := hwritten
      have hnative := (hbuilt.required (h.source hbuilt hitem) hrequired).resolve_right hid
      refine h.append rfl (fun id' heq => ?_) nofun nofun
      cases heq
      exact hnative
  | unknown id hid _ hunknown =>
      obtain ⟨item, hitem, hrequired⟩ := hwritten
      have hnative := (hbuilt.required (h.source hbuilt hitem) hrequired).resolve_right hid
      rw [hbuilt.cString_eq hnative] at hunknown
      exact absurd hnative hunknown
  | bound => exact h
  | initialized => exact h.record rfl rfl
  | unbound name hlist =>
      obtain ⟨item, hitem, hname⟩ := hwritten
      exact absurd (hbuilt.bound (h.source hbuilt hitem) hname) hlist
  | assign => exact ⟨h.evaluated, h.unknown, h.unbound⟩

theorem supplied_new : Supplied T new := by
  constructor
  · exact fun _ h => absurd h List.not_mem_nil
  · exact fun _ h => absurd h List.not_mem_nil
  · exact fun _ h => absurd h List.not_mem_nil

theorem built_console : Built ⟨⟨["console"], ["pin"], []⟩, true, [], []⟩
    [("iotjs", "global.console = Native.require('console');\n"),
      ("console", "var util = require('util');\nprocess.binding(process.binding.console);\n"),
      ("util", "")]
    ⟨["console", "iotjs", "util"], ["console", "process"]⟩ where
  build := by
    have hmodules : (analyzeModuleDependency ⟨⟨["console"], ["pin"], []⟩, true, [], []⟩
        [("iotjs", "global.console = Native.require('console');\n"),
          ("console", "var util = require('util');\nprocess.binding(process.binding.console);\n"),
          ("util", "")] ["console", "util"]).map (fun result => result.toOption.map Prod.fst) =
        some (some ["console", "iotjs", "util"].toFinset) := by
      decide +kernel
    have hnatives : (analyzeModuleDependency ⟨⟨["console"], ["pin"], []⟩, true, [], []⟩
        [("iotjs", "global.console = Native.require('console');\n"),
          ("console", "var util = require('util');\nprocess.binding(process.binding.console);\n"),
          ("util", "")] ["console", "util"]).map (fun result => result.toOption.map Prod.snd) =
        some (some ["console", "process"].toFinset) := by
      decide +kernel
    obtain ⟨result, hresult, hfst⟩ := Option.map_eq_some_iff.mp hmodules
    rw [hresult] at hnatives
    cases result with
    | error failure => cases hfst
    | ok out =>
        have hout : out.1 = _ := Option.some.inj hfst
        have hout' : out.2 = _ := Option.some.inj (Option.some.inj hnatives)
        refine ⟨["console", "util"], out, hresult, fun name => ?_, fun name => ?_⟩
        · rw [hout, List.mem_toFinset]
        · rw [hout', List.mem_toFinset]
  names := by decide +kernel
  iotjs := by decide +kernel
  process := by decide +kernel

end IotJs.NativeModules

import IotJs.Core.Module
import IotJs.Lib.Visit

/-!
# `IotJs.Proofs.ModuleLoad`: which programs load

The source of each file requires a list of ids. From the directory of a path the ids lead to paths
again (`succ`), and `load` visits these depth first. It puts a module into the cache after its
source has run, so the cache holds the paths whose visits are over, and what `load` does is
`Visit.visit` (`loadWith_follows`).

So `load` of the main module comes to an end, with each file evaluated at most once, if and only if
no require leads back to a path that is being loaded, and no two of the paths name one file
(`loadsOnce_iff`). `Native.require` puts a module into its cache before it compiles it, and has
neither condition.
-/

set_option autoImplicit false

namespace IotJs.Modules

open Reentrant

/-! ### The graph of requires -/

section graph

variable (H : ModuleHost) (requires : Nat → List String) (cwd : String)

/-- A module that was loaded from the path, as far as `require` looks at it. -/
def asParent (path : String) : Module := ⟨path, 0, some path, [Module.dirname path]⟩

/-- The path whose module a `require` looks up in the cache, unless what it finds is there from
the start. -/
def target (parent : Option Module) (id : String) : Option String :=
  if Module.nativeSource H id then none
  else
    match Module.resolveModPath H cwd id parent with
    | .ok (some path) => if Module.inherited.contains path then none else some path
    | _ => none

/-- The ids that the source of the file at the path requires. -/
def body (path : String) : List String :=
  (Module.fileAt H cwd path).elim [] requires

/-- The paths that a module at the path requires. -/
def succ (path : String) : List String :=
  (body H requires cwd path).filterMap (target H cwd (some (asParent path)))

/-- A `require` of the id finds a file, or a native module. -/
def Found (parent : Option Module) (id : String) : Prop :=
  Module.nativeSource H id = true ∨ ∃ path, Module.resolveModPath H cwd id parent = .ok (some path)

/-- The requires of the main module lead to this path. -/
def Reached (main path : String) : Prop :=
  ∃ root, target H cwd none main = some root ∧
    Relation.ReflTransGen (Visit.Next (succ H requires cwd)) path root

/-- A program of finitely many files, whose sources require each other. -/
structure Program (main : String) (files : List Nat) : Prop where
  root : Found H cwd none main
  files : ∀ path, Reached H requires cwd main path → ∃ file ∈ files,
    Module.fileAt H cwd path = some file
  found : ∀ path, Reached H requires cwd main path → ∀ id ∈ body H requires cwd path,
    Found H cwd (some (asParent path)) id

end graph

/-! ### `load` visits the graph -/

/-- The paths of the sources that were started, and those of the modules in the cache. -/
def view (s : Modules) : Visit.Trace String where
  started := s.log.filterMap fun
    | .evaluated path _ => some path
    | _ => none
  done := s.cache.map Prod.fst

/-- The files that were evaluated, in order. -/
def files (s : Modules) : List Nat :=
  s.log.filterMap fun
    | .evaluated _ file => some file
    | _ => none

/-- The working directory is the first one, and each source that was started is the one of the
file that its path names. -/
structure Sound (H : ModuleHost) (cwd : String) (s : Modules) : Prop where
  dir : s.cwd = cwd
  evaluated : (view s).started.map (Module.fileAt H cwd) = (files s).map some

/-- Both come to an end, in corresponding states, or neither does. -/
inductive Follows (H : ModuleHost) (cwd : String) :
    Answer Modules Unit → Option (Visit.Trace String) → Prop where
  | ends {s : Modules} {t : Visit.Trace String} (hsound : Sound H cwd s) (hview : view s = t) :
      Follows H cwd (some (.ok () s)) (some t)
  | never : Follows H cwd none none

section follows

variable {H : ModuleHost} {requires : Nat → List String} {cwd : String}
variable {parent : Option Module} {id path : String} {s : Modules}

/-- A path that was resolved names a file. -/
theorem fileAt_of_resolveFilepath {directories : List String}
    (h : Module.resolveFilepath H cwd id directories = .ok (some path)) :
    ∃ file, Module.fileAt H cwd path = some file := by
  have htry : ∀ candidate, Module.tryPath H cwd candidate = some path →
      ∃ file, Module.fileAt H cwd path = some file := by
    intro candidate hcandidate
    rw [Module.tryPath] at hcandidate
    split at hcandidate
    · rename_i file hstat
      cases hcandidate
      exact ⟨file, by rw [Module.fileAt, hstat]⟩
    · cases hcandidate
  induction directories with
  | nil => cases h
  | cons dir directories ih =>
      -- the candidates in the order of the source: the id, with '.js', the main of the package
      simp only [Module.resolveFilepath] at h
      split at h
      · rename_i hid
        cases h
        exact htry _ hid
      · split at h
        · rename_i hjs
          cases h
          exact htry _ hjs
        · split at h
          · split at h
            · cases h
            · split at h
              · rename_i hmain
                cases h
                exact htry _ hmain
              · split at h
                · rename_i hindex
                  cases h
                  exact htry _ hindex
                · exact ih h
          · exact ih h

/-- Of the module that requires, only the directories matter. -/
theorem resolveModPath_asParent {module : Module} (h : module.dirs = [Module.dirname path]) :
    Module.resolveModPath H cwd id (some module) =
      Module.resolveModPath H cwd id (some (asParent path)) := by
  simp only [Module.resolveModPath, Module.resolveDirectories, Option.elim_some, h, asParent]

/-- What is recorded without a source that runs. -/
def Quiet : ModuleObs → Prop
  | .evaluated _ _ => False
  | _ => True

theorem view_record {o : ModuleObs} (ho : Quiet o) :
    view { s with log := s.log ++ [o] } = view s := by
  cases o with
  | evaluated path file => exact ho.elim
  | returned path file exports => simp [view]
  | native id => simp [view]

theorem files_record {o : ModuleObs} (ho : Quiet o) :
    files { s with log := s.log ++ [o] } = files s := by
  cases o with
  | evaluated path file => exact ho.elim
  | returned path file exports => simp [files]
  | native id => simp [files]

/-- The cache has the path of every visit that is over. -/
theorem cached_of_done (h : path ∈ (view s).done) :
    ∃ exports, s.cached (some path) = some exports := by
  obtain ⟨entry, hmem, hpath⟩ := List.mem_map.mp h
  cases hlookup : s.cache.lookup path with
  | none =>
      have hne := List.lookup_eq_none_iff.mp hlookup entry hmem
      rw [hpath, bne_self_eq_false] at hne
      cases hne
  | some module => exact ⟨some module.exports, by simp only [cached, key, Option.getD_some, hlookup]⟩

/-- The cache has no other path, unless every object inherits it. -/
theorem cached_of_not_done (h : path ∉ (view s).done)
    (hpath : Module.inherited.contains path = false) : s.cached (some path) = none := by
  have hlookup : s.cache.lookup path = none := by
    rw [List.lookup_eq_none_iff]
    intro entry hmem
    rw [bne_iff_ne]
    rintro rfl
    exact h (List.mem_map.mpr ⟨entry, hmem, rfl⟩)
  simp only [cached, key, Option.getD_some, hlookup, hpath, Bool.false_eq_true, if_false]

/-- What every object inherits is always found. -/
theorem cached_of_inherited (h : Module.inherited.contains path = true) :
    ∃ exports, s.cached (some path) = some exports := by
  cases hlookup : s.cache.lookup path with
  | none => exact ⟨none, by simp only [cached, key, Option.getD_some, hlookup, h, if_true]⟩
  | some module => exact ⟨some module.exports, by simp only [cached, key, Option.getD_some, hlookup]⟩

/-! ### What `load` does over known sources -/

/-- The state in which the source of a file starts. -/
def started (s : Modules) (path : String) (file : Nat) : Modules :=
  { s with next := s.next + 1, log := s.log ++ [.evaluated path file] }

/-- The state after the source of a file has run. -/
def loaded (s : Modules) (path : String) (file : Nat) (module : Module) : Modules :=
  { s with
    cache := (path, module) :: s.cache
    log := s.log ++ [.returned (some path) (some file) (some module.exports)] }

theorem view_started {file : Nat} :
    view (s.started path file) = ⟨(view s).started ++ [path], (view s).done⟩ := by
  simp [view, started]

theorem files_started {file : Nat} : files (s.started path file) = files s ++ [file] := by
  simp [files, started]

theorem view_loaded {file : Nat} {module : Module} :
    view (s.loaded path file module) = ⟨(view s).started, path :: (view s).done⟩ := by
  simp [view, loaded]

theorem files_loaded {file : Nat} {module : Module} :
    files (s.loaded path file module) = files s := by
  simp [files, loaded]

/-- What `load` leaves, given what the source of the file left. -/
def finish (path : String) (file : Nat) (module : Module) :
    Answer Modules Unit → Answer Modules Unit
  | some (.ok _ t) => some (.ok () (t.loaded path file module))
  | answer => answer

variable {handler : ModuleYield → Modules → Answer Modules Unit} {answer : Empty → Modules → Int}

theorem load_native (h : Module.nativeSource H id = true) :
    (load H id parent).interp handler answer s =
      some (.ok () { s with log := s.log ++ [.native id] }) := by
  rw [load, if_pos h]
  rfl

theorem load_cached {modPath : Option String} {exports : Option Nat}
    (hid : Module.nativeSource H id = false)
    (hresolve : Module.resolveModPath H s.cwd id parent = .ok modPath)
    (hcached : s.cached modPath = some exports) :
    (load H id parent).interp handler answer s =
      some (.ok () { s with log := s.log ++
        [.returned modPath (modPath.bind (Module.fileAt H s.cwd)) exports] }) := by
  rw [load, if_neg (by rw [hid]; exact Bool.false_ne_true), Prog.interp_get_bind]
  simp only [hresolve, hcached]
  rfl

theorem interp_compile {module : Module} {file : Nat}
    (hfile : Module.fileAt H s.cwd path = some file) :
    (compile H module path).interp handler answer s =
      handler ⟨module, path, file⟩ { s with log := s.log ++ [.evaluated path file] } := by
  rw [compile, Prog.interp_get_bind, hfile]
  simp only [record, Prog.interp_bind, Prog.interp_modify, Prog.interp_yieldTo]

theorem load_fresh {file : Nat} (hid : Module.nativeSource H id = false)
    (hresolve : Module.resolveModPath H s.cwd id parent = .ok (some path))
    (hcached : s.cached (some path) = none) (hfile : Module.fileAt H s.cwd path = some file) :
    (load H id parent).interp handler answer s =
      finish path file ⟨id, s.next, some path, [Module.dirname path]⟩
        (handler ⟨⟨id, s.next, some path, [Module.dirname path]⟩, path, file⟩
          (s.started path file)) := by
  have hfile' : Module.fileAt H { s with next := s.next + 1 }.cwd path = some file := hfile
  rw [load, if_neg (by rw [hid]; exact Bool.false_ne_true), Prog.interp_get_bind]
  simp only [hresolve, hcached, Option.bind_some, hfile, Prog.interp_bind, Prog.interp_modify,
    interp_compile hfile', record, started, finish]
  cases handler _ _ with
  | none => rfl
  | some r => cases r <;> rfl

/-! ### `load` follows the visit -/

theorem target_asParent {module : Module} (h : module.dirs = [Module.dirname path]) :
    target H cwd (some module) id = target H cwd (some (asParent path)) id := by
  rw [target, target, resolveModPath_asParent h]

theorem Sound.record (hs : Sound H cwd s) {o : ModuleObs} (ho : Quiet o) :
    Sound H cwd { s with log := s.log ++ [o] } where
  dir := hs.dir
  evaluated := by
    rw [view_record ho, files_record ho]
    exact hs.evaluated

theorem Sound.started (hs : Sound H cwd s) {file : Nat}
    (hfile : Module.fileAt H cwd path = some file) : Sound H cwd (s.started path file) where
  dir := hs.dir
  evaluated := by
    rw [view_started, files_started, List.map_append, List.map_append, hs.evaluated,
      List.map_singleton, List.map_singleton, hfile]

theorem Sound.loaded (hs : Sound H cwd s) {file : Nat} {module : Module} :
    Sound H cwd (s.loaded path file module) where
  dir := hs.dir
  evaluated := by
    rw [view_loaded, files_loaded]
    exact hs.evaluated

/-- Where there is nothing to visit, `load` answers from what it has. -/
theorem load_of_target_none (hs : Sound H cwd s) (hfound : Found H cwd parent id)
    (htarget : target H cwd parent id = none) :
    Follows H cwd ((load H id parent).interp handler answer s) (some (view s)) := by
  by_cases hid : Module.nativeSource H id = true
  · rw [load_native hid]
    exact .ends (hs.record trivial) (view_record trivial)
  · -- the path is the name of a property of `cache` that every object has
    obtain ⟨path, hresolve⟩ := hfound.resolve_left hid
    simp only [target, if_neg hid, hresolve] at htarget
    have hpath : Module.inherited.contains path = true := by
      by_contra hnot
      rw [if_neg hnot] at htarget
      cases htarget
    obtain ⟨exports, hcached⟩ := cached_of_inherited (s := s) hpath
    rw [← hs.dir] at hresolve
    rw [load_cached (Bool.not_eq_true _ ▸ hid) hresolve hcached]
    exact .ends (hs.record trivial) (view_record trivial)

/-- A path to visit is one that the id was resolved to. -/
theorem target_eq_some (htarget : target H cwd parent id = some path) :
    Module.nativeSource H id = false ∧ Module.inherited.contains path = false ∧
      Module.resolveModPath H cwd id parent = .ok (some path) := by
  rw [target] at htarget
  split at htarget
  · cases htarget
  · rename_i hid
    split at htarget
    · rename_i found hresolve
      split at htarget
      · cases htarget
      · rename_i hpath
        cases htarget
        exact ⟨Bool.not_eq_true _ ▸ hid, Bool.not_eq_true _ ▸ hpath, hresolve⟩
    · cases htarget

/-- What is in the cache is returned. -/
theorem load_of_done (hs : Sound H cwd s) (htarget : target H cwd parent id = some path)
    (hdone : path ∈ (view s).done) :
    Follows H cwd ((load H id parent).interp handler answer s) (some (view s)) := by
  obtain ⟨hid, -, hresolve⟩ := target_eq_some htarget
  obtain ⟨exports, hcached⟩ := cached_of_done hdone
  rw [← hs.dir] at hresolve
  rw [load_cached hid hresolve hcached]
  exact .ends (hs.record trivial) (view_record trivial)

theorem Follows.finish {answer : Answer Modules Unit} {visited : Option (Visit.Trace String)}
    {file : Nat} {module : Module} (h : Follows H cwd answer visited) :
    Follows H cwd (Modules.finish path file module answer)
      (visited.bind fun t => some ⟨t.started, path :: t.done⟩) := by
  cases h with
  | @ends s t hs hview =>
      have hend : view (s.loaded path file module) = ⟨t.started, path :: t.done⟩ := by
        rw [view_loaded, hview]
      exact .ends hs.loaded hend
  | never => exact .never

/-- What is not in the cache runs, and is in the cache afterwards. -/
theorem load_of_not_done (hs : Sound H cwd s) (htarget : target H cwd parent id = some path)
    (hdone : path ∉ (view s).done) (visited : Option (Visit.Trace String))
    (hhandler : ∀ module file t, module.dirs = [Module.dirname path] →
      Module.fileAt H cwd path = some file → Sound H cwd t →
      view t = ⟨(view s).started ++ [path], (view s).done⟩ →
      Follows H cwd (handler ⟨module, path, file⟩ t) visited) :
    Follows H cwd ((load H id parent).interp handler answer s)
      (visited.bind fun t => some ⟨t.started, path :: t.done⟩) := by
  obtain ⟨hid, hpath, hresolve⟩ := target_eq_some htarget
  obtain ⟨file, hfile⟩ := fileAt_of_resolveFilepath hresolve
  rw [← hs.dir] at hresolve
  rw [load_fresh hid hresolve (cached_of_not_done hdone hpath) (by rw [hs.dir]; exact hfile)]
  exact (hhandler ⟨id, s.next, some path, [Module.dirname path]⟩ file (s.started path file) rfl
    hfile (hs.started hfile) view_started).finish

/-- A source that requires one id after the other follows the visits of their paths. -/
theorem runBody_follows {n : Nat} {require : String → Modules → Answer Modules Unit}
    {ids : List String}
    (hrequire : ∀ id ∈ ids, ∀ s : Modules, Sound H cwd s → Follows H cwd (require id s)
      ((target H cwd parent id).elim (some (view s)) fun path =>
        Visit.visit (succ H requires cwd) n path (view s)))
    (hs : Sound H cwd s) :
    Follows H cwd (runBody require ids s) ((ids.filterMap (target H cwd parent)).foldlM
      (fun t path => Visit.visit (succ H requires cwd) n path t) (view s)) := by
  induction ids generalizing s with
  | nil => exact .ends hs rfl
  | cons id ids ih =>
      have hhead := hrequire id List.mem_cons_self s hs
      have htail : ∀ t : Modules, Sound H cwd t → _ :=
        fun t ht => ih (s := t) (fun id' hid' => hrequire id' (List.mem_cons_of_mem _ hid')) ht
      rw [runBody]
      -- an id that leads to no path is no edge of the graph
      cases htarget : target H cwd parent id with
      | none =>
          rw [htarget, Option.elim_none] at hhead
          rw [List.filterMap_cons_none htarget]
          generalize require id s = answer at hhead ⊢
          cases hhead with
          | @ends t _ ht hview =>
              rw [← hview]
              exact htail t ht
      | some path =>
          rw [htarget, Option.elim_some] at hhead
          rw [List.filterMap_cons_some htarget, List.foldlM_cons]
          generalize require id s = answer at hhead ⊢
          generalize Visit.visit _ n path (view s) = visited at hhead ⊢
          cases hhead with
          | @ends t u ht hview =>
              rw [← hview]
              exact htail t ht
          | never => exact .never

variable {main : String}

theorem Reached.succ (h : Reached H requires cwd main path) {path' : String}
    (hmem : path' ∈ succ H requires cwd path) : Reached H requires cwd main path' := by
  obtain ⟨root, hroot, hreach⟩ := h
  exact ⟨root, hroot, .head hmem hreach⟩

/-- `load` follows the visit of the path that it leads to, if it leads to one. -/
theorem loadWith_follows
    (hfound : ∀ path, Reached H requires cwd main path → ∀ id ∈ body H requires cwd path,
      Found H cwd (some (asParent path)) id) :
    ∀ (n : Nat) (id : String) (parent : Option Module) (s : Modules), Sound H cwd s →
      Found H cwd parent id →
      (∀ path, target H cwd parent id = some path → Reached H requires cwd main path) →
      Follows H cwd (loadWith H requires n id parent s)
        ((target H cwd parent id).elim (some (view s)) fun path =>
          Visit.visit (succ H requires cwd) n path (view s)) := by
  intro n
  induction n with
  | zero =>
      intro id parent s hs hid hreach
      rw [loadWith]
      cases htarget : target H cwd parent id with
      | none => exact load_of_target_none hs hid htarget
      | some path =>
          by_cases hdone : path ∈ (view s).done
          · rw [Option.elim_some, Visit.visit_of_done hdone]
            exact load_of_done hs htarget hdone
          · rw [Option.elim_some, Visit.visit, if_neg hdone]
            exact load_of_not_done hs htarget hdone none fun _ _ _ _ _ _ _ => .never
  | succ n ih =>
      intro id parent s hs hid hreach
      rw [loadWith]
      cases htarget : target H cwd parent id with
      | none => exact load_of_target_none hs hid htarget
      | some path =>
          by_cases hdone : path ∈ (view s).done
          · rw [Option.elim_some, Visit.visit_of_done hdone]
            exact load_of_done hs htarget hdone
          · rw [Option.elim_some, Visit.visit, if_neg hdone]
            refine load_of_not_done hs htarget hdone _ ?_
            intro module file t hdirs hfile ht hview
            have hreached : Reached H requires cwd main path := hreach path htarget
            have hbody : body H requires cwd path = requires file := by
              rw [body, hfile, Option.elim_some]
            have htargets : succ H requires cwd path =
                (requires file).filterMap (target H cwd (some module)) := by
              rw [succ, hbody]
              exact List.filterMap_congr fun id' _ => (target_asParent hdirs).symm
            rw [htargets, ← hview]
            refine runBody_follows (fun id' hid' s' hs' => ?_) ht
            have hid'' : Found H cwd (some module) id' := by
              rw [Found, resolveModPath_asParent hdirs]
              exact hfound path hreached id' (hbody ▸ hid')
            refine ih id' (some module) s' hs' hid'' (fun path' htarget' => ?_)
            refine hreached.succ ?_
            rw [htargets]
            exact List.mem_filterMap.mpr ⟨id', hid', htarget'⟩

end follows

/-! ### When a program loads -/

section loads

variable {H : ModuleHost} {requires : Nat → List String} {cwd main path : String}

/-- `load` of the main module comes to an end, no file was evaluated twice, and a require that
closes a cycle returned the exports of the module that it leads back to. -/
def LoadsOnce (H : ModuleHost) (requires : Nat → List String) (cwd main : String) : Prop :=
  ∃ n s, loadWith H requires n main none (new cwd) = some (.ok () s) ∧ (files s).Nodup ∧
    ∀ path path', Reached H requires cwd main path → path' ∈ succ H requires cwd path →
      Relation.ReflTransGen (Visit.Next (succ H requires cwd)) path path' →
      ∃ module, s.cache.lookup path' = some module ∧
        .returned (some path') (Module.fileAt H cwd path') (some module.exports) ∈ s.log

/-- No require leads back to a path that is being loaded, and no two paths name one file. -/
structure Distinct (H : ModuleHost) (requires : Nat → List String) (cwd main : String) : Prop where
  acyclic : ∀ path, Reached H requires cwd main path →
    ¬ Relation.TransGen (Visit.Next (succ H requires cwd)) path path
  files : Set.InjOn (Module.fileAt H cwd) { path | Reached H requires cwd main path }

theorem sound_new : Sound H cwd (new cwd) := ⟨rfl, rfl⟩

theorem reached_iff {root : String} (hroot : target H cwd none main = some root) :
    Reached H requires cwd main path ↔
      Relation.ReflTransGen (Visit.Next (succ H requires cwd)) path root := by
  constructor
  · rintro ⟨root', hroot', hreach⟩
    rw [hroot] at hroot'
    cases hroot'
    exact hreach
  · intro hreach
    exact ⟨root, hroot, hreach⟩

section program

variable {files : List Nat} {root : String} {n : Nat} {s : Modules}

/-- The load of the main module visits what its requires lead to. -/
theorem Program.follows (hprog : Program H requires cwd main files)
    (hroot : target H cwd none main = some root) :
    Follows H cwd (loadWith H requires n main none (new cwd))
      (Visit.visit (succ H requires cwd) n root ⟨[], []⟩) := by
  have hfollows := loadWith_follows hprog.found n main none (new cwd) sound_new hprog.root
    fun path hpath => ⟨path, hpath, .refl⟩
  rw [hroot] at hfollows
  exact hfollows

/-- What is known of a load that ended. -/
theorem Program.ended (hprog : Program H requires cwd main files)
    (hroot : target H cwd none main = some root)
    (hload : loadWith H requires n main none (new cwd) = some (.ok () s)) :
    Sound H cwd s ∧ Acc (Visit.Next (succ H requires cwd)) root ∧ (view s).started.Nodup ∧
      ∀ path, path ∈ (view s).started ↔ Reached H requires cwd main path := by
  have hfollows := hprog.follows (n := n) hroot
  rw [hload] at hfollows
  generalize hvisit : Visit.visit (succ H requires cwd) n root ⟨[], []⟩ = visited at hfollows
  cases hfollows with
  | ends hsound hview =>
      obtain ⟨hacc, hnodup, hmem⟩ := Visit.visit_new hvisit
      rw [hview]
      exact ⟨hsound, hacc, hnodup, fun path => (hmem path).trans (reached_iff hroot).symm⟩

/-- Of a load that ended, the files were evaluated once if and only if no two paths name one. -/
theorem nodup_files_iff (hsound : Sound H cwd s) (hnodup : (view s).started.Nodup)
    (hmem : ∀ path, path ∈ (view s).started ↔ Reached H requires cwd main path) :
    (Modules.files s).Nodup ↔
      Set.InjOn (Module.fileAt H cwd) { path | Reached H requires cwd main path } := by
  have hsome : (Modules.files s).Nodup ↔ ((view s).started.map (Module.fileAt H cwd)).Nodup := by
    rw [hsound.evaluated]
    exact (List.nodup_map_iff (Option.some_injective _)).symm
  rw [hsome, List.nodup_map_iff_inj_on hnodup]
  simp only [hmem]
  rfl

/-- Where no two paths name one file, there are finitely many paths. -/
theorem Program.finite (hprog : Program H requires cwd main files)
    (hinj : Set.InjOn (Module.fileAt H cwd) { path | Reached H requires cwd main path }) :
    { path | Reached H requires cwd main path }.Finite := by
  refine Set.Finite.of_finite_image (((files.map some).finite_toSet).subset ?_) hinj
  rintro _ ⟨path, hpath, rfl⟩
  obtain ⟨file, hfile, hat⟩ := hprog.files path hpath
  exact List.mem_map.mpr ⟨file, hfile, hat.symm⟩

/-- A program whose paths are distinct comes to an end. -/
theorem Program.ends (hprog : Program H requires cwd main files)
    (hdistinct : Distinct H requires cwd main) (hroot : target H cwd none main = some root) :
    ∃ n s, loadWith H requires n main none (new cwd) = some (.ok () s) := by
  have hfinite := hprog.finite hdistinct.files
  simp only [reached_iff hroot] at hfinite
  have hacc : Acc (Visit.Next (succ H requires cwd)) root :=
    Visit.acc_of_acyclic hfinite fun path hpath =>
      hdistinct.acyclic path ((reached_iff hroot).mpr hpath)
  obtain ⟨n, t, hvisit⟩ := Visit.exists_visit hacc ⟨[], []⟩
  have hfollows := hprog.follows (n := n) hroot
  rw [hvisit] at hfollows
  generalize hload : loadWith H requires n main none (new cwd) = answer at hfollows
  cases hfollows with
  | @ends s _ _ _ => exact ⟨n, s, hload⟩

/-- Where the main module is not a file to load, nothing is evaluated. -/
theorem Program.loads_nothing (hprog : Program H requires cwd main files)
    (hroot : target H cwd none main = none) :
    ∃ s, loadWith H requires 0 main none (new cwd) = some (.ok () s) ∧ Modules.files s = [] := by
  have hfollows : Follows H cwd (loadWith H requires 0 main none (new cwd))
      (some (view (new cwd))) := by
    rw [loadWith]
    exact load_of_target_none sound_new hprog.root hroot
  generalize loadWith H requires 0 main none (new cwd) = answer at hfollows
  cases hfollows with
  | @ends s _ hsound hview =>
      have hfiles := hsound.evaluated
      rw [hview] at hfiles
      exact ⟨s, rfl, List.map_eq_nil_iff.mp hfiles.symm⟩

/-- A program given by its paths. -/
theorem program_of_paths (paths : List String)
    (hroot : (target H cwd none main).any (paths.contains ·) = true)
    (hpaths : ∀ path ∈ paths, (Module.fileAt H cwd path).any (files.contains ·) = true ∧
      ∀ id ∈ body H requires cwd path,
        (target H cwd (some (asParent path)) id).any (paths.contains ·) = true) :
    Program H requires cwd main files ∧
      ∀ path, Reached H requires cwd main path → path ∈ paths := by
  have hfound : ∀ (parent : Option Module) (id : String),
      (target H cwd parent id).any (paths.contains ·) = true → Found H cwd parent id := by
    intro parent id hany
    obtain ⟨path, hpath, -⟩ := Option.any_eq_true .. |>.mp hany
    exact .inr ⟨path, (target_eq_some hpath).2.2⟩
  have hclosed : ∀ path, Reached H requires cwd main path → path ∈ paths := by
    rintro path ⟨root, hroot', hreach⟩
    rw [hroot', Option.any_some, List.contains_iff_mem] at hroot
    induction hreach using Relation.ReflTransGen.head_induction_on with
    | refl => exact hroot
    | @head path path' hnext _ ih =>
        obtain ⟨id, hid, htarget⟩ := List.mem_filterMap.mp hnext
        have hany := (hpaths path' ih).2 id hid
        rw [htarget, Option.any_some, List.contains_iff_mem] at hany
        exact hany
  refine ⟨⟨hfound none main hroot, fun path hpath => ?_, fun path hpath id hid => ?_⟩, hclosed⟩
  · obtain ⟨file, hfile, hmem⟩ := Option.any_eq_true .. |>.mp (hpaths path (hclosed path hpath)).1
    exact ⟨file, List.contains_iff_mem.mp hmem, hfile⟩
  · exact hfound _ id ((hpaths path (hclosed path hpath)).2 id hid)

end program

/-- A load of finitely many files comes to an end, with each file evaluated at most once, if and
only if no require leads back to a path that is being loaded and no two of the paths name one
file. -/
theorem loadsOnce_iff (H : ModuleHost) (requires : Nat → List String) (cwd main : String)
    {files : List Nat} (hprog : Program H requires cwd main files) :
    LoadsOnce H requires cwd main ↔ Distinct H requires cwd main := by
  cases hroot : target H cwd none main with
  | none =>
      have hnone : ∀ path, ¬ Reached H requires cwd main path := by
        rintro path ⟨root, hroot', -⟩
        rw [hroot] at hroot'
        cases hroot'
      constructor
      · intro _
        exact ⟨fun path hpath => absurd hpath (hnone path),
          fun path hpath => absurd hpath (hnone path)⟩
      · intro _
        obtain ⟨s, hload, hfiles⟩ := hprog.loads_nothing hroot
        refine ⟨0, s, hload, ?_, fun path path' hpath => absurd hpath (hnone path)⟩
        rw [hfiles]
        exact List.nodup_nil
  | some root =>
      constructor
      · rintro ⟨n, s, hload, honce, -⟩
        obtain ⟨hsound, hacc, hnodup, hmem⟩ := hprog.ended hroot hload
        refine ⟨fun path hpath => ?_, (nodup_files_iff hsound hnodup hmem).mp honce⟩
        exact Visit.acyclic_of_acc hacc path ((reached_iff hroot).mp hpath)
      · intro hdistinct
        obtain ⟨n, s, hload⟩ := hprog.ends hdistinct hroot
        obtain ⟨hsound, -, hnodup, hmem⟩ := hprog.ended hroot hload
        refine ⟨n, s, hload, (nodup_files_iff hsound hnodup hmem).mpr hdistinct.files, ?_⟩
        -- there are no such requires
        intro path path' hpath hmem' hback
        exact absurd (Relation.TransGen.tail' hback hmem') (hdistinct.acyclic path hpath)

/-- Two files in the working directory, and nothing else. -/
def twoFiles : ModuleHost where
  natives := []
  cwd := none
  home := ""
  nodePath := ""
  stat _ path :=
    if path = "a.js" then some (.file 0)
    else if path = "b.js" then some (.file 1)
    else none
  packageMain _ := .error "no package"

/-- `a.js` requires `b.js`. -/
def chain : Nat → List String
  | 0 => ["b"]
  | _ => []

/-- `a.js` and `b.js` require each other. -/
def circle : Nat → List String
  | 0 => ["b"]
  | _ => ["a"]

/-- A program without a cycle loads. -/
theorem loadsOnce_iff_chain : LoadsOnce twoFiles chain "/" "a" := by
  obtain ⟨hprog, hpaths⟩ : Program twoFiles chain "/" "a" [0, 1] ∧
      ∀ path, Reached twoFiles chain "/" "a" path → path ∈ ["a.js", "b.js"] :=
    program_of_paths _ (by decide) (by decide)
  refine (loadsOnce_iff twoFiles chain "/" "a" hprog).mpr ⟨fun path hpath => ?_, ?_⟩
  · have hb : Acc (Visit.Next (succ twoFiles chain "/")) "b.js" := ⟨_, nofun⟩
    have ha : Acc (Visit.Next (succ twoFiles chain "/")) "a.js" := by
      constructor
      intro path hmem
      obtain rfl : path = "b.js" := List.mem_singleton.mp hmem
      exact hb
    exact Visit.acyclic_of_acc ha path ((reached_iff rfl).mp hpath)
  · have hinj : ∀ path ∈ ["a.js", "b.js"], ∀ path' ∈ ["a.js", "b.js"],
        Module.fileAt twoFiles "/" path = Module.fileAt twoFiles "/" path' → path = path' := by
      decide
    intro path hpath path' hpath' heq
    exact hinj path (hpaths path hpath) path' (hpaths path' hpath') heq

/-- Two files that require each other: their load does not come to an end. -/
theorem load_circle :
    ¬ ∀ (H : ModuleHost) (requires : Nat → List String) (cwd main : String) (files : List Nat),
      Program H requires cwd main files → LoadsOnce H requires cwd main := by
  intro hall
  have hprog : Program twoFiles circle "/" "a" [0, 1] :=
    (program_of_paths ["a.js", "b.js"] (by decide) (by decide)).1
  obtain ⟨n, s, hload, -⟩ := hall twoFiles circle "/" "a" [0, 1] hprog
  have hroot : target twoFiles "/" none "a" = some "a.js" := by decide
  obtain ⟨-, hacc, -⟩ := hprog.ended hroot hload
  have hab : Visit.Next (succ twoFiles circle "/") "b.js" "a.js" := by
    show "b.js" ∈ succ twoFiles circle "/" "a.js"
    decide
  have hba : Visit.Next (succ twoFiles circle "/") "a.js" "b.js" := by
    show "a.js" ∈ succ twoFiles circle "/" "b.js"
    decide
  exact Visit.acyclic_of_acc hacc "a.js" .refl (.tail (.single hba) hab)

end loads

end IotJs.Modules

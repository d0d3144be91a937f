import IotJs.Proofs.ModuleLoad

/-!
# `IotJs.Proofs.ModuleIdentity`: one file, one module

In a run of the loader the sources of the modules, and whatever runs later, require ids from any
module and change the working directory. The key of the cache is the path that an id was resolved
to, as a string. So what `require` returns tells the files apart as long as the paths do: `Clear`
is the condition of each `require` under which the run does not show the difference, and
`identity` says that then two requires return the same exports if and only if they were resolved
to the same file, and that a `require` without a file throws.

`Clear` excludes four kinds of `require`: of a path whose file was returned under another path, or
that named another file before; of a file that is being loaded; of a path that every object
inherits; and of nothing, where a file with the path "false" is in the cache.
-/

set_option autoImplicit false

namespace IotJs.Modules

open Reentrant

/-! ### One `load` -/

/-- What waits while the source of a module runs. -/
def afterLoad (u : ModuleYield) : Loading Unit := do
  modify fun s => { s with cache := (u.path, u.module) :: s.cache }
  record (.returned (some u.path) (some u.file) (some u.module.exports))

/-- All that `load` does up to its first yield. -/
inductive LoadStep (H : ModuleHost) (id : String) (parent : Option Module) (s : Modules) :
    Outcome Modules ModuleYield Empty Unit → Prop where
  | native (hid : Module.nativeSource H id = true) :
      LoadStep H id parent s (.done () { s with log := s.log ++ [.native id] })
  | unreadable (message : String) (hid : Module.nativeSource H id = false)
      (hresolve : Module.resolveModPath H s.cwd id parent = .error message) :
      LoadStep H id parent s (.thrown message s)
  | cached (modPath : Option String) (exports : Option Nat)
      (hid : Module.nativeSource H id = false)
      (hresolve : Module.resolveModPath H s.cwd id parent = .ok modPath)
      (hcached : s.cached modPath = some exports) :
      LoadStep H id parent s (.done () { s with log := s.log ++
        [.returned modPath (modPath.bind (Module.fileAt H s.cwd)) exports] })
  | missing (hid : Module.nativeSource H id = false)
      (hresolve : Module.resolveModPath H s.cwd id parent = .ok none)
      (hcached : s.cached none = none) :
      LoadStep H id parent s (.thrown "No module found" s)
  | fresh (path : String) (file : Nat) (hid : Module.nativeSource H id = false)
      (hresolve : Module.resolveModPath H s.cwd id parent = .ok (some path))
      (hcached : s.cached (some path) = none) (hfile : Module.fileAt H s.cwd path = some file) :
      LoadStep H id parent s (.yielded ⟨⟨id, s.next, some path, [Module.dirname path]⟩, path, file⟩
        (afterLoad ⟨⟨id, s.next, some path, [Module.dirname path]⟩, path, file⟩)
        (s.started path file))

section load

variable {H : ModuleHost} {id : String} {parent : Option Module} {s : Modules}

theorem exec_load (rs : List Int) : LoadStep H id parent s ((load H id parent).exec rs s) := by
  by_cases hid : Module.nativeSource H id = true
  · rw [load, if_pos hid]
    exact .native hid
  · have hid' : Module.nativeSource H id = false := Bool.not_eq_true _ ▸ hid
    rw [load, if_neg hid, Prog.exec_get_bind]
    -- a `package.json` that cannot be parsed throws before the cache is looked at
    cases hresolve : Module.resolveModPath H s.cwd id parent with
    | error message => exact .unreadable message hid' hresolve
    | ok modPath =>
        cases hcached : s.cached modPath with
        | some exports =>
            simp only [hcached]
            exact .cached modPath exports hid' hresolve hcached
        | none =>
            simp only [hcached]
            cases modPath with
            | none => exact .missing hid' hresolve hcached
            | some path =>
                obtain ⟨file, hfile⟩ := fileAt_of_resolveFilepath hresolve
                have hfile' : Module.fileAt H { s with next := s.next + 1 }.cwd path = some file :=
                  hfile
                simp only [Prog.exec_modify_bind, compile, Prog.bind_assoc, Prog.exec_get_bind,
                  hfile', Option.bind_some]
                exact .fresh path file hid' hresolve hcached hfile

end load

/-! ### The condition of a `require` -/

/-- What was returned before names the same file under the same path, or another under another. -/
def agrees (path : String) (file : Nat) : ModuleObs → Bool
  | .returned (some path') (some file') _ => (path' == path) == (file' == file)
  | _ => true

/-- Given what the id was resolved to, the `require` does not show how the cache is keyed. -/
def Distinguished (H : ModuleHost) (c : Config Modules ModuleYield Empty) :
    Except String (Option String) → Prop
  | .error _ => True
  | .ok none => c.heap.cache.lookup "false" = none
  | .ok (some path) => Module.inherited.contains path = false ∧
      ∀ file ∈ Module.fileAt H c.heap.cwd path,
        (∀ u ∈ c.tags, u.file ≠ file) ∧ ∀ o ∈ c.heap.log, agrees path file o = true

instance (H : ModuleHost) (c : Config Modules ModuleYield Empty) :
    ∀ resolved, Decidable (Distinguished H c resolved)
  | .error _ => .isTrue trivial
  | .ok none => inferInstanceAs (Decidable (_ = _))
  | .ok (some _) => inferInstanceAs (Decidable (_ ∧ _))

/-- The condition on the moves of a run. -/
def Clear (H : ModuleHost) (c : Config Modules ModuleYield Empty) : Move Call → Prop
  | .call (.require id parent) _ => Module.nativeSource H id = false →
      Distinguished H c (Module.resolveModPath H c.heap.cwd id parent)
  | _ => True

instance (H : ModuleHost) (c : Config Modules ModuleYield Empty) : ∀ m, Decidable (Clear H c m)
  | .call (.require _ _) _ => inferInstanceAs (Decidable (_ → _))
  | .call (.chdir _) _ => .isTrue trivial
  | .ret _ => .isTrue trivial
  | .throw => .isTrue trivial

/-! ### What every run keeps -/

/-- Two requires return the same exports if and only if they were resolved to the same file, and
what returned was resolved to a file. -/
structure Identity (s : Modules) : Prop where
  same : ∀ p f e p' f' e', .returned p f e ∈ s.log → .returned p' f' e' ∈ s.log →
    (e = e' ↔ f = f')
  found : ∀ p f e, .returned p f e ∈ s.log → ∃ path file exports,
    p = some path ∧ f = some file ∧ e = some exports

/-- A `require` returned the exports for this file. -/
def Returned (s : Modules) (path : String) (file exports : Nat) : Prop :=
  .returned (some path) (some file) (some exports) ∈ s.log

/-- The state and the modules that are being loaded: the objects are all different, as the files
are, and the cache holds what was returned. -/
structure Inv (s : Modules) (tags : List ModuleYield) : Prop where
  identity : Identity s
  cached : ∀ path module, s.cache.lookup path = some module →
    ∃ file, Returned s path file module.exports
  kept : ∀ path file exports, Returned s path file exports →
    ∃ module, s.cache.lookup path = some module
  old : ∀ path file exports, Returned s path file exports → exports < s.next
  opened : ∀ u ∈ tags, u.module.exports < s.next ∧
    ∀ path file exports, Returned s path file exports →
      exports ≠ u.module.exports ∧ file ≠ u.file
  apart : tags.Pairwise fun u v => u.module.exports ≠ v.module.exports ∧ u.file ≠ v.file

section inv

variable {H : ModuleHost} {s : Modules} {tags : List ModuleYield} {o : ModuleObs}

theorem inv_new (cwd : String) : Inv (new cwd) [] where
  identity := ⟨nofun, nofun⟩
  cached := nofun
  kept := nofun
  old := nofun
  opened := nofun
  apart := .nil

/-- The invariant depends on the answers of `require`, the cache and the objects alone. -/
theorem Inv.congr {t : Modules} (h : Inv s tags)
    (hlog : ∀ p f e, .returned p f e ∈ t.log ↔ .returned p f e ∈ s.log) (hcache : t.cache = s.cache)
    (hnext : s.next ≤ t.next) : Inv t tags := by
  have hreturned : ∀ path file exports,
      Returned t path file exports ↔ Returned s path file exports :=
    fun path file exports => hlog _ _ _
  refine ⟨⟨?_, ?_⟩, ?_, ?_, ?_, ?_, h.apart⟩
  · intro p f e p' f' e' hp hp'
    exact h.identity.same p f e p' f' e' ((hlog p f e).mp hp) ((hlog p' f' e').mp hp')
  · intro p f e hp
    exact h.identity.found p f e ((hlog p f e).mp hp)
  · intro path module hlookup
    rw [hcache] at hlookup
    simp only [hreturned]
    exact h.cached path module hlookup
  · intro path file exports hret
    rw [hcache]
    exact h.kept path file exports ((hreturned ..).mp hret)
  · intro path file exports hret
    have hlt := h.old path file exports ((hreturned ..).mp hret)
    omega
  · intro u hu
    obtain ⟨hlt, hne⟩ := h.opened u hu
    exact ⟨by omega, fun path file exports hret => hne path file exports ((hreturned ..).mp hret)⟩

/-- An entry that is no new answer of `require` changes nothing. -/
theorem Inv.append (h : Inv s tags) (ho : ∀ p f e, o = .returned p f e → o ∈ s.log) :
    Inv { s with log := s.log ++ [o] } tags := by
  refine h.congr (fun p f e => ?_) rfl (Nat.le_refl _)
  constructor
  · intro hmem
    rcases List.mem_append.mp hmem with hmem | hmem
    · exact hmem
    · have heq := List.mem_singleton.mp hmem
      rw [heq]
      exact ho p f e heq.symm
  · intro hmem
    exact List.mem_append_left _ hmem

/-- The files that were returned are the ones whose paths are in the cache. -/
theorem Inv.not_returned (h : Inv s tags) {path : String} {file : Nat}
    (hcached : s.cached (some path) = none) (hagrees : ∀ o ∈ s.log, agrees path file o = true) :
    ∀ path' file' exports, Returned s path' file' exports → file' ≠ file := by
  rintro path' file' exports hret rfl
  -- a file that was returned would have been found in the cache, under the path that it has now
  have hpath : path' = path := by
    have hagree := hagrees _ hret
    simpa [agrees] using hagree
  subst hpath
  obtain ⟨module, hlookup⟩ := h.kept _ _ _ hret
  simp only [Modules.cached, key, Option.getD_some, hlookup] at hcached
  cases hcached

/-- A source starts. -/
theorem Inv.started (h : Inv s tags) {id path : String} {file : Nat}
    (hcached : s.cached (some path) = none) (hagrees : ∀ o ∈ s.log, agrees path file o = true)
    (hopen : ∀ u ∈ tags, u.file ≠ file) :
    Inv (s.started path file)
      (⟨⟨id, s.next, some path, [Module.dirname path]⟩, path, file⟩ :: tags) := by
  have hbase : Inv (s.started path file) tags := by
    refine h.congr (fun p f e => ?_) rfl (Nat.le_succ _)
    simp [Modules.started]
  refine { hbase with opened := ?_, apart := ?_ }
  · intro u hu
    rcases List.mem_cons.mp hu with rfl | hu
    · -- the exports of the module are a new object
      refine ⟨Nat.lt_succ_self _, fun path' file' exports hret => ?_⟩
      have hret' : Returned s path' file' exports := by
        simpa [Returned, Modules.started] using hret
      exact ⟨Nat.ne_of_lt (h.old _ _ _ hret'), h.not_returned hcached hagrees _ _ _ hret'⟩
    · exact hbase.opened u hu
  · refine List.pairwise_cons.mpr ⟨fun v hv => ?_, h.apart⟩
    exact ⟨Nat.ne_of_gt (h.opened v hv).1, (hopen v hv).symm⟩

/-- What was returned after a source has run. -/
theorem returned_loaded {path path' : String} {file file' exports : Nat} {module : Module} :
    Returned (s.loaded path file module) path' file' exports ↔
      Returned s path' file' exports ∨ path' = path ∧ file' = file ∧ exports = module.exports := by
  simp [Returned, Modules.loaded]

/-- A source returns, and its module enters the cache. -/
theorem Inv.loaded {u : ModuleYield} (h : Inv s (u :: tags)) :
    Inv (s.loaded u.path u.file u.module) tags := by
  obtain ⟨hlt, hnew⟩ := h.opened u List.mem_cons_self
  obtain ⟨hapart, htags⟩ := List.pairwise_cons.mp h.apart
  have hlog : ∀ p f e, .returned p f e ∈ (s.loaded u.path u.file u.module).log →
      .returned p f e ∈ s.log ∨
        p = some u.path ∧ f = some u.file ∧ e = some u.module.exports := by
    intro p f e hmem
    simpa [Modules.loaded] using hmem
  -- the new answer differs from every earlier one in both
  have hother : ∀ p f e, .returned p f e ∈ s.log →
      (e = some u.module.exports ↔ f = some u.file) := by
    intro p f e hmem
    obtain ⟨path, file, exports, rfl, rfl, rfl⟩ := h.identity.found p f e hmem
    obtain ⟨hexports, hfile⟩ := hnew path file exports hmem
    simp only [Option.some.injEq, hexports, hfile]
  refine ⟨⟨?_, ?_⟩, ?_, ?_, ?_, ?_, htags⟩
  · intro p f e p' f' e' hp hp'
    rcases hlog p f e hp with hp | ⟨rfl, rfl, rfl⟩
    · rcases hlog p' f' e' hp' with hp' | ⟨rfl, rfl, rfl⟩
      · exact h.identity.same p f e p' f' e' hp hp'
      · exact hother p f e hp
    · rcases hlog p' f' e' hp' with hp' | ⟨rfl, rfl, rfl⟩
      · rw [eq_comm, hother p' f' e' hp', eq_comm]
      · simp only
  · intro p f e hp
    rcases hlog p f e hp with hp | ⟨rfl, rfl, rfl⟩
    · exact h.identity.found p f e hp
    · exact ⟨u.path, u.file, u.module.exports, rfl, rfl, rfl⟩
  · intro path module hlookup
    -- the new entry shadows an older one of the same path
    by_cases hpath : path = u.path
    · subst hpath
      rw [Modules.loaded, List.lookup_cons_self] at hlookup
      cases hlookup
      exact ⟨u.file, returned_loaded.mpr (.inr ⟨rfl, rfl, rfl⟩)⟩
    · rw [Modules.loaded, List.lookup_cons, beq_false_of_ne hpath] at hlookup
      obtain ⟨file, hret⟩ := h.cached path module hlookup
      exact ⟨file, returned_loaded.mpr (.inl hret)⟩
  · intro path file exports hret
    by_cases hpath : path = u.path
    · subst hpath
      exact ⟨u.module, by rw [Modules.loaded, List.lookup_cons_self]⟩
    · rw [Modules.loaded, List.lookup_cons, beq_false_of_ne hpath]
      rcases returned_loaded.mp hret with hret | ⟨heq, -, -⟩
      · exact h.kept path file exports hret
      · exact absurd heq hpath
  · intro path file exports hret
    rcases returned_loaded.mp hret with hret | ⟨-, -, rfl⟩
    · exact h.old path file exports hret
    · exact hlt
  · intro v hv
    obtain ⟨hvlt, hvnew⟩ := h.opened v (List.mem_cons_of_mem _ hv)
    refine ⟨hvlt, fun path file exports hret => ?_⟩
    rcases returned_loaded.mp hret with hret | ⟨-, rfl, rfl⟩
    · exact hvnew path file exports hret
    · exact hapart v hv

end inv

/-! ### Runs -/

section runs

variable {H : ModuleHost} {s : Modules} {tags : List ModuleYield}
variable {c c' : Config Modules ModuleYield Empty}

/-- What a `require` returns from the cache was returned before. -/
theorem Inv.hit (h : Inv s tags) {path : String} {file : Nat} {exports : Option Nat}
    (hcached : s.cached (some path) = some exports)
    (hpath : Module.inherited.contains path = false)
    (hagrees : ∀ o ∈ s.log, agrees path file o = true) :
    .returned (some path) (some file) exports ∈ s.log := by
  cases hlookup : s.cache.lookup path with
  | none =>
      simp only [Modules.cached, key, Option.getD_some, hlookup, hpath] at hcached
      cases hcached
  | some module =>
      simp only [Modules.cached, key, Option.getD_some, hlookup] at hcached
      cases hcached
      obtain ⟨file', hret⟩ := h.cached path module hlookup
      have hfile : file' = file := by
        have hagree := hagrees _ hret
        simpa [agrees] using hagree
      rw [← hfile]
      exact hret

/-- A `require` keeps the invariant, where it is clear. -/
theorem Inv.require (h : Inv c.heap c.tags) {id : String} {parent : Option Module} {rs : List Int}
    (hclear : Clear H c (.call (.require id parent) rs)) {o : Outcome Modules ModuleYield Empty Unit}
    (hload : LoadStep H id parent c.heap o) : Inv o.heap (o.tag.toList ++ c.tags) := by
  cases hload with
  | native hid => exact h.append nofun
  | unreadable message hid hresolve => exact h
  | missing hid hresolve hcached => exact h
  | cached modPath exports hid hresolve hcached =>
      have hdist : Distinguished H c (.ok modPath) := hresolve ▸ hclear hid
      refine h.append fun p f e heq => ?_
      cases modPath with
      | none =>
          -- the cache is asked for the path `false`, which becomes the key 'false'
          have hlookup : c.heap.cache.lookup "false" = none := hdist
          simp only [Modules.cached, key, Option.getD_none, hlookup] at hcached
          cases hcached
      | some path =>
          obtain ⟨file, hfile⟩ := fileAt_of_resolveFilepath hresolve
          rw [Option.bind_some, hfile]
          exact h.hit hcached hdist.1 (hdist.2 file hfile).2
  | fresh path file hid hresolve hcached hfile =>
      have hdist : Distinguished H c (.ok (some path)) := hresolve ▸ hclear hid
      obtain ⟨hopen, hagrees⟩ := hdist.2 file hfile
      exact h.started hcached hagrees hopen

/-- What waits on the stack goes on as its tag says, and the invariant holds. -/
def Kept (c : Config Modules ModuleYield Empty) : Prop :=
  (∀ f ∈ c.stack, f.2 = afterLoad f.1) ∧ Inv c.heap c.tags

theorem kept_settle {stack : List (ModuleYield × Loading Unit)}
    {o : Outcome Modules ModuleYield Empty Unit} (hstack : ∀ f ∈ stack, f.2 = afterLoad f.1)
    (ho : ∀ u k t, o = .yielded u k t → k = afterLoad u)
    (hinv : Inv o.heap (o.tag.toList ++ stack.map Prod.fst)) : Kept (Config.settle stack o) := by
  refine ⟨?_, ?_⟩
  · cases o with
    | done a t => exact hstack
    | thrown e t => exact hstack
    | yielded u k t =>
        intro f hf
        rcases List.mem_cons.mp hf with rfl | hf
        · exact ho u k t rfl
        · exact hstack f hf
  · rw [settle_heap, settle_tags]
    exact hinv

theorem kept_step (h : Kept c) {m : Move Call} (hclear : Clear H c m)
    (hstep : (machine H).step c m = some c') : Kept c' := by
  obtain ⟨hstack, hinv⟩ := h
  obtain ⟨s, stack⟩ := c
  cases m with
  | call i rs =>
      obtain rfl : Config.settle stack (((machine H).body i).exec rs s) = c' :=
        Option.some.inj hstep
      cases i with
      | require id parent =>
          have hload : LoadStep H id parent s ((load H id parent).exec rs s) := exec_load rs
          refine kept_settle hstack (fun u k t ho => ?_) (hinv.require hclear hload)
          have ho' : (load H id parent).exec rs s = .yielded u k t := ho
          rw [ho'] at hload
          cases hload
          rfl
      | chdir cwd =>
          -- the cache and the answers stay as they are
          refine kept_settle hstack nofun ?_
          exact hinv.congr (fun _ _ _ => Iff.rfl) rfl (Nat.le_refl _)
  | ret rs =>
      cases stack with
      | nil => cases hstep
      | cons f stack =>
          obtain ⟨u, k⟩ := f
          obtain rfl : k = afterLoad u := hstack _ List.mem_cons_self
          cases hstep
          exact kept_settle (fun g hg => hstack g (List.mem_cons_of_mem _ hg)) nofun hinv.loaded
  | throw =>
      cases stack with
      | nil => cases hstep
      | cons f stack =>
          cases hstep
          refine ⟨fun g hg => hstack g (List.mem_cons_of_mem _ hg), ?_⟩
          -- the module whose source threw is forgotten
          exact { hinv with
            opened := fun u hu => hinv.opened u (List.mem_cons_of_mem _ hu)
            apart := (List.pairwise_cons.mp hinv.apart).2 }

/-- A `require` without a file throws, where nothing is cached for it. -/
theorem load_missing {id : String} {parent : Option Module} (rs : List Int)
    (hid : Module.nativeSource H id = false)
    (hresolve : Module.resolveModPath H s.cwd id parent = .ok none)
    (hlookup : s.cache.lookup "false" = none) :
    (load H id parent).exec rs s = .thrown "No module found" s := by
  have hcached : s.cached none = none := by
    simp only [Modules.cached, key, Option.getD_none, hlookup]
    rfl
  have hload : LoadStep H id parent s ((load H id parent).exec rs s) := exec_load rs
  generalize (load H id parent).exec rs s = o at hload ⊢
  cases hload with
  | native hid' =>
      rw [hid] at hid'
      cases hid'
  | unreadable message _ hresolve' =>
      rw [hresolve] at hresolve'
      cases hresolve'
  | cached modPath exports _ hresolve' hcached' =>
      rw [hresolve] at hresolve'
      cases hresolve'
      rw [hcached] at hcached'
      cases hcached'
  | missing => rfl
  | fresh path file _ hresolve' =>
      rw [hresolve] at hresolve'
      cases hresolve'

/-- The exports identify the files, and the next `require` for which there is no file throws. -/
structure Identified (H : ModuleHost) (c : Config Modules ModuleYield Empty) : Prop where
  identity : Identity c.heap
  throws : ∀ id parent rs, Clear H c (.call (.require id parent) rs) →
    Module.nativeSource H id = false →
    Module.resolveModPath H c.heap.cwd id parent = .ok none →
    (load H id parent).exec rs c.heap = .thrown "No module found" c.heap

/-- One file in the working directory, under two of its paths. -/
def dotted : ModuleHost where
  natives := []
  cwd := none
  home := ""
  nodePath := ""
  stat _ path := if path = "a.js" ∨ path = "./a.js" then some (.file 0) else none
  packageMain _ := .error "no package"

end runs

end IotJs.Modules

import IotJs.Core.ModulePackages

/-!
# `IotJs.Proofs.ModuleCandidates`: the first file that a `require` can mean

Each directory of a search has its candidates, in order: the id, the id with `.js`, and in a package
the file that `main` names and `index.js`. `firstFile` is the first of all candidates that is a
file. `resolveFilepath` finds it as long as it can make sense of the packages on its way: it fails
on contents that it cannot read, and it takes a missing `main` for a file `undefined`.
`resolveFilepath_eq_iff` says for which file systems the two agree.
-/

set_option autoImplicit false

namespace IotJs.Module

/-- What a `package.json` says of `main`. -/
inductive Main where
  /-- the file cannot be read, is no JSON or no value with fields, or its `main` has no text -/
  | unusable
  | absent
  | text (pkgMainFile : String)
deriving DecidableEq, Repr

def Main.ofField : Option JsonValue → Main
  | none => .absent
  | some main =>
      match main.toText with
      | .ok pkgMainFile => .text pkgMainFile
      | .error _ => .unusable

def Main.of : PackageSource → Main
  | .parsed value =>
      match value.property "main" with
      | .ok field => ofField field
      | .error _ => .unusable
  | _ => .unusable

section

variable (H : ModuleHost) (contents : Nat → PackageSource) (cwd id dir : String)

/-- The candidates in a package. Only a `main` with a text is one. -/
def packageCandidates : Main → List String
  | .text pkgMainFile => [dir ++ id ++ "/" ++ pkgMainFile, dir ++ id ++ "/" ++ "index.js"]
  | _ => [dir ++ id ++ "/" ++ "index.js"]

/-- What an id can mean in a directory. -/
def candidates : List String :=
  [dir ++ id, dir ++ id ++ ".js"] ++
    ((fileAt H cwd (dir ++ id ++ "/package.json")).elim [] fun file =>
      packageCandidates id dir (.of (contents file)))

/-- The first of some paths that is there and is no directory. -/
def firstFile (paths : List String) : Option String :=
  paths.find? fun path => (tryPath H cwd path).isSome

/-- The first file that an id can mean. -/
def firstCandidate (directories : List String) : Option String :=
  firstFile H cwd (directories.flatMap (candidates H contents cwd id))

/-- Where the search comes to a package, `main` is usable. Where there is none, the package has no
file `undefined`, or this is the file that the search is to find. -/
def Resolvable : List String → Prop
  | [] => True
  | dir :: directories =>
      firstFile H cwd [dir ++ id, dir ++ id ++ ".js"] = none →
        match fileAt H cwd (dir ++ id ++ "/package.json") with
        | none => Resolvable directories
        | some file =>
            match Main.of (contents file) with
            | .unusable => False
            | .absent =>
                if tryPath H cwd (dir ++ id ++ "/" ++ "undefined") = none then
                  tryPath H cwd (dir ++ id ++ "/" ++ "index.js") = none → Resolvable directories
                else
                  firstCandidate H contents cwd id (dir :: directories) =
                    some (dir ++ id ++ "/" ++ "undefined")
            | .text pkgMainFile =>
                firstFile H cwd [dir ++ id ++ "/" ++ pkgMainFile, dir ++ id ++ "/" ++ "index.js"] =
                  none → Resolvable directories

end

variable {H : ModuleHost} {contents : Nat → PackageSource} {cwd id dir : String}

theorem tryPath_eq (path : String) :
    tryPath H cwd path = if (tryPath H cwd path).isSome then some path else none := by
  unfold tryPath
  split <;> rfl

/-- What the code takes for the name of the file. -/
theorem main_eq (source : PackageSource) :
    match Main.of source with
    | .unusable => ∃ message, source.main = .error message
    | .absent => source.main = .ok "undefined"
    | .text pkgMainFile => source.main = .ok pkgMainFile := by
  cases source with
  | unreadable => exact ⟨_, rfl⟩
  | malformed => exact ⟨_, rfl⟩
  | parsed value =>
      rw [Main.of, PackageSource.main]
      cases value.property "main" with
      | error message => exact ⟨message, rfl⟩
      | ok field =>
          cases field with
          | none => rfl
          | some main =>
              simp only [Main.ofField]
              cases main.toText with
              | error message => exact ⟨message, rfl⟩
              | ok pkgMainFile => rfl

/-! ### One directory -/

theorem firstFile_append (paths rest : List String) :
    firstFile H cwd (paths ++ rest) = (firstFile H cwd paths).or (firstFile H cwd rest) :=
  List.find?_append ..

theorem firstFile_cons (path : String) (rest : List String) :
    firstFile H cwd (path :: rest) = (tryPath H cwd path).or (firstFile H cwd rest) := by
  rw [firstFile, List.find?_cons, tryPath_eq path]
  cases (tryPath H cwd path).isSome <;> rfl

theorem firstFile_nil : firstFile H cwd [] = none := rfl

theorem firstCandidate_cons (directories : List String) :
    firstCandidate H contents cwd id (dir :: directories) =
      (firstFile H cwd (candidates H contents cwd id dir)).or
        (firstCandidate H contents cwd id directories) := by
  rw [firstCandidate, List.flatMap_cons, firstFile_append, firstCandidate]

/-- What is found, and what comes next where nothing is. -/
def orNext (found : Option String) (next : Except String (Option String)) :
    Except String (Option String) :=
  found.elim next fun filepath => .ok (some filepath)

theorem orNext_or (found other : Option String) (next : Except String (Option String)) :
    orNext (found.or other) next = orNext found (orNext other next) := by
  cases found <;> rfl

theorem orNext_eq_iff {found other : Option String} {next : Except String (Option String)} :
    orNext found next = .ok (found.or other) ↔ (found = none → next = .ok other) := by
  cases found with
  | none => exact ⟨fun heq _ => heq, fun hnext => hnext rfl⟩
  | some filepath => exact iff_of_true rfl fun hnone => absurd hnone (Option.some_ne_none filepath)

section

variable (H cwd id dir)

/-- What the search does in a package: the file of `main`, `index.js`, or the next directory. -/
def resolvePackage (main : Except String String) (next : Except String (Option String)) :
    Except String (Option String) :=
  main >>= fun pkgMainFile =>
    orNext (firstFile H cwd [dir ++ id ++ "/" ++ pkgMainFile, dir ++ id ++ "/" ++ "index.js"]) next

end

/-- One turn of the loop of `resolveFilepath`. -/
theorem resolveFilepath_cons (directories : List String) :
    resolveFilepath (H.withPackages contents) cwd id (dir :: directories) =
      orNext (firstFile H cwd [dir ++ id, dir ++ id ++ ".js"])
        ((fileAt H cwd (dir ++ id ++ "/package.json")).elim
          (resolveFilepath (H.withPackages contents) cwd id directories) fun file =>
            resolvePackage H cwd id dir (contents file).main
              (resolveFilepath (H.withPackages contents) cwd id directories)) := by
  have htry : tryPath (H.withPackages contents) = tryPath H := rfl
  have hjson : (tryPath H cwd (dir ++ id ++ "/package.json")).isSome =
      (fileAt H cwd (dir ++ id ++ "/package.json")).isSome := by
    unfold tryPath fileAt
    split <;> rfl
  rw [resolveFilepath, htry, firstFile_cons, firstFile_cons, firstFile_nil, Option.or_none,
    orNext_or]
  cases tryPath H cwd (dir ++ id) with
  | some filepath => rfl
  | none =>
      cases tryPath H cwd (dir ++ id ++ ".js") with
      | some filepath => rfl
      | none =>
          -- the file is read only when it is there
          have hread : readMain (H.withPackages contents) cwd (dir ++ id ++ "/package.json") =
              (fileAt H cwd (dir ++ id ++ "/package.json")).elim
                (.error "cannot read package.json") fun file => (contents file).main := by
            show readMain _ cwd _ = Option.elim (fileAt (H.withPackages contents) cwd _) _ _
            rw [readMain]
            cases fileAt (H.withPackages contents) cwd (dir ++ id ++ "/package.json") <;> rfl
          simp only [hread, hjson]
          cases fileAt H cwd (dir ++ id ++ "/package.json") with
          | none => rfl
          | some file =>
              simp only [Option.elim_some, resolvePackage, firstFile_cons, firstFile_nil,
                Option.or_none, orNext_or]
              cases (contents file).main with
              | error message => rfl
              | ok pkgMainFile =>
                  cases hfirst : tryPath H cwd (dir ++ id ++ "/" ++ pkgMainFile) with
                  | some filepath => simp [hfirst, orNext, bind, Except.bind]
                  | none =>
                      cases tryPath H cwd (dir ++ id ++ "/" ++ "index.js") with
                      | some filepath => simp [hfirst, orNext, bind, Except.bind]
                      | none => simp [hfirst, orNext, bind, Except.bind]

/-! ### One package -/

section package

variable {source : PackageSource} {next : Except String (Option String)} {other : Option String}

theorem not_resolvePackage (hof : Main.of source = .unusable) :
    resolvePackage H cwd id dir source.main next ≠ .ok other := by
  have hmain := main_eq source
  rw [hof] at hmain
  obtain ⟨message, hmessage⟩ := hmain
  rw [resolvePackage, hmessage]
  exact fun heq => nomatch heq

theorem resolvePackage_text {pkgMainFile : String} (hof : Main.of source = .text pkgMainFile) :
    resolvePackage H cwd id dir source.main next =
        .ok ((firstFile H cwd (packageCandidates id dir (.text pkgMainFile))).or other) ↔
      (firstFile H cwd [dir ++ id ++ "/" ++ pkgMainFile, dir ++ id ++ "/" ++ "index.js"] = none →
        next = .ok other) := by
  have hmain := main_eq source
  rw [hof] at hmain
  rw [resolvePackage, hmain]
  exact orNext_eq_iff

/-- Without a `main`, the file `undefined` comes first. -/
theorem resolvePackage_absent (hof : Main.of source = .absent) :
    resolvePackage H cwd id dir source.main next =
        .ok ((firstFile H cwd (packageCandidates id dir .absent)).or other) ↔
      if tryPath H cwd (dir ++ id ++ "/" ++ "undefined") = none then
        tryPath H cwd (dir ++ id ++ "/" ++ "index.js") = none → next = .ok other
      else
        (firstFile H cwd (packageCandidates id dir .absent)).or other =
          some (dir ++ id ++ "/" ++ "undefined") := by
  have hmain := main_eq source
  rw [hof] at hmain
  have hindex : firstFile H cwd (packageCandidates id dir .absent) =
      tryPath H cwd (dir ++ id ++ "/" ++ "index.js") := by
    rw [packageCandidates, firstFile_cons, firstFile_nil, Option.or_none]
    exact fun _ heq => nomatch heq
  rw [resolvePackage, hmain, hindex]
  show orNext (firstFile H cwd _) next = _ ↔ _
  rw [firstFile_cons, firstFile_cons, firstFile_nil, Option.or_none, orNext_or]
  have hpath : tryPath H cwd (dir ++ id ++ "/" ++ "undefined") = _ := tryPath_eq _
  cases hundefined : tryPath H cwd (dir ++ id ++ "/" ++ "undefined") with
  | none =>
      rw [if_pos rfl]
      show orNext (tryPath H cwd _) next = _ ↔ _
      exact orNext_eq_iff
  | some filepath =>
      -- the code stops here, and is right if the search is to end here
      rw [hundefined, Option.isSome_some, if_pos rfl] at hpath
      rw [if_neg (Option.some_ne_none filepath), ← hpath]
      exact ⟨fun heq => (Except.ok.inj heq).symm, fun heq => congrArg Except.ok heq.symm⟩

end package

/-- For every file system, id and list of directories, the search finds the first candidate that is
a file if and only if the packages that it comes to are as they should be. -/
theorem resolveFilepath_eq_iff (H : ModuleHost) (contents : Nat → PackageSource)
    (cwd id : String) (directories : List String) :
    resolveFilepath (H.withPackages contents) cwd id directories =
        .ok (firstCandidate H contents cwd id directories) ↔
      Resolvable H contents cwd id directories := by
  induction directories with
  | nil => exact iff_of_true rfl trivial
  | cons dir directories ih =>
      rw [resolveFilepath_cons, Resolvable, firstCandidate_cons, candidates, firstFile_append,
        Option.or_assoc, orNext_eq_iff]
      refine imp_congr_right fun hids => ?_
      rw [hids, Option.none_or]
      cases hfile : fileAt H cwd (dir ++ id ++ "/package.json") with
      | none => exact ih
      | some file =>
          cases hof : Main.of (contents file) with
          | unusable =>
              simp only [Option.elim_some, hof]
              exact iff_of_false (not_resolvePackage hof) fun hfalse => hfalse
          | absent =>
              simp only [Option.elim_some, hof]
              rw [resolvePackage_absent hof, ih]
          | text pkgMainFile =>
              simp only [Option.elim_some, hof]
              rw [resolvePackage_text hof, ih]

/-- A package with a `package.json` and an `index.js`. -/
def packageHost : ModuleHost where
  natives := []
  cwd := none
  home := ""
  nodePath := ""
  stat _ path :=
    if path = "d/p/package.json" then some (.file 0)
    else if path = "d/p/index.js" then some (.file 1)
    else none
  packageMain _ := .ok ""

/-- A `package.json` that is no JSON throws, and the search does not come to `index.js`. -/
theorem malformed_package_throws :
    firstCandidate packageHost (fun _ => .malformed) "" "p" ["d/"] = some "d/p/index.js" ∧
      resolveFilepath (packageHost.withPackages fun _ => .malformed) "" "p" ["d/"] =
        .error "SyntaxError" := by
  decide +kernel

/-- Without a `main`, and without a file `undefined`, the search comes to `index.js`. -/
example : resolveFilepath (packageHost.withPackages fun _ => .parsed (.object [])) "" "p" ["d/"] =
    .ok (some "d/p/index.js") := by decide +kernel

end IotJs.Module

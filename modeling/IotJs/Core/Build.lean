import Mathlib.Data.Finset.Basic

/-!
# `IotJs.Core.Build`: the modules that a build takes in

`analyze_module_dependency` from `tools/build.py`: it begins with the modules of the options and of
`build.config`, reads the source of each, and adds what the source requires, until nothing is left
in the queue.

`analyze_queue.pop()` takes an arbitrary element of a set. So the loop gets the order in which the
elements are taken, and has no result for a list that is not such an order. The directory `src/js`
is the list of its files, without `.js`, and their contents.

In the expressions of `re.findall` a dot stands for every character but `\n`, and `(.*)` takes as
much of a line as it can.
-/

set_option autoImplicit false

namespace IotJs

/-- `config['module']` -/
structure ModuleConfig where
  always : List String
  optional : List String
  exclude : List String

structure BuildOption where
  config : ModuleConfig
  iotjsMinimalProfile : Bool
  iotjsIncludeModule : List String
  iotjsExcludeModule : List String

/-- What ends the build: `print_warn`, or a file that cannot be opened. -/
inductive BuildFailure where
  | warning (message : String)
  | noFile (name : String)
deriving DecidableEq, Repr

/-- The contents of the files of `src/js`. -/
abbrev SourceFiles := List (String × String)

namespace Build

/-! ### `re.findall` -/

/-- An expression with one group: what stands in front of `(.*)`, and what stands behind it. -/
structure Capture where
  front : List (Char → Bool)
  back : List (Char → Bool)

def dot (c : Char) : Bool := c ≠ '\n'

def literal (text : String) : List (Char → Bool) := text.toList.map fun c d => d == c

/-- `[\'\"]` -/
def quote (c : Char) : Bool := c == '\x27' || c == '\x22'

/-- `require\([\'\"](.*)[\'\"]\)` -/
def reJsModule : Capture where
  front := literal "require(" ++ [quote]
  back := quote :: literal ")"

/-- `process.binding\(process.binding.(.*)\)` -/
def reNativeModule : Capture where
  front := literal "process" ++ dot :: literal "binding(process" ++
    dot :: literal "binding" ++ [dot]
  back := literal ")"

/-- What stands behind characters of the given classes. -/
def behind : List (Char → Bool) → List Char → Option (List Char)
  | [], text => some text
  | _ :: _, [] => none
  | p :: classes, c :: text => if p c then behind classes text else none

/-- The longest group that has `back` behind it, and what stands behind both. -/
def group (back : List (Char → Bool)) : List Char → Option (List Char × List Char)
  | [] => (behind back []).map fun rest => ([], rest)
  | c :: text =>
      let longer := if dot c then (group back text).map fun m => (c :: m.1, m.2) else none
      longer.orElse fun _ => (behind back (c :: text)).map fun rest => ([], rest)

def Capture.matchAt (e : Capture) (text : List Char) : Option (List Char × List Char) :=
  (behind e.front text).bind (group e.back)

/-- The groups of the matches, from the character after the next `n`. -/
def findFrom (e : Capture) : Nat → List Char → List (List Char)
  | _, [] => []
  | n + 1, _ :: text => findFrom e n text
  | 0, c :: text =>
      match e.matchAt (c :: text) with
      | none => findFrom e 0 text
      | some found => found.1 :: findFrom e (text.length - found.2.length) text

def findall (e : Capture) (content : String) : List String :=
  (findFrom e 0 content.toList).map String.ofList

/-! ### The queue -/

def printWarn {α : Type} (message : String) : Except BuildFailure α := .error (.warning message)

/-- Names that must not be in the list yet are added to it. -/
def addModules (message : String → String) :
    List String → List String → Except BuildFailure (List String)
  | [], list => .ok list
  | name :: names, list =>
      if name ∈ list then printWarn (message name) else addModules message names (list ++ [name])

def alreadyIncluded (name : String) : String := "Module \"" ++ name ++ "\" is already included"

def alreadyExcluded (name : String) : String := "Module \"" ++ name ++ "\" is already excluded"

/-- The names to exclude leave the queue. -/
def excludeModules (always : List String) :
    List String → Finset String → Except BuildFailure (Finset String)
  | [], analyzeQueue => .ok analyzeQueue
  | name :: names, analyzeQueue =>
      if name ∈ always then printWarn ("Cannot exclude mandatory module \"" ++ name ++ "\"")
      else if name ∈ analyzeQueue then excludeModules always names (analyzeQueue.erase name)
      else printWarn ("Cannot find module \"" ++ name ++ "\" to exclude")

/-- The queue at the beginning, and `iotjs_exclude_module`. -/
def analyzeQueue (option : BuildOption) : Except BuildFailure (Finset String × List String) := do
  let included ← addModules alreadyIncluded option.config.always option.iotjsIncludeModule
  let included ← addModules alreadyIncluded
    (if option.iotjsMinimalProfile then [] else option.config.optional) included
  let excluded ← addModules alreadyExcluded option.config.exclude option.iotjsExcludeModule
  let queue ← excludeModules option.config.always excluded included.toFinset
  .ok (queue, excluded)

/-! ### The loop -/

structure Analysis where
  analyzeQueue : Finset String
  jsModules : Finset String
  nativeModules : Finset String
deriving DecidableEq

/-- The modules that `item` requires. -/
def addRequired (excluded : List String) (item : String) :
    List String → Analysis → Except BuildFailure Analysis
  | [], s => .ok s
  | jsModule :: jsModules, s =>
      if jsModule ∈ excluded then
        printWarn ("Cannot exclude \"" ++ jsModule ++ "\" since \"" ++ item ++ "\" requires it")
      else
        addRequired excluded item jsModules
          (if jsModule ∈ s.jsModules then s
          else { s with analyzeQueue := insert jsModule s.analyzeQueue })

/-- One turn of the loop, in which `pop` gives `item`. -/
def analyzeItem (files : SourceFiles) (excluded : List String) (item : String) (s : Analysis) :
    Except BuildFailure Analysis := do
  let popped : Analysis :=
    { s with analyzeQueue := s.analyzeQueue.erase item, jsModules := insert item s.jsModules }
  match files.lookup item with
  | none => .error (.noFile item)
  | some content =>
      let s ← addRequired excluded item (findall reJsModule content) popped
      .ok { s with nativeModules := s.nativeModules ∪ (findall reNativeModule content).toFinset }

/-- The loop, where `pop` gives the items of the list one after the other. -/
def analyzeLoop (files : SourceFiles) (excluded : List String) :
    List String → Analysis → Option (Except BuildFailure Analysis)
  | [], s => if s.analyzeQueue = ∅ then some (.ok s) else none
  | item :: order, s =>
      if item ∈ s.analyzeQueue then
        match analyzeItem files excluded item s with
        | .error failure => if order = [] then some (.error failure) else none
        | .ok s' => analyzeLoop files excluded order s'
      else none

/-- `js_modules` and `native_modules` before the loop. -/
def startAnalysis (queue : Finset String) : Analysis := ⟨queue, {"iotjs", "native"}, {"process"}⟩

/-- `option.js_modules` and `option.native_modules`. -/
def analyzeModuleDependency (option : BuildOption) (files : SourceFiles) (order : List String) :
    Option (Except BuildFailure (Finset String × Finset String)) :=
  match analyzeQueue option with
  | .error failure => if order = [] then some (.error failure) else none
  | .ok (queue, excluded) =>
      (analyzeLoop files excluded order (startAnalysis queue)).map fun result =>
        result.map fun s => (s.jsModules.erase "native", s.nativeModules)

end Build

end IotJs

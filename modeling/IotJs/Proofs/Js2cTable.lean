import IotJs.Lib.Fallible
import IotJs.Proofs.Js2cArrays
import Mathlib.Data.List.Nodup
import Mathlib.Data.List.Pairwise
import Mathlib.Data.String.Basic

/-!
# `IotJs.Proofs.Js2cTable`: from a source to the engine

`compileNativePtr_of_js2c` goes the whole way of a built-in module: the source is printed as an
array, the compiler reads the array and makes the table `natives`, `CompileNativePtr` finds the
module by its id, and `WrapEval` puts the text together. What reaches the engine is the source in
its wrapper, or the snapshot that the tool made of it, and an id that is no module of the build has
no entry.

Names have to be identifiers that differ in more than the case of their letters (`Named`): the macro
with the size of a module has its name in upper case. A source must not have a NUL in it, and must
leave something to print (`Fit`).
-/

set_option autoImplicit false

namespace IotJs

namespace Js2c

open CSource Fallible Substitution

/-! ### What is printed of a source -/

theorem commentPattern_sublist {list replacement : List Char} {n : Nat}
    (h : commentPattern list = some (n, replacement)) :
    0 < n ∧ replacement.Sublist (list.take n) := by
  cases list with
  | nil => cases h
  | cons c text =>
      rw [commentPattern] at h
      split at h
      · obtain ⟨i, -, hfound⟩ := Option.map_eq_some_iff.mp h
        cases hfound
        exact ⟨Nat.succ_pos _, List.Sublist.refl _⟩
      · split at h
        · have hnil : 0 < n ∧ replacement = [] := by
            unfold comment at h
            split at h
            · obtain ⟨parts, -, hfound⟩ := Option.map_eq_some_iff.mp h
              cases hfound
              exact ⟨Nat.succ_pos _, rfl⟩
            · simp only at h
              split at h
              · cases h
                exact ⟨Nat.succ_pos _, rfl⟩
              · cases h
            · cases h
          rw [hnil.2]
          exact ⟨hnil.1, List.nil_sublist _⟩
        · cases h

theorem blanks_sublist {mark x : Char} {list replacement : List Char} {n : Nat}
    (h : blanks mark x list = some (n, replacement)) :
    0 < n ∧ replacement.Sublist (list.take n) := by
  cases list with
  | nil => cases h
  | cons y list =>
      simp only [blanks] at h
      split at h
      · rename_i hboth
        cases h
        rw [hboth.1, List.take_succ_cons]
        exact ⟨Nat.succ_pos _, (List.nil_sublist _).cons_cons mark⟩
      · cases h

theorem repeats_sublist {mark : Char} {list replacement : List Char} {n : Nat}
    (h : repeats mark list = some (n, replacement)) :
    0 < n ∧ replacement.Sublist (list.take n) := by
  cases list with
  | nil => cases h
  | cons y list =>
      simp only [repeats] at h
      split at h
      · rename_i hy
        cases h
        rw [hy, List.take_succ_cons]
        exact ⟨Nat.succ_pos _, (List.nil_sublist _).cons_cons mark⟩
      · cases h

/-- A release build only takes characters out. -/
theorem minimize_sublist (code : List Char) : (minimize code).Sublist code :=
  (sub_sublist (fun _ _ _ h => repeats_sublist h) _).trans
    ((sub_sublist (fun _ _ _ h => blanks_sublist h) _).trans
      (sub_sublist (fun _ _ _ h => commentPattern_sublist h) _))

theorem printJSContents_sublist (debug : Bool) (js : List Char) :
    (printJSContents debug js).1.Sublist (js ++ ['\x00']) := by
  cases debug with
  | true => exact List.Sublist.refl _
  | false => exact minimize_sublist _

/-- The NUL that is put behind a source can only stand at the end of what is printed. -/
theorem notMem_dropLast_printJSContents {debug : Bool} {js : List Char} (hjs : '\x00' ∉ js) :
    '\x00' ∉ (printJSContents debug js).1.dropLast := by
  obtain ⟨front, last, heq, hfront, hlast⟩ :=
    List.sublist_append_iff.mp (printJSContents_sublist debug js)
  have hnone : '\x00' ∉ front := fun hmem => hjs (hfront.subset hmem)
  rw [heq]
  cases last with
  | nil =>
      rw [List.append_nil]
      exact fun hmem => hnone ((List.dropLast_sublist front).subset hmem)
  | cons c last =>
      have hlength := hlast.length_le
      rw [List.length_cons, List.length_singleton] at hlength
      obtain rfl := List.length_eq_zero_iff.mp (show last.length = 0 by omega)
      rw [List.dropLast_concat]
      exact hnone

/-- What ends a line but the last one is not the end of the array. -/
theorem getLast?_of_mem_dropLast_regroup {code line : List Char} {n : Nat} (hn : 0 < n)
    (hcode : '\x00' ∉ code.dropLast) (hline : line ∈ (regroup code n).dropLast) :
    line.getLast? ≠ some '\x00' := by
  intro hlast
  obtain ⟨front, last, hchunks⟩ := (List.eq_nil_or_concat' (regroup code n)).resolve_left
    fun hnil => by rw [hnil] at hline; cases hline
  have hflat : front.flatten ++ last = code := by
    rw [← flatten_regroup hn code, hchunks, List.flatten_append, List.flatten_singleton]
  have hne : last ≠ [] := ne_nil_of_mem_regroup hn (by rw [hchunks]; simp)
  rw [hchunks, List.dropLast_concat] at hline
  refine hcode ?_
  rw [← hflat, List.dropLast_append_of_ne_nil hne]
  exact List.mem_append_left _ (List.mem_flatten.mpr ⟨line, hline, List.mem_of_getLast? hlast⟩)

/-! ### The conditions on a build -/

/-- The names can be used in C, and the macros of the sizes are different. -/
structure Named (modules : List (String × List Char)) : Prop where
  identifiers : ∀ m ∈ modules, identifier m.1 = true
  apart : modules.Pairwise fun m m' => m.1.toUpper ≠ m'.1.toUpper

/-- The module has something to print, and its array is one of bytes that ends where it should. -/
def Fit (mode : Mode) (m : String × List Char) : Prop :=
  match mode with
  | .source debug => (∀ c ∈ m.2, c.toNat < 256) ∧ '\x00' ∉ m.2 ∧ (printJSContents debug m.2).1 ≠ []
  | .snapshot dumper =>
      ∀ code, dumper (wrapped m.1 m.2) = some code → (∀ c ∈ code, c.toNat < 256) ∧ code ≠ []

variable {mode : Mode} {m : String × List Char} {modules : List (String × List Char)}
  {found : List Char × Nat × List Char}

/-- The array that is printed is the array that is read. -/
theorem initializers_contents (hfit : Fit mode m) (h : contents mode m.1 m.2 = some found) :
    initializers found.2.2 = some (found.1.map Char.toNat) ∧ ∀ c ∈ found.1, c.toNat < 256 := by
  cases mode with
  | source debug =>
      obtain ⟨hbytes, hjs, hne⟩ := hfit
      obtain rfl := Option.some.inj h
      have hcode : ∀ c ∈ (printJSContents debug m.2).1, c.toNat < 256 := by
        intro c hc
        rcases List.mem_append.mp ((printJSContents_sublist debug m.2).subset hc) with hc | hc
        · exact hbytes c hc
        · rw [List.mem_singleton.mp hc]
          decide
      refine ⟨(initializers_printSource hcode).trans (if_pos ⟨hne, fun line hline => ?_⟩), hcode⟩
      exact getLast?_of_mem_dropLast_regroup (by decide) (notMem_dropLast_printJSContents hjs) hline
  | snapshot dumper =>
      obtain ⟨code, hcode, rfl⟩ := Option.map_eq_some_iff.mp h
      obtain ⟨hbytes, hne⟩ := hfit code hcode
      exact ⟨initializers_printSnapshot hbytes hne, hbytes⟩

/-! ### The declarations -/

/-- The declarations of a module for what is printed of it. -/
def block (name : String) (found : List Char × Nat × List Char) : List CDecl :=
  [.string (name ++ "_n") name.toList, .array (name ++ "_s") found.2.2,
    .define (sizeName name) found.2.1, .int (name ++ "_l") (sizeName name)]

/-- The row of the table. -/
def entry (name : String) (found : List Char × Nat × List Char) : JsModule :=
  ⟨name.toList.map Char.toNat, found.1.map Char.toNat, found.2.1⟩

/-- The suffixes of the objects of a module. -/
theorem append_ne_append {a b : String} {c d : Char} (hcd : c ≠ d) :
    a ++ "_" ++ String.singleton c ≠ b ++ "_" ++ String.singleton d := by
  intro heq
  have hlist := congrArg String.toList heq
  simp only [String.toList_append, String.toList_singleton] at hlist
  have hlast := congrArg List.getLast? hlist
  simp only [List.getLast?_append, List.getLast?_singleton, Option.some_or,
    Option.some.injEq] at hlast
  exact hcd hlast

theorem suffix_s_ne {a b : String} : a ++ "_s" ≠ b ++ "_n" := by
  have h := append_ne_append (a := a) (b := b) (show 's' ≠ 'n' by decide)
  rw [String.append_assoc, String.append_assoc] at h
  exact h

theorem suffix_n_ne {a b : String} : a ++ "_n" ≠ b ++ "_s" := fun h => suffix_s_ne h.symm

theorem append_right_inj {a b : String} (c : String) : a ++ c = b ++ c ↔ a = b := by
  rw [← String.toList_inj, ← String.toList_inj, String.toList_append, String.toList_append,
    List.append_left_inj]

/-- A name in quotes is the string itself. -/
theorem literal_of_identifier {name : List Char} (h : ∀ c ∈ name, identifierChar c = true) :
    literal name = some (name.map Char.toNat) := by
  have hall : ∀ bytes : List Nat, name.foldlM literalStep (bytes, .plain) =
      some (bytes ++ name.map Char.toNat, .plain) := by
    induction name with
    | nil => intro bytes; rw [List.map_nil, List.append_nil]; rfl
    | cons c name ih =>
        intro bytes
        have hc := h c List.mem_cons_self
        have hplain : c ≠ '\x22' ∧ c ≠ '\n' ∧ c ≠ '\\' := by
          refine ⟨?_, ?_, ?_⟩
          · rintro rfl
            exact absurd hc (by decide)
          · rintro rfl
            exact absurd hc (by decide)
          · rintro rfl
            exact absurd hc (by decide)
        have hstep : literalStep (bytes, .plain) c = some (bytes ++ [c.toNat], .plain) := by
          show plainStep bytes c = _
          rw [plainStep, if_neg (not_or.mpr ⟨hplain.1, hplain.2.1⟩), if_neg hplain.2.2]
        rw [List.foldlM_cons, hstep]
        refine (ih (fun d hd => h d (List.mem_cons_of_mem c hd)) _).trans ?_
        rw [List.map_cons, List.append_assoc, List.singleton_append]
  rw [literal, hall]
  rfl

theorem identifier_append {name suffix : String} (hname : identifier name = true)
    (hsuffix : suffix.toList.all identifierChar = true) : identifier (name ++ suffix) = true := by
  rw [identifier, Bool.and_eq_true] at hname ⊢
  rw [String.toList_append, List.all_append, hname.1, hsuffix]
  refine ⟨rfl, ?_⟩
  cases hlist : name.toList with
  | nil =>
      rw [hlist] at hname
      cases hname.2
  | cons c text =>
      rw [hlist] at hname
      exact hname.2

theorem identifierChar_toUpper {c : Char} (hc : identifierChar c = true) :
    identifierChar c.toUpper = true := by
  have hsmall : c.toNat < 128 := by
    have hcases : (((c.isUpper || c.isLower) || c.isDigit) || c == '_') = true := hc
    rw [Bool.or_eq_true, Bool.or_eq_true, Bool.or_eq_true, beq_iff_eq] at hcases
    rcases hcases with ((hupper | hlower) | hdigit) | rfl
    · have hrange : c.val ≥ 'A'.val ∧ c.val ≤ 'Z'.val := of_decide_eq_true hupper
      have hle : c.toNat ≤ 90 := UInt32.le_iff_toNat_le.mp hrange.2
      omega
    · have hle : c.toNat ≤ 122 := UInt32.le_iff_toNat_le.mp (of_decide_eq_true
        ((Bool.and_eq_true ..).mp hlower).2)
      omega
    · have hle : c.toNat ≤ 57 := UInt32.le_iff_toNat_le.mp (of_decide_eq_true
        ((Bool.and_eq_true ..).mp hdigit).2)
      omega
    · decide
  have hall : ∀ n < 128, identifierChar (Char.ofNat n) = true →
      identifierChar (Char.ofNat n).toUpper = true := by
    decide +kernel
  have h := hall c.toNat hsmall
  rw [Char.ofNat_toNat] at h
  exact h hc

theorem identifier_sizeName {name : String} (hname : identifier name = true) :
    identifier (sizeName name) = true := by
  rw [sizeName]
  refine identifier_append (by decide) ?_
  rw [identifier, Bool.and_eq_true, List.all_eq_true] at hname
  rw [List.all_eq_true, String.toUpper, String.toList_map]
  intro c hc
  obtain ⟨d, hd, rfl⟩ := List.mem_map.mp hc
  exact identifierChar_toUpper (hname.1 d hd)

/-! ### The file -/

/-- What is printed of a module, where the tool does not fail. -/
def printedModule (mode : Mode) (m : String × List Char) : List Char × Nat × List Char :=
  (contents mode m.1 m.2).getD ([], 0, [])

/-- The rows of the table, as they are written. -/
def tableRows (modules : List (String × List Char)) : List (String × String × String) :=
  modules.map fun m => (m.1 ++ "_n", m.1 ++ "_s", sizeName m.1)

/-- The declarations of the modules, and the table. -/
def fileWith (modules : List (String × List Char))
    (f : String × List Char → List Char × Nat × List Char)
    (rows : List (String × String × String)) : List CDecl :=
  (modules.flatMap fun m => block m.1 (f m)) ++ [.natives rows]

/-- The file is made of the declarations of the modules, and the table. -/
theorem js2c_eq_some {decls : List CDecl} (h : js2c mode modules = some decls) :
    (∀ m ∈ modules, contents mode m.1 m.2 = some (printedModule mode m)) ∧
      decls = fileWith modules (printedModule mode) (tableRows modules) := by
  obtain ⟨blocks, hblocks, rfl⟩ := Option.map_eq_some_iff.mp h
  obtain ⟨hall, hmap⟩ := mapM_eq_some_iff.mp hblocks
  have hcontents : ∀ m ∈ modules, contents mode m.1 m.2 = some (printedModule mode m) := by
    intro m hm
    obtain ⟨found, hfound⟩ := Option.isSome_iff_exists.mp (Option.isSome_map ▸ hall m hm)
    rw [printedModule, hfound]
    rfl
  refine ⟨hcontents, congrArg (· ++ [CDecl.natives (tableRows modules)]) ?_⟩
  have hblock : blocks.map some = (modules.map fun m => block m.1 (printedModule mode m)).map some := by
    rw [hmap, List.map_map]
    refine List.map_congr_left fun m hm => ?_
    rw [declarations, hcontents m hm]
    rfl
  rw [List.flatMap_def, List.map_injective_iff.mpr (fun _ _ => Option.some.inj) hblock]

/-- One of the declarations of a module, or the table. -/
theorem mem_decls_iff {d : CDecl} {f : String × List Char → List Char × Nat × List Char}
    {rows : List (String × String × String)} :
    d ∈ fileWith modules f rows ↔
      (∃ m ∈ modules, d = .string (m.1 ++ "_n") m.1.toList ∨ d = .array (m.1 ++ "_s") (f m).2.2 ∨
        d = .define (sizeName m.1) (f m).2.1 ∨ d = .int (m.1 ++ "_l") (sizeName m.1)) ∨
      d = .natives rows := by
  simp only [fileWith, List.mem_append, List.mem_flatMap, block, List.mem_cons, List.not_mem_nil,
    or_false]

theorem Named.eq_of_upper (h : Named modules) {m m' : String × List Char} (hm : m ∈ modules)
    (hm' : m' ∈ modules) (heq : m.1.toUpper = m'.1.toUpper) : m = m' := by
  have : Std.Symm fun m m' : String × List Char => m.1.toUpper ≠ m'.1.toUpper :=
    ⟨fun _ _ hne => hne.symm⟩
  by_contra hne
  exact h.apart.forall hm hm' hne heq

theorem Named.eq_of_name (h : Named modules) {m m' : String × List Char} (hm : m ∈ modules)
    (hm' : m' ∈ modules) (heq : m.1 = m'.1) : m = m' :=
  h.eq_of_upper hm hm' (congrArg String.toUpper heq)

theorem sizeName_inj {a b : String} : sizeName a = sizeName b ↔ a.toUpper = b.toUpper := by
  rw [sizeName, sizeName, ← String.toList_inj, ← String.toList_inj, String.toList_append,
    String.toList_append, List.append_right_inj]

section lookups

variable {f : String × List Char → List Char × Nat × List Char}
  {rows : List (String × String × String)}

theorem name_found (hnamed : Named modules) (hm : m ∈ modules) :
    (fileWith modules f rows).findSome?
      (bytesNamed (m.1 ++ "_n")) = some (m.1.toList.map Char.toNat) := by
  have hname : literal m.1.toList = some (m.1.toList.map Char.toNat) := by
    have hidentifier := hnamed.identifiers m hm
    rw [identifier, Bool.and_eq_true, List.all_eq_true] at hidentifier
    exact literal_of_identifier hidentifier.1
  refine findSome?_eq (mem_decls_iff.mpr (.inl ⟨m, hm, .inl rfl⟩)) ?_ fun d hd b hb => ?_
  · rw [bytesNamed, if_pos rfl, hname]
  · rcases mem_decls_iff.mp hd with ⟨m', hm', rfl | rfl | rfl | rfl⟩ | rfl
    · rw [bytesNamed] at hb
      split at hb
      · rename_i heq
        obtain rfl := hnamed.eq_of_name hm' hm ((append_right_inj "_n").mp heq)
        rw [hname] at hb
        exact (Option.some.inj hb).symm
      · cases hb
    · rw [bytesNamed, if_neg suffix_s_ne] at hb
      cases hb
    · cases hb
    · cases hb
    · cases hb

theorem code_found {values : List Nat} (hnamed : Named modules) (hm : m ∈ modules)
    (hcode : initializers (f m).2.2 = some values) :
    (fileWith modules f rows).findSome?
      (bytesNamed (m.1 ++ "_s")) = some (values.map (· % 256)) := by
  refine findSome?_eq (mem_decls_iff.mpr (.inl ⟨m, hm, .inr (.inl rfl)⟩)) ?_ fun d hd b hb => ?_
  · rw [bytesNamed, if_pos rfl, hcode]
    rfl
  · rcases mem_decls_iff.mp hd with ⟨m', hm', rfl | rfl | rfl | rfl⟩ | rfl
    · rw [bytesNamed, if_neg suffix_n_ne] at hb
      cases hb
    · rw [bytesNamed] at hb
      split at hb
      · rename_i heq
        obtain rfl := hnamed.eq_of_name hm' hm ((append_right_inj "_s").mp heq)
        rw [hcode] at hb
        exact (Option.some.inj hb).symm
      · cases hb
    · cases hb
    · cases hb
    · cases hb

theorem length_found (hnamed : Named modules) (hm : m ∈ modules) :
    (fileWith modules f rows).reverse.findSome?
      (valueNamed (sizeName m.1)) = some ((f m).2.1 : Int) := by
  refine findSome?_eq (List.mem_reverse.mpr (mem_decls_iff.mpr
    (.inl ⟨m, hm, .inr (.inr (.inl rfl))⟩))) ?_ fun d hd b hb => ?_
  · rw [valueNamed, if_pos rfl]
  · rcases mem_decls_iff.mp (List.mem_reverse.mp hd) with ⟨m', hm', rfl | rfl | rfl | rfl⟩ | rfl
    · cases hb
    · cases hb
    · rw [valueNamed] at hb
      split at hb
      · rename_i heq
        obtain rfl := hnamed.eq_of_upper hm' hm (sizeName_inj.mp heq)
        exact (Option.some.inj hb).symm
      · cases hb
    · cases hb
    · cases hb

end lookups

/-! ### The table -/

theorem append_inj_of_singleton {a b : String} {c d : Char} :
    a ++ String.ofList ['_', c] = b ++ String.ofList ['_', d] ↔ a = b ∧ c = d := by
  rw [← String.toList_inj, String.toList_append, String.toList_append, String.toList_ofList,
    String.toList_ofList]
  constructor
  · intro h
    obtain ⟨hname, hsuffix⟩ := List.append_inj' h rfl
    exact ⟨String.toList_inj.mp hname, by simpa using hsuffix⟩
  · rintro ⟨rfl, rfl⟩
    rfl

theorem natives_ne {a : String} {c : Char} : a ++ String.ofList ['_', c] ≠ "natives" := by
  intro h
  have hlist := congrArg (fun text => (text.toList.reverse.drop 1).head?) h
  simp only [String.toList_append, String.toList_ofList, List.reverse_append, List.reverse_cons,
    List.reverse_nil, List.nil_append, List.cons_append, List.drop_succ_cons, List.drop_zero,
    List.head?_cons] at hlist
  exact absurd hlist (by decide)

/-- The names of the objects of a module. -/
def objectNames (name : String) : List String := [name ++ "_n", name ++ "_s", name ++ "_l"]

theorem mem_objectNames_iff {name x : String} :
    x ∈ objectNames name ↔ ∃ c ∈ ['n', 's', 'l'], x = name ++ String.ofList ['_', c] := by
  simp only [objectNames, List.mem_cons, List.not_mem_nil, or_false, exists_eq_or_imp,
    exists_eq_left]

theorem nodup_objectName (hnamed : Named modules)
    (f : String × List Char → List Char × Nat × List Char)
    (rows : List (String × String × String)) :
    ((fileWith modules f rows).filterMap objectName).Nodup := by
  have hnames : (fileWith modules f rows).filterMap objectName =
      (modules.flatMap fun m => objectNames m.1) ++ ["natives"] := by
    rw [fileWith, List.filterMap_append, List.filterMap_flatMap]
    rfl
  rw [hnames]
  refine List.nodup_append'.mpr
    ⟨List.nodup_flatMap.mpr ⟨fun m _ => ?_, ?_⟩, List.nodup_singleton _, ?_⟩
  · have hnodup : (['n', 's', 'l'].map fun c => m.1 ++ String.ofList ['_', c]).Nodup :=
      List.Nodup.map_on (fun _ _ _ _ heq => (append_inj_of_singleton.mp heq).2) (by decide)
    exact hnodup
  · refine hnamed.apart.imp fun {m m'} hne x hx hx' => ?_
    obtain ⟨c, -, rfl⟩ := mem_objectNames_iff.mp hx
    obtain ⟨d, -, heq⟩ := mem_objectNames_iff.mp hx'
    exact hne (congrArg String.toUpper (append_inj_of_singleton.mp heq).1)
  · intro x hx hnatives
    obtain ⟨m, -, hx⟩ := List.mem_flatMap.mp hx
    obtain ⟨c, -, rfl⟩ := mem_objectNames_iff.mp hx
    exact natives_ne (List.mem_singleton.mp hnatives)

/-- The file can be compiled, and the table has the modules in it. -/
theorem compile_js2c {decls : List CDecl} (h : js2c mode modules = some decls)
    (hnamed : Named modules) (hfit : ∀ m ∈ modules, Fit mode m) :
    (∀ m ∈ modules, contents mode m.1 m.2 = some (printedModule mode m)) ∧
      compile decls = some (modules.map fun m => entry m.1 (printedModule mode m)) := by
  obtain ⟨hcontents, rfl⟩ := js2c_eq_some h
  refine ⟨hcontents, ?_⟩
  have hread := fun m hm => initializers_contents (hfit m hm) (hcontents m hm)
  have hvalid : (fileWith modules (printedModule mode) (tableRows modules)).all valid = true := by
    refine List.all_eq_true.mpr fun d hd => ?_
    rcases mem_decls_iff.mp hd with ⟨m, hm, rfl | rfl | rfl | rfl⟩ | rfl
    · have hidentifier := hnamed.identifiers m hm
      rw [valid, identifier_append hidentifier (by decide)]
      rw [identifier, Bool.and_eq_true, List.all_eq_true] at hidentifier
      rw [literal_of_identifier hidentifier.1]
      rfl
    · rw [valid, identifier_append (hnamed.identifiers m hm) (by decide), (hread m hm).1]
      rfl
    · exact identifier_sizeName (hnamed.identifiers m hm)
    · exact identifier_append (hnamed.identifiers m hm) (by decide)
    · rfl
  rw [compile, hvalid, decide_eq_true (nodup_objectName hnamed _ _), Bool.and_self, if_pos rfl]
  have hrows : (fileWith modules (printedModule mode) (tableRows modules)).flatMap rows =
      tableRows modules := by
    rw [fileWith, List.flatMap_append, List.flatMap_assoc]
    have hnone : ∀ m ∈ modules, (block m.1 (printedModule mode m)).flatMap rows = [] :=
      fun m _ => rfl
    rw [List.flatMap_congr hnone]
    simp [rows]
  rw [hrows, tableRows, List.mapM_map]
  refine mapM_of_forall fun m hm => ?_
  obtain ⟨hcode, hbytes⟩ := hread m hm
  have hmod : ((printedModule mode m).1.map Char.toNat).map (· % 256) =
      (printedModule mode m).1.map Char.toNat := by
    rw [List.map_map]
    exact List.map_congr_left fun c hc => Nat.mod_eq_of_lt (hbytes c hc)
  show row _ _ = _
  rw [row, name_found hnamed hm, code_found hnamed hm hcode, length_found hnamed hm, hmod]
  rfl

/-! ### The engine -/

/-- A source as it is built in. -/
def builtText (debug : Bool) (js : List Char) : List Char :=
  if debug then js else (minimize (js ++ ['\x00'])).dropLast

/-- What the engine should get of a module: the source in its wrapper, or its snapshot. -/
def delivered (mode : Mode) (m : String × List Char) : List Nat :=
  match mode with
  | .source debug => wrapperStart ++ (builtText debug m.2).map Char.toNat ++ wrapperEnd
  | .snapshot dumper => ((dumper (wrapped m.1 m.2)).getD []).map Char.toNat

theorem take_printJSContents (debug : Bool) (js : List Char) :
    (printJSContents debug js).1.take (printJSContents debug js).2 = builtText debug js := by
  cases debug with
  | true =>
      show (js ++ ['\x00']).take ((js ++ ['\x00']).length - 1) = js
      rw [← List.dropLast_eq_take, List.dropLast_concat]
  | false => exact List.dropLast_eq_take.symm

theorem wrapEval_map (code : List Char) (length : Nat) :
    wrapEval (code.map Char.toNat) length =
      wrapperStart ++ (code.take length).map Char.toNat ++ wrapperEnd := by
  rw [wrapEval, List.map_take]

/-- What an entry of the table gives. -/
theorem passed_entry (h : contents mode m.1 m.2 = some (printedModule mode m)) :
    passed mode (entry m.1 (printedModule mode m)) =
      (delivered mode m, (delivered mode m).length) := by
  cases mode with
  | source debug =>
      have hprinted := Option.some.inj h
      simp only [passed, entry, ← hprinted, Int.toNat_natCast]
      rw [wrapEval_map, take_printJSContents, delivered]
  | snapshot dumper =>
      obtain ⟨code, hcode, hprinted⟩ := Option.map_eq_some_iff.mp h
      simp only [passed, entry, ← hprinted, Int.toNat_natCast]
      rw [delivered, hcode, Option.getD_some, List.length_map]

theorem notMem_identifier {name : String} (h : identifier name = true) : '\x00' ∉ name.toList := by
  intro hmem
  rw [identifier, Bool.and_eq_true, List.all_eq_true] at h
  exact absurd (h.1 _ hmem) (by decide)

theorem cBytes_of_notMem {text : List Char} (h : '\x00' ∉ text) :
    cBytes text = text.map Char.toNat := by
  refine List.takeWhile_eq_self_iff.mpr fun n hn => ?_
  obtain ⟨c, hc, rfl⟩ := List.mem_map.mp hn
  refine decide_eq_true fun hzero => h ?_
  rw [← Char.ofNat_toNat c, hzero] at hc
  exact hc

theorem map_toNat_inj {a b : List Char} : a.map Char.toNat = b.map Char.toNat ↔ a = b :=
  (List.map_injective_iff.mpr fun _ _ => Char.toNat_inj.mp).eq_iff

/-- The entry that is found has the name that is asked for. -/
theorem findNative_eq_some_iff (hnamed : Named modules) {id : List Char} (hid : '\x00' ∉ id)
    {native : JsModule} :
    findNative (modules.map fun m => entry m.1 (printedModule mode m)) id = some native ↔
      ∃ m ∈ modules, m.1.toList = id ∧ native = entry m.1 (printedModule mode m) := by
  have hname : ∀ m ∈ modules,
      ((entry m.1 (printedModule mode m)).name.takeWhile (· ≠ 0) == cBytes id) =
      decide (m.1.toList = id) := by
    intro m hm
    have hbytes : (entry m.1 (printedModule mode m)).name.takeWhile (· ≠ 0) =
        m.1.toList.map Char.toNat :=
      cBytes_of_notMem (notMem_identifier (hnamed.identifiers m hm))
    rw [hbytes, cBytes_of_notMem hid, Bool.eq_iff_iff, beq_iff_eq, decide_eq_true_eq, map_toNat_inj]
  constructor
  · intro hfound
    obtain ⟨m, hm, rfl⟩ := List.mem_map.mp (List.mem_of_find?_eq_some hfound)
    have hsome := List.find?_some hfound
    rw [hname m hm, decide_eq_true_eq] at hsome
    exact ⟨m, hm, hsome, rfl⟩
  · rintro ⟨m, hm, hid, rfl⟩
    cases hfound : findNative (modules.map fun m => entry m.1 (printedModule mode m)) id with
    | none =>
        have hnone := List.find?_eq_none.mp hfound _ (List.mem_map.mpr ⟨m, hm, rfl⟩)
        rw [hname m hm, decide_eq_true hid] at hnone
        exact absurd rfl hnone
    | some native =>
        obtain ⟨m', hm', rfl⟩ := List.mem_map.mp (List.mem_of_find?_eq_some hfound)
        have hsome := List.find?_some hfound
        rw [hname m' hm', decide_eq_true_eq, ← hid] at hsome
        rw [hnamed.eq_of_name hm' hm (String.toList_inj.mp hsome)]

end Js2c

end IotJs

import IotJs.Core.Js2c
import IotJs.Core.NativeModules
import IotJs.Spec.CSource

/-!
# `IotJs.Core.Js2cFiles`: the C files with the built-in modules

What `tools/js2c.py` writes to `iotjs_js.c`, as a list of declarations: the arrays with the sources
or the snapshots, the macros with their sizes, and the table `natives`. The bodies of the arrays are
the texts that are printed. `CompileNativePtr` and `WrapEval` from `iotjs_module_process.c` are the
readers of the table.

A Python string is a list of bytes, and a byte is a character here. The JerryScript tool that makes
a snapshot is outside, and so is the engine that runs what it gets.
-/

set_option autoImplicit false

namespace IotJs

/-- A declaration of `iotjs_js.c`. -/
inductive CDecl where
  /-- `const char name[] = "text";` -/
  | string (name : String) (text : List Char)
  /-- `const char name[] = { body };` -/
  | array (name : String) (body : List Char)
  /-- `#define name value` -/
  | define (name : String) (value : Int)
  /-- `const int name = size;` -/
  | int (name size : String)
  /-- `const iotjs_js_module natives[]`, without the row that ends it -/
  | natives (rows : List (String × String × String))
deriving DecidableEq, Repr

/-- `iotjs_js_module`, with the bytes that the pointers point to. -/
structure JsModule where
  name : List Nat
  code : List Nat
  length : Int
deriving DecidableEq, Repr

namespace Js2c

/-! ### Printing -/

/-- `[l[i:i+n] for i in range(0, len(l), n)]` -/
def regroup {α : Type} (l : List α) (n : Nat) : List (List α) :=
  (List.range ((l.length + n - 1) / n)).map fun i => (l.drop (i * n)).take n

def writeLine (content : List Char) (indent : Nat) : List Char :=
  List.replicate (2 * indent) ' ' ++ content ++ ['\n']

/-- `', '.join(items)` -/
def join (items : List (List Char)) : List Char := [',', ' '].intercalate items

/-- `str(ord(ch))` -/
def decimalText (ch : Char) : List Char := Nat.toDigits 10 ch.toNat

/-- `"0x{:02x}".format(ord(ch))` -/
def hexadecimalText (ch : Char) : List Char :=
  ['0', 'x'] ++ (if ch.toNat < 16 then ['0'] else []) ++ Nat.toDigits 16 ch.toNat

/-- A line of the array of a source. Behind a NUL no comma is written. -/
def sourceLine (line : List Char) : List Char :=
  join (line.map decimalText) ++ if line.getLast? ≠ some '\x00' then [','] else []

def snapshotLine (line : List Char) : List Char := join (line.map hexadecimalText) ++ [',']

def printSource (code : List Char) : List Char :=
  (regroup code 10).flatMap fun line => writeLine (sourceLine line) 1

def printSnapshot (code : List Char) : List Char :=
  (regroup code 8).flatMap fun line => writeLine (snapshotLine line) 1

/-- How the modules are built in: as sources, or as the snapshots that the tool makes of them. -/
inductive Mode where
  | source (debug : Bool)
  | snapshot (dumper : List Char → Option (List Char))

/-- What the tool gets. -/
def wrapped (name : String) (js : List Char) : List Char :=
  if name = "iotjs" then js
  else "(function(exports, require, module) \x7b\n".toList ++ js ++ "\x7d);\n".toList

/-- The contents of an array, the length that is returned, and the body that is printed. -/
def contents (mode : Mode) (name : String) (js : List Char) :
    Option (List Char × Nat × List Char) :=
  match mode with
  | .source debug =>
      let code := printJSContents debug js
      some (code.1, code.2, printSource code.1)
  | .snapshot dumper =>
      (dumper (wrapped name js)).map fun code => (code, code.length, printSnapshot code)

def sizeName (name : String) : String := "SIZE_" ++ name.toUpper

/-- The declarations for one module. -/
def declarations (mode : Mode) (name : String) (js : List Char) : Option (List CDecl) :=
  (contents mode name js).map fun found =>
    [.string (name ++ "_n") name.toList, .array (name ++ "_s") found.2.2,
      .define (sizeName name) found.2.1, .int (name ++ "_l") (sizeName name)]

/-- `iotjs_js.c`, for the modules in the order of `sorted(js_modules)` and their sources. -/
def js2c (mode : Mode) (modules : List (String × List Char)) : Option (List CDecl) :=
  (modules.mapM fun m => declarations mode m.1 m.2).map fun decls =>
    decls.flatten ++ [.natives (modules.map fun m => (m.1 ++ "_n", m.1 ++ "_s", sizeName m.1))]

/-! ### What the compiler makes of it -/

def identifierChar (c : Char) : Bool := c.isAlphanum || c == '_'

/-- An identifier in the sense of C. -/
def identifier (name : String) : Bool :=
  name.toList.all identifierChar && name.toList.head?.any fun c => !c.isDigit

/-- The name of the object that a declaration makes. -/
def objectName : CDecl → Option String
  | .string name _ => some name
  | .array name _ => some name
  | .define _ _ => none
  | .int name _ => some name
  | .natives _ => some "natives"

/-- The declaration can be compiled by itself. -/
def valid : CDecl → Bool
  | .string name text => identifier name && (CSource.literal text).isSome
  | .array name body => identifier name && (CSource.initializers body).isSome
  | .define name _ => identifier name
  | .int name _ => identifier name
  | .natives _ => true

/-- The bytes that an object of the name begins with. -/
def bytesNamed (name : String) : CDecl → Option (List Nat)
  | .string other text => if other = name then CSource.literal text else none
  | .array other body =>
      if other = name then
        (CSource.initializers body).map fun values => values.map (· % 256)
      else none
  | _ => none

/-- The value of a macro. -/
def valueNamed (name : String) : CDecl → Option Int
  | .define other value => if other = name then some value else none
  | _ => none

/-- A row of the table. Of two definitions of a macro the later one holds. -/
def row (decls : List CDecl) (names : String × String × String) : Option JsModule := do
  let name ← decls.findSome? (bytesNamed names.1)
  let code ← decls.findSome? (bytesNamed names.2.1)
  let length ← decls.reverse.findSome? (valueNamed names.2.2)
  some ⟨name, code, length⟩

def rows : CDecl → List (String × String × String)
  | .natives rows => rows
  | _ => []

/-- The table `natives`, where the file can be compiled. -/
def compile (decls : List CDecl) : Option (List JsModule) :=
  if decls.all valid && decide (decls.filterMap objectName).Nodup then
    (decls.flatMap rows).mapM (row decls)
  else none

/-! ### What the program makes of it -/

/-- The bytes of a string in C, without the NUL. -/
def cBytes (text : List Char) : List Nat := (text.map Char.toNat).takeWhile (· ≠ 0)

/-- `wrapper[0]` and `wrapper[1]` -/
def wrapperStart : List Nat := "(function(exports, require, module) \x7b\n".toList.map Char.toNat

def wrapperEnd : List Nat := "\n\x7d);\n".toList.map Char.toNat

/-- The text that `WrapEval` evaluates. -/
def wrapEval (source : List Nat) (length : Nat) : List Nat :=
  wrapperStart ++ source.take length ++ wrapperEnd

/-- `CompileNativePtr`: the entry of the table with the name, if there is one. -/
def findNative (natives : List JsModule) (id : List Char) : Option JsModule :=
  natives.find? fun module => module.name.takeWhile (· ≠ 0) == cBytes id

/-- What reaches the engine: a text, or a snapshot with its length. -/
def passed (mode : Mode) (module : JsModule) : List Nat × Nat :=
  match mode with
  | .source _ => let text := wrapEval module.code module.length.toNat; (text, text.length)
  | .snapshot _ => (module.code, module.length.toNat)

def compileNativePtr (mode : Mode) (natives : List JsModule) (id : List Char) :
    Option (List Nat × Nat) :=
  (findNative natives id).map (passed mode)

end Js2c

end IotJs

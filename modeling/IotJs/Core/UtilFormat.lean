import Mathlib.Tactic.Common

/-!
# `IotJs.Core.UtilFormat`: `util.format`

`format` and `formatValue` from `src/js/util.js`, which `console.log` prints with. The regular
expression of `format` cuts its string into the two characters of a directive and into single
characters. The replacement function and the loop behind it share the counter `i` of the arguments.

What the engine makes of a value is part of the value, and `numberOf` is the number that it makes of
a string, as the text that this number becomes.
-/

set_option autoImplicit false

namespace IotJs

namespace Util

/-- An argument: a primitive value, a number by its text, or an object whose `toString` works. -/
inductive Value where
  | undefined
  | null
  | boolean (b : Bool)
  | number (text : String)
  | string (text : String)
  /-- `asNumber` is the text of `Number(object)`, or what it throws: `valueOf` comes first there -/
  | object (text : String) (asNumber : Except String String)
deriving Repr

namespace Value

def isString : Value → Bool
  | string _ => true
  | _ => false

/-- `String(v)` -/
def text : Value → String
  | undefined => "undefined"
  | null => "null"
  | boolean b => if b then "true" else "false"
  | number text | string text | object text _ => text

/-- `Number(v)`, as the text that it becomes -/
def toNumber (numberOf : String → String) : Value → Except String String
  | undefined => .ok "NaN"
  | null => .ok "0"
  | boolean b => .ok (if b then "1" else "0")
  | number text => .ok text
  | string text => .ok (numberOf text)
  | object _ asNumber => asNumber

/-- `v.toString()` -/
def toString : Value → Except String String
  | undefined | null => .error "TypeError"
  | v => .ok v.text

end Value

/-- `formatValue(v)` -/
def formatValue : Value → Except String String
  | .undefined => .ok "undefined"
  | .null => .ok "null"
  | v => v.toString

/-- A match of `/%[sdj%]/g`. -/
inductive Directive where
  | s | d | j | percent
deriving DecidableEq, Repr

def Directive.of : Char → Option Directive
  | 's' => some s
  | 'd' => some d
  | 'j' => some j
  | '%' => some percent
  | _ => none

/-- The text that matched. -/
def Directive.text : Directive → String
  | s => "%s"
  | d => "%d"
  | j => "%j"
  | percent => "%%"

/-- A match, or a character in between. -/
inductive Piece where
  | literal (c : Char)
  | directive (m : Directive)
deriving DecidableEq, Repr

def pieces : List Char → List Piece
  | '%' :: c :: rest =>
      match Directive.of c with
      | some m => .directive m :: pieces rest
      | none => .literal '%' :: pieces (c :: rest)
  | c :: rest => .literal c :: pieces rest
  | [] => []

section

variable (numberOf : String → String) (args : List Value)

/-- The replacement of a match, and the counter after it. -/
def replacement (m : Directive) (i : Nat) : Except String (String × Nat) :=
  if m = .percent then .ok ("%", i)
  else
    match args[i]? with
    | none => .ok (m.text, i)
    | some arg =>
        match m with
        | .s => .ok (arg.text, i + 1)
        | .d => (arg.toNumber numberOf).map fun number => (number, i + 1)
        | .j => .ok ("[JSON object]", i)
        | .percent => .ok (m.text, i)

/-- `String(s).replace(/%[sdj%]/g, …)` -/
def replace : List Piece → (i : Nat) → Except String (String × Nat)
  | [], i => .ok ("", i)
  | .literal c :: ps, i => do
      let (rest, i) ← replace ps i
      return (c.toString ++ rest, i)
  | .directive m :: ps, i => do
      let (replaced, i) ← replacement numberOf args m i
      let (rest, i) ← replace ps i
      return (replaced ++ rest, i)

/-- The loop of `format` over the arguments that are left. -/
def appendRest : List Value → (str : String) → Except String String
  | [], str => .ok str
  | arg :: rest, str => do
      let text ← arg.toString
      appendRest rest (str ++ (" " ++ text))

/-- `format(...args)` -/
def format : Except String String :=
  match args with
  | .string s :: _ => do
      let (str, i) ← replace numberOf args (pieces s.toList) 1
      appendRest (args.drop i) str
  | args => do
      let arrs ← args.mapM formatValue
      return " ".intercalate arrs

end

end Util

end IotJs

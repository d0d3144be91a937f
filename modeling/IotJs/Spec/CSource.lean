import Mathlib.Data.List.Basic

/-!
# `IotJs.Spec.CSource`: numbers and strings in a C source

What a compiler reads in the generated files. `initializers` reads the constants between the braces
of an array: they have commas between them, a comma may stand behind the last one, and blanks do
not count. `literal` reads what stands between the quotes of a string: an escape sequence stands
for one byte, an octal one has at most three digits, and a hexadecimal one takes all the digits that
follow. Trigraphs are not replaced (`-std=gnu99`).

Both are automata that go through the text character by character.
-/

set_option autoImplicit false

namespace CSource

/-! ### Constants -/

def digitValue (c : Char) : Option Nat :=
  if '0' ≤ c ∧ c ≤ '9' then some (c.toNat - 48)
  else if 'a' ≤ c ∧ c ≤ 'f' then some (c.toNat - 87)
  else if 'A' ≤ c ∧ c ≤ 'F' then some (c.toNat - 55)
  else none

/-- The value of a digit in a base. -/
def digit (base : Nat) (c : Char) : Option Nat := (digitValue c).filter (· < base)

/-- The digits behind what has the value `n`. -/
def digits (base : Nat) : Nat → List Char → Option Nat
  | n, [] => some n
  | n, c :: text => (digit base c).bind fun d => digits base (base * n + d) text

/-- An integer constant. -/
def constant : List Char → Option Nat
  | [] => none
  | ['0'] => some 0
  | '0' :: 'x' :: text => if text = [] then none else digits 16 0 text
  | '0' :: 'X' :: text => if text = [] then none else digits 16 0 text
  | '0' :: text => digits 8 0 text
  | text => digits 10 0 text

/-! ### Arrays -/

/-- Where the reader of an array is. -/
inductive Place where
  /-- a constant has to come -/
  | start
  | inside (word : List Char)
  /-- a comma has to come -/
  | behind
deriving DecidableEq, Repr

def blank (c : Char) : Bool := c == ' ' || c == '\n' || c == '\t' || c == '\r'

/-- The reader comes to the end of a word. -/
def leave (values : List Nat) (word : List Char) (place : Place) : Option (List Nat × Place) :=
  (constant word).map fun n => (values ++ [n], place)

def initStep : List Nat × Place → Char → Option (List Nat × Place)
  | (values, .start), c =>
      if blank c then some (values, .start)
      else if c = ',' then none
      else some (values, .inside [c])
  | (values, .inside word), c =>
      if blank c then leave values word .behind
      else if c = ',' then leave values word .start
      else some (values, .inside (word ++ [c]))
  | (values, .behind), c =>
      if blank c then some (values, .behind)
      else if c = ',' then some (values, .start)
      else none

/-- The closing brace. An array has to have an element. -/
def initEnd : List Nat × Place → Option (List Nat)
  | (values, .start) => if values = [] then none else some values
  | (values, .inside word) => (leave values word .behind).map Prod.fst
  | (values, .behind) => some values

/-- The values between the braces of an array. -/
def initializers (text : List Char) : Option (List Nat) :=
  (text.foldlM initStep ([], .start)).bind initEnd

/-! ### Strings -/

/-- Where the reader of a string is. -/
inductive Escape where
  | plain
  | backslash
  /-- behind so many octal digits -/
  | octal (count n : Nat)
  | hex (n : Option Nat)
deriving DecidableEq, Repr

/-- A character that is no part of an escape sequence. A quote would end the string. -/
def plainStep (bytes : List Nat) (c : Char) : Option (List Nat × Escape) :=
  if c = '\x22' ∨ c = '\n' then none
  else if c = '\\' then some (bytes, .backslash)
  else some (bytes ++ [c.toNat], .plain)

/-- The escape sequences of one character. -/
def simpleEscape (c : Char) : Option Nat :=
  [('\x27', 39), ('\x22', 34), ('?', 63), ('\\', 92), ('a', 7), ('b', 8), ('f', 12), ('n', 10),
    ('r', 13), ('t', 9), ('v', 11)].lookup c

def literalStep : List Nat × Escape → Char → Option (List Nat × Escape)
  | (bytes, .plain), c => plainStep bytes c
  | (bytes, .backslash), c =>
      match simpleEscape c with
      | some n => some (bytes ++ [n], .plain)
      | none =>
          if c = 'x' then some (bytes, .hex none)
          else (digit 8 c).map fun d => (bytes, .octal 1 d)
  | (bytes, .octal count n), c =>
      match (digit 8 c).filter fun _ => count < 3 with
      | some d => some (bytes, .octal (count + 1) (8 * n + d))
      | none => plainStep (bytes ++ [n % 256]) c
  | (bytes, .hex n), c =>
      match digit 16 c with
      | some d => some (bytes, .hex (some (16 * n.getD 0 + d)))
      | none => n.bind fun n => plainStep (bytes ++ [n % 256]) c

/-- The closing quote. -/
def literalEnd : List Nat × Escape → Option (List Nat)
  | (bytes, .plain) => some bytes
  | (_, .backslash) => none
  | (bytes, .octal _ n) => some (bytes ++ [n % 256])
  | (bytes, .hex n) => n.map fun n => bytes ++ [n % 256]

/-- The bytes of the string literal with this text between its quotes. -/
def literal (text : List Char) : Option (List Nat) :=
  (text.foldlM literalStep ([], .plain)).bind literalEnd

end CSource

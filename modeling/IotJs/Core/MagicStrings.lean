import IotJs.Core.Js2cFiles
import Mathlib.Data.Char
import Mathlib.Data.List.Dedup
import Mathlib.Data.List.Lex

/-!
# `IotJs.Core.MagicStrings`: the strings that the engine knows beforehand

`parseLiterals` in `tools/js2c.py` collects the short strings of a snapshot from its table of
literals, and `js2c` writes them to `iotjs_string_ext.inl.h`. `iotjs_string_ext.c` makes a table of
them, with their lengths, and hands it to the engine.

The integers of a snapshot are little-endian. As in `Js2cFiles`, a byte is a character.
-/

set_option autoImplicit false

namespace IotJs

/-- Why the tool ends without writing the file. -/
inductive SnapshotFailure where
  /-- `struct.error`: not as many bytes as the format takes -/
  | struct
  /-- `exit(1)`: a snapshot of another version -/
  | version
deriving DecidableEq, Repr

/-- A row of `magic_string_items` and `magic_string_lengths`. -/
structure MagicString where
  bytes : List Nat
  length : Nat
deriving DecidableEq, Repr

namespace Js2c

/-! ### Literals -/

def JERRY_SNAPSHOT_VERSION : Nat := 6

/-- An unsigned integer, with its lowest byte first. -/
def littleEndian : List Char → Nat
  | [] => 0
  | c :: bytes => c.toNat + 256 * littleEndian bytes

/-- `code[start:start + n]` -/
def slice (code : List Char) (start n : Nat) : List Char := (code.drop start).take n

/-- `struct.unpack` for `n` bytes -/
def unpack (n : Nat) (bytes : List Char) : Except SnapshotFailure (List Char) :=
  if bytes.length = n then .ok bytes else .error .struct

/-- The loop, with what `code_ptr` stands before: the literals that it finds, in their order. -/
def literalsFrom (code : List Char) : Except SnapshotFailure (List (List Char)) :=
  match code with
  | [] => .ok []
  | [_] => .error .struct
  | low :: high :: rest => do
      let length := littleEndian [low, high]
      if length = 0 then literalsFrom rest
      else
        let following := rest.drop (length + length % 2)
        if length < 32 then
          let item ← unpack length (rest.take length)
          let literals ← literalsFrom following
          return item :: literals
        else literalsFrom following
termination_by code.length
decreasing_by all_goals simp only [List.length_cons, List.length_drop]; omega

def parseLiterals (code : List Char) : Except SnapshotFailure (List (List Char)) := do
  let header ← unpack 16 (slice code 0 16)
  if littleEndian (slice header 0 4) ≠ JERRY_SNAPSHOT_VERSION then throw .version
  literalsFrom (code.drop (littleEndian (slice header 4 4) + 8))

/-! ### Magic strings -/

/-- Python compares strings byte by byte. -/
def before (s t : List Char) : Bool := decide (s ≤ t)

/-- `sorted(MAGIC_STRING_SET)`, after the snapshots of all the modules. -/
def magicStringSet (snapshots : List (List Char)) : Except SnapshotFailure (List (List Char)) := do
  let literals ← snapshots.mapM parseLiterals
  return (("process".toList :: literals.flatten).dedup).mergeSort before

/-- The two digits of `'\x%02x'`. -/
def hexPair (n : Nat) : List Char := [Nat.digitChar (n / 16), Nat.digitChar (n % 16)]

/-- A character in what `repr` gives for a string, in quotes of the kind `quote`. -/
def reprChar (quote c : Char) : List Char :=
  if c = quote ∨ c = '\\' then ['\\', c]
  else if c = '\t' then ['\\', 't']
  else if c = '\n' then ['\\', 'n']
  else if c = '\r' then ['\\', 'r']
  else if c < ' ' ∨ '\x7f' ≤ c then ['\\', 'x'] ++ hexPair c.toNat
  else [c]

/-- `repr` takes double quotes for a string that has an apostrophe and no double quote. -/
def reprQuote (s : List Char) : Char := if '\x27' ∈ s ∧ '\x22' ∉ s then '\x22' else '\x27'

/-- `repr(s)[1:-1]` -/
def reprBody (s : List Char) : List Char := s.flatMap (reprChar (reprQuote s))

/-- The texts in `JERRY_MAGIC_STRING_ITEMS`. -/
def magicStringItems (snapshots : List (List Char)) : Except SnapshotFailure (List (List Char)) :=
  (magicStringSet snapshots).map fun strings => strings.map reprBody

/-! ### What the program makes of it -/

/-- `MAGICSTR_EX_DEF`: `sizeof` counts the NUL behind the bytes. -/
def magicString (text : List Char) : Option MagicString :=
  (CSource.literal text).map fun bytes => ⟨bytes, (bytes ++ [0]).length - 1⟩

/-- What `iotjs_register_jerry_magic_string` hands over, where the file can be compiled. -/
def registerMagicStrings (items : List (List Char)) : Option (List MagicString) :=
  items.mapM magicString

end Js2c

end IotJs

import Mathlib.Tactic.Common

/-!
# `IotJs.Core.Data`: strings, buffers and the platform

What the stream code needs of `buffer.js`, of the script engine and of
`process.platform`. A `Buffer` is the list of its bytes.
-/

set_option autoImplicit false

namespace IotJs

/-- The bytes of a `Buffer`. -/
abbrev Bytes := List UInt8

/-- A function that the program passed as a callback, by name. -/
abbrev Callback := Nat

/-- The script engine's string operations, and `process.platform`. -/
structure Platform where
  /-- `process.platform == 'nuttx'` -/
  nuttx : Bool
  /-- `string.length` -/
  stringLength : String → Nat
  /-- `jerry_string_to_char_buffer` -/
  stringToBytes : String → Bytes
  /-- The string that the engine makes of a block of bytes. -/
  bytesToString : Bytes → String

/-- A platform whose strings hold one byte a character. -/
def Platform.ascii (nuttx : Bool) : Platform where
  nuttx := nuttx
  stringLength := String.length
  stringToBytes s := s.toList.map fun c => UInt8.ofNat c.toNat
  bytesToString b := String.ofList (b.map fun x => Char.ofNat x.toNat)

/-- `new Buffer(string)`: `Buffer.byteLength` is `string.length`, the memory comes from
`calloc`, and the native `write` copies no more bytes than fit. -/
def newBuffer (P : Platform) (s : String) : Bytes :=
  let length := P.stringLength s
  let data := P.stringToBytes s
  data.take length ++ List.replicate (length - data.length) 0

/-- `buffer.toString()`: the native `ToString` reads up to the first NUL (`strnlen`). -/
def bufferToString (P : Platform) (b : Bytes) : String :=
  P.bytesToString (b.takeWhile (· != 0))

/-- A chunk as the program gives it: a string or a `Buffer`. -/
inductive Data where
  | string (s : String)
  | buffer (b : Bytes)
deriving DecidableEq, Repr

/-- `if (util.isString(chunk)) chunk = new Buffer(chunk)` -/
def Data.toBuffer (P : Platform) : Data → Bytes
  | .string s => newBuffer P s
  | .buffer b => b

/-- `chunk + ''` -/
def Data.toString (P : Platform) : Data → String
  | .string s => s
  | .buffer b => bufferToString P b

end IotJs

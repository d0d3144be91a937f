import IotJs.Core.Data
import IotJs.Lib.Utf8

/-!
# `IotJs.Core.Buffer`: a `Buffer` and the string in it

`buffer.js` for strings and buffers, and the native functions of `iotjs_module_buffer.c` behind it.
A `Buffer` is the list of its bytes here too: its `length` is the one that the native side has,
unless the program writes to it. The memory of the engine is 256 KB (`build.config`), so the
conversions to `int` lose nothing. A subject that is a number, `slice`, `compare` and `concat` are
left out.
-/

set_option autoImplicit false

namespace IotJs

/-- An engine whose strings are UTF-8 outside and whose `length` counts the code units of UTF-16.
What it makes of bytes that are no UTF-8 is left open, and is the empty string here. -/
def Platform.utf8 (nuttx : Bool) : Platform where
  nuttx := nuttx
  stringLength := Utf8.utf16Length
  stringToBytes := Utf8.encode
  bytesToString b := (Utf8.decode b).getD ""

namespace Buffer

/-- How a call ends that does not return. -/
inductive Failure where
  | typeError (message : String)
  | rangeError (message : String)
  /-- An `IOTJS_ASSERT` has failed. -/
  | aborted
deriving DecidableEq, Repr

/-! ### The native side -/

/-- `bound_range` -/
def boundRange (index : Int) (low upper : Nat) : Nat :=
  if index < low then low else if index > upper then upper else index.toNat

/-- `iotjs_bufferwrap_create`, with the block from `calloc` -/
def create (length : Nat) : Bytes := List.replicate length 0

/-- The `buffer` of an `iotjs_bufferwrap_t`: a `Buffer` without bytes has no block, and this is
`NULL`. -/
def block (this : Bytes) : Option Bytes :=
  if this.length > 0 then some this else none

/-- The loop of `iotjs_bufferwrap_copy_internal` with `n` bytes of the source to go. The callers
keep these inside the source. -/
def copyLoop (src : Bytes) : (n i j copied : Nat) → Bytes → Bytes × Nat
  | 0, _, _, copied, dst => (dst, copied)
  | n + 1, i, j, copied, dst =>
      if j < dst.length then
        copyLoop src n (i + 1) (j + 1) (copied + 1) (dst.set j (src.getD i 0))
      else (dst, copied)

/-- `iotjs_bufferwrap_copy_internal`, with what is copied -/
def copyInternal (this src : Bytes) (srcFrom srcTo dstFrom : Nat) : Bytes × Nat :=
  copyLoop src (srcTo - srcFrom) srcFrom dstFrom 0 this

/-- `Copy`: the source is left alone, and the target is given back. -/
def Copy (this target : Bytes) (dstStart srcStart srcEnd : Int) : Bytes × Nat :=
  let dstStart := boundRange dstStart 0 target.length
  let srcStart := boundRange srcStart 0 this.length
  let srcEnd := boundRange srcEnd 0 this.length
  copyInternal target this srcStart (if srcEnd < srcStart then srcStart else srcEnd) dstStart

/-- `Write` -/
def Write (P : Platform) (this : Bytes) (string : String) (offset length : Int) : Bytes × Nat :=
  let src := P.stringToBytes string
  let offset := boundRange offset 0 this.length
  let length := boundRange length 0 (this.length - offset)
  let length := boundRange length 0 src.length
  copyInternal this src 0 length offset

def strnlen (data : Option Bytes) (max : Nat) : Nat :=
  (((data.getD []).take max).takeWhile (· != 0)).length

/-- `iotjs_string_create_with_size`: its assertions are there in a build without `NDEBUG`. -/
def stringCreateWithSize (ndebug : Bool) (data : Option Bytes) (size : Nat) :
    Except Failure Bytes :=
  if ndebug = false ∧ (data = none ∨ strnlen data size ≠ size) then .error .aborted
  else .ok ((data.getD []).take size)

/-- `ToString` -/
def ToString (P : Platform) (ndebug : Bool) (this : Bytes) (first last : Int) :
    Except Failure String := do
  let first := boundRange first 0 this.length
  let last := boundRange last 0 this.length
  let last := if last < first then first else last
  let data := (block this).map (List.drop first)
  let str ← stringCreateWithSize ndebug data (strnlen data (last - first))
  return P.bytesToString str

/-! ### `buffer.js` -/

/-- `~~n` -/
def toInt32 (n : Int) : Int := Int.bmod n 4294967296

/-- `Buffer.byteLength(str)` -/
def byteLength (P : Platform) (str : String) : Nat := P.stringLength str

/-- `buffer.copy(target, targetStart, sourceStart, sourceEnd)`, where `none` is `undefined` -/
def copy (this target : Bytes) (targetStart sourceStart sourceEnd : Option Int) :
    Except Failure (Bytes × Nat) :=
  let targetStart := (targetStart.map toInt32).getD 0
  let sourceStart := (sourceStart.map toInt32).getD 0
  let sourceEnd := (sourceEnd.map toInt32).getD this.length
  if sourceEnd > sourceStart ∧ targetStart < 0 then
    .error (.rangeError "Attempt to write outside buffer bounds")
  else .ok (Copy this target targetStart sourceStart sourceEnd)

/-- `buffer.write(string, offset, length)`, with the `Buffer` as it is then and the count -/
def write (P : Platform) (this : Bytes) (string : String) (offset length : Option Int) :
    Except Failure (Bytes × Nat) :=
  let offset := (offset.map toInt32).getD 0
  if P.stringLength string > 0 ∧ (offset < 0 ∨ offset ≥ this.length) then
    .error (.rangeError "Attempt to write outside buffer bounds")
  else
    let remaining := this.length - offset
    .ok (Write P this string offset ((length.map toInt32).getD remaining))

/-- `buffer.toString(start, end)` -/
def toString (P : Platform) (ndebug : Bool) (this : Bytes) (first last : Option Int) :
    Except Failure String :=
  ToString P ndebug this ((first.map toInt32).getD 0) ((last.map toInt32).getD this.length)

/-- What the constructor is given. -/
inductive Subject where
  | string (str : String)
  | buffer (b : Bytes)
  | other
deriving DecidableEq, Repr

/-- `new Buffer(subject)` -/
def new (P : Platform) : Subject → Except Failure Bytes
  | .string str => do
      let (this, _) ← write P (create (byteLength P str)) str none none
      return this
  | .buffer b => do
      let (this, _) ← copy b (create b.length) none none none
      return this
  | .other => .error (.typeError "Bad arguments: Buffer(string|number|Buffer)")

end Buffer

end IotJs

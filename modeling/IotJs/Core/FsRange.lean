import IotJs.Core.FsOps
import Mathlib.Data.Rat.Defs

/-!
# `IotJs.Core.FsRange`: the range that `Read` and `Write` are given

`fs.read`, `readSync`, `write` and `writeSync` hand any number to the native side as `offset` and
`length`. The native function makes an `int` of each and compares it with the length of the buffer
before it calls libuv. The arguments here have the types that `checkArgNumber` and `checkArgBuffer`
let through.
-/

set_option autoImplicit false

namespace IotJs

namespace FsRange

open Fs (FsError rangeError toInt)

/-- A number of JavaScript. -/
inductive Number where
  | finite (q : ℚ)
  | infinite (negative : Bool)
  | nan
deriving DecidableEq, Repr

/-- The values of an `int`. -/
def IsInt (z : Int) : Prop := -2147483648 ≤ z ∧ z < 2147483648

instance (z : Int) : Decidable (IsInt z) := instDecidableAnd

/-- How the compiled code makes an `int` of a `double`. C leaves open what becomes of a value that
has no room there. -/
structure Cast where
  outside : Number → Int
  isInt : ∀ n, IsInt (outside n)

/-- The number as an `int`: the fraction is cut off. -/
def Cast.int (c : Cast) : Number → Int
  | .finite q =>
      let z := q.num.tdiv q.den
      if IsInt z then z else c.outside (.finite q)
  | n => c.outside n

/-- A `Buffer`: its constructor takes `size >>> 0`. -/
structure Buffer where
  length : Nat
  lt : length < 4294967296

/-- The call of `uv_fs_read` or `uv_fs_write`, with one `uv_buf_t` that begins `offset` bytes into
the buffer. -/
structure NativeCall where
  fd : Int
  offset : Int
  length : Int
  position : Int
deriving DecidableEq, Repr

def orError (error : Option FsError) (call : NativeCall) : Except FsError NativeCall :=
  match error with
  | some e => .error e
  | none => .ok call

/-- `Read` and `Write` up to their call of libuv. -/
def native (function : String) (c : Cast) (fd : Number) (buffer : Buffer)
    (offset length position : Number) : Except FsError NativeCall :=
  orError (rangeError function (c.int offset) (c.int length) buffer.length)
    ⟨c.int fd, c.int offset, c.int length, c.int position⟩

def Read : Cast → Number → Buffer → Number → Number → Number → Except FsError NativeCall :=
  native "Read"

def Write : Cast → Number → Buffer → Number → Number → Number → Except FsError NativeCall :=
  native "Write"

/-- The current position. -/
def current : Number := .finite (-1)

def read (c : Cast) (fd : Number) (buffer : Buffer) (offset length position : Number) :
    Except FsError NativeCall :=
  Read c fd buffer offset length position

/-- A `position` that is `null` or `undefined` is `none`. -/
def readSync (c : Cast) (fd : Number) (buffer : Buffer) (offset length : Number)
    (position : Option Number) : Except FsError NativeCall :=
  Read c fd buffer offset length (position.getD current)

/-- Where the callback stands in the place of `position`, that is `none`. -/
def write (c : Cast) (fd : Number) (buffer : Buffer) (offset length : Number)
    (position : Option Number) : Except FsError NativeCall :=
  Write c fd buffer offset length (position.getD current)

def writeSync (c : Cast) (fd : Number) (buffer : Buffer) (offset length : Number)
    (position : Option Number) : Except FsError NativeCall :=
  Write c fd buffer offset length (position.getD current)

/-- One of the four functions, with its `position`. -/
inductive Function where
  | read (position : Number)
  | readSync (position : Option Number)
  | write (position : Option Number)
  | writeSync (position : Option Number)
deriving DecidableEq, Repr

def Function.call (function : Function) (c : Cast) (fd : Number) (buffer : Buffer)
    (offset length : Number) : Except FsError NativeCall :=
  match function with
  | .read position => FsRange.read c fd buffer offset length position
  | .readSync position => FsRange.readSync c fd buffer offset length position
  | .write position => FsRange.write c fd buffer offset length position
  | .writeSync position => FsRange.writeSync c fd buffer offset length position

end FsRange

end IotJs

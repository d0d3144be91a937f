import IotJs.Core.Data
import IotJs.Core.FsRange
import Mathlib.Logic.Function.Basic

/-!
# `IotJs.Core.IotjsString`: the strings of the native side

`iotjs_string.c`, with the callers that give it a buffer of their own, `iotjs_file_read` and
`iotjs_jval_as_string`. A heap is the list of the blocks that were allocated so far, and a block
remembers how often it was released. `realloc` always moves a block, and `fresh` is what it has
behind the old bytes. There is memory for every allocation.

An `unsigned` has 32 bits and is a natural number here, so each sum and each product is taken
modulo `2^32`. An `int` has 32 bits too, and a `size_t` has 64.

`step` is one call on a variable of the program. A call of a variable that has no string in it does
not come, and neither does one after a failure. A call whose loop does not end has no next state.
-/

set_option autoImplicit false

namespace IotJs

open Fs (toInt)

/-- What goes wrong in a call. -/
inductive StringFailure where
  /-- an assertion fails -/
  | aborted
  /-- a write outside of the allocation -/
  | outOfBounds
  /-- `iotjs_empty_string` is written or released -/
  | emptyString
  /-- a write to a block that was released -/
  | released
  /-- the loop of `iotjs_string_append` does not end -/
  | endless
deriving DecidableEq, Repr

/-- What `data` points to. -/
inductive CharPointer where
  | iotjsEmptyString
  | block (b : Nat)
deriving DecidableEq, Repr

structure HeapBlock where
  bytes : Bytes
  /-- how often it was released -/
  released : Nat := 0
deriving DecidableEq, Repr

abbrev CharHeap := List HeapBlock

/-- `iotjs_string_t` -/
structure IotjsString where
  size : Nat
  cap : Nat
  data : CharPointer
deriving DecidableEq, Repr

/-- A number that becomes an `unsigned`. -/
def toUnsigned (n : Int) : Nat := (n % 4294967296).toNat

/-- A number that becomes a `size_t`. -/
def toSizeT (n : Int) : Nat := (n % 18446744073709551616).toNat

/-! ### The memory -/

namespace CharHeap

variable (h : CharHeap)

/-- The bytes behind a pointer. -/
def bytesAt : CharPointer → Bytes
  | .iotjsEmptyString => [0]
  | .block b => (h.getD b ⟨[], 0⟩).bytes

/-- `iotjs_buffer_allocate` -/
def bufferAllocate (size : Nat) : CharHeap × CharPointer :=
  (h ++ [{ bytes := List.replicate size 0 }], .block h.length)

/-- A block is given back. -/
def release (b : Nat) : CharHeap :=
  h.modify b fun block => { block with released := block.released + 1 }

/-- `iotjs_buffer_release` -/
def bufferRelease : CharPointer → Except StringFailure CharHeap
  | .iotjsEmptyString => .error .emptyString
  | .block b => .ok (h.release b)

/-- The bytes of a block after `realloc`. -/
def reallocated (fresh : Nat → UInt8) (old : Bytes) (size : Nat) : Bytes :=
  (List.range size).map fun k => old.getD k (fresh k)

/-- `iotjs_buffer_reallocate` -/
def bufferReallocate (fresh : Nat → Nat → UInt8) (buffer : CharPointer) (size : Nat) :
    Except StringFailure (CharHeap × CharPointer) := do
  let released ← h.bufferRelease buffer
  return (released ++ [{ bytes := reallocated (fresh h.length) (h.bytesAt buffer) size }],
    .block h.length)

/-- Bytes with others in their place from `offset` on. -/
def overwrite (offset : Nat) (bytes old : Bytes) : Bytes :=
  old.take offset ++ bytes ++ old.drop (offset + bytes.length)

def edit (b : Nat) (f : Bytes → Bytes) : CharHeap :=
  h.modify b fun block => { block with bytes := f block.bytes }

/-- Write bytes from `buffer + offset` on. -/
def write (buffer : CharPointer) (offset : Nat) (bytes : Bytes) : Except StringFailure CharHeap :=
  match buffer with
  | .iotjsEmptyString => .error .emptyString
  | .block b =>
      if (h.getD b ⟨[], 0⟩).released ≠ 0 then .error .released
      else if (h.bytesAt buffer).length < offset + bytes.length then .error .outOfBounds
      else .ok (h.edit b (overwrite offset bytes))

end CharHeap

/-- The bytes of a C string. -/
def untilNul (data : Bytes) : Bytes := data.takeWhile (· ≠ 0)

/-- What `strncpy` writes: it stops at a zero, and pads with zeros. -/
def strncpyBytes (data : Bytes) (n : Nat) : Bytes :=
  let copied := (untilNul data).take n
  copied ++ List.replicate (n - copied.length) 0

/-! ### The strings -/

namespace IotjsString

variable (h : CharHeap)

/-- `iotjs_string_create_with_size` -/
def createWithSize (data : Bytes) (size : Int) : Except StringFailure (CharHeap × IotjsString) :=
  let size := toUnsigned size
  if ((untilNul data).take size).length ≠ size then .error .aborted
  else if size > 0 then do
    let (h, buffer) := h.bufferAllocate (toUnsigned (size + 1))
    let h ← h.write buffer 0 (data.take size)
    let h ← h.write buffer size [0]
    return (h, { size := size, cap := size, data := buffer })
  else .ok (h, { size := size, cap := size, data := .iotjsEmptyString })

/-- `iotjs_string_create` -/
def create (data : Bytes) : Except StringFailure (CharHeap × IotjsString) :=
  createWithSize h data (untilNul data).length

/-- `iotjs_string_create_with_buffer` -/
def createWithBuffer (buffer : CharPointer) (size : Int) : IotjsString where
  size := toUnsigned size
  cap := toUnsigned size
  data := buffer

/-- `iotjs_file_read`, for a file with these contents -/
def fileRead (contents : Bytes) : Except StringFailure (CharHeap × IotjsString) := do
  let (h, buffer) := h.bufferAllocate (toUnsigned (contents.length + 1))
  let h ← h.write buffer 0 contents
  let h ← h.write buffer contents.length [0]
  return (h, createWithBuffer buffer contents.length)

/-- `iotjs_jval_as_string`, for a string that the engine keeps in these bytes -/
def jvalAsString (bytes : Bytes) : Except StringFailure (CharHeap × IotjsString) :=
  if bytes.length = 0 then create h []
  else do
    let (h, buffer) := h.bufferAllocate (toUnsigned (bytes.length + 1))
    let h ← h.write buffer 0 bytes
    let h ← h.write buffer bytes.length [0]
    return (h, createWithBuffer buffer bytes.length)

variable (s : IotjsString)

/-- `iotjs_string_destroy` -/
def destroy : Except StringFailure CharHeap :=
  if s.data ≠ .iotjsEmptyString then h.bufferRelease s.data else .ok h

/-- `iotjs_string_make_empty` -/
def makeEmpty : Except StringFailure (CharHeap × IotjsString) :=
  if s.data ≠ .iotjsEmptyString then do
    let h ← h.bufferRelease s.data
    return (h, { size := 0, cap := 0, data := .iotjsEmptyString })
  else .ok (h, s)

variable (fresh : Nat → Nat → UInt8)

/-- `iotjs_string_reserve` -/
def reserve (capacity : Int) : Except StringFailure (CharHeap × IotjsString) :=
  let capacity := toUnsigned capacity
  if s.cap ≥ capacity then .ok (h, s)
  else if s.cap = 0 then
    if s.data ≠ .iotjsEmptyString then .error .aborted
    else
      let (h, buffer) := h.bufferAllocate (toUnsigned (capacity + 1))
      .ok (h, { s with data := buffer, cap := capacity })
  else do
    let (h, buffer) ← h.bufferReallocate fresh s.data (toUnsigned (capacity + 1))
    return (h, { s with data := buffer, cap := capacity })

/-- `kCapacityIncreaseFactor` -/
def kCapacityIncreaseFactor : Nat := 2

/-- The loop of `iotjs_string_append`: the next capacity, if it ends. -/
def growCapacity : (fuel cap target : Nat) → Option Nat
  | 0, _, _ => none
  | fuel + 1, cap, target =>
      if cap < target then growCapacity fuel (toUnsigned (cap * kCapacityIncreaseFactor)) target
      else some cap

/-- After 32 rounds the capacity is zero for ever. -/
def growthFuel : Nat := 33

/-- The parameter `size` of `iotjs_string_append`, or the length of the data in its place. -/
def appendSize (data : Bytes) (size : Int) : Int :=
  if toInt size < 0 then toInt (untilNul data).length else toInt size

/-- The branches of `iotjs_string_append`, for a size that is not zero. -/
def appendData (data : Bytes) (size : Int) : Except StringFailure (CharHeap × IotjsString) :=
  if s.cap = 0 then
    if s.size ≠ 0 ∨ s.data ≠ .iotjsEmptyString then .error .aborted
    else do
      -- No buffer was allocated.
      let cap := toUnsigned size
      let (h, buffer) := h.bufferAllocate (toUnsigned (cap + 1))
      let h ← h.write buffer 0 (strncpyBytes data cap)
      return (h, { size := cap, cap := cap, data := buffer })
  else if s.cap ≥ toUnsigned (s.size + size) then do
    -- Have enough capacity to append data.
    let h ← h.write s.data s.size (strncpyBytes data (toSizeT size))
    return (h, { s with size := toUnsigned (s.size + size) })
  else
    -- Lack of capacity, calculate next capacity.
    match growCapacity growthFuel s.cap (toUnsigned (s.size + size)) with
    | none => .error .endless
    | some cap => do
        -- Reallocate buffer and copy data.
        let (h, buffer) ← h.bufferReallocate fresh s.data (toUnsigned (cap + 1))
        let h ← h.write buffer s.size (strncpyBytes data (toSizeT size))
        return (h, { size := toUnsigned (s.size + size), cap := cap, data := buffer })

/-- `iotjs_string_append` -/
def append (data : Bytes) (size : Int) : Except StringFailure (CharHeap × IotjsString) :=
  if s.cap < s.size then .error .aborted
  else
    let size := appendSize data size
    if size = 0 then .ok (h, s)
    else do
      let (h, s) ← s.appendData h fresh data size
      let h ← h.write s.data s.size [0]
      return (h, s)

end IotjsString

/-! ### The program -/

/-- Characters without a zero among them. -/
structure CChars where
  bytes : Bytes
  nulFree : 0 ∉ bytes

/-- The bytes of a string of the engine. Their number is a `jerry_size_t`, which has 32 bits. -/
structure JerryString where
  bytes : Bytes
  size_lt : bytes.length < 4294967296

/-- The calls. A string that is made goes into the variable `i`. -/
inductive StringMove where
  | create (i : Nat) (data : CChars)
  /-- of the first characters of a block -/
  | createWithSize (i : Nat) (data : CChars)
  | fileRead (i : Nat) (contents : Bytes)
  | jvalAsString (i : Nat) (value : JerryString)
  | reserve (i : Nat) (capacity : Int)
  | append (i : Nat) (data : Bytes) (size : Int)
  | makeEmpty (i : Nat)
  | destroy (i : Nat)

structure StringProgram where
  heap : CharHeap
  /-- the variables that have a string in them -/
  strings : Nat → Option IotjsString
  failure : Option StringFailure

namespace StringProgram

/-- Before the first call. -/
def new : StringProgram where
  heap := []
  strings _ := none
  failure := none

variable (p : StringProgram)

/-- A call has come back with what the variable `i` has then. -/
def settle (i : Nat) :
    Except StringFailure (CharHeap × Option IotjsString) → Option StringProgram
  | .ok result =>
      some { heap := result.1, strings := Function.update p.strings i result.2, failure := none }
  | .error .endless => none
  | .error failure => some { p with failure := some failure }

/-- Make a string in a variable that has none. -/
def make (i : Nat) (result : Except StringFailure (CharHeap × IotjsString)) :
    Option StringProgram :=
  if (p.strings i).isSome then none
  else p.settle i (result.map fun made => (made.1, some made.2))

/-- Call a function on the string of a variable. -/
def change (i : Nat) (call : IotjsString → Except StringFailure (CharHeap × IotjsString)) :
    Option StringProgram :=
  (p.strings i).bind fun s => p.settle i ((call s).map fun made => (made.1, some made.2))

variable (fresh : Nat → Nat → UInt8)

def stepMove : StringMove → Option StringProgram
  | .create i data => p.make i (IotjsString.create p.heap data.bytes)
  | .createWithSize i data =>
      p.make i (IotjsString.createWithSize p.heap data.bytes data.bytes.length)
  | .fileRead i contents => p.make i (IotjsString.fileRead p.heap contents)
  | .jvalAsString i value => p.make i (IotjsString.jvalAsString p.heap value.bytes)
  | .reserve i capacity => p.change i fun s => s.reserve p.heap fresh capacity
  | .append i data size => p.change i fun s => s.append p.heap fresh data size
  | .makeEmpty i => p.change i fun s => s.makeEmpty p.heap
  | .destroy i =>
      (p.strings i).bind fun s => p.settle i ((s.destroy p.heap).map fun heap => (heap, none))

def step (p : StringProgram) (move : StringMove) : Option StringProgram :=
  if p.failure.isSome then none else p.stepMove fresh move

end StringProgram

end IotJs

import IotJs.Core.Buffer
import IotJs.Core.FsRange

/-!
# `IotJs.Core.BufferHeap`: the Buffers that a program holds

`buffer.js` and `iotjs_module_buffer.c` for Buffers that are objects: one may be given to a call
twice, and a call changes the Buffers that it is given. A `BufferHeap` is the list of the Buffers
made so far, and a Buffer is its place there. What is no Buffer has no place.

A Buffer has its length twice, as a property and as `_this->length`. The program does not write to
the property. Numbers are converted where the source converts them, in JavaScript, from `double` to
`int`, and between `int` and `size_t`.

The assertions are built in. `calloc` finds every block below 2 GiB here, and no other one: its size
is the length as an `unsigned`, and `iotjs_buffer_allocate` asserts that there is a block.
-/

set_option autoImplicit false

namespace IotJs

open Fs (toInt)
open FsRange (Cast Number)
open Buffer (Failure)

/-- An integer as a number of JavaScript. -/
def FsRange.Number.int (n : Int) : Number := .finite (Rat.ofInt n)

/-- `n > 0` -/
def FsRange.Number.positive : Number → Bool
  | .finite q => 0 < q
  | .infinite negative => !negative
  | .nan => false

/-- `~~n` -/
def FsRange.Number.toInt32 : Number → Int
  | .finite q => toInt (q.num.tdiv q.den)
  | _ => 0

/-- `n >>> 0` -/
def FsRange.Number.toUint32 : Number → Nat
  | .finite q => (q.num.tdiv q.den % 4294967296).toNat
  | _ => 0

/-- The engine, and what the C code is compiled for. -/
structure BufferTarget extends Platform where
  cast : Cast
  /-- `char` is signed -/
  charSigned : Bool
  /-- a `size_t` has 64 bits, and 32 otherwise -/
  wide : Bool

namespace BufferTarget

variable (T : BufferTarget)

/-- A number that becomes an `int`. -/
def int (n : Int) : Int := T.cast.int (.int n)

/-- An `int` that becomes a `size_t`. -/
def size (n : Int) : Nat :=
  (n % if T.wide then 18446744073709551616 else 4294967296).toNat

end BufferTarget

/-- A `Buffer`. -/
structure BufferWrap where
  /-- the property `length` -/
  length : Nat
  /-- what `_this->buffer` points to, as long as `_this->length` -/
  block : Bytes
deriving DecidableEq, Repr

abbrev BufferHeap := List BufferWrap

namespace BufferHeap

def wrap (h : BufferHeap) (r : Nat) : BufferWrap := h.getD r ⟨0, []⟩

/-- `util.isBuffer` -/
def isBuffer (h : BufferHeap) (r : Nat) : Bool := r < h.length

/-- Write to the block of a Buffer. -/
def edit (h : BufferHeap) (r : Nat) (f : Bytes → Bytes) : BufferHeap :=
  h.modify r fun w => { w with block := f w.block }

/-! ### The native side -/

/-- `index = bound_range(index, low, upper)` -/
def boundRange (index : Int) (low upper : Nat) : Int :=
  toInt (if index < toInt low then low else if index > toInt upper then upper else index)

/-- `iotjs_bufferwrap_length`, with its assertion -/
def bufferwrapLength (w : BufferWrap) : Except Failure Nat :=
  if w.length = w.block.length then .ok w.block.length else .error .aborted

def charValue (signed : Bool) (b : UInt8) : Int :=
  if signed ∧ 128 ≤ b.toNat then b.toNat - 256 else b.toNat

/-- `iotjs_bufferwrap_compare` -/
def bufferwrapCompare (signed : Bool) : Bytes → Bytes → Int
  | x :: this, y :: other =>
      if charValue signed x < charValue signed y then -1
      else if charValue signed x > charValue signed y then 1
      else bufferwrapCompare signed this other
  | [], _ :: _ => -1
  | _ :: _, [] => 1
  | [], [] => 0

/-- The loop of `iotjs_bufferwrap_copy_internal` with `n` bytes of the source to go. -/
def copyLoop (src dst : Nat) : (n i j copied : Nat) → BufferHeap → Nat × BufferHeap
  | 0, _, _, copied, h => (copied, h)
  | n + 1, i, j, copied, h =>
      if j < (h.wrap dst).block.length then
        copyLoop src dst n (i + 1) (j + 1) (copied + 1)
          (h.edit dst fun block => block.set j ((h.wrap src).block.getD i 0))
      else (copied, h)

section

variable (T : BufferTarget) (h : BufferHeap)

/-- `bufferBuiltin`: a negative `int` becomes a `size_t` that there is no block for. -/
def create (length : Nat) : Except Failure (Nat × BufferHeap) :=
  let nativeLength := T.int length
  if nativeLength < 0 then .error .aborted
  else .ok (h.length, h ++ [⟨length, Buffer.create (T.size nativeLength)⟩])

/-- `Copy` -/
def Copy (this target : Nat) (dstStart srcStart srcEnd : Int) :
    Except Failure (Nat × BufferHeap) := do
  let dstLength ← bufferwrapLength (h.wrap target)
  let srcLength ← bufferwrapLength (h.wrap this)
  let dstStart := boundRange (T.int dstStart) 0 dstLength
  let srcStart := boundRange (T.int srcStart) 0 srcLength
  let srcEnd := boundRange (T.int srcEnd) 0 srcLength
  let srcEnd := if srcEnd < srcStart then srcStart else srcEnd
  return copyLoop this target (T.size srcEnd - T.size srcStart) (T.size srcStart)
    (T.size dstStart) 0 h

/-- `Write` -/
def Write (this : Nat) (string : String) (offset length : Int) :
    Except Failure (Nat × BufferHeap) := do
  let src := T.stringToBytes string
  let bufferLength ← bufferwrapLength (h.wrap this)
  let offset := boundRange (T.int offset) 0 bufferLength
  let length := boundRange (T.int length) 0 (T.size (bufferLength - offset))
  let length := boundRange length 0 src.length
  let copy := fun block => Buffer.copyInternal block src 0 (T.size length) (T.size offset)
  return ((copy (h.wrap this).block).2, h.edit this fun block => (copy block).1)

/-- `new Buffer(size)` -/
def newNumber (size : Number) : Except Failure (Nat × BufferHeap) :=
  create T h (if size.positive then size.toUint32 else 0)

/-- An index of `Slice`, where a negative one counts from the end. -/
def sliceIndex (index : Int) (length : Nat) : Int :=
  boundRange (if index < 0 then toInt (T.size (T.size index + length)) else index) 0 length

/-- `Slice` -/
def Slice (this : Nat) (first last : Int) : Except Failure (Nat × BufferHeap) := do
  let length ← bufferwrapLength (h.wrap this)
  let first := sliceIndex T (T.int first) length
  let last := sliceIndex T (T.int last) length
  let last := if last < first then first else last
  let newLength := toInt (last - first)
  -- IOTJS_ASSERT(length >= 0)
  if newLength < 0 then .error .aborted
  else do
    let (newBuffer, h) ← newNumber T h (.int newLength)
    let (_, h) := copyLoop this newBuffer (T.size last - T.size first) (T.size first) 0 0 h
    return (newBuffer, h)

/-- `ToString` -/
def ToString (this : Nat) (first last : Int) : Except Failure String := do
  let length ← bufferwrapLength (h.wrap this)
  let first := boundRange (T.int first) 0 length
  let last := boundRange (T.int last) 0 length
  let last := if last < first then first else last
  let length := toInt (last - first)
  -- IOTJS_ASSERT(length >= 0)
  if length < 0 then .error .aborted
  else
    let data := (Buffer.block (h.wrap this).block).map (List.drop (T.size first))
    let str ← Buffer.stringCreateWithSize false data (Buffer.strnlen data length.toNat)
    return T.bytesToString str

/-! ### `buffer.js` -/

/-- `util.isUndefined(n) ? other : ~~n` -/
def argument (n : Option Number) (other : Int) : Int := (n.map Number.toInt32).getD other

/-- `this.copy(target, targetStart, sourceStart, sourceEnd)`, where `none` is `undefined` -/
def copy (this target : Nat) (targetStart sourceStart sourceEnd : Option Number) :
    Except Failure (Nat × BufferHeap) :=
  if !h.isBuffer target then .error (.typeError "Bad arguments: buff.copy(Buffer)")
  else
    let targetStart := argument targetStart 0
    let sourceStart := argument sourceStart 0
    let sourceEnd := argument sourceEnd (h.wrap this).length
    if sourceEnd > sourceStart ∧ targetStart < 0 then
      .error (.rangeError "Attempt to write outside buffer bounds")
    else Copy T h this target targetStart sourceStart sourceEnd

/-- `this.write(string, offset, length)` -/
def write (this : Nat) (string : String) (offset length : Option Number) :
    Except Failure (Nat × BufferHeap) :=
  let offset := argument offset 0
  if T.stringLength string > 0 ∧ (offset < 0 ∨ offset ≥ (h.wrap this).length) then
    .error (.rangeError "Attempt to write outside buffer bounds")
  else
    let remaining := (h.wrap this).length - offset
    Write T h this string offset (argument length remaining)

/-- `this.slice(start, end)` -/
def slice (this : Nat) (first last : Option Number) : Except Failure (Nat × BufferHeap) :=
  Slice T h this (argument first 0) (argument last (h.wrap this).length)

/-- `this.toString(start, end)` -/
def toString (this : Nat) (first last : Option Number) : Except Failure String :=
  ToString T h this (argument first 0) (argument last (h.wrap this).length)

/-- `this.compare(otherBuffer)` -/
def compare (this other : Nat) : Except Failure Int :=
  if !h.isBuffer other then .error (.typeError "Bad arguments: buffer.compare(Buffer)")
  else .ok (bufferwrapCompare T.charSigned (h.wrap this).block (h.wrap other).block)

/-- `this.equals(otherBuffer)` -/
def equals (this other : Nat) : Except Failure Bool :=
  if !h.isBuffer other then .error (.typeError "Bad arguments: buffer.equals(Buffer)")
  else .ok (bufferwrapCompare T.charSigned (h.wrap this).block (h.wrap other).block == 0)

/-- `new Buffer(string)` -/
def newString (string : String) : Except Failure (Nat × BufferHeap) := do
  let (this, h) ← create T h (T.stringLength string)
  let (_, h) ← write T h this string none none
  return (this, h)

/-- `new Buffer(buffer)` -/
def newBuffer (subject : Nat) : Except Failure (Nat × BufferHeap) :=
  if !h.isBuffer subject then
    .error (.typeError "Bad arguments: Buffer(string|number|Buffer)")
  else do
    let (this, h) ← create T h (h.wrap subject).length
    let (_, h) ← copy T h subject this none none none
    return (this, h)

/-- `length += list[i].length` -/
def totalLength : List Nat → Nat
  | [] => 0
  | r :: list => (h.wrap r).length + totalLength list

/-- The second loop of `Buffer.concat`. -/
def concatLoop (buffer : Nat) : List Nat → (pos : Nat) → BufferHeap → Except Failure BufferHeap
  | [], _, h => .ok h
  | r :: list, pos, h => do
      let (_, h) ← copy T h r buffer (some (.int pos)) none none
      concatLoop buffer list (pos + (h.wrap r).length) h

/-- `Buffer.concat(list)` -/
def concat (list : List Nat) : Except Failure (Nat × BufferHeap) :=
  if !list.all h.isBuffer then .error (.typeError "Bad arguments: Buffer.concat([Buffer])")
  else do
    let (buffer, h) ← newNumber T h (.int (totalLength h list))
    let h ← concatLoop T buffer list 0 h
    return (buffer, h)

end

end BufferHeap

/-! ### Sequences of calls -/

/-- A call of a program. -/
inductive BufferCall where
  | newNumber (size : Number)
  | newString (string : String)
  | newBuffer (subject : Nat)
  | concat (list : List Nat)
  | copy (this target : Nat) (targetStart sourceStart sourceEnd : Option Number)
  | write (this : Nat) (string : String) (offset length : Option Number)
  | slice (this : Nat) (first last : Option Number)
  | toString (this : Nat) (first last : Option Number)
  | compare (this other : Nat)
  | equals (this other : Nat)
deriving DecidableEq, Repr

/-- The Buffer whose method is called. -/
def BufferCall.receiver : BufferCall → Option Nat
  | newNumber _ | newString _ | newBuffer _ | concat _ => none
  | copy this .. | write this .. | slice this .. | toString this .. | compare this _
  | equals this _ => some this

/-- What a call does to the Buffers. -/
def BufferCall.run (T : BufferTarget) (h : BufferHeap) : BufferCall → Except Failure BufferHeap
  | newNumber size => (h.newNumber T size).map Prod.snd
  | newString string => (h.newString T string).map Prod.snd
  | newBuffer subject => (h.newBuffer T subject).map Prod.snd
  | concat list => (h.concat T list).map Prod.snd
  | copy this target targetStart sourceStart sourceEnd =>
      (h.copy T this target targetStart sourceStart sourceEnd).map Prod.snd
  | write this string offset length => (h.write T this string offset length).map Prod.snd
  | slice this first last => (h.slice T this first last).map Prod.snd
  | toString this first last => (h.toString T this first last).map fun _ => h
  | compare this other => (h.compare T this other).map fun _ => h
  | equals this other => (h.equals T this other).map fun _ => h

/-- The Buffers of a program, and whether an assertion has failed, after which nothing follows. -/
structure Buffers where
  heap : BufferHeap
  aborted : Bool
deriving DecidableEq, Repr

namespace Buffers

def new : Buffers := ⟨[], false⟩

/-- A call that throws leaves the Buffers of the program as they were. -/
def step (T : BufferTarget) (s : Buffers) (call : BufferCall) : Option Buffers :=
  if s.aborted ∨ ∃ this ∈ call.receiver, ¬ s.heap.isBuffer this then none
  else
    match call.run T s.heap with
    | .ok heap => some { s with heap := heap }
    | .error .aborted => some { s with aborted := true }
    | .error _ => some s

end Buffers

end IotJs

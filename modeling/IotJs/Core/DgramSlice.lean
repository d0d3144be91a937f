import IotJs.Core.BufferHeap

/-!
# `IotJs.Core.DgramSlice`: the range of a Buffer that `send` is given

`send(buffer, offset, length, port, address)` of `dgram.js` makes a slice of the Buffer at once. The
slice is the list that waits for the socket to be bound and for its address to be looked up, and
`doSend` puts the list together when both are done. The Buffers may have changed by then.
-/

set_option autoImplicit false

namespace IotJs

open FsRange (Number)
open Buffer (Failure)

/-- The first argument of `send`. -/
inductive DgramChunk where
  | buffer (this : Nat)
  | string (string : String)
  | other
deriving DecidableEq, Repr

namespace Dgram

variable (T : BufferTarget) (h : BufferHeap)

/-- The Buffer that `sliceBuffer` takes the slice of. -/
def chunkBuffer : DgramChunk → Except Failure (Nat × BufferHeap)
  | .string string => h.newString T string
  | .buffer this =>
      if h.isBuffer this then .ok (this, h)
      else .error (.typeError "First argument must be a buffer or string")
  | .other => .error (.typeError "First argument must be a buffer or string")

/-- `sliceBuffer(buffer, offset, length)`. The sum is a number of JavaScript, and does not wrap
around. -/
def sliceBuffer (buffer : DgramChunk) (offset length : Number) :
    Except Failure (Nat × BufferHeap) := do
  let (buffer, h) ← chunkBuffer T h buffer
  let offset := offset.toUint32
  let length := length.toUint32
  h.slice T buffer (some (.int offset)) (some (.int (offset + length)))

/-- `Buffer.concat(list)` of `doSend`, whose bytes the native `Send` is given. -/
def datagram (list : List Nat) : Except Failure Bytes := do
  let (buf, h) ← h.concat T list
  return (h.wrap buf).block

end Dgram

end IotJs

import IotJs.Core.Fs
import IotJs.Lib.Runs

/-!
# `IotJs.Core.FsFiles`: `readFile` and `writeFile`

Both functions of `src/js/fs.js` start a chain of calls with callbacks. A call waits in libuv until
a thread performs it, and then until the event loop delivers its result to `AfterAsync`, which
calls back with the error or with the result. Calls that wait at the same time are performed, and
their results delivered, in any order. An error that libuv returns at once is one that is performed
and delivered first.

The variables that the closures share (`fd`, `bytesWritten`, `buffers`) are the part `vars` of a
`Task`. An exception that a callback throws is reported by `iotjs_uncaught_exception`, and the rest
of that callback is skipped.
-/

set_option autoImplicit false

namespace IotJs

namespace FsFiles

open Fs (FsError OpenFlag rangeError)

/-- A call of libuv. -/
inductive UvCall where
  | uvOpen (path : String) (flags : List OpenFlag)
  | uvRead (fd length : Nat) (position : Int)
  | uvWrite (fd : Nat) (data : Bytes) (position : Int)
  | uvClose (fd : Nat)
deriving DecidableEq, Repr

/-- `req->result`, and the bytes that a read has moved. -/
structure Reply where
  result : Int
  bytes : Bytes
deriving DecidableEq, Repr

def UvCall.perform (call : UvCall) (w : World) : Reply × World :=
  match call with
  | .uvOpen path flags =>
      let (result, w) := Fs.uvOpen path flags w
      (⟨result, []⟩, w)
  | .uvRead fd length position =>
      let ((result, bytes), w) := Fs.uvRead fd length position w
      (⟨result, bytes⟩, w)
  | .uvWrite fd data position =>
      let (result, w) := Fs.uvWrite fd data position w
      (⟨result, []⟩, w)
  | .uvClose fd =>
      let (result, w) := Fs.uvClose fd w
      (⟨result, []⟩, w)

/-- A call with its callback, and its reply once it was performed. -/
structure Request (κ : Type) where
  call : UvCall
  callback : κ
  reply : Option Reply
deriving DecidableEq, Repr

/-- A function of `fs.js` under way. -/
structure Task (κ ν : Type) where
  world : World
  vars : ν
  pending : List (Request κ)
  /-- the arguments of each call of `callback`: the error, and the contents if they are passed -/
  called : List (Option FsError × Option Bytes)
  /-- exceptions that left a callback -/
  thrown : List FsError
  /-- the calls of libuv so far -/
  asked : List UvCall
  /-- the first result below zero -/
  failure : Option Int

section task

variable {κ ν : Type}

/-- A call of libuv, with its callback. -/
def ask (call : UvCall) (callback : κ) (t : Task κ ν) : Task κ ν :=
  { t with pending := t.pending ++ [⟨call, callback, none⟩], asked := t.asked ++ [call] }

/-- A native function checks its arguments before it calls libuv. -/
def askIf (error : Option FsError) (call : UvCall) (callback : κ) (t : Task κ ν) : Task κ ν :=
  match error with
  | some e => { t with thrown := t.thrown ++ [e] }
  | none => ask call callback t

/-- `callback(err, data)` -/
def callBack (err : Option FsError) (data : Option Bytes) (t : Task κ ν) : Task κ ν :=
  { t with called := t.called ++ [(err, data)] }

/-- The `err` that `AfterAsync` passes: its text names `open`, whatever the call was. -/
def Reply.err (reply : Reply) : Option FsError :=
  if reply.result < 0 then some (.uv reply.result "open") else none

inductive Move where
  | perform (i : Nat)
  | deliver (i : Nat)
deriving DecidableEq, Repr

/-- The result of a call gets to `AfterAsync`. -/
def afterAsync (handler : κ → Reply → Task κ ν → Task κ ν) (i : Nat) (request : Request κ)
    (reply : Reply) (t : Task κ ν) : Task κ ν :=
  handler request.callback reply
    { t with
      pending := t.pending.eraseIdx i
      failure := t.failure.or (if reply.result < 0 then some reply.result else none) }

def step (handler : κ → Reply → Task κ ν → Task κ ν) (t : Task κ ν) : Move → Option (Task κ ν)
  | .perform i =>
      match t.pending[i]? with
      | some ⟨call, callback, none⟩ =>
          let (reply, world) := call.perform t.world
          some { t with
            world := world
            pending := t.pending.set i ⟨call, callback, some reply⟩ }
      | _ => none
  | .deliver i =>
      match t.pending[i]? with
      | some ⟨call, callback, some reply⟩ =>
          some (afterAsync handler i ⟨call, callback, some reply⟩ reply t)
      | _ => none

/-- A task before its first call. -/
def Task.new (w : World) (vars : ν) : Task κ ν where
  world := w
  vars := vars
  pending := []
  called := []
  thrown := []
  asked := []
  failure := none

end task

/-! ### `readFile` -/

/-- The functions in `readFile` that are given as callbacks. -/
inductive ReadCallback where
  | opened
  | afterRead
  /-- `function(err) { return callback(err); }` -/
  | closeFailed
  /-- `function(err) { return callback(err, Buffer.concat(buffers)); }` -/
  | closed
deriving DecidableEq, Repr

structure ReadVars where
  fd : Nat
  buffers : List Bytes
deriving DecidableEq, Repr

abbrev ReadTask := Task ReadCallback ReadVars

/-- `var read`: the range of a whole block passes the checks of `Read`. -/
def read (t : ReadTask) : ReadTask :=
  askIf (rangeError "Read" 0 1023 1023) (.uvRead t.vars.fd 1023 (-1)) .afterRead t

/-- `var close` -/
def close (t : ReadTask) : ReadTask := ask (.uvClose t.vars.fd) .closed t

/-- `var afterRead`: `fs.read` passes `bytesRead || 0` on. -/
def afterRead (reply : Reply) (t : ReadTask) : ReadTask :=
  let t := if reply.err.isSome then ask (.uvClose t.vars.fd) .closeFailed t else t
  let bytesRead := if reply.err.isSome then 0 else reply.result
  if bytesRead = 0 then
    -- end of file
    close t
  else
    -- continue reading
    let buffer := Fs.overwrite (List.replicate 1023 0) 0 reply.bytes
    read { t with vars := { t.vars with
      buffers := t.vars.buffers ++ [buffer.take bytesRead.toNat] } }

def readHandler : ReadCallback → Reply → ReadTask → ReadTask
  | .opened, reply, t =>
      if reply.err.isSome then callBack reply.err none t
      else read { t with vars := ⟨reply.result.toNat, []⟩ }
  | .afterRead, reply, t => afterRead reply t
  | .closeFailed, reply, t => callBack reply.err none t
  | .closed, reply, t => callBack reply.err (some t.vars.buffers.flatten) t

/-- `readFile(path, callback)` -/
def readFile (w : World) (path : String) : ReadTask :=
  ask (.uvOpen path [.O_RDONLY]) .opened (.new w ⟨0, []⟩)

/-! ### `writeFile` -/

/-- What the compiled code makes of a NaN, and the bytes that lie outside of a buffer. -/
structure Host where
  nan : Int
  /-- the two that processors give -/
  nan_eq : nan = 0 ∨ nan = -2147483648
  outside : Int → Int → Bytes

/-- A number as an `int`; `none` is NaN. -/
def Host.int (host : Host) : Option Nat → Int
  | some n => n
  | none => host.nan

/-- The bytes that libuv is given. -/
def Host.piece (host : Host) (data : Bytes) (offset length : Int) : Bytes :=
  if 0 ≤ offset ∧ 0 ≤ length then (data.drop offset.toNat).take length.toNat
  else host.outside offset length

/-- The functions in `writeFile` that are given as callbacks. -/
inductive WriteCallback where
  | opened
  | afterWrite
  /-- `function(err) { callback(err); }` -/
  | closed
deriving DecidableEq, Repr

structure WriteVars where
  fd : Nat
  /-- `none` is NaN -/
  bytesWritten : Option Nat
deriving DecidableEq, Repr

abbrev WriteTask := Task WriteCallback WriteVars

/-- `var write` -/
def write (host : Host) (data : Bytes) (t : WriteTask) : WriteTask :=
  let tryN := t.vars.bytesWritten.map fun bytesWritten => Fs.tryN (data.length - bytesWritten)
  let offset := host.int t.vars.bytesWritten
  let length := host.int tryN
  askIf (rangeError "Write" offset length data.length)
    (.uvWrite t.vars.fd (host.piece data offset length) offset) .afterWrite t

/-- `var afterWrite`: without a result, `n` is `undefined`, and the sum is NaN. -/
def afterWrite (host : Host) (data : Bytes) (reply : Reply) (t : WriteTask) : WriteTask :=
  let t := if reply.err.isSome then ask (.uvClose t.vars.fd) .closed t else t
  let n := if reply.err.isSome then none else some reply.result.toNat
  let sum := t.vars.bytesWritten.bind fun bytesWritten => n.map fun n => bytesWritten + n
  if n = some 0 ∨ sum = some data.length then
    -- end of data
    ask (.uvClose t.vars.fd) .closed t
  else
    -- continue writing
    write host data { t with vars := { t.vars with bytesWritten := sum } }

def writeHandler (host : Host) (data : Bytes) : WriteCallback → Reply → WriteTask → WriteTask
  | .opened, reply, t =>
      if reply.err.isSome then callBack reply.err none t
      else write host data { t with vars := ⟨reply.result.toNat, some 0⟩ }
  | .afterWrite, reply, t => afterWrite host data reply t
  | .closed, reply, t => callBack reply.err none t

/-- `writeFile(path, data, callback)` -/
def writeFile (w : World) (path : String) : WriteTask :=
  ask (.uvOpen path [.O_TRUNC, .O_CREAT, .O_WRONLY]) .opened (.new w ⟨0, none⟩)

end FsFiles

end IotJs

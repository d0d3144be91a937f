import IotJs.Core.Data
import Mathlib.Logic.Function.Basic

/-!
# `IotJs.Core.Fs`: files, read and written synchronously

`readFileSync` and `writeFileSync` from `src/js/fs.js`, with `openSync`, `readSync`, `writeSync`
and `closeSync`, the checks of the native `Read` and `Write`, and `AfterSync`. Below them is the
operating system: files, open descriptors with their positions, and the result that each call is
going to have. A result below zero is an error. A call that transfers bytes moves as many as its
result says, where there are so many. Both loops run until they meet a `break`, so they take
some fuel and return nothing where it does not last.
-/

set_option autoImplicit false

namespace IotJs

namespace Fs

/-- The constants that flags are made of. -/
inductive OpenFlag where
  | O_APPEND
  | O_CREAT
  | O_EXCL
  | O_RDONLY
  | O_RDWR
  | O_SYNC
  | O_TRUNC
  | O_WRONLY
deriving DecidableEq, Repr

/-- An open descriptor: its file, and the current position. -/
structure Descriptor where
  path : String
  position : Nat
deriving DecidableEq, Repr

/-- What a function of the module throws. -/
inductive FsError where
  /-- `iotjs_create_uv_exception` -/
  | uv (err : Int) (syscall : String)
  /-- `JHANDLER_CHECK` -/
  | internal (function : String)
  | range (message : String)
  | type (message : String)
deriving DecidableEq, Repr

end Fs

open Fs in
/-- The operating system. -/
structure World where
  files : String → Option Bytes
  fds : Nat → Option Descriptor
  /-- a descriptor that has not been used -/
  next : Nat
  /-- what the calls return, each in its turn -/
  results : Nat → Int
  /-- the number of calls so far -/
  calls : Nat
  opened : List Nat
  closed : List Nat

namespace Fs

def enoent : Int := -2

def ebadf : Int := -9

/-- `uv_fs_open`, with the flags that `readFileSync` and `writeFileSync` give. -/
def uvOpen (path : String) (flags : List OpenFlag) (w : World) : Int × World :=
  let r := w.results w.calls
  let w := { w with calls := w.calls + 1 }
  if r < 0 then (r, w)
  else if w.files path = none ∧ .O_CREAT ∉ flags then (enoent, w)
  else
    let content := if .O_TRUNC ∈ flags then [] else (w.files path).getD []
    (w.next, { w with
      files := Function.update w.files path (some content)
      fds := Function.update w.fds w.next (some ⟨path, 0⟩)
      next := w.next + 1
      opened := w.opened ++ [w.next] })

/-- `uv_fs_close` -/
def uvClose (fd : Nat) (w : World) : Int × World :=
  (min (w.results w.calls) 0, { w with
    calls := w.calls + 1
    fds := Function.update w.fds fd none
    closed := w.closed ++ [fd] })

/-- `uv_fs_read` of one buffer. A position below zero is the current one, which moves on. -/
def uvRead (fd length : Nat) (position : Int) (w : World) : (Int × Bytes) × World :=
  let r := w.results w.calls
  let w := { w with calls := w.calls + 1 }
  match w.fds fd with
  | none => ((ebadf, []), w)
  | some d =>
      if r < 0 then ((r, []), w)
      else
        let start := if position < 0 then d.position else position.toNat
        let bytes := ((((w.files d.path).getD []).drop start).take length).take r.toNat
        let fds := if position < 0 then
            Function.update w.fds fd (some ⟨d.path, d.position + bytes.length⟩)
          else w.fds
        ((bytes.length, bytes), { w with fds })

/-- The content with some bytes written at a position. -/
def overwrite (content : Bytes) (position : Nat) (bytes : Bytes) : Bytes :=
  content.take position ++ List.replicate (position - content.length) 0 ++ bytes ++
    content.drop (position + bytes.length)

/-- `uv_fs_write` of one buffer. -/
def uvWrite (fd : Nat) (data : Bytes) (position : Int) (w : World) : Int × World :=
  let r := w.results w.calls
  let w := { w with calls := w.calls + 1 }
  match w.fds fd with
  | none => (ebadf, w)
  | some d =>
      if r < 0 then (r, w)
      else
        let start := if position < 0 then d.position else position.toNat
        let bytes := data.take r.toNat
        let content := overwrite ((w.files d.path).getD []) start bytes
        let fds := if position < 0 then
            Function.update w.fds fd (some ⟨d.path, d.position + bytes.length⟩)
          else w.fds
        (bytes.length, { w with files := Function.update w.files d.path (some content), fds })

/-- A function that returns or throws. What it did before an exception stays done. -/
abbrev Sync := EStateM FsError World

/-! ### The native functions -/

/-- The `int` that a length becomes. -/
def toInt (n : Int) : Int := n.bmod 4294967296

/-- The checks of `Read` and `Write` on the part of the buffer that they are given. -/
def rangeError (function : String) (offset length : Int) (dataLength : Nat) : Option FsError :=
  if toInt dataLength ≤ 0 then some (.internal function)
  else if toInt dataLength ≤ offset then some (.range "offset out of bound")
  else if toInt dataLength < toInt (offset + length) then some (.range "length out of bound")
  else none

def throwIf : Option FsError → Sync Unit
  | some e => throw e
  | none => pure ()

def checkRange (function : String) (offset length : Int) (dataLength : Nat) : Sync Unit :=
  throwIf (rangeError function offset length dataLength)

/-- `FS_SYNC` and `AfterSync`: a result below zero is thrown. -/
def fsSync {α : Type} (syscall : String) (err : α → Int) (call : World → α × World) : Sync α :=
  fun w =>
    let (a, w) := call w
    if err a < 0 then .error (.uv (err a) syscall) w else .ok a w

/-- `Read` without a callback: the number of bytes, and the buffer with them. -/
def read (fd : Nat) (buffer : Bytes) (offset length : Nat) (position : Int) :
    Sync (Int × Bytes) := do
  checkRange "Read" offset length buffer.length
  let (bytesRead, bytes) ← fsSync "read" Prod.fst (uvRead fd length position)
  pure (bytesRead, overwrite buffer offset bytes)

/-- `Write` without a callback. -/
def write (fd : Nat) (buffer : Bytes) (offset length : Nat) (position : Int) : Sync Int := do
  checkRange "Write" offset length buffer.length
  fsSync "write" id (uvWrite fd ((buffer.drop offset).take length) position)

/-! ### The functions of `fs.js` -/

def convertFlags : String → Except FsError (List OpenFlag)
  | "r" => .ok [.O_RDONLY]
  | "rs" | "sr" => .ok [.O_RDONLY, .O_SYNC]
  | "r+" => .ok [.O_RDWR]
  | "rs+" | "sr+" => .ok [.O_RDWR, .O_SYNC]
  | "w" => .ok [.O_TRUNC, .O_CREAT, .O_WRONLY]
  | "wx" | "xw" => .ok [.O_TRUNC, .O_CREAT, .O_WRONLY, .O_EXCL]
  | "w+" => .ok [.O_TRUNC, .O_CREAT, .O_RDWR]
  | "wx+" | "xw+" => .ok [.O_TRUNC, .O_CREAT, .O_RDWR, .O_EXCL]
  | "a" => .ok [.O_APPEND, .O_CREAT, .O_WRONLY]
  | "ax" | "xa" => .ok [.O_APPEND, .O_CREAT, .O_WRONLY, .O_EXCL]
  | "a+" => .ok [.O_APPEND, .O_CREAT, .O_RDWR]
  | "ax+" | "xa+" => .ok [.O_APPEND, .O_CREAT, .O_RDWR, .O_EXCL]
  | _ => .error (.type "Bad argument: flags")

def openSync (path flags : String) : Sync Nat :=
  match convertFlags flags with
  | .error e => throw e
  | .ok flags => Int.toNat <$> fsSync "open" id (uvOpen path flags)

def closeSync (fd : Nat) : Sync Unit := do
  let _ ← fsSync "close" id (uvClose fd)

/-- A `position` that is `null` or `undefined` is the current one. -/
def readSync (fd : Nat) (buffer : Bytes) (offset length : Nat) (position : Option Int) :
    Sync (Int × Bytes) :=
  read fd buffer offset length (position.getD (-1))

def writeSync (fd : Nat) (buffer : Bytes) (offset length : Nat) (position : Option Int) : Sync Int :=
  write fd buffer offset length (position.getD (-1))

/-- `try { … } catch (e) { break; }` -/
def orBreak {α : Type} (body : Sync α) : Sync (Option α) :=
  tryCatch (some <$> body) fun _ => pure none

/-- The loop of `readFileSync`. -/
def readLoop (fd : Nat) : Nat → List Bytes → Sync (Option (List Bytes))
  | 0, _ => pure none
  | fuel + 1, buffers => do
      let buffer := List.replicate 1023 0
      match ← orBreak (readSync fd buffer 0 1023 none) with
      | none => pure (some buffers)
      | some (bytesRead, buffer) =>
          if bytesRead ≠ 0 then readLoop fd fuel (buffers ++ [buffer.take bytesRead.toNat])
          else pure (some buffers)

/-- `readFileSync(path)` -/
def readFileSync (fuel : Nat) (path : String) : Sync (Option Bytes) := do
  let fd ← openSync path "r"
  match ← readLoop fd fuel [] with
  | none => pure none
  | some buffers =>
      closeSync fd
      pure (some buffers.flatten)

/-- The number of bytes that `writeFileSync` tries to write. -/
def tryN (rest : Nat) : Nat := if 1024 ≤ rest then 1023 else rest

/-- The loop of `writeFileSync`. -/
def writeLoop (fd : Nat) (data : Bytes) : Nat → Nat → Sync (Option Nat)
  | 0, _ => pure none
  | fuel + 1, bytesWritten => do
      let n ← orBreak (writeSync fd data bytesWritten (tryN (data.length - bytesWritten))
        (some bytesWritten))
      match n with
      | none => pure (some bytesWritten)
      | some n =>
          let bytesWritten := bytesWritten + n.toNat
          if bytesWritten = data.length then pure (some bytesWritten)
          else writeLoop fd data fuel bytesWritten

/-- `writeFileSync(path, data)` -/
def writeFileSync (fuel : Nat) (path : String) (data : Bytes) : Sync (Option Nat) := do
  let fd ← openSync path "w"
  match ← writeLoop fd data fuel 0 with
  | none => pure none
  | some bytesWritten =>
      closeSync fd
      pure (some bytesWritten)

end Fs

end IotJs

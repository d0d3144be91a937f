import IotJs.Core.Fs

/-!
# `IotJs.Core.FsOps`: the operations of `fs`, with and without a callback

The functions `open`, `close`, `read`, `write`, `stat`, `mkdir`, `rmdir`, `unlink`, `rename` and
`readdir` of `src/js/fs.js` and their `Sync` forms, from the check of the arguments in JavaScript
through the native function to the call of libuv, and back through `AfterAsync` or `AfterSync`. A
function of `fs.js` is what it hands to its native function; the native function checks that again,
and whether there is a callback decides between `FS_ASYNC` and `FS_SYNC`.
-/

set_option autoImplicit false

namespace IotJs

namespace FsOps

open Fs (FsError OpenFlag convertFlags rangeError toInt)

/-- A buffer, by its identity. -/
structure Buffer where
  id : Nat
  length : Nat
deriving DecidableEq, Repr

/-- A function that is handed to the native side: one of the application, or the `cb` that `read`
or `write` makes of it. -/
inductive Callback where
  | given (f : Nat)
  | read (callback : Callback) (buffer : Buffer)
  | write (callback : Callback) (buffer : Buffer)
deriving DecidableEq, Repr

/-- `fs.Stats`, and `uv_stat_t` as far as it goes there. -/
structure Stats where
  dev : Int
  mode : Int
  nlink : Int
  uid : Int
  gid : Int
  rdev : Int
  blksize : Int
  ino : Int
  size : Int
  blocks : Int
deriving DecidableEq, Repr

inductive Value where
  | undefined
  | null
  | number (n : Int)
  /-- what `parseInt` makes of a string -/
  | parsed (s : String)
  | string (s : String)
  | flags (flags : List OpenFlag)
  | buffer (buffer : Buffer)
  | function (callback : Callback)
  | error (e : FsError)
  | stats (stats : Stats)
  | array (items : List String)
deriving DecidableEq, Repr

namespace Value

def isNumber : Value → Bool
  | number _ | parsed _ | flags _ => true
  | _ => false

def isString : Value → Bool
  | string _ => true
  | _ => false

def isBuffer : Value → Bool
  | buffer _ => true
  | _ => false

def isObject : Value → Bool
  | buffer _ | function _ | error _ | stats _ | array _ => true
  | _ => false

def isFunction : Value → Bool
  | function _ => true
  | _ => false

def isNullOrUndefined : Value → Bool
  | undefined | null => true
  | _ => false

/-- `value || 0` -/
def orZero : Value → Value
  | undefined | null => number 0
  | string "" => number 0
  | value => value

end Value

/-- An argument; the ones that are not given are `undefined`. -/
def arg (args : List Value) (i : Nat) : Value := args.getD i .undefined

/-! ### libuv -/

/-- A call of `uv_fs_…`. A mode and flags are handed through. -/
inductive Request where
  | uvOpen (path : Value) (flags mode : Value)
  | uvClose (fd : Value)
  | uvRead (fd buffer offset length position : Value)
  | uvWrite (fd buffer offset length position : Value)
  | uvStat (path : Value)
  | uvMkdir (path mode : Value)
  | uvRmdir (path : Value)
  | uvUnlink (path : Value)
  | uvRename (path newPath : Value)
  | uvScandir (path : Value)
deriving DecidableEq, Repr

/-- `req->result`, `req->statbuf` and the entries that `uv_fs_scandir_next` gives. -/
structure Reply where
  result : Int
  statbuf : Stats
  entries : List String
deriving DecidableEq, Repr

/-- What libuv does with a call. -/
structure Uv where
  reply : Request → Reply
  /-- an error of a call with a callback is returned at once -/
  atOnce : Request → Bool

/-- The text of `#syscall` -/
def Request.syscall : Request → String
  | uvOpen .. => "open"
  | uvClose .. => "close"
  | uvRead .. => "read"
  | uvWrite .. => "write"
  | uvStat .. => "stat"
  | uvMkdir .. => "mkdir"
  | uvRmdir .. => "rmdir"
  | uvUnlink .. => "unlink"
  | uvRename .. => "rename"
  | uvScandir .. => "scandir"

/-! ### The results -/

def makeStatObject (statbuf : Stats) : Value := .stats statbuf

/-- The arguments of the callback. The text of an error names `open`, whatever the call was. -/
def afterAsync (request : Request) (reply : Reply) : List Value :=
  if reply.result < 0 then [.error (.uv reply.result "open")]
  else .null :: match request with
    | .uvClose .. => []
    | .uvOpen .. | .uvRead .. | .uvWrite .. => [.number reply.result]
    | .uvScandir .. => [.array reply.entries]
    | .uvStat .. => [makeStatObject reply.statbuf]
    | _ => [.null]

/-- What is thrown or returned. -/
def afterSync (request : Request) (reply : Reply) : Except FsError Value :=
  if reply.result < 0 then .error (.uv reply.result request.syscall)
  else match request with
    | .uvClose .. => .ok .undefined
    | .uvOpen .. | .uvRead .. | .uvWrite .. => .ok (.number reply.result)
    | .uvStat .. => .ok (makeStatObject reply.statbuf)
    | .uvMkdir .. | .uvRmdir .. | .uvUnlink .. | .uvRename .. => .ok .undefined
    | .uvScandir .. => .ok (.array reply.entries)

/-- The function of the application that is called, and what it is called with. -/
def invoke : Callback → List Value → Nat × List Value
  | .given f, args => (f, args)
  | .read callback buffer, args =>
      invoke callback [arg args 0, (arg args 1).orZero, .buffer buffer]
  | .write callback buffer, args => invoke callback [arg args 0, arg args 1, .buffer buffer]

/-- What a function of `fs` does: what it returns or throws, and the callbacks that are called
before it returns and later on. -/
structure Ran where
  result : Except FsError Value
  during : List (Nat × List Value)
  later : List (Nat × List Value)

/-- The callbacks that are called, in their order. -/
def Ran.calls (ran : Ran) : List (Nat × List Value) := ran.during ++ ran.later

/-- `FS_ASYNC`: an error that the call returns is delivered then and there. -/
def fsAsync (uv : Uv) (request : Request) (callback : Callback) : Ran :=
  let reply := uv.reply request
  if reply.result < 0 ∧ uv.atOnce request = true then
    ⟨.ok .null, [invoke callback (afterAsync request reply)], []⟩
  else ⟨.ok .null, [], [invoke callback (afterAsync request reply)]⟩

/-- `FS_SYNC` -/
def fsSync (uv : Uv) (request : Request) : Ran :=
  ⟨afterSync request (uv.reply request), [], []⟩

/-! ### The native functions -/

/-- The value as an `int`. -/
def Value.asInt : Value → Int
  | .number n => toInt n
  | _ => 0

/-- `iotjs_bufferwrap_length` -/
def Value.dataLength : Value → Nat
  | .buffer b => b.length
  | _ => 0

/-- What a native function makes of its arguments: the call, and the callback if it found one. -/
structure Call where
  request : Request
  callback : Option Callback
deriving DecidableEq, Repr

/-- `JHANDLER_CHECK_ARGS(n, types)` and `JHANDLER_CHECK_ARG_IF_EXIST(index, function)` -/
def checkArgs (function : String) (types : List (Value → Bool)) (index : Nat)
    (args : List Value) : Except FsError Unit :=
  if args.length < types.length ∨ (types.zipWith (fun type value => type value) args).all id = false
    then .error (.internal function)
  else if index < args.length ∧ (arg args index).isFunction = false then .error (.internal function)
  else .ok ()

/-- `JHANDLER_GET_ARG_IF_EXIST(index, function)` -/
def callbackArg (args : List Value) (index : Nat) : Option Callback :=
  match arg args index with
  | .function callback => some callback
  | _ => none

/-- A native function with no check but those of the types. -/
def handler (function : String) (types : List (Value → Bool)) (index : Nat)
    (request : List Value → Request) (args : List Value) : Except FsError Call :=
  match checkArgs function types index args with
  | .error e => .error e
  | .ok () => .ok ⟨request args, callbackArg args index⟩

open Value in
def Close : List Value → Except FsError Call :=
  handler "Close" [isNumber] 1 fun args => .uvClose (arg args 0)

open Value in
def Open : List Value → Except FsError Call :=
  handler "Open" [isString, isNumber, isNumber] 3 fun args =>
    .uvOpen (arg args 0) (arg args 1) (arg args 2)

def orError (error : Option FsError) (call : Call) : Except FsError Call :=
  match error with
  | some e => .error e
  | none => .ok call

/-- `Read` and `Write` check the range too. -/
def rangeHandler (function : String) (request : List Value → Request) (args : List Value) :
    Except FsError Call :=
  match checkArgs function [Value.isNumber, Value.isObject, Value.isNumber, Value.isNumber,
      Value.isNumber] 5 args with
  | .error e => .error e
  | .ok () =>
      orError
        (rangeError function (arg args 2).asInt (arg args 3).asInt (arg args 1).dataLength)
        ⟨request args, callbackArg args 5⟩

def Read : List Value → Except FsError Call :=
  rangeHandler "Read" fun args =>
    .uvRead (arg args 0) (arg args 1) (arg args 2) (arg args 3) (arg args 4)

def Write : List Value → Except FsError Call :=
  rangeHandler "Write" fun args =>
    .uvWrite (arg args 0) (arg args 1) (arg args 2) (arg args 3) (arg args 4)

open Value in
def Stat : List Value → Except FsError Call :=
  handler "Stat" [isString] 1 fun args => .uvStat (arg args 0)

open Value in
def MkDir : List Value → Except FsError Call :=
  handler "MkDir" [isString, isNumber] 2 fun args => .uvMkdir (arg args 0) (arg args 1)

open Value in
def RmDir : List Value → Except FsError Call :=
  handler "RmDir" [isString] 1 fun args => .uvRmdir (arg args 0)

open Value in
def Unlink : List Value → Except FsError Call :=
  handler "Unlink" [isString] 1 fun args => .uvUnlink (arg args 0)

open Value in
def Rename : List Value → Except FsError Call :=
  handler "Rename" [isString, isString] 2 fun args => .uvRename (arg args 0) (arg args 1)

open Value in
/-- Its callback is looked for behind the place where `readdir` puts it. -/
def ReadDir : List Value → Except FsError Call :=
  handler "ReadDir" [isString] 2 fun args => .uvScandir (arg args 0)

/-! ### The functions of `fs.js` -/

def checkArgType (value : Value) (name : String) (checkFunc : Value → Bool) :
    Except FsError Value :=
  if checkFunc value then .ok value else .error (.type ("Bad arguments: " ++ name))

/-- The `name` of a check that is given none. -/
def unnamed : String := "undefined"

def checkArgBuffer (value : Value) (name : String) : Except FsError Value :=
  checkArgType value name Value.isBuffer

def checkArgNumber (value : Value) (name : String) : Except FsError Value :=
  checkArgType value name Value.isNumber

def checkArgString (value : Value) (name : String) : Except FsError Value :=
  checkArgType value name Value.isString

def checkArgFunction (value : Value) (name : String) : Except FsError Value :=
  checkArgType value name Value.isFunction

def convertFlagsArg : Value → Except FsError Value
  | .string flag => Value.flags <$> convertFlags flag
  | _ => .error (.type "Bad argument: flags")

def convertMode (mode : Value) (default : Int) : Value :=
  if mode.isNumber then mode
  else match mode with
    | .string s => .parsed s
    | _ => .number default

/-- A function of `fs.js` hands arguments to its native function, or a check throws. -/
def run (uv : Uv) (native : List Value → Except FsError Call) :
    Except FsError (List Value) → Ran
  | .error e => ⟨.error e, [], []⟩
  | .ok args =>
      match native args with
      | .error e => ⟨.error e, [], []⟩
      | .ok ⟨request, some callback⟩ => fsAsync uv request callback
      | .ok ⟨request, none⟩ => fsSync uv request

/-- A function with no `return`. -/
def Ran.noReturn (ran : Ran) : Ran := { ran with result := (fun _ => .undefined) <$> ran.result }

/-- A path and a callback. -/
def pathCallback (pathName callbackName : String) (args : List Value) :
    Except FsError (List Value) := do
  let path ← checkArgString (arg args 0) pathName
  let callback ← checkArgFunction (arg args 1) callbackName
  pure [path, callback]

/-- A path alone. -/
def pathOnly (pathName : String) (args : List Value) : Except FsError (List Value) := do
  let path ← checkArgString (arg args 0) pathName
  pure [path]

def stat (uv : Uv) (args : List Value) : Ran :=
  (run uv Stat (pathCallback "path" "callback" args)).noReturn

def statSync (uv : Uv) (args : List Value) : Ran := run uv Stat (pathOnly "path" args)

def closeArgs (args : List Value) : Except FsError (List Value) := do
  let fd ← checkArgNumber (arg args 0) "fd"
  let callback ← checkArgFunction (arg args 1) "callback"
  pure [fd, callback]

def close (uv : Uv) (args : List Value) : Ran := (run uv Close (closeArgs args)).noReturn

def closeSyncArgs (args : List Value) : Except FsError (List Value) := do
  let fd ← checkArgNumber (arg args 0) "fd"
  pure [fd]

def closeSync (uv : Uv) (args : List Value) : Ran := (run uv Close (closeSyncArgs args)).noReturn

/-- The callback is the last argument. The name of the check went to the native function. -/
def openArgs (args : List Value) : Except FsError (List Value) := do
  let path ← checkArgString (arg args 0) "path"
  let flags ← convertFlagsArg (arg args 1)
  let callback ← checkArgFunction (arg args (args.length - 1)) unnamed
  pure [path, flags, convertMode (arg args 2) 438, callback, .string "callback"]

def openFile (uv : Uv) (args : List Value) : Ran := (run uv Open (openArgs args)).noReturn

def openSyncArgs (args : List Value) : Except FsError (List Value) := do
  let path ← checkArgString (arg args 0) "path"
  let flags ← convertFlagsArg (arg args 1)
  pure [path, flags, convertMode (arg args 2) 438]

def openSync (uv : Uv) (args : List Value) : Ran := run uv Open (openSyncArgs args)

/-- The checks that `read`, `readSync`, `write` and `writeSync` make, of all but the callback. -/
def bufferArgs (fd buffer offset length position : Value) : Except FsError (List Value) := do
  let fd ← checkArgNumber fd "fd"
  let buffer ← checkArgBuffer buffer "buffer"
  let offset ← checkArgNumber offset "offset"
  let length ← checkArgNumber length "length"
  let position ← checkArgNumber position "position"
  pure [fd, buffer, offset, length, position]

/-- The `cb` that `read` or `write` makes of its callback. -/
def wrapped (wrap : Callback → Buffer → Callback) (callback buffer : Value) : Value :=
  match callback, buffer with
  | .function callback, .buffer buffer => .function (wrap callback buffer)
  | _, _ => .undefined

def readArgs (args : List Value) : Except FsError (List Value) := do
  let callback ← checkArgFunction (arg args 5) "callback"
  let native ← bufferArgs (arg args 0) (arg args 1) (arg args 2) (arg args 3) (arg args 4)
  pure (native ++ [wrapped .read callback (arg args 1)])

def read (uv : Uv) (args : List Value) : Ran := run uv Read (readArgs args)

/-- A `position` that is `null` or `undefined` is the current one. -/
def currentPosition (position : Value) : Value :=
  if position.isNullOrUndefined then .number (-1) else position

def readSyncArgs (args : List Value) : Except FsError (List Value) :=
  bufferArgs (arg args 0) (arg args 1) (arg args 2) (arg args 3) (currentPosition (arg args 4))

def readSync (uv : Uv) (args : List Value) : Ran := run uv Read (readSyncArgs args)

def writeArgs (args : List Value) : Except FsError (List Value) := do
  let position := if (arg args 4).isFunction then .number (-1) else arg args 4
  let callback ← checkArgFunction (if (arg args 4).isFunction then arg args 4 else arg args 5)
    "callback"
  let native ← bufferArgs (arg args 0) (arg args 1) (arg args 2) (arg args 3) position
  pure (native ++ [wrapped .write callback (arg args 1)])

def write (uv : Uv) (args : List Value) : Ran := run uv Write (writeArgs args)

def writeSyncArgs (args : List Value) : Except FsError (List Value) :=
  bufferArgs (arg args 0) (arg args 1) (arg args 2) (arg args 3) (currentPosition (arg args 4))

def writeSync (uv : Uv) (args : List Value) : Ran := run uv Write (writeSyncArgs args)

def mkdirArgs (args : List Value) : Except FsError (List Value) := do
  let path ← checkArgString (arg args 0) "path"
  let callback ← checkArgFunction (if (arg args 1).isFunction then arg args 1 else arg args 2)
    "callback"
  pure [path, convertMode (arg args 1) 511, callback]

def mkdir (uv : Uv) (args : List Value) : Ran := (run uv MkDir (mkdirArgs args)).noReturn

def mkdirSyncArgs (args : List Value) : Except FsError (List Value) := do
  let path ← checkArgString (arg args 0) "path"
  pure [path, convertMode (arg args 1) 511]

def mkdirSync (uv : Uv) (args : List Value) : Ran := run uv MkDir (mkdirSyncArgs args)

def rmdir (uv : Uv) (args : List Value) : Ran :=
  (run uv RmDir (pathCallback "path" "callback" args)).noReturn

def rmdirSync (uv : Uv) (args : List Value) : Ran := run uv RmDir (pathOnly "path" args)

def unlink (uv : Uv) (args : List Value) : Ran :=
  (run uv Unlink (pathCallback unnamed unnamed args)).noReturn

def unlinkSync (uv : Uv) (args : List Value) : Ran := run uv Unlink (pathOnly "path" args)

def renameArgs (args : List Value) : Except FsError (List Value) := do
  let oldPath ← checkArgString (arg args 0) unnamed
  let newPath ← checkArgString (arg args 1) unnamed
  let callback ← checkArgFunction (arg args 2) unnamed
  pure [oldPath, newPath, callback]

def rename (uv : Uv) (args : List Value) : Ran := (run uv Rename (renameArgs args)).noReturn

def renameSyncArgs (args : List Value) : Except FsError (List Value) := do
  let oldPath ← checkArgString (arg args 0) unnamed
  let newPath ← checkArgString (arg args 1) unnamed
  pure [oldPath, newPath]

def renameSync (uv : Uv) (args : List Value) : Ran :=
  (run uv Rename (renameSyncArgs args)).noReturn

def readdir (uv : Uv) (args : List Value) : Ran :=
  (run uv ReadDir (pathCallback unnamed unnamed args)).noReturn

def readdirSync (uv : Uv) (args : List Value) : Ran := run uv ReadDir (pathOnly "path" args)

/-- The operations that have both forms. -/
inductive Op where
  | Open
  | Close
  | Read
  | Write
  | Stat
  | MkDir
  | RmDir
  | Unlink
  | Rename
  | ReadDir
deriving DecidableEq, Repr

/-- The form with a callback. -/
def Op.async : Op → Uv → List Value → Ran
  | Open => openFile
  | Close => close
  | Read => read
  | Write => write
  | Stat => stat
  | MkDir => mkdir
  | RmDir => rmdir
  | Unlink => unlink
  | Rename => rename
  | ReadDir => readdir

/-- The `Sync` form. -/
def Op.sync : Op → Uv → List Value → Ran
  | Open => openSync
  | Close => closeSync
  | Read => readSync
  | Write => writeSync
  | Stat => statSync
  | MkDir => mkdirSync
  | RmDir => rmdirSync
  | Unlink => unlinkSync
  | Rename => renameSync
  | ReadDir => readdirSync

end FsOps

end IotJs

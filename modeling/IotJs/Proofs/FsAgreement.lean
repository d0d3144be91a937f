import IotJs.Core.FsOps

/-!
# `IotJs.Proofs.FsAgreement`: the two forms of an operation

A function with a callback and its `Sync` form agree where the callback is called once, with an
error where the other one throws, and with what it returns where it does not. `asked_of_wellTyped`
says what both ask of libuv for the arguments of each operation; the rest compares `afterAsync`
with `afterSync`.
-/

set_option autoImplicit false

namespace IotJs.FsOps

open Fs (FsError rangeError)

/-! ### Arguments -/

def IsMode : Value → Prop
  | .number _ | .string _ | .undefined => True
  | _ => False

def IsPosition : Value → Prop
  | .number _ | .null | .undefined => True
  | _ => False

/-- The arguments before the callback, each of its type. A mode and a position can be left out. -/
inductive WellTyped : Op → List Value → Prop where
  | Open (path flags : String) : WellTyped .Open [.string path, .string flags]
  | OpenMode (path flags : String) {mode : Value} (hmode : IsMode mode) :
      WellTyped .Open [.string path, .string flags, mode]
  | Close (fd : Int) : WellTyped .Close [.number fd]
  | Read (fd : Int) (b : Buffer) (offset length : Int) :
      WellTyped .Read [.number fd, .buffer b, .number offset, .number length]
  | ReadAt (fd : Int) (b : Buffer) (offset length : Int) {position : Value}
      (hposition : IsPosition position) :
      WellTyped .Read [.number fd, .buffer b, .number offset, .number length, position]
  | Write (fd : Int) (b : Buffer) (offset length : Int) :
      WellTyped .Write [.number fd, .buffer b, .number offset, .number length]
  | WriteAt (fd : Int) (b : Buffer) (offset length : Int) {position : Value}
      (hposition : IsPosition position) :
      WellTyped .Write [.number fd, .buffer b, .number offset, .number length, position]
  | Stat (path : String) : WellTyped .Stat [.string path]
  | MkDir (path : String) : WellTyped .MkDir [.string path]
  | MkDirMode (path : String) {mode : Value} (hmode : IsMode mode) :
      WellTyped .MkDir [.string path, mode]
  | RmDir (path : String) : WellTyped .RmDir [.string path]
  | Unlink (path : String) : WellTyped .Unlink [.string path]
  | Rename (oldPath newPath : String) : WellTyped .Rename [.string oldPath, .string newPath]
  | ReadDir (path : String) : WellTyped .ReadDir [.string path]

/-! ### What a function asks of libuv -/

/-- The native function of an operation. -/
def Op.native : Op → List Value → Except FsError Call
  | Open => FsOps.Open
  | Close => FsOps.Close
  | Read => FsOps.Read
  | Write => FsOps.Write
  | Stat => FsOps.Stat
  | MkDir => FsOps.MkDir
  | RmDir => FsOps.RmDir
  | Unlink => FsOps.Unlink
  | Rename => FsOps.Rename
  | ReadDir => FsOps.ReadDir

/-- What the form with a callback hands to the native function. -/
def Op.asyncArgs : Op → List Value → Except FsError (List Value)
  | Open => openArgs
  | Close => closeArgs
  | Read => readArgs
  | Write => writeArgs
  | Stat => pathCallback "path" "callback"
  | MkDir => mkdirArgs
  | RmDir => pathCallback "path" "callback"
  | Unlink => pathCallback unnamed unnamed
  | Rename => renameArgs
  | ReadDir => pathCallback unnamed unnamed

/-- What the `Sync` form hands to the native function. -/
def Op.syncArgs : Op → List Value → Except FsError (List Value)
  | Open => openSyncArgs
  | Close => closeSyncArgs
  | Read => readSyncArgs
  | Write => writeSyncArgs
  | Stat => pathOnly "path"
  | MkDir => mkdirSyncArgs
  | RmDir => pathOnly "path"
  | Unlink => pathOnly "path"
  | Rename => renameSyncArgs
  | ReadDir => pathOnly "path"

def Op.asyncCall (op : Op) (args : List Value) : Except FsError Call :=
  op.asyncArgs args >>= op.native

def Op.syncCall (op : Op) (args : List Value) : Except FsError Call :=
  op.syncArgs args >>= op.native

theorem ok_bind {α β : Type} (a : α) (k : α → Except FsError β) : (Except.ok a >>= k) = k a := rfl

/-- The callbacks that a call leads to. -/
def Delivered (uv : Uv) : Except FsError Call → List (Nat × List Value)
  | .ok ⟨request, some callback⟩ => [invoke callback (afterAsync request (uv.reply request))]
  | _ => []

/-- What a call returns or throws. -/
def Returned (uv : Uv) : Except FsError Call → Except FsError Value
  | .ok ⟨_, some _⟩ => .ok .null
  | .ok ⟨request, none⟩ => afterSync request (uv.reply request)
  | .error e => .error e

theorem calls_fsAsync (uv : Uv) (request : Request) (callback : Callback) :
    (fsAsync uv request callback).calls =
      [invoke callback (afterAsync request (uv.reply request))] := by
  rw [fsAsync]
  split <;> rfl

theorem calls_run (uv : Uv) (native : List Value → Except FsError Call)
    (args : Except FsError (List Value)) :
    (run uv native args).calls = Delivered uv (args >>= native) := by
  cases args with
  | error e => rfl
  | ok args =>
      show (run uv native (.ok args)).calls = Delivered uv (native args)
      rw [run]
      cases native args with
      | error e => rfl
      | ok call =>
          obtain ⟨request, callback⟩ := call
          cases callback with
          | none => rfl
          | some callback => exact calls_fsAsync uv request callback

theorem result_run (uv : Uv) (native : List Value → Except FsError Call)
    (args : Except FsError (List Value)) :
    (run uv native args).result = Returned uv (args >>= native) := by
  cases args with
  | error e => rfl
  | ok args =>
      show (run uv native (.ok args)).result = Returned uv (native args)
      rw [run]
      cases native args with
      | error e => rfl
      | ok call =>
          obtain ⟨request, callback⟩ := call
          cases callback with
          | none => rfl
          | some callback =>
              show (fsAsync uv request callback).result = .ok .null
              rw [fsAsync]
              split <;> rfl

/-- The callbacks of a function with a callback. -/
theorem calls_async (op : Op) (uv : Uv) (args : List Value) :
    (op.async uv args).calls = Delivered uv (op.asyncCall args) := by
  cases op <;> exact calls_run uv _ _

/-- The operation that a call is made for. -/
def Request.op : Request → Op
  | uvOpen .. => .Open
  | uvClose .. => .Close
  | uvRead .. => .Read
  | uvWrite .. => .Write
  | uvStat .. => .Stat
  | uvMkdir .. => .MkDir
  | uvRmdir .. => .RmDir
  | uvUnlink .. => .Unlink
  | uvRename .. => .Rename
  | uvScandir .. => .ReadDir

/-- The position is a number; `write` can do without. -/
def PositionGiven (op : Op) (args : List Value) : Prop :=
  (op = .Read → (arg args 4).isNumber = true) ∧
    (op = .Write → args.length = 4 ∨ (arg args 4).isNumber = true)

/-- The callback is the one of the application, as it is or with the buffer added. -/
inductive Reaches (f : Nat) : Op → Callback → Prop where
  | given {op : Op} (hread : op ≠ .Read) (hwrite : op ≠ .Write) : Reaches f op (.given f)
  | read (b : Buffer) : Reaches f .Read (.read (.given f) b)
  | write (b : Buffer) : Reaches f .Write (.write (.given f) b)

/-- What the two forms ask of libuv. -/
inductive Asked (op : Op) (args : List Value) (f : Nat) : Prop where
  /-- a check rejects the arguments, and no callback is called -/
  | rejected (e : FsError) (hsync : op.syncCall args = .error e)
      (hasync : ∀ uv, Delivered uv (op.asyncCall (args ++ [.function (.given f)])) = [])
  /-- both make the same call -/
  | both (request : Request) (callback : Callback) (hop : request.op = op)
      (hreadDir : op ≠ .ReadDir) (hposition : PositionGiven op args)
      (hsync : op.syncCall args = .ok ⟨request, none⟩)
      (hasync : op.asyncCall (args ++ [.function (.given f)]) = .ok ⟨request, some callback⟩)
      (hreaches : Reaches f op callback)
  /-- the form with a callback throws, or does not find it -/
  | one (request : Request) (hno : op ≠ .ReadDir → ¬ PositionGiven op args)
      (hsync : op.syncCall args = .ok ⟨request, none⟩)
      (hasync : ∀ uv, Delivered uv (op.asyncCall (args ++ [.function (.given f)])) = [])

theorem positionGiven_of_ne {op : Op} (args : List Value) (hread : op ≠ .Read)
    (hwrite : op ≠ .Write) : PositionGiven op args :=
  ⟨fun h => absurd h hread, fun h => absurd h hwrite⟩

/-- Arguments of the right types are left to the check of the range. -/
theorem rangeHandler_eq {function : String} {request : List Value → Request} {args : List Value}
    (hargs : checkArgs function [Value.isNumber, Value.isObject, Value.isNumber, Value.isNumber,
      Value.isNumber] 5 args = .ok ()) :
    rangeHandler function request args =
      orError (rangeError function (arg args 2).asInt (arg args 3).asInt (arg args 1).dataLength)
        ⟨request args, callbackArg args 5⟩ := by
  rw [rangeHandler, hargs]

theorem asked_Close (fd : Int) (f : Nat) : Asked .Close [.number fd] f :=
  .both (.uvClose (.number fd)) (.given f) rfl nofun (positionGiven_of_ne _ nofun nofun) rfl rfl
    (.given nofun nofun)

theorem asked_Rename (oldPath newPath : String) (f : Nat) :
    Asked .Rename [.string oldPath, .string newPath] f :=
  .both (.uvRename (.string oldPath) (.string newPath)) (.given f) rfl nofun
    (positionGiven_of_ne _ nofun nofun) rfl rfl (.given nofun nofun)

theorem asked_ReadDir (path : String) (f : Nat) : Asked .ReadDir [.string path] f :=
  .one (.uvScandir (.string path)) (fun h => absurd rfl h) rfl fun _ => rfl

theorem asked_MkDir (path : String) (f : Nat) : Asked .MkDir [.string path] f :=
  .both (.uvMkdir (.string path) (.number 511)) (.given f) rfl nofun
    (positionGiven_of_ne _ nofun nofun) rfl rfl (.given nofun nofun)

theorem asked_MkDirMode (path : String) {mode : Value} (hmode : IsMode mode) (f : Nat) :
    Asked .MkDir [.string path, mode] f := by
  have hposition : PositionGiven .MkDir [.string path, mode] :=
    positionGiven_of_ne _ nofun nofun
  cases mode with
  | number n =>
      exact .both (.uvMkdir (.string path) (.number n)) (.given f) rfl nofun hposition rfl rfl
        (.given nofun nofun)
  | string s =>
      exact .both (.uvMkdir (.string path) (.parsed s)) (.given f) rfl nofun hposition rfl rfl
        (.given nofun nofun)
  | undefined =>
      exact .both (.uvMkdir (.string path) (.number 511)) (.given f) rfl nofun hposition rfl rfl
        (.given nofun nofun)
  | _ => exact absurd hmode not_false

theorem isNumber_convertMode (mode : Value) (default : Int) :
    (convertMode mode default).isNumber = true := by
  unfold convertMode
  by_cases hnumber : mode.isNumber = true
  · rw [if_pos hnumber]
    exact hnumber
  · rw [if_neg hnumber]
    cases mode <;> rfl

/-- `Open` takes any mode that is a number, with a callback and what comes after it or without. -/
theorem Open_eq (path : String) (flags : List Fs.OpenFlag) {mode : Value}
    (hmode : mode.isNumber = true) :
    FsOps.Open [.string path, .flags flags, mode] =
        .ok ⟨.uvOpen (.string path) (.flags flags) mode, none⟩ ∧
      ∀ callback after, FsOps.Open [.string path, .flags flags, mode, .function callback, after] =
        .ok ⟨.uvOpen (.string path) (.flags flags) mode, some callback⟩ := by
  cases mode <;> first
    | exact Bool.noConfusion hmode
    | exact ⟨rfl, fun _ _ => rfl⟩

/-- `open` with or without a mode: its callback is not taken for one. -/
theorem asked_open {path flags : String} {args : List Value} {f : Nat}
    (hpath : arg args 0 = .string path) (hflags : arg args 1 = .string flags)
    (hpath' : arg (args ++ [.function (.given f)]) 0 = .string path)
    (hflags' : arg (args ++ [.function (.given f)]) 1 = .string flags)
    (hmode : convertMode (arg (args ++ [.function (.given f)]) 2) 438 =
      convertMode (arg args 2) 438) : Asked .Open args f := by
  have hlast : arg (args ++ [.function (.given f)])
      ((args ++ [Value.function (.given f)]).length - 1) = .function (.given f) := by
    simp [arg]
  have hsync : Op.syncCall .Open args =
      convertFlagsArg (.string flags) >>= fun converted =>
        FsOps.Open [.string path, converted, convertMode (arg args 2) 438] := by
    simp only [Op.syncCall, Op.syncArgs, Op.native, openSyncArgs, hpath, hflags]
    show (convertFlagsArg (.string flags) >>= _) >>= _ = _
    cases convertFlagsArg (.string flags) <;> rfl
  have hasync : Op.asyncCall .Open (args ++ [.function (.given f)]) =
      convertFlagsArg (.string flags) >>= fun converted =>
        FsOps.Open [.string path, converted, convertMode (arg args 2) 438, .function (.given f),
          .string "callback"] := by
    simp only [Op.asyncCall, Op.asyncArgs, Op.native, openArgs, hpath', hflags', hmode, hlast]
    show (convertFlagsArg (.string flags) >>= _) >>= _ = _
    cases convertFlagsArg (.string flags) <;> rfl
  have hconvert : convertFlagsArg (.string flags) = Value.flags <$> Fs.convertFlags flags := rfl
  cases hresult : Fs.convertFlags flags with
  | error e =>
      rw [hconvert, hresult] at hsync hasync
      exact .rejected e hsync fun uv => by rw [hasync]; rfl
  | ok converted =>
      rw [hconvert, hresult] at hsync hasync
      obtain ⟨hnone, hsome⟩ := Open_eq path converted (isNumber_convertMode (arg args 2) 438)
      exact .both _ (.given f) rfl nofun (positionGiven_of_ne _ nofun nofun) (hsync.trans hnone)
        (hasync.trans (hsome _ _)) (.given nofun nofun)

/-- A read or write at a position that is a number. -/
theorem asked_range {op : Op} {args : List Value} {f : Nat} {function : String}
    {r : List Value → Request} {fd offset length position : Int} {b : Buffer}
    {callback : Callback} (hnative : op.native = rangeHandler function r)
    (hop : ∀ args, (r args).op = op) (hreadDir : op ≠ .ReadDir)
    (hrequest : ∀ args args' : List Value, args.take 5 = args'.take 5 →
      r args = r args')
    (hreaches : Reaches f op callback) (hposition : PositionGiven op args)
    (hsync : op.syncArgs args =
      .ok [.number fd, .buffer b, .number offset, .number length, .number position])
    (hasync : op.asyncArgs (args ++ [.function (.given f)]) =
      .ok [.number fd, .buffer b, .number offset, .number length, .number position,
        .function callback]) : Asked op args f := by
  let native := [Value.number fd, .buffer b, .number offset, .number length, .number position]
  have hsync' : op.syncCall args = rangeHandler function r native := by
    rw [Op.syncCall, hsync, hnative, ok_bind]
  have hasync' : op.asyncCall (args ++ [.function (.given f)]) =
      rangeHandler function r (native ++ [.function callback]) := by
    rw [Op.asyncCall, hasync, hnative, ok_bind]
    rfl
  rw [rangeHandler_eq rfl] at hsync' hasync'
  -- both check the same range
  have hrange : rangeError function (arg (native ++ [.function callback]) 2).asInt
      (arg (native ++ [.function callback]) 3).asInt
      (arg (native ++ [.function callback]) 1).dataLength =
      rangeError function (arg native 2).asInt (arg native 3).asInt (arg native 1).dataLength := rfl
  rw [hrange] at hasync'
  generalize rangeError function (arg native 2).asInt (arg native 3).asInt
    (arg native 1).dataLength = error at hsync' hasync'
  cases error with
  | some e => exact .rejected e hsync' fun uv => by rw [hasync']; rfl
  | none =>
      refine .both (r native) callback (hop native) hreadDir hposition hsync' ?_ hreaches
      rw [hasync', hrequest (native ++ [Value.function callback]) native rfl]
      rfl

/-- A read, or a write, where the position is `null`, `undefined` or left out in a place that the
form with a callback does not expect. -/
theorem asked_noPosition {op : Op} {args : List Value} {f : Nat} {function : String}
    {r : List Value → Request} {l : List Value} {e : FsError}
    (hnative : op.native = rangeHandler function r) (hno : ¬ PositionGiven op args)
    (hargs : checkArgs function [Value.isNumber, Value.isObject, Value.isNumber, Value.isNumber,
      Value.isNumber] 5 l = .ok ())
    (hcallback : callbackArg l 5 = none) (hsync : op.syncArgs args = .ok l)
    (hasync : op.asyncArgs (args ++ [.function (.given f)]) = .error e) : Asked op args f := by
  have hnone : ∀ uv, Delivered uv (op.asyncCall (args ++ [.function (.given f)])) = [] := by
    intro uv
    rw [Op.asyncCall, hasync]
    rfl
  have hsync' : op.syncCall args = rangeHandler function r l := by
    rw [Op.syncCall, hsync, hnative, ok_bind]
  rw [rangeHandler_eq hargs, hcallback] at hsync'
  generalize rangeError function (arg l 2).asInt (arg l 3).asInt
    (arg l 1).dataLength = error at hsync'
  cases error with
  | some e => exact .rejected e hsync' hnone
  | none => exact .one (r l) (fun _ => hno) hsync' hnone

def readRequest (args : List Value) : Request :=
  .uvRead (arg args 0) (arg args 1) (arg args 2) (arg args 3) (arg args 4)

def writeRequest (args : List Value) : Request :=
  .uvWrite (arg args 0) (arg args 1) (arg args 2) (arg args 3) (arg args 4)

theorem arg_take {args args' : List Value} {i n : Nat} (hi : i < n)
    (hsame : args.take n = args'.take n) : arg args i = arg args' i := by
  have hget := congrArg (fun list : List Value => list[i]?) hsame
  simp only [List.getElem?_take, if_pos hi] at hget
  simp only [arg, List.getD_eq_getElem?_getD, hget]

theorem readRequest_take (args args' : List Value) (hsame : args.take 5 = args'.take 5) :
    readRequest args = readRequest args' := by
  have hargs : ∀ i < 5, arg args i = arg args' i := fun i hi => arg_take hi hsame
  rw [readRequest, hargs 0 (by omega), hargs 1 (by omega), hargs 2 (by omega), hargs 3 (by omega),
    hargs 4 (by omega)]
  rfl

theorem writeRequest_take (args args' : List Value) (hsame : args.take 5 = args'.take 5) :
    writeRequest args = writeRequest args' := by
  have hargs : ∀ i < 5, arg args i = arg args' i := fun i hi => arg_take hi hsame
  rw [writeRequest, hargs 0 (by omega), hargs 1 (by omega), hargs 2 (by omega),
    hargs 3 (by omega), hargs 4 (by omega)]
  rfl

theorem asked_Read (fd : Int) (b : Buffer) (offset length : Int) (f : Nat) :
    Asked .Read [.number fd, .buffer b, .number offset, .number length] f :=
  asked_noPosition (r := readRequest)
    (l := [.number fd, .buffer b, .number offset, .number length, .number (-1)]) rfl
    (fun h => Bool.noConfusion (h.1 rfl)) rfl rfl rfl rfl

theorem asked_ReadAt (fd : Int) (b : Buffer) (offset length : Int) {position : Value}
    (hposition : IsPosition position) (f : Nat) :
    Asked .Read [.number fd, .buffer b, .number offset, .number length, position] f := by
  cases position with
  | number n =>
      exact asked_range (r := readRequest) rfl (fun _ => rfl) nofun readRequest_take (.read b)
        ⟨fun _ => rfl, nofun⟩ rfl rfl
  | null | undefined =>
      exact asked_noPosition (r := readRequest)
        (l := [.number fd, .buffer b, .number offset, .number length, .number (-1)]) rfl
        (fun h => Bool.noConfusion (h.1 rfl)) rfl rfl rfl rfl
  | _ => exact absurd hposition not_false

theorem asked_Write (fd : Int) (b : Buffer) (offset length : Int) (f : Nat) :
    Asked .Write [.number fd, .buffer b, .number offset, .number length] f :=
  asked_range (r := writeRequest) rfl (fun _ => rfl) nofun writeRequest_take (.write b)
    ⟨nofun, fun _ => .inl rfl⟩ rfl rfl

theorem asked_WriteAt (fd : Int) (b : Buffer) (offset length : Int) {position : Value}
    (hposition : IsPosition position) (f : Nat) :
    Asked .Write [.number fd, .buffer b, .number offset, .number length, position] f := by
  cases position with
  | number n =>
      exact asked_range (r := writeRequest) rfl (fun _ => rfl) nofun writeRequest_take (.write b)
        ⟨nofun, fun _ => .inr rfl⟩ rfl rfl
  | null | undefined =>
      refine asked_noPosition (r := writeRequest)
        (l := [.number fd, .buffer b, .number offset, .number length, .number (-1)]) rfl
        (fun h => ?_) rfl rfl rfl rfl
      rcases h.2 rfl with hlength | hnumber
      · exact absurd hlength (Nat.succ_ne_self 4)
      · exact Bool.noConfusion hnumber
  | _ => exact absurd hposition not_false

/-- What the two forms ask of libuv for arguments of the right types. -/
theorem asked_of_wellTyped {op : Op} {args : List Value} (h : WellTyped op args) (f : Nat) :
    Asked op args f := by
  cases h with
  | Open path flags => exact asked_open rfl rfl rfl rfl rfl
  | OpenMode path flags hmode => exact asked_open rfl rfl rfl rfl rfl
  | Close fd => exact asked_Close fd f
  | Read fd b offset length => exact asked_Read fd b offset length f
  | ReadAt fd b offset length hposition => exact asked_ReadAt fd b offset length hposition f
  | Write fd b offset length => exact asked_Write fd b offset length f
  | WriteAt fd b offset length hposition => exact asked_WriteAt fd b offset length hposition f
  | Stat path =>
      exact .both (.uvStat (.string path)) (.given f) rfl nofun (positionGiven_of_ne _ nofun nofun)
        rfl rfl (.given nofun nofun)
  | MkDir path => exact asked_MkDir path f
  | MkDirMode path hmode => exact asked_MkDirMode path hmode f
  | RmDir path =>
      exact .both (.uvRmdir (.string path)) (.given f) rfl nofun (positionGiven_of_ne _ nofun nofun)
        rfl rfl (.given nofun nofun)
  | Unlink path =>
      exact .both (.uvUnlink (.string path)) (.given f) rfl nofun
        (positionGiven_of_ne _ nofun nofun) rfl rfl (.given nofun nofun)
  | Rename oldPath newPath => exact asked_Rename oldPath newPath f
  | ReadDir path => exact asked_ReadDir path f

/-! ### What comes back -/

/-- The function `f` is called once: with an error where the `Sync` form throws, and with `null`
and its value where it returns. -/
def Agree (same : FsError → FsError → Prop) (calls : List (Nat × List Value)) (f : Nat)
    (result : Except FsError Value) : Prop :=
  ∃ args, calls = [(f, args)] ∧ match result with
    | .error e => ∃ e', arg args 0 = .error e' ∧ same e' e
    | .ok value => arg args 0 = .null ∧ arg args 1 = value

/-- The errors have the same code. Their texts can name different calls. -/
def SameCode : FsError → FsError → Prop
  | .uv err _, .uv err' _ => err = err'
  | e, e' => e = e'

/-- A call that has a value, or none at all. -/
def Op.hasResult : Op → Bool
  | Open | Close | Read | Write | Stat | ReadDir => true
  | MkDir | RmDir | Unlink | Rename => false

/-- The two forms of an operation agree: `readdir` is left out, a position is a number, the checks
let the call be made, and it fails or has a value to give. -/
def Agrees (uv : Uv) (op : Op) (args : List Value) : Prop :=
  op ≠ .ReadDir ∧ PositionGiven op args ∧ ∃ request, op.syncCall args = .ok ⟨request, none⟩ ∧
    ((uv.reply request).result < 0 ∨ op.hasResult = true)

/-- What the `Sync` form returns or throws. -/
theorem result_sync_ok {op : Op} {uv : Uv} {args : List Value} {request : Request}
    (hsync : op.syncCall args = .ok ⟨request, none⟩) (hop : request.op = op) :
    (op.sync uv args).result = afterSync request (uv.reply request) := by
  have hrun : Returned uv (op.syncCall args) = afterSync request (uv.reply request) := by
    rw [hsync]
    rfl
  have hresult := fun native args => result_run uv native args
  have hvoid : op = .Close ∨ op = .Rename → (fun _ => Value.undefined) <$>
      afterSync request (uv.reply request) = afterSync request (uv.reply request) := by
    intro hcases
    unfold afterSync
    split
    · rfl
    · rcases hcases with rfl | rfl <;> cases request <;> first
        | rfl
        | exact absurd hop nofun
  cases op with
  | Close =>
      show _ <$> (run uv FsOps.Close (closeSyncArgs args)).result = _
      rw [hresult]
      exact (congrArg _ hrun).trans (hvoid (Or.inl rfl))
  | Rename =>
      show _ <$> (run uv FsOps.Rename (renameSyncArgs args)).result = _
      rw [hresult]
      exact (congrArg _ hrun).trans (hvoid (Or.inr rfl))
  | _ => exact (hresult _ _).trans hrun

/-- What the function of the application gets: the first two arguments are those of `afterAsync`. -/
theorem invoke_args (uv : Uv) {f : Nat} {callback : Callback} {request : Request}
    (hreaches : Reaches f request.op callback) :
    ∃ args, invoke callback (afterAsync request (uv.reply request)) = (f, args) ∧
      arg args 0 = arg (afterAsync request (uv.reply request)) 0 ∧
      (0 ≤ (uv.reply request).result →
        arg args 1 = arg (afterAsync request (uv.reply request)) 1) := by
  generalize hop : request.op = op at hreaches
  cases hreaches with
  | given hread hwrite => exact ⟨_, rfl, rfl, fun _ => rfl⟩
  | write b => exact ⟨_, rfl, rfl, fun _ => rfl⟩
  | read b =>
      refine ⟨_, rfl, rfl, fun hok => ?_⟩
      cases request with
      | uvRead fd buffer offset length position =>
          show (arg (afterAsync _ _) 1).orZero = _
          rw [afterAsync, if_neg (Int.not_lt.mpr hok)]
          rfl
      | _ => exact absurd hop nofun

theorem agree_error_iff {same : FsError → FsError → Prop} {f : Nat} {args : List Value}
    {e e' : FsError} (hfirst : arg args 0 = .error e') :
    Agree same [(f, args)] f (.error e) ↔ same e' e := by
  constructor
  · rintro ⟨args', hcalls, e'', herror, hsame⟩
    have hargs : args = args' := congrArg Prod.snd (List.head_eq_of_cons_eq hcalls)
    subst hargs
    have he : e' = e'' := Value.error.inj (hfirst.symm.trans herror)
    exact he ▸ hsame
  · intro hsame
    exact ⟨args, rfl, e', hfirst, hsame⟩

theorem agree_ok_iff {same : FsError → FsError → Prop} {f : Nat} {args : List Value}
    {value : Value} (hfirst : arg args 0 = .null) :
    Agree same [(f, args)] f (.ok value) ↔ arg args 1 = value := by
  constructor
  · rintro ⟨args', hcalls, -, hsecond⟩
    have hargs : args = args' := congrArg Prod.snd (List.head_eq_of_cons_eq hcalls)
    exact hargs ▸ hsecond
  · intro hsecond
    exact ⟨args, rfl, hfirst, hsecond⟩

/-- Nothing agrees with a callback that is not called. -/
theorem not_agree_nil {same : FsError → FsError → Prop} {f : Nat}
    {result : Except FsError Value} : ¬ Agree same [] f result := by
  rintro ⟨args, hcalls, -⟩
  exact List.cons_ne_nil _ _ hcalls.symm

/-- A call that both forms make: an error is handed to both, and where there is none they differ
in a value that is not there. -/
theorem agree_iff_of_both {same : FsError → FsError → Prop} {uv : Uv} {op : Op} {f : Nat}
    {request : Request} {callback : Callback} (hop : request.op = op) (hreadDir : op ≠ .ReadDir)
    (hreaches : Reaches f op callback) :
    Agree same [invoke callback (afterAsync request (uv.reply request))] f
        (afterSync request (uv.reply request)) ↔
      if (uv.reply request).result < 0 then
        same (.uv (uv.reply request).result "open") (.uv (uv.reply request).result request.syscall)
      else op.hasResult = true := by
  subst hop
  obtain ⟨args, hinvoke, hfirst, hsecond⟩ := invoke_args uv hreaches
  rw [hinvoke]
  by_cases hfail : (uv.reply request).result < 0
  · have hsync : afterSync request (uv.reply request) =
        .error (.uv (uv.reply request).result request.syscall) := by
      unfold afterSync
      exact if_pos hfail
    have hasync : afterAsync request (uv.reply request) =
        [.error (.uv (uv.reply request).result "open")] := by
      unfold afterAsync
      exact if_pos hfail
    rw [hsync, if_pos hfail]
    exact agree_error_iff (hfirst.trans (by rw [hasync]; rfl))
  · have hnull : arg (afterAsync request (uv.reply request)) 0 = .null := by
      unfold afterAsync
      rw [if_neg hfail]
      rfl
    have hvalue := hsecond (Int.not_lt.mp hfail)
    rw [if_neg hfail]
    unfold afterSync
    unfold afterAsync at hvalue
    rw [if_neg hfail] at hvalue ⊢
    cases request with
    | uvScandir path => exact absurd rfl hreadDir
    | uvMkdir | uvRmdir | uvUnlink | uvRename =>
        rw [agree_ok_iff (hfirst.trans hnull), hvalue]
        exact iff_of_false nofun nofun
    | _ =>
        rw [agree_ok_iff (hfirst.trans hnull), hvalue]
        exact iff_of_true rfl rfl

theorem sameCode_open (err : Int) (syscall : String) :
    SameCode (.uv err "open") (.uv err syscall) := rfl

/-- Which errors have the text of the call. -/
theorem open_eq_syscall_iff {request : Request} (err : Int) :
    FsError.uv err "open" = .uv err request.syscall ↔ request.op = .Open := by
  cases request <;> simp [Request.syscall, Request.op]

/-- A system where each call succeeds, and every directory has the entry `a`. -/
def oneEntry : Uv := ⟨fun _ => ⟨0, ⟨0, 0, 0, 0, 0, 0, 0, 0, 0, 0⟩, ["a"]⟩, fun _ => false⟩

/-- `readdir` reads the directory, and does not call its callback. -/
theorem readdir_silent :
    (readdirSync oneEntry [.string "/"]).result = .ok (.array ["a"]) ∧
    (readdir oneEntry [.string "/", .function (.given 0)]).calls = [] ∧
    ¬ Agree SameCode (Op.ReadDir.async oneEntry ([.string "/"] ++ [.function (.given 0)])).calls 0
      (Op.ReadDir.sync oneEntry [.string "/"]).result :=
  ⟨rfl, rfl, not_agree_nil⟩

/-- The two forms of an operation agree up to the text of the error exactly where `Agrees` says,
and have the same error only where it is an error of `open`. -/
theorem agree_iff (uv : Uv) (op : Op) (args : List Value) (f : Nat) (h : WellTyped op args) :
    (Agree SameCode (op.async uv (args ++ [.function (.given f)])).calls f
        (op.sync uv args).result ↔ Agrees uv op args) ∧
    (Agree Eq (op.async uv (args ++ [.function (.given f)])).calls f (op.sync uv args).result ↔
      Agrees uv op args ∧ (op = .Open ∨ ∀ request, op.syncCall args = .ok ⟨request, none⟩ →
        0 ≤ (uv.reply request).result)) := by
  rw [calls_async]
  cases asked_of_wellTyped h f with
  | rejected e hsync hasync =>
      have hno : ¬ Agrees uv op args := by
        rintro ⟨-, -, request, hcall, -⟩
        exact nomatch hsync.symm.trans hcall
      rw [hasync]
      exact ⟨iff_of_false not_agree_nil hno, iff_of_false not_agree_nil fun h => hno h.1⟩
  | one request hno hsync hasync =>
      have hno : ¬ Agrees uv op args := fun h => hno h.1 h.2.1
      rw [hasync]
      exact ⟨iff_of_false not_agree_nil hno, iff_of_false not_agree_nil fun h => hno h.1⟩
  | both request callback hop hreadDir hposition hsync hasync hreaches =>
      have hsame : ∀ request', op.syncCall args = .ok ⟨request', none⟩ → request' = request := by
        intro request' hcall
        exact congrArg Call.request (Except.ok.inj (hcall.symm.trans hsync))
      have hagrees : Agrees uv op args ↔
          (uv.reply request).result < 0 ∨ op.hasResult = true := by
        constructor
        · rintro ⟨-, -, request', hcall, hor⟩
          exact hsame request' hcall ▸ hor
        · intro hor
          exact ⟨hreadDir, hposition, request, hsync, hor⟩
      have hrest : (∀ request', op.syncCall args = .ok ⟨request', none⟩ →
          0 ≤ (uv.reply request').result) ↔ 0 ≤ (uv.reply request).result := by
        constructor
        · intro hall
          exact hall request hsync
        · intro hok request' hcall
          exact (hsame request' hcall).symm ▸ hok
      rw [hasync, result_sync_ok hsync hop, hagrees, hrest]
      show (Agree _ [invoke callback _] f _ ↔ _) ∧ (Agree _ [invoke callback _] f _ ↔ _)
      rw [agree_iff_of_both hop hreadDir hreaches, agree_iff_of_both hop hreadDir hreaches]
      by_cases hfail : (uv.reply request).result < 0
      · rw [if_pos hfail, if_pos hfail, open_eq_syscall_iff, hop]
        simp [hfail, Int.not_le.mpr hfail, sameCode_open]
      · simp [hfail, Int.not_lt.mp hfail]

/-- `stat` of a file that is there. -/
theorem agree_iff_stat :
    WellTyped .Stat [.string "/a"] ∧
    ((Agree SameCode (Op.Stat.async oneEntry ([.string "/a"] ++ [.function (.given 0)])).calls 0
        (Op.Stat.sync oneEntry [.string "/a"]).result ↔ Agrees oneEntry .Stat [.string "/a"]) ∧
      (Agree Eq (Op.Stat.async oneEntry ([.string "/a"] ++ [.function (.given 0)])).calls 0
        (Op.Stat.sync oneEntry [.string "/a"]).result ↔
        Agrees oneEntry .Stat [.string "/a"] ∧ (Op.Stat = .Open ∨ ∀ request,
          Op.Stat.syncCall [.string "/a"] = .ok ⟨request, none⟩ →
            0 ≤ (oneEntry.reply request).result))) ∧
    Agrees oneEntry .Stat [.string "/a"] :=
  ⟨.Stat "/a", agree_iff oneEntry .Stat [.string "/a"] 0 (.Stat "/a"), nofun, ⟨nofun, nofun⟩,
    .uvStat (.string "/a"), rfl, Or.inr rfl⟩

end IotJs.FsOps

/-!
# `IotJs.Core.Gpio`: general purpose input and output

The `GPIO` object of `src/js/gpio.js`, `iotjs_module_gpio.c`, and the workers for Linux. The object
has the flags `_initializing` and `_initialized`, and the native side has a flag of its own, which
is asserted when a request is queued and again by its worker.

`step` is a call of the application, a worker, or the completion of a request on the main thread
with its result handler. The workers run in any order, and so do the completions of those that are
done. The callback and the listeners come last in a result handler, and the calls that they make
are further steps. A failed assertion ends the process, so it has no step after that.
-/

set_option autoImplicit false

namespace IotJs

inductive GpioDirection where
  | kGpioDirectionNone
  | kGpioDirectionIn
  | kGpioDirectionOut
deriving DecidableEq, Repr

inductive GpioMode where
  | kGpioModeNone
  | kGpioModePullup
  | kGpioModePulldown
  | kGpioModeFloat
  | kGpioModePushpull
  | kGpioModeOpendrain
deriving DecidableEq, Repr

/-- The enumeration `GpioError` of the native side. -/
inductive GpioErrno where
  | kGpioErrOk
  | kGpioErrInitialize
  | kGpioErrNotInitialized
  | kGpioErrWrongUse
  | kGpioErrSys
deriving DecidableEq, Repr

inductive GpioOp where
  | kGpioOpInitize
  | kGpioOpRelease
  | kGpioOpOpen
  | kGpioOpWrite
  | kGpioOpRead
deriving DecidableEq, Repr

/-- The object that `GpioError` of `gpio.js` makes. -/
structure GpioError where
  code : GpioErrno
  operation : String
  message : String
deriving DecidableEq, Repr

inductive GpioException where
  | gpioError (error : GpioError)
  | typeError (message : String)
  | error (message : String)
deriving DecidableEq, Repr

/-- The calls of the application. A pin number that is no number and a direction that is no string
are `none`, and so is a mode that is absent or has the callback in its place. -/
inductive GpioCall where
  | initialize_
  | release
  | open_ (pinNumber : Option Int) (direction : Option String) (mode : Option String)
  | write (pinNumber : Option Int) (value : Bool)
  | read (pinNumber : Option Int)
deriving DecidableEq, Repr

/-- `iotjs_gpio_reqdata_t` -/
structure GpioRequest where
  op : GpioOp
  pin : UInt32 := 0
  value : Bool := false
  dir : GpioDirection := .kGpioDirectionNone
  mode : GpioMode := .kGpioModeNone
  result : GpioErrno := .kGpioErrOk
deriving DecidableEq, Repr

/-- What the files under `/sys/class/gpio` answer to a worker. -/
structure GpioFiles where
  /-- the directory is there -/
  path : Bool
  /-- for each pin that a release finds, whether it was unexported -/
  unexported : List Bool
  /-- `DeviceExport` -/
  exported : Bool
  /-- `DeviceOpenWriteClose` -/
  written : Bool
  /-- `DeviceOpenReadClose`, and the value of the pin -/
  value : Option Bool
deriving DecidableEq, Repr

inductive GpioAssertion where
  /-- `iotjs_gpio_initialized() == initialized` -/
  | initialized
  /-- `mode != kGpioModeNone && mode != kGpioModeOpendrain` -/
  | mode
deriving DecidableEq, Repr

/-- What a run shows. The callback and the event get the error of a request that is completed. -/
inductive GpioObs where
  | threw (exception : GpioException)
  | completed (op : GpioOp) (err : Option GpioError)
deriving DecidableEq, Repr

structure Gpio where
  _initializing : Bool
  _initialized : Bool
  /-- the flag of the native side -/
  initialized : Bool
  /-- requests whose worker has not run -/
  work : List GpioRequest
  /-- requests whose worker is done -/
  after : List GpioRequest
  aborted : Option GpioAssertion
  log : List GpioObs
deriving DecidableEq, Repr

inductive GpioMove where
  | call (call : GpioCall)
  | work (k : Nat) (files : GpioFiles)
  | after (k : Nat) (status : Int)
deriving DecidableEq, Repr

def createGpioError (operation : String) (errno : GpioErrno) : Option GpioError :=
  match errno with
  | .kGpioErrOk => none
  | .kGpioErrInitialize => some ⟨errno, operation, operation ++ ": Failed to initialize GPIO"⟩
  | .kGpioErrNotInitialized => some ⟨errno, operation, operation ++ ": GPIO not initialized"⟩
  | .kGpioErrWrongUse => some ⟨errno, operation, operation ++ ": Wrong use of GPIO API"⟩
  | .kGpioErrSys => some ⟨errno, operation, operation ++ ": System error"⟩

def convertDirection (direction : String) : Except GpioException GpioDirection :=
  if direction = "in" then .ok .kGpioDirectionIn
  else if direction = "out" then .ok .kGpioDirectionOut
  else if direction = "none" then .ok .kGpioDirectionNone
  else .error (.typeError "Bad arguments - direction")

def convertMode (mode : String) : Except GpioException GpioMode :=
  if mode = "pullup" then .ok .kGpioModePullup
  else if mode = "pulldn" ∨ mode = "pulldown" then .ok .kGpioModePulldown
  else if mode = "float" then .ok .kGpioModeFloat
  else if mode = "pushpull" then .ok .kGpioModePushpull
  else if mode = "opendrain" then .ok .kGpioModeOpendrain
  else if mode = "none" then .ok .kGpioModeNone
  else .error (.typeError "bad arguments - mode")

namespace GpioOp

/-- The operation in the errors of `gpio.js`. -/
def operation : GpioOp → String
  | kGpioOpInitize => "initialize"
  | kGpioOpRelease => "release"
  | kGpioOpOpen => "open"
  | kGpioOpWrite => "write"
  | kGpioOpRead => "read"

/-- The flag that `GPIO_ASYNC` and the worker assert. -/
def initialized : GpioOp → Bool
  | kGpioOpInitize => false
  | _ => true

end GpioOp

/-! ### The workers -/

namespace GpioRequest

variable (request : GpioRequest) (files : GpioFiles)

def finish (ok : Bool) (errno : GpioErrno) : Except GpioAssertion GpioRequest :=
  .ok { request with result := if ok then .kGpioErrOk else errno }

/-- `SetPinMode` -/
def setPinMode : Except GpioAssertion Bool :=
  if request.mode = .kGpioModeNone ∨ request.mode = .kGpioModeOpendrain then .error .mode
  else .ok true

def openGpioWorker : Except GpioAssertion GpioRequest :=
  if request.dir = .kGpioDirectionNone then request.finish files.written .kGpioErrSys
  else if !files.exported then request.finish false .kGpioErrSys
  -- the direction
  else if !files.written then request.finish false .kGpioErrSys
  else do
    let set ← request.setPinMode
    request.finish set .kGpioErrSys

def readGpioWorker : Except GpioAssertion GpioRequest :=
  match files.value with
  | some value => .ok { request with result := .kGpioErrOk, value := value }
  | none => request.finish false .kGpioErrSys

/-- The worker of the request, after its assertion. -/
def worker : Except GpioAssertion GpioRequest :=
  match request.op with
  | .kGpioOpInitize => request.finish files.path .kGpioErrInitialize
  | .kGpioOpRelease => request.finish (files.unexported.all id) .kGpioErrSys
  | .kGpioOpOpen => request.openGpioWorker files
  | .kGpioOpWrite => request.finish files.written .kGpioErrSys
  | .kGpioOpRead => request.readGpioWorker files

end GpioRequest

namespace Gpio

def new : Gpio where
  _initializing := false
  _initialized := false
  initialized := false
  work := []
  after := []
  aborted := none
  log := []

variable (s : Gpio)

def record (o : GpioObs) : Gpio := { s with log := s.log ++ [o] }

/-! ### The calls -/

/-- `GPIO_ASYNC`: queue the request, where its assertion holds. -/
def async (request : GpioRequest) : Gpio :=
  if s.initialized = request.op.initialized then { s with work := s.work ++ [request] }
  else { s with aborted := some .initialized }

/-- `throw CreateGpioError(operation, errno)` -/
def wrong (op : GpioOp) (errno : GpioErrno) : Except GpioException Gpio :=
  match createGpioError op.operation errno with
  | some error => .error (.gpioError error)
  | none => .ok s

/-- `GPIO.prototype.initialize`. When it is initialized, it only calls back. -/
def initialize_ : Except GpioException Gpio :=
  if s._initialized then .ok s
  else if s._initializing then s.wrong .kGpioOpInitize .kGpioErrWrongUse
  else .ok (async { s with _initializing := true } { op := .kGpioOpInitize })

/-- The pin number, as the other methods check it. -/
def checkPin (pinNumber : Int) : Except GpioException UInt32 :=
  if pinNumber < 0 then .error (.error "Invalid pinNumber") else .ok (UInt32.ofInt pinNumber)

/-- The request that a method other than `initialize` makes of its arguments. -/
def request : GpioCall → Except GpioException GpioRequest
  | .initialize_ => .ok { op := .kGpioOpInitize }
  | .release => .ok { op := .kGpioOpRelease }
  | .open_ none _ _ | .write none _ | .read none =>
      .error (.typeError "Bad arguments - pinNumber")
  | .open_ (some _) none _ => .error (.typeError "Bad arguments - direction")
  | .open_ (some pinNumber) (some direction) mode => do
      let pin ← checkPin pinNumber
      let dir ← convertDirection direction
      let mode ← convertMode (if mode.getD "" = "" then "none" else mode.getD "")
      return { op := .kGpioOpOpen, pin := pin, dir := dir, mode := mode }
  | .write (some pinNumber) value => do
      let pin ← checkPin pinNumber
      return { op := .kGpioOpWrite, pin := pin, value := value }
  | .read (some pinNumber) => do
      let pin ← checkPin pinNumber
      return { op := .kGpioOpRead, pin := pin }

/-- `release`, `open`, `write` and `read`: the flag is checked before the arguments. -/
def method (op : GpioOp) (call : GpioCall) : Except GpioException Gpio :=
  if !s._initialized then s.wrong op .kGpioErrNotInitialized
  else do
    let request ← request call
    return s.async request

def call : GpioCall → Except GpioException Gpio
  | .initialize_ => s.initialize_
  | .release => s.method .kGpioOpRelease .release
  | .open_ pinNumber direction mode => s.method .kGpioOpOpen (.open_ pinNumber direction mode)
  | .write pinNumber value => s.method .kGpioOpWrite (.write pinNumber value)
  | .read pinNumber => s.method .kGpioOpRead (.read pinNumber)

/-! ### The workers and the completions -/

/-- The worker of the request `k`. -/
def runWorker (k : Nat) (request : GpioRequest) (files : GpioFiles) : Gpio :=
  if s.initialized = request.op.initialized then
    match request.worker files with
    | .ok request => { s with work := s.work.eraseIdx k, after := s.after ++ [request] }
    | .error assertion => { s with aborted := some assertion }
  else { s with aborted := some .initialized }

/-- The result that `AfterGPIOWork` passes on. -/
def result (request : GpioRequest) (status : Int) : GpioErrno :=
  if status ≠ 0 then .kGpioErrSys else request.result

/-- `iotjs_gpio_set_initialized` in `AfterGPIOWork`. -/
def setInitialized (op : GpioOp) (errno : GpioErrno) : Gpio :=
  match op, errno with
  | .kGpioOpInitize, .kGpioErrOk => { s with initialized := true }
  | .kGpioOpRelease, .kGpioErrOk => { s with initialized := false }
  | _, _ => s

/-- The result handler: `afterInitialize`, `afterRelease`, `afterOpen`, `afterWrite` or
`afterRead`. -/
def handle (op : GpioOp) (errno : GpioErrno) : Gpio :=
  let err := createGpioError op.operation errno
  let s : Gpio :=
    match op with
    | .kGpioOpInitize => { s with _initialized := errno = .kGpioErrOk }
    | .kGpioOpRelease => if errno = .kGpioErrOk then { s with _initialized := false } else s
    | _ => s
  s.record (.completed op err)

/-- `AfterGPIOWork` -/
def afterGPIOWork (k : Nat) (request : GpioRequest) (status : Int) : Gpio :=
  let errno := result request status
  let s := setInitialized { s with after := s.after.eraseIdx k } request.op errno
  s.handle request.op errno

def step (s : Gpio) (move : GpioMove) : Option Gpio :=
  if s.aborted.isSome then none
  else
    match move with
    | .call call =>
        match s.call call with
        | .ok t => some t
        | .error exception => some (s.record (.threw exception))
    | .work k files => (s.work[k]?).map fun request => s.runWorker k request files
    | .after k status => (s.after[k]?).map fun request => s.afterGPIOWork k request status

end Gpio

end IotJs

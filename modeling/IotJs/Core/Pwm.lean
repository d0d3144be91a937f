import IotJs.Core.Fs
import IotJs.Lib.Decimal
import Mathlib.Logic.Function.Basic

/-!
# `IotJs.Core.Pwm`: pulse width modulation

`PWM` from `src/js/pwm.js`, `iotjs_module_pwm.c`, and the workers for Linux, which read and write
the files of a pin under `/sys/class/pwm/pwmchip0`. `setFrequency`, whose worker is an assertion
that always fails, is left out.

`step` is a call on an object, a worker, or the callback of a request, and workers and callbacks
come in any order. How each access to a file ends comes with the step of the worker. A text that is
empty, when it is written to such a file, has no effect and is no error.

A request is allocated with zeros, and libuv gives a worker that has run the status 0.
-/

set_option autoImplicit false

namespace IotJs

open Decimal
open Fs (toInt)

inductive PwmErrno where
  | kPwmErrOk
  | kPwmErrExport
  | kPwmErrUnexport
  | kPwmErrEnable
  | kPwmErrWrite
  | kPwmErrSys
deriving DecidableEq, Repr

structure PwmError where
  code : PwmErrno
  operation : String
  message : String
deriving DecidableEq, Repr

inductive PwmException where
  | typeError (message : String)
  | error (message : String)
deriving DecidableEq, Repr

/-- The second argument of the constructor: left out, or the callback in its place, or an object.
An option that is no number is `none`. -/
inductive PwmArgument where
  | absent
  | callback
  | object (dutyCycle period frequency : Option Int)
deriving DecidableEq, Repr

/-- The calls. An argument that has not the type that it should is `none`. -/
inductive PwmCall where
  | construct (pin : Option Int) (options : PwmArgument)
  | setPeriod (i : Nat) (period : Option Int)
  | setDutyCycle (i : Nat) (dutyCycle : Option Int)
  | setEnable (i : Nat) (enable : Option Bool)
  | unexport (i : Nat)
deriving DecidableEq, Repr

/-- `_options` -/
structure PwmOptions where
  dutyCycle : Option Int
  period : Option Int
deriving DecidableEq, Repr

structure PWM where
  _pin : Int
  _options : PwmOptions
deriving DecidableEq, Repr

/-- `iotjs_pwm_reqdata_t`, with the call in the place of `op`. -/
structure PwmRequest where
  call : PwmCall
  pin : Int
  duty_cycle : Int := 0
  period : Int := 0
  enable : Bool := false
deriving DecidableEq, Repr

/-- The files of a pin. -/
structure PwmPin where
  period : Int
  duty_cycle : Int
  enable : Int
deriving DecidableEq, Repr

inductive PwmFile where
  | period
  | duty_cycle
  | enable
deriving DecidableEq, Repr

/-- The pins that are exported. -/
abbrev PwmSysfs := Int → Option PwmPin

/-- How `DeviceOpenWriteClose` goes. -/
inductive PwmWrite where
  | openFails
  | writeFails
  | closeFails
  | written
deriving DecidableEq, Repr

/-- How the accesses of one worker go, where it makes them. -/
structure PwmAnswers where
  exported : PwmWrite
  /-- the files are there in time, and hold these values -/
  created : Bool
  fresh : PwmPin
  period : PwmWrite
  duty_cycle : PwmWrite
  enable : PwmWrite
  unexported : PwmWrite
deriving DecidableEq, Repr

/-- A request whose worker has run, with its pin before and after that. -/
structure PwmReport where
  request : PwmRequest
  result : PwmErrno
  before : Option PwmPin
  after : Option PwmPin
deriving DecidableEq, Repr

structure Pwm where
  objects : List PWM
  sysfs : PwmSysfs
  work : List PwmRequest
  after : List PwmReport
  /-- the requests whose callback was called, with the error that it got -/
  called : List (PwmReport × Option PwmError)
  thrown : List PwmException

inductive PwmMove where
  | call (call : PwmCall)
  | work (k : Nat) (answers : PwmAnswers)
  | callback (k : Nat)
deriving DecidableEq, Repr

def createPwmError (operation : String) (errno : PwmErrno) : Option PwmError :=
  match errno with
  | .kPwmErrOk => none
  | .kPwmErrExport => some ⟨errno, operation, operation ++ ": Failed to export PWM"⟩
  | .kPwmErrUnexport => some ⟨errno, operation, operation ++ ": Failed to unexport PWM"⟩
  | .kPwmErrEnable => some ⟨errno, operation, operation ++ ": Failed to enable PWM"⟩
  | .kPwmErrWrite => some ⟨errno, operation, operation ++ ": Failed to write value"⟩
  | .kPwmErrSys => some ⟨errno, operation, operation ++ ": System error"⟩

/-- The operation in the errors of `pwm.js`. -/
def PwmCall.operation : PwmCall → String
  | construct .. => "PWM()"
  | setPeriod .. => "setPeriod()"
  | setDutyCycle .. => "setDutyCycle()"
  | setEnable .. => "setEnable()"
  | unexport .. => "unexport()"

/-! ### The files -/

namespace PwmWrite

/-- What was written is in the file. -/
def lands : PwmWrite → Bool
  | openFails | writeFails => false
  | closeFails | written => true

/-- `DeviceOpenWriteClose` returns true. -/
def ok : PwmWrite → Bool
  | written => true
  | _ => false

end PwmWrite

def PwmPin.set (pin : PwmPin) (n : Int) : PwmFile → PwmPin
  | .period => { pin with period := n }
  | .duty_cycle => { pin with duty_cycle := n }
  | .enable => { pin with enable := n }

/-- The file takes the number of a text that is written to it. -/
def PwmPin.store (pin : PwmPin) (file : PwmFile) (text : List Char) : PwmPin :=
  match value text with
  | some n => pin.set n file
  | none => pin

section

variable (sysfs : PwmSysfs)

/-- `DeviceOpenWriteClose` for a file of a pin. -/
def deviceOpenWriteClose (pin : Int) (file : PwmFile) (text : List Char) (write : PwmWrite) :
    PwmSysfs × Bool :=
  match sysfs pin with
  | some files =>
      (if write.lands then Function.update sysfs pin (some (files.store file text)) else sysfs,
        write.ok)
  | none => (sysfs, false)

/-- `DeviceExport`, for a pin that is not exported. -/
def deviceExport (pin : Int) (answers : PwmAnswers) : PwmSysfs × Bool :=
  (if answers.exported.lands then Function.update sysfs pin (some answers.fresh) else sysfs,
    answers.exported.ok && answers.created)

def deviceUnexport (pin : Int) (write : PwmWrite) : PwmSysfs × Bool :=
  (if write.lands then Function.update sysfs pin none else sysfs, write.ok)

/-! ### The workers -/

def PWM_VALUE_BUFFER_SIZE : Nat := 32

variable (request : PwmRequest) (answers : PwmAnswers)

def setPwmPeriod : PwmSysfs × Bool :=
  deviceOpenWriteClose sysfs request.pin .period
    (snprintf (PWM_VALUE_BUFFER_SIZE - 1) request.period) answers.period

/-- `SetPwmDutyCycle`. The product is an `int`, and its hundredth is cut to one. -/
def setPwmDutyCycle : PwmSysfs × Bool :=
  let duty_cycle := (toInt (request.duty_cycle * request.period)).tdiv 100
  deviceOpenWriteClose sysfs request.pin .duty_cycle
    (snprintf (PWM_VALUE_BUFFER_SIZE - 1) duty_cycle) answers.duty_cycle

/-- The options of `ExportWorker`. -/
def exportOptions : PwmSysfs × PwmErrno :=
  let (sysfs, ok) :=
    if 0 ≤ request.period then setPwmPeriod sysfs request answers else (sysfs, true)
  if !ok then (sysfs, .kPwmErrWrite)
  else
    let (sysfs, ok) :=
      if 0 ≤ request.duty_cycle then setPwmDutyCycle sysfs request answers else (sysfs, true)
    if !ok then (sysfs, .kPwmErrWrite) else (sysfs, .kPwmErrOk)

def exportWorker : PwmSysfs × PwmErrno :=
  -- See if the PWM is already opened.
  let (sysfs, ok) :=
    if (sysfs request.pin).isSome then (sysfs, true) else deviceExport sysfs request.pin answers
  if !ok then (sysfs, .kPwmErrExport) else exportOptions sysfs request answers

def setPeriodWorker : PwmSysfs × PwmErrno :=
  let (sysfs, ok) := setPwmPeriod sysfs request answers
  (sysfs, if ok then .kPwmErrOk else .kPwmErrWrite)

def setDutyCycleWorker : PwmSysfs × PwmErrno :=
  let (sysfs, ok) := setPwmDutyCycle sysfs request answers
  (sysfs, if ok then .kPwmErrOk else .kPwmErrWrite)

/-- `SetEnableWorker`. The buffer is given as one of a single character. -/
def setEnableWorker : PwmSysfs × PwmErrno :=
  let text := snprintf 1 (if request.enable then 1 else 0)
  let (sysfs, ok) := deviceOpenWriteClose sysfs request.pin .enable text answers.enable
  (sysfs, if ok then .kPwmErrOk else .kPwmErrWrite)

/-- `UnexportWorker`. What `DeviceUnexport` returns is not looked at. -/
def unexportWorker : PwmSysfs × PwmErrno :=
  let sysfs :=
    if (sysfs request.pin).isSome then
      (deviceUnexport sysfs request.pin answers.unexported).1
    else sysfs
  (sysfs, .kPwmErrOk)

def runPwmWorker : PwmSysfs × PwmErrno :=
  match request.call with
  | .construct .. => exportWorker sysfs request answers
  | .setPeriod .. => setPeriodWorker sysfs request answers
  | .setDutyCycle .. => setDutyCycleWorker sysfs request answers
  | .setEnable .. => setEnableWorker sysfs request answers
  | .unexport .. => unexportWorker sysfs request answers

end

/-! ### The calls -/

/-- What the constructor makes of its options. -/
def PwmArgument.options : PwmArgument → PwmOptions
  | absent => ⟨none, none⟩
  | callback => ⟨some (-1), some (-1)⟩
  | object dutyCycle period frequency =>
      let options : PwmOptions := ⟨some (dutyCycle.getD (-1)), none⟩
      let options : PwmOptions :=
        match period with
        | some period => { options with period := some period }
        | none => { options with dutyCycle := some (-1) }
      match frequency with
      | some frequency => { options with period := some frequency }
      | none => { options with dutyCycle := some (-1) }

/-- `iotjs_pwm_set_pwmdata` -/
def PWM.setPwmdata (object : PWM) (call : PwmCall) : PwmRequest where
  call := call
  pin := toInt object._pin
  period := (object._options.period.map toInt).getD 0
  duty_cycle := (object._options.dutyCycle.map toInt).getD 0

namespace Pwm

/-- Before the first call. Pins may be exported already. -/
def new (sysfs : PwmSysfs) : Pwm where
  objects := []
  sysfs := sysfs
  work := []
  after := []
  called := []
  thrown := []

variable (s : Pwm)

def throw (exception : PwmException) : Pwm := { s with thrown := s.thrown ++ [exception] }

def queue (request : PwmRequest) : Pwm := { s with work := s.work ++ [request] }

/-- `PWM(pin, options, callback)` -/
def construct (pin : Option Int) (options : PwmArgument) : Pwm :=
  match pin with
  | none => s.throw (.typeError "Bad arguments - pin")
  | some number =>
      let object : PWM := ⟨number, options.options⟩
      queue { s with objects := s.objects ++ [object] } (object.setPwmdata (.construct pin options))

/-- The object gets new options, and they become a request. -/
def setOptions (i : Nat) (object : PWM) (options : PwmOptions) (call : PwmCall) : Pwm :=
  let object : PWM := { object with _options := options }
  queue { s with objects := s.objects.set i object } (object.setPwmdata call)

def setPeriod (i : Nat) (object : PWM) (period : Option Int) : Pwm :=
  match period with
  | none => s.throw (.typeError "Bad arguments - period")
  | some _ => s.setOptions i object { object._options with period := period } (.setPeriod i period)

def setDutyCycle (i : Nat) (object : PWM) (dutyCycle : Option Int) : Pwm :=
  match dutyCycle with
  | none => s.throw (.typeError "Bad arguments - dutyCycle")
  | some _ =>
      if object._options.period = none then
        s.throw (.error "setDutyCycle() - first set period, before calling this function")
      else
        s.setOptions i object { object._options with dutyCycle := dutyCycle }
          (.setDutyCycle i dutyCycle)

def setEnable (i : Nat) (object : PWM) (enable : Option Bool) : Pwm :=
  match enable with
  | none => s.throw (.typeError "Bad arguments - enable")
  | some on => s.queue { call := .setEnable i enable, pin := toInt object._pin, enable := on }

def unexport (i : Nat) (object : PWM) : Pwm :=
  s.queue { call := .unexport i, pin := toInt object._pin }

def call : PwmCall → Option Pwm
  | .construct pin options => some (s.construct pin options)
  | .setPeriod i period => (s.objects[i]?).map fun object => s.setPeriod i object period
  | .setDutyCycle i dutyCycle =>
      (s.objects[i]?).map fun object => s.setDutyCycle i object dutyCycle
  | .setEnable i enable => (s.objects[i]?).map fun object => s.setEnable i object enable
  | .unexport i => (s.objects[i]?).map fun object => s.unexport i object

/-! ### The workers and the callbacks -/

def runWorker (k : Nat) (request : PwmRequest) (answers : PwmAnswers) : Pwm :=
  let (sysfs, result) := runPwmWorker s.sysfs request answers
  { s with
    sysfs := sysfs
    work := s.work.eraseIdx k
    after := s.after ++ [⟨request, result, s.sysfs request.pin, sysfs request.pin⟩] }

/-- `AfterPwmWork` -/
def afterPwmWork (k : Nat) (report : PwmReport) : Pwm :=
  let errObj := createPwmError report.request.call.operation report.result
  { s with after := s.after.eraseIdx k, called := s.called ++ [(report, errObj)] }

def step (s : Pwm) : PwmMove → Option Pwm
  | .call call => s.call call
  | .work k answers => (s.work[k]?).map fun request => s.runWorker k request answers
  | .callback k => (s.after[k]?).map fun report => s.afterPwmWork k report

end Pwm

end IotJs

import IotJs.Core.Data
import IotJs.Lib.Runs
import Mathlib.Logic.Function.Basic

/-!
# `IotJs.Core.I2c`: I2C devices

`I2C` from `src/js/i2c.js`, `iotjs_module_i2c.c`, and the workers for Linux. Any number of
instances share one descriptor `fd` and one address `addr`. An address is selected with `ioctl` on
the main thread, and a transfer is done by a worker, some time later.

`step` is one step of the main thread or of a worker. The workers that wait run in any order, and
a scan, which selects one address after the other, lets the others run in between. What another
worker does is one system call. The callback of the application is called on the main thread and
makes calls of its own, which are further steps.

A descriptor of a device has the slave address that was selected on it last, and none at first.
`open` gives a descriptor that is not in use. Whether the driver takes an address comes with the
step.
-/

set_option autoImplicit false

namespace IotJs

/-- An instance: its address, and the device that it opened last. -/
structure I2C where
  address : Int
  device : String
deriving DecidableEq, Repr

/-- The methods that queue a transfer. -/
inductive I2cCall where
  | write (array : List Int)
  | writeByte (byte : Int)
  | writeBytes (cmd : Int) (array : List Int)
  | read (len : Int)
  | readByte
  | readBytes (cmd len : Int)
  | stream (cmd len delay : Int)
deriving DecidableEq, Repr

/-- The workers, with what they read of the request. -/
inductive I2cOp where
  | scan
  | open_ (device : String)
  | write (buf : Bytes)
  | writeByte (byte : UInt8)
  | writeBlock (cmd : UInt8) (buf : Bytes)
  | read (len : UInt8)
  | readByte
  | readBlock (cmd len : UInt8) (delay : Int)
deriving DecidableEq, Repr

inductive I2cError where
  | kI2cErrOk
  | kI2cErrOpen
  | kI2cErrRead
  | kI2cErrReadBlock
  | kI2cErrWrite
deriving DecidableEq, Repr

/-- What the system call of a worker returns, and the bytes that it gives. -/
structure I2cAnswer where
  result : Int
  bytes : Bytes
deriving DecidableEq, Repr

/-- A request. -/
structure I2cWork where
  op : I2cOp
  /-- the address and the device of the instance when it made the request -/
  address : Int
  device : String
  /-- the instance whose constructor made the request -/
  constructor : Option Nat
  /-- what a scan has found, one result for each address so far -/
  found : List Int
deriving DecidableEq, Repr

/-- An open descriptor: its device, and the slave address that is selected. -/
structure I2cFile where
  device : String
  slave : Option UInt8
deriving DecidableEq, Repr

/-- A transfer that was done, and what it was done on. -/
structure I2cTransfer where
  work : I2cWork
  file : Option I2cFile
deriving DecidableEq, Repr

structure I2cModule where
  instances : List I2C
  /-- the variables that all instances share -/
  fd : Int
  addr : UInt8
  files : Int → Option I2cFile
  /-- requests whose worker has not finished -/
  work : List I2cWork
  /-- requests whose callback has not been called -/
  after : List (I2cWork × I2cAnswer)
  performed : List I2cTransfer

/-- A step. `ok` says whether the driver takes the address, where one is selected. -/
inductive I2cMove where
  /-- `new I2C(address, {device: device})` -/
  | construct (address : Int) (device : String)
  | open_ (i : Nat) (device : String)
  | setAddress (i : Nat) (address : Int) (ok : Bool)
  | transfer (i : Nat) (call : I2cCall) (ok : Bool)
  | scan (i : Nat)
  | close
  /-- the worker of a request makes a system call -/
  | work (k : Nat) (answer : I2cAnswer) (ok : Bool)
  /-- the callback of a request is called -/
  | callback (k : Nat) (ok : Bool)
deriving DecidableEq, Repr

/-! ### The requests -/

/-- `I2C_MAX_ADDRESS` -/
def I2C_MAX_ADDRESS : Nat := 128

/-- A number that becomes a `uint8_t`. -/
def toUint8 (n : Int) : UInt8 := UInt8.ofInt n

/-- `GetI2cArray`: the length is a `uint8_t`. -/
def getI2cArray (array : List Int) : Bytes :=
  (array.take (toUint8 array.length).toNat).map toUint8

namespace I2cCall

def op : I2cCall → I2cOp
  | write array => .write (getI2cArray array)
  | writeByte byte => .writeByte (toUint8 byte)
  | writeBytes cmd array => .writeBlock (toUint8 cmd) (getI2cArray array)
  | read len => .read (toUint8 len)
  | readByte => .readByte
  | readBytes cmd len => .readBlock (toUint8 cmd) (toUint8 len) 0
  | stream cmd len delay => .readBlock (toUint8 cmd) (toUint8 len) delay

/-- `this.setAddress(this.address)` comes first, except in `readBytes`. -/
def selects : I2cCall → Bool
  | readBytes .. => false
  | _ => true

end I2cCall

/-- `req_data->error`, which is `kI2cErrOk` in a new request. -/
def I2cOp.error (answer : I2cAnswer) : I2cOp → I2cError
  | scan => .kI2cErrOk
  | open_ _ => if answer.result = -1 then .kI2cErrOpen else .kI2cErrOk
  | write buf => if answer.result ≠ buf.length then .kI2cErrWrite else .kI2cErrOk
  | writeByte _ | writeBlock _ _ =>
      if answer.result = -1 then .kI2cErrWrite else .kI2cErrOk
  | read len => if answer.result ≠ len.toNat then .kI2cErrRead else .kI2cErrOk
  | readByte => if answer.result < 0 then .kI2cErrRead else .kI2cErrOk
  | readBlock _ len _ =>
      -- a block begins with its length
      let result : Int := if 0 ≤ answer.result then (answer.bytes.headD 0).toNat else answer.result
      if result ≠ len.toNat then .kI2cErrReadBlock else .kI2cErrOk

namespace I2cModule

def new : I2cModule where
  instances := []
  fd := 0
  addr := 0
  files := fun _ => none
  work := []
  after := []
  performed := []

variable (s : I2cModule)

/-! ### The main thread -/

/-- `ioctl(fd, I2C_SLAVE_FORCE, address)` -/
def slaveForce (address : UInt8) (ok : Bool) : I2cModule :=
  if ok then
    let file := (s.files s.fd).map fun file => { file with slave := some address }
    { s with files := Function.update s.files s.fd file }
  else s

/-- `I2cSetAddress` -/
def i2cSetAddress (address : UInt8) (ok : Bool) : I2cModule :=
  slaveForce { s with addr := address } address ok

/-- `setAddress` of the instance `i`. -/
def setAddress (i : Nat) (address : Int) (ok : Bool) : I2cModule :=
  let s := s.i2cSetAddress (toUint8 address) ok
  { s with instances := s.instances.modify i fun inst => { inst with address := address } }

/-- `uv_queue_work` -/
def queue (work : I2cWork) : I2cModule := { s with work := s.work ++ [work] }

def construct (address : Int) (device : String) : I2cModule :=
  queue { s with instances := s.instances ++ [⟨address, device⟩] }
    ⟨.open_ device, address, device, some s.instances.length, []⟩

/-- `open` of the instance `i`. -/
def openDevice (i : Nat) (inst : I2C) (device : String) : I2cModule :=
  queue { s with instances := s.instances.set i { inst with device := device } }
    ⟨.open_ device, inst.address, device, none, []⟩

/-- A method of the instance that queues a transfer. -/
def transfer (inst : I2C) (call : I2cCall) (ok : Bool) : I2cModule :=
  let s := if call.selects then s.i2cSetAddress (toUint8 inst.address) ok else s
  s.queue ⟨call.op, inst.address, inst.device, none, []⟩

def scan (inst : I2C) : I2cModule := s.queue ⟨.scan, inst.address, inst.device, none, []⟩

/-- `I2cClose` -/
def close : I2cModule :=
  if 0 < s.fd then { s with files := Function.update s.files s.fd none } else s

/-! ### The workers -/

/-- The worker of the request `k` is done. -/
def finish (k : Nat) (work : I2cWork) (answer : I2cAnswer) : I2cModule :=
  { s with work := s.work.eraseIdx k, after := s.after ++ [(work, answer)] }

def openWorker (k : Nat) (work : I2cWork) (device : String) (answer : I2cAnswer) :
    Option I2cModule :=
  if answer.result = -1 then some { s.finish k work answer with fd := -1 }
  else if 0 ≤ answer.result ∧ s.files answer.result = none then
    some { s.finish k work answer with
      fd := answer.result
      files := Function.update s.files answer.result (some ⟨device, none⟩) }
  else none

/-- One address of a scan, or its end, where the address of `addr` is selected again. -/
def scanWorker (k : Nat) (work : I2cWork) (answer : I2cAnswer) (ok : Bool) : I2cModule :=
  if work.found.length < I2C_MAX_ADDRESS then
    let s := s.slaveForce (UInt8.ofNat work.found.length) ok
    let result := if 0 ≤ answer.result then 1 else answer.result
    { s with work := s.work.set k { work with found := work.found ++ [result] } }
  else (s.slaveForce s.addr ok).finish k work answer

/-- The other workers. -/
def transferWorker (k : Nat) (work : I2cWork) (answer : I2cAnswer) : I2cModule :=
  { s.finish k work answer with performed := s.performed ++ [⟨work, s.files s.fd⟩] }

def runWorker (k : Nat) (work : I2cWork) (answer : I2cAnswer) (ok : Bool) : Option I2cModule :=
  match work.op with
  | .open_ device => s.openWorker k work device answer
  | .scan => some (s.scanWorker k work answer ok)
  | _ => some (s.transferWorker k work answer)

/-! ### The callbacks -/

/-- The callback of the `open` in the constructor selects the address of the instance, or throws.
The others are functions of the application. -/
def callback (work : I2cWork) (answer : I2cAnswer) (ok : Bool) : I2cModule :=
  match work.constructor.bind fun i => (s.instances[i]?).map fun inst => (i, inst) with
  | some (i, inst) =>
      if work.op.error answer = .kI2cErrOk then s.setAddress i inst.address ok else s
  | none => s

def step (s : I2cModule) : I2cMove → Option I2cModule
  | .construct address device => some (s.construct address device)
  | .open_ i device => (s.instances[i]?).map fun inst => s.openDevice i inst device
  | .setAddress i address ok => (s.instances[i]?).map fun _ => s.setAddress i address ok
  | .transfer i call ok => (s.instances[i]?).map fun inst => s.transfer inst call ok
  | .scan i => (s.instances[i]?).map fun inst => s.scan inst
  | .close => some s.close
  | .work k answer ok => (s.work[k]?).bind fun work => s.runWorker k work answer ok
  | .callback k ok =>
      (s.after[k]?).map fun (work, answer) =>
        callback { s with after := s.after.eraseIdx k } work answer ok

end I2cModule

end IotJs

import IotJs.Core.BufferHeap
import IotJs.Core.I2c

/-!
# `IotJs.Core.I2cData`: the data of an I2C transfer

The request of a transfer, its worker, and what `AfterI2CWork` gives to the callback, from
`iotjs_module_i2c.c`, `iotjs_module_i2c-linux-general.inl.h` and `iotjs_binding.c`. A worker makes
one system call, and it does the rest with the answer. When these things happen is in
`IotJs.Core.I2c`.

A request comes from `calloc`, and so does the block that `read` fills.
-/

set_option autoImplicit false

namespace IotJs

/-! ### The requests -/

/-- `I2cOp`, for the operations that have a worker. -/
inductive I2cOpCode where
  | kI2cOpScan
  | kI2cOpOpen
  | kI2cOpWrite
  | kI2cOpWriteByte
  | kI2cOpWriteBlock
  | kI2cOpRead
  | kI2cOpReadByte
  | kI2cOpReadBlock
deriving DecidableEq, Repr

/-- `iotjs_i2c_reqdata_t` -/
structure I2cReqdata where
  bufData : Bytes := []
  bufLen : UInt8 := 0
  byte : UInt8 := 0
  cmd : UInt8 := 0
  op : I2cOpCode
  error : I2cError := .kI2cErrOk
deriving DecidableEq, Repr

/-- What the handler of the call puts into its request. -/
def I2cCall.reqdata : I2cCall → I2cReqdata
  | write array =>
      { op := .kI2cOpWrite, bufLen := toUint8 array.length, bufData := getI2cArray array }
  | writeByte byte => { op := .kI2cOpWriteByte, byte := toUint8 byte }
  | writeBytes cmd array =>
      { op := .kI2cOpWriteBlock, cmd := toUint8 cmd, bufLen := toUint8 array.length,
        bufData := getI2cArray array }
  | read len => { op := .kI2cOpRead, bufLen := toUint8 len }
  | readByte => { op := .kI2cOpReadByte }
  | readBytes cmd len | stream cmd len _ =>
      { op := .kI2cOpReadBlock, cmd := toUint8 cmd, bufLen := toUint8 len }

/-! ### The system calls -/

/-- `I2C_SMBUS_BLOCK_MAX` -/
def I2C_SMBUS_BLOCK_MAX : UInt8 := 32

inductive I2cSmbusDirection where
  | I2C_SMBUS_READ
  | I2C_SMBUS_WRITE
deriving DecidableEq, Repr

inductive I2cSmbusSize where
  | I2C_SMBUS_BYTE
  | I2C_SMBUS_BLOCK_DATA
  | I2C_SMBUS_I2C_BLOCK_DATA
deriving DecidableEq, Repr

/-- `I2cSmbusIoctlData` -/
structure I2cSmbusIoctlData where
  readWrite : I2cSmbusDirection
  command : UInt8
  size : I2cSmbusSize
  /-- `data->block`, as far as the caller has filled it -/
  block : Bytes
deriving DecidableEq, Repr

/-- A system call on the descriptor. -/
inductive I2cSyscall where
  /-- `write(fd, data, len)` -/
  | write (data : Bytes)
  /-- `read(fd, data, len)` -/
  | read (len : UInt8)
  /-- `ioctl(fd, I2C_SMBUS, &args)` -/
  | smbus (args : I2cSmbusIoctlData)
deriving DecidableEq, Repr

/-- `I2C_NOCMD` -/
def I2C_NOCMD : UInt8 := 0

def i2cSmbusWriteByte (byte : UInt8) : I2cSyscall :=
  .smbus ⟨.I2C_SMBUS_WRITE, byte, .I2C_SMBUS_BYTE, []⟩

def i2cSmbusWriteI2cBlockData (command : UInt8) (values : Bytes) (length : UInt8) : I2cSyscall :=
  let length := if length > I2C_SMBUS_BLOCK_MAX then I2C_SMBUS_BLOCK_MAX else length
  .smbus ⟨.I2C_SMBUS_WRITE, command, .I2C_SMBUS_BLOCK_DATA, length :: values.take length.toNat⟩

/-- The call of `I2cSmbusReadByte`. -/
def i2cSmbusReadByte : I2cSyscall := .smbus ⟨.I2C_SMBUS_READ, I2C_NOCMD, .I2C_SMBUS_BYTE, []⟩

/-- What `I2cSmbusReadByte` returns. -/
def i2cSmbusReadByteResult (answer : I2cAnswer) : Int :=
  if 0 ≤ answer.result then (answer.bytes.headD 0).toNat else -1

/-- The call of `I2cSmbusReadI2cBlockData`. -/
def i2cSmbusReadI2cBlockData (command length : UInt8) : I2cSyscall :=
  let length := if length > I2C_SMBUS_BLOCK_MAX then I2C_SMBUS_BLOCK_MAX else length
  .smbus ⟨.I2C_SMBUS_READ, command, .I2C_SMBUS_I2C_BLOCK_DATA, [length]⟩

/-- What `I2cSmbusReadI2cBlockData` returns, and the values: the answer is the whole block. -/
def i2cSmbusReadI2cBlockDataResult (answer : I2cAnswer) : Int × Bytes :=
  if 0 ≤ answer.result then
    let length := (answer.bytes.headD 0).toNat
    (length, answer.bytes.tail.take length)
  else (answer.result, [])

/-! ### The workers -/

/-- A worker: its system call, and the request when it is done. -/
structure I2cWorker where
  call : I2cSyscall
  done : I2cAnswer → I2cReqdata

namespace I2cReqdata

variable (r : I2cReqdata)

def writeWorker : I2cWorker where
  call := .write (r.bufData.take r.bufLen.toNat)
  done answer :=
    { r with error := if answer.result ≠ r.bufLen.toNat then .kI2cErrWrite else r.error }

def writeByteWorker : I2cWorker where
  call := i2cSmbusWriteByte r.byte
  done answer := { r with error := if answer.result = -1 then .kI2cErrWrite else r.error }

def writeBlockWorker : I2cWorker where
  call := i2cSmbusWriteI2cBlockData r.cmd r.bufData r.bufLen
  done answer := { r with error := if answer.result = -1 then .kI2cErrWrite else r.error }

def readWorker : I2cWorker where
  call := .read r.bufLen
  done answer :=
    let len := r.bufLen.toNat
    { r with
      bufData := (answer.bytes ++ List.replicate len 0).take len
      error := if answer.result ≠ len then .kI2cErrRead else r.error }

def readByteWorker : I2cWorker where
  call := i2cSmbusReadByte
  done answer :=
    let result := i2cSmbusReadByteResult answer
    { r with
      byte := if result = -1 then r.byte else toUint8 result
      error := if result = -1 then .kI2cErrRead else r.error }

/-- What `memcpy` takes of `data` behind the values is not read again. -/
def readBlockWorker : I2cWorker where
  call := i2cSmbusReadI2cBlockData r.cmd r.bufLen
  done answer :=
    let (result, data) := i2cSmbusReadI2cBlockDataResult answer
    { r with
      bufData := data.take r.bufLen.toNat
      error := if result ≠ r.bufLen.toNat then .kI2cErrReadBlock else r.error }

end I2cReqdata

/-- The worker that the handler of the call queues. -/
def I2cCall.worker (call : I2cCall) : I2cWorker :=
  match call with
  | write _ => call.reqdata.writeWorker
  | writeByte _ => call.reqdata.writeByteWorker
  | writeBytes .. => call.reqdata.writeBlockWorker
  | read _ => call.reqdata.readWorker
  | readByte => call.reqdata.readByteWorker
  | readBytes .. | stream .. => call.reqdata.readBlockWorker

/-! ### The callbacks -/

/-- The second argument of a callback. -/
inductive I2cValue where
  | null
  | number (n : Nat)
  | array (numbers : List Int)
deriving DecidableEq, Repr

/-- The arguments of a callback: the message of an error, or `null`, and the rest. -/
structure I2cJargs where
  error : Option String
  rest : List I2cValue := []
deriving DecidableEq, Repr

/-- `iotjs_jval_create_byte_array` -/
def jvalCreateByteArray (charSigned : Bool) (len : UInt8) (data : Bytes) : List Int :=
  (data.take len.toNat).map (BufferHeap.charValue charSigned)

/-- `AfterI2CWork`, as far as the arguments. -/
def afterI2cWork (charSigned : Bool) (r : I2cReqdata) (status : Int) : I2cJargs :=
  if status ≠ 0 then { error := some "System error" }
  else
    match r.op with
    | .kI2cOpOpen =>
        if r.error = .kI2cErrOpen then { error := some "Failed to open I2C device" }
        else { error := none }
    | .kI2cOpScan =>
        { error := none, rest := [.array (jvalCreateByteArray charSigned r.bufLen r.bufData)] }
    | .kI2cOpWrite | .kI2cOpWriteByte | .kI2cOpWriteBlock =>
        if r.error = .kI2cErrWrite then { error := some "Cannot write to device" }
        else { error := none }
    | .kI2cOpRead | .kI2cOpReadBlock =>
        if r.error = .kI2cErrRead then
          { error := some "Cannot read from device", rest := [.null] }
        else if r.error = .kI2cErrReadBlock then
          { error := some "Error reading length of bytes", rest := [.null] }
        else
          { error := none, rest := [.array (jvalCreateByteArray charSigned r.bufLen r.bufData)] }
    | .kI2cOpReadByte =>
        if r.error = .kI2cErrRead then
          { error := some "Cannot read from device", rest := [.null] }
        else { error := none, rest := [.number r.byte.toNat] }

end IotJs

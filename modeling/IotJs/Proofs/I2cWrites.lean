import IotJs.Core.I2cData

/-!
# `IotJs.Proofs.I2cWrites`: what a written array leaves on the bus

The length of an array passes through a `uint8_t`, and the block of an SMBus access has no more than
32 bytes. Both make the array shorter before the system call, and the worker asks only whether the
call has done what it was told. `transmits_iff` says for which lengths a transfer without an error
is a transfer of the whole array.

`error_done` connects the workers with `I2cOp.error`, the error that `IotJs.Core.I2c` gives to a
request.
-/

set_option autoImplicit false

namespace IotJs

/-! ### Transfers -/

/-- What a system call that writes may return, and the bytes that it puts on the bus behind the
address of the slave. -/
inductive I2cSyscall.Sends : I2cSyscall → (result : Int) → (sent : Bytes) → Prop
  /-- `write` returns the number of bytes that it has written -/
  | write {data : Bytes} {n : Nat} (hn : n ≤ data.length) : Sends (.write data) n (data.take n)
  /-- a block goes behind the command and its length -/
  | block {command length : UInt8} {rest : Bytes} {result : Int} (hresult : 0 ≤ result) :
      Sends (.smbus ⟨.I2C_SMBUS_WRITE, command, .I2C_SMBUS_BLOCK_DATA, length :: rest⟩) result
        (command :: length :: rest.take length.toNat)
  /-- a call that fails may have put anything there before -/
  | failed (call : I2cSyscall) (sent : Bytes) : Sends call (-1) sent

/-- How a transfer may end: the arguments of its callback, and the bytes that were sent. -/
inductive I2cCall.Outcome (charSigned : Bool) (call : I2cCall) : I2cJargs → Bytes → Prop
  | done (answer : I2cAnswer) {sent : Bytes} (hsends : call.worker.call.Sends answer.result sent) :
      Outcome charSigned call (afterI2cWork charSigned (call.worker.done answer) 0) sent
  /-- the worker has not run -/
  | cancelled {status : Int} (hstatus : status ≠ 0) :
      Outcome charSigned call (afterI2cWork charSigned call.reqdata status) []

/-- However the transfer ends, the callback is given an error, or these bytes were sent. -/
def I2cCall.Transmits (charSigned : Bool) (call : I2cCall) (complete : Bytes → Prop) : Prop :=
  ∀ jargs sent, call.Outcome charSigned jargs sent → jargs.error = none → complete sent

/-- An array of byte values. -/
def byteNumbers (array : Bytes) : List Int := array.map fun b => (b.toNat : Int)

/-! ### Requests -/

theorem toUint8_natCast (n : Nat) : (toUint8 n).toNat = n % 256 := by
  rw [toUint8, UInt8.ofInt, UInt8.toNat_ofNat']
  omega

theorem toUint8_toNat (b : UInt8) : toUint8 b.toNat = b := by
  apply UInt8.toNat_inj.mp
  rw [toUint8_natCast, Nat.mod_eq_of_lt b.toNat_lt]

theorem map_toUint8_byteNumbers (array : Bytes) : (byteNumbers array).map toUint8 = array := by
  rw [byteNumbers, List.map_map]
  exact (List.map_congr_left fun b _ => toUint8_toNat b).trans (List.map_id array)

theorem length_getI2cArray (array : List Int) :
    (getI2cArray array).length = (toUint8 array.length).toNat := by
  rw [getI2cArray, List.length_map, List.length_take, toUint8_natCast]
  exact Nat.min_eq_left (Nat.mod_le _ _)

/-- The array of the request is the first part of the array, and its length is a `uint8_t`. -/
theorem getI2cArray_eq {numbers : List Int} {array : Bytes}
    (hnumbers : numbers.map toUint8 = array) :
    getI2cArray numbers = array.take (array.length % 256) := by
  rw [getI2cArray, List.map_take, hnumbers, toUint8_natCast, ← hnumbers, List.length_map]

/-- What the worker reports is the error of the request. -/
theorem error_done (call : I2cCall) (answer : I2cAnswer) :
    (call.worker.done answer).error = call.op.error answer := by
  cases call with
  | write array =>
      rw [I2cCall.op, I2cOp.error, length_getI2cArray]
      rfl
  | writeByte byte | writeBytes cmd array | read len => rfl
  | readByte =>
      -- a byte is never -1
      have hresult : i2cSmbusReadByteResult answer = -1 ↔ answer.result < 0 := by
        unfold i2cSmbusReadByteResult
        split <;> omega
      simp only [I2cCall.worker, I2cReqdata.readByteWorker, hresult, I2cCall.op, I2cOp.error]
      rfl
  | readBytes cmd len | stream cmd len delay =>
      have hresult : (i2cSmbusReadI2cBlockDataResult answer).1 =
          if 0 ≤ answer.result then ((answer.bytes.headD 0).toNat : Int) else answer.result := by
        unfold i2cSmbusReadI2cBlockDataResult
        split <;> rfl
      simp only [I2cCall.worker, I2cReqdata.readBlockWorker, hresult, I2cCall.op, I2cOp.error]
      rfl

/-- A transfer that did not run is reported. -/
theorem afterI2cWork_cancelled (charSigned : Bool) (r : I2cReqdata) {status : Int}
    (hstatus : status ≠ 0) : (afterI2cWork charSigned r status).error ≠ none := by
  rw [afterI2cWork, if_pos hstatus]
  exact Option.some_ne_none _

/-- The callback of a transfer that writes gets the error of the request. -/
theorem afterI2cWork_write {r : I2cReqdata} (charSigned : Bool)
    (hop : r.op = .kI2cOpWrite ∨ r.op = .kI2cOpWriteBlock) :
    (afterI2cWork charSigned r 0).error = none ↔ r.error ≠ .kI2cErrWrite := by
  obtain hop | hop := hop
  all_goals
    by_cases herror : r.error = .kI2cErrWrite
    · simp [afterI2cWork, hop, herror]
    · simp [afterI2cWork, hop, herror]

/-! ### `write` -/

section

variable {charSigned : Bool} {numbers : List Int} {array : Bytes}

/-- The elements pass through a `uint8_t`, so the numbers need not be byte values. -/
theorem call_write (hnumbers : numbers.map toUint8 = array) :
    (I2cCall.write numbers).worker.call = .write (array.take (array.length % 256)) := by
  have hlen : (toUint8 numbers.length).toNat = array.length % 256 := by
    rw [toUint8_natCast, ← hnumbers, List.length_map]
  show I2cSyscall.write ((getI2cArray _).take (toUint8 _).toNat) = _
  rw [getI2cArray_eq hnumbers, hlen, List.take_take, Nat.min_self]

/-- No error is reported where the call has written what it was given. -/
theorem reports_write (hnumbers : numbers.map toUint8 = array) (answer : I2cAnswer) :
    (afterI2cWork charSigned ((I2cCall.write numbers).worker.done answer) 0).error = none ↔
      answer.result = ((array.length % 256 : Nat) : Int) := by
  rw [afterI2cWork_write charSigned (Or.inl rfl), error_done, I2cCall.op, I2cOp.error,
    getI2cArray_eq hnumbers, List.length_take, Nat.min_eq_left (Nat.mod_le _ _)]
  split
  · rename_i hresult
    exact iff_of_false (fun hne => hne rfl) hresult
  · rename_i hresult
    exact iff_of_true (by decide) (not_not.mp hresult)

/-- The call may write all that it was given, and then no error is reported. -/
theorem outcome_write (charSigned : Bool) (hnumbers : numbers.map toUint8 = array) :
    ∃ jargs, (I2cCall.write numbers).Outcome charSigned jargs (array.take (array.length % 256)) ∧
      jargs.error = none := by
  have hsends : (I2cCall.write numbers).worker.call.Sends (array.length % 256 : Nat)
      ((array.take (array.length % 256)).take (array.length % 256)) := by
    rw [call_write hnumbers]
    exact .write (by rw [List.length_take, Nat.min_eq_left (Nat.mod_le _ _)])
  rw [List.take_take, Nat.min_self] at hsends
  exact ⟨_, .done ⟨(array.length % 256 : Nat), []⟩ hsends, (reports_write hnumbers _).mpr rfl⟩

theorem transmits_write_iff (hnumbers : numbers.map toUint8 = array) :
    (I2cCall.write numbers).Transmits charSigned (· = array) ↔ array.length ≤ 255 := by
  constructor
  · intro htransmits
    obtain ⟨jargs, houtcome, hok⟩ := outcome_write charSigned hnumbers
    have hlength := congrArg List.length (htransmits jargs _ houtcome hok)
    rw [List.length_take] at hlength
    omega
  · rintro hlength jargs sent (⟨⟨result, bytes⟩, hsends⟩ | hstatus) hok
    · have hresult : result = ((array.length % 256 : Nat) : Int) :=
        (reports_write hnumbers _).mp hok
      rw [call_write hnumbers] at hsends
      cases hsends with
      | write hn =>
          -- the request has all of the array, and the call has written all of it
          have hall : array.length % 256 = array.length := by omega
          rw [hall] at hresult ⊢
          obtain rfl := Int.natCast_inj.mp hresult
          rw [List.take_length, List.take_length]
      | failed => omega
    · exact absurd hok (afterI2cWork_cancelled charSigned _ hstatus)

end

/-! ### `writeBytes` -/

variable {charSigned : Bool} {cmd : Int} {array : Bytes}

/-- The block has no more than 32 bytes of what the request has. -/
theorem call_writeBytes (cmd : Int) (array : Bytes) :
    ∃ length : UInt8, length.toNat = min (array.length % 256) 32 ∧
      (I2cCall.writeBytes cmd (byteNumbers array)).worker.call =
        .smbus ⟨.I2C_SMBUS_WRITE, toUint8 cmd, .I2C_SMBUS_BLOCK_DATA,
          length :: array.take length.toNat⟩ := by
  have hlen : (toUint8 (byteNumbers array).length).toNat = array.length % 256 := by
    rw [toUint8_natCast, byteNumbers, List.length_map]
  generalize hbuf : toUint8 (byteNumbers array).length = bufLen at hlen
  have hmax : I2C_SMBUS_BLOCK_MAX.toNat = 32 := rfl
  have hcall : (I2cCall.writeBytes cmd (byteNumbers array)).worker.call =
      i2cSmbusWriteI2cBlockData (toUint8 cmd) (array.take (array.length % 256)) bufLen := by
    rw [← hbuf, ← getI2cArray_eq (map_toUint8_byteNumbers array)]
    rfl
  rw [hcall, i2cSmbusWriteI2cBlockData]
  split
  · rename_i hgreater
    have hgreater : 32 < array.length % 256 := by
      rw [← hlen, ← hmax]
      exact UInt8.lt_iff_toNat_lt.mp hgreater
    refine ⟨I2C_SMBUS_BLOCK_MAX, by omega, ?_⟩
    rw [List.take_take, Nat.min_eq_left (by omega)]
  · rename_i hle
    have hle : array.length % 256 ≤ 32 := by
      rw [← hlen, ← hmax]
      exact UInt8.le_iff_toNat_le.mp (UInt8.not_lt.mp hle)
    refine ⟨bufLen, by omega, ?_⟩
    rw [List.take_take, Nat.min_eq_left hlen.le]

/-- No error is reported where the call does not fail. -/
theorem reports_writeBytes (cmd : Int) (array : List Int) (answer : I2cAnswer) :
    (afterI2cWork charSigned ((I2cCall.writeBytes cmd array).worker.done answer) 0).error = none ↔
      answer.result ≠ -1 := by
  rw [afterI2cWork_write charSigned (Or.inr rfl), error_done, I2cCall.op, I2cOp.error]
  split
  · rename_i hresult
    exact iff_of_false (fun hne => hne rfl) (not_not.mpr hresult)
  · rename_i hresult
    exact iff_of_true (by decide) hresult

theorem outcome_writeBytes (charSigned : Bool) (cmd : Int) (array : Bytes) :
    ∃ jargs length, (I2cCall.writeBytes cmd (byteNumbers array)).Outcome charSigned jargs
      (toUint8 cmd :: length :: array.take (min (array.length % 256) 32)) ∧
        jargs.error = none := by
  obtain ⟨length, hlength, hcall⟩ := call_writeBytes cmd array
  have hsends : (I2cCall.writeBytes cmd (byteNumbers array)).worker.call.Sends 0
      (toUint8 cmd :: length :: (array.take length.toNat).take length.toNat) := by
    rw [hcall]
    exact .block (Int.le_refl 0)
  rw [List.take_take, Nat.min_self, hlength] at hsends
  exact ⟨_, length, .done ⟨0, []⟩ hsends, (reports_writeBytes cmd _ _).mpr (by decide)⟩

/-- The elements come behind the command and the length of the block. -/
theorem transmits_writeBytes_iff :
    (I2cCall.writeBytes cmd (byteNumbers array)).Transmits charSigned
        (fun sent => ∃ length, sent = toUint8 cmd :: length :: array) ↔ array.length ≤ 32 := by
  constructor
  · intro htransmits
    obtain ⟨jargs, length, houtcome, hok⟩ := outcome_writeBytes charSigned cmd array
    obtain ⟨length', hsent⟩ := htransmits jargs _ houtcome hok
    have helements := congrArg List.length (List.cons.inj (List.cons.inj hsent).2).2
    rw [List.length_take] at helements
    omega
  · rintro hle jargs sent (⟨⟨result, bytes⟩, hsends⟩ | hstatus) hok
    · obtain ⟨length, hlength, hcall⟩ := call_writeBytes cmd array
      have hresult : result ≠ -1 := (reports_writeBytes cmd _ _).mp hok
      rw [hcall] at hsends
      cases hsends with
      | block =>
          -- the block has room for all of the array
          have hall : length.toNat = array.length := by omega
          exact ⟨length, by rw [hall, List.take_length, List.take_length]⟩
      | failed => exact absurd rfl hresult
    · exact absurd hok (afterI2cWork_cancelled charSigned _ hstatus)

/-- For every array of byte values, the command of `writeBytes` and either kind of `char`. -/
theorem transmits_iff (charSigned : Bool) (cmd : Int) (array : Bytes) :
    ((I2cCall.write (byteNumbers array)).Transmits charSigned (· = array) ↔ array.length ≤ 255) ∧
      ((I2cCall.writeBytes cmd (byteNumbers array)).Transmits charSigned
          (fun sent => ∃ length, sent = toUint8 cmd :: length :: array) ↔ array.length ≤ 32) :=
  ⟨transmits_write_iff (map_toUint8_byteNumbers array), transmits_writeBytes_iff⟩

/-- Of 33 bytes, the last one is not sent, and of 256 bytes none is. No error is reported. -/
theorem transmits_not_last :
    (¬ (I2cCall.writeBytes 1 (byteNumbers (List.replicate 33 7))).Transmits true
        (fun sent => ∃ length, sent = 1 :: length :: List.replicate 33 7) ∧
      ∃ jargs length, (I2cCall.writeBytes 1 (byteNumbers (List.replicate 33 7))).Outcome true
        jargs (1 :: length :: List.replicate 32 7) ∧ jargs.error = none) ∧
    (¬ (I2cCall.write (byteNumbers (List.replicate 256 7))).Transmits true
        (· = List.replicate 256 7) ∧
      ∃ jargs, (I2cCall.write (byteNumbers (List.replicate 256 7))).Outcome true jargs [] ∧
        jargs.error = none) := by
  have hblock := outcome_writeBytes true 1 (List.replicate 33 7)
  have hwrite := outcome_write true (map_toUint8_byteNumbers (List.replicate 256 7))
  rw [List.length_replicate] at hblock hwrite
  refine ⟨⟨fun htransmits => ?_, hblock⟩, fun htransmits => ?_, hwrite⟩
  · obtain ⟨jargs, length, houtcome, hok⟩ := hblock
    obtain ⟨length', hsent⟩ := htransmits jargs _ houtcome hok
    have hlength := congrArg List.length hsent
    simp at hlength
  · obtain ⟨jargs, houtcome, hok⟩ := hwrite
    cases htransmits jargs _ houtcome hok

end IotJs

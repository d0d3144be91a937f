import IotJs.Proofs.BufferOrder
import IotJs.Proofs.I2cWrites

/-!
# `IotJs.Proofs.I2cReads`: the values of bytes that were read

`iotjs_jval_create_byte_array` makes a number of each `char`, where `readByte` makes one of a
`uint8_t`. So where `char` is signed, a byte from 128 on reaches the callback of `read` and of
`readBytes` as a negative number. `readsIntact_iff` says when the array has the values of the bytes.

A `uint8_t` takes a negative number back to its byte, and `write` sends the same bytes either way.
-/

set_option autoImplicit false

namespace IotJs

open BufferHeap (charValue charValue_false)

/-! ### Transfers -/

/-- The calls that read an array, with the number of bytes they ask for. -/
inductive I2cCall.Reads : I2cCall → UInt8 → Prop
  | read (len : Int) : Reads (.read len) (toUint8 len)
  | readBytes (cmd len : Int) : Reads (.readBytes cmd len) (toUint8 len)

/-- What a system call that reads answers where the device gives these bytes. -/
inductive I2cSyscall.Gives : I2cSyscall → (bytes : Bytes) → I2cAnswer → Prop
  | read {len : UInt8} {bytes : Bytes} (hle : bytes.length ≤ len.toNat) :
      Gives (.read len) bytes ⟨bytes.length, bytes⟩
  | byte (command b : UInt8) {result : Int} (hresult : 0 ≤ result) :
      Gives (.smbus ⟨.I2C_SMBUS_READ, command, .I2C_SMBUS_BYTE, []⟩) [b] ⟨result, [b]⟩
  /-- the number of bytes comes first, and behind the bytes is the rest of the block -/
  | block {command length : UInt8} {bytes : Bytes} {result : Int}
      (hle : bytes.length ≤ length.toNat) (hresult : 0 ≤ result) (rest : Bytes) :
      Gives (.smbus ⟨.I2C_SMBUS_READ, command, .I2C_SMBUS_I2C_BLOCK_DATA, [length]⟩) bytes
        ⟨result, toUint8 bytes.length :: (bytes ++ rest)⟩

/-- The callback of the call is given this array. -/
def I2cCall.Passes (charSigned : Bool) (call : I2cCall) (answer : I2cAnswer)
    (numbers : List Int) : Prop :=
  afterI2cWork charSigned (call.worker.done answer) 0 = { error := none, rest := [.array numbers] }

/-- `readByte` reports this number where the device gives this byte. -/
def ReportsByte (charSigned : Bool) (b : UInt8) (n : Nat) : Prop :=
  ∀ answer, i2cSmbusReadByte.Gives [b] answer →
    afterI2cWork charSigned (I2cCall.readByte.worker.done answer) 0 =
      { error := none, rest := [.number n] }

/-- An array that the callback is given has the values of the bytes in their order, these are the
numbers of `readByte`, and `write` sends the bytes of the array. -/
structure I2cCall.ReadsIntact (charSigned : Bool) (call : I2cCall) (answer : I2cAnswer)
    (bytes : Bytes) : Prop where
  values : ∀ numbers, call.Passes charSigned answer numbers → numbers = byteNumbers bytes
  agrees : ∀ numbers, call.Passes charSigned answer numbers → ∀ (i : Nat) (b : UInt8),
    bytes[i]? = some b → ∃ n : Nat, numbers[i]? = some (n : Int) ∧ ReportsByte charSigned b n
  back : ∀ numbers, call.Passes charSigned answer numbers →
    (I2cCall.write numbers).Transmits charSigned (· = bytes)

/-! ### What is passed -/

variable {charSigned : Bool} {call : I2cCall} {len : UInt8} {bytes : Bytes} {answer : I2cAnswer}

/-- The byte is a `uint8_t` here. -/
theorem reportsByte (charSigned : Bool) (b : UInt8) : ReportsByte charSigned b b.toNat := by
  intro answer hgives
  cases hgives with
  | byte command b hresult =>
      have hbyte : i2cSmbusReadByteResult ⟨_, [b]⟩ = b.toNat := if_pos hresult
      have hne : (b.toNat : Int) ≠ -1 := by omega
      show afterI2cWork charSigned (I2cReqdata.readByteWorker _ |>.done _) 0 = _
      simp only [I2cReqdata.readByteWorker, hbyte, if_neg hne, toUint8_toNat]
      rfl

/-- Where no error is left in the request, the callback gets what is in the buffer. -/
theorem afterI2cWork_read {r : I2cReqdata} (charSigned : Bool)
    (hop : r.op = .kI2cOpRead ∨ r.op = .kI2cOpReadBlock) (herror : r.error = .kI2cErrOk) :
    afterI2cWork charSigned r 0 =
      { error := none, rest := [.array (jvalCreateByteArray charSigned r.bufLen r.bufData)] } := by
  obtain hop | hop := hop
  all_goals simp [afterI2cWork, hop, herror]

theorem afterI2cWork_read_failed {r : I2cReqdata} (charSigned : Bool)
    (hop : r.op = .kI2cOpRead ∨ r.op = .kI2cOpReadBlock)
    (herror : r.error = .kI2cErrRead ∨ r.error = .kI2cErrReadBlock) :
    (afterI2cWork charSigned r 0).error ≠ none := by
  obtain hop | hop := hop
  all_goals
    obtain herror | herror := herror
    · simp [afterI2cWork, hop, herror]
    · simp [afterI2cWork, hop, herror]

/-- What the request of a reading call is when its worker is done. -/
structure I2cReqdata.HasRead (r : I2cReqdata) (len : UInt8) (bytes : Bytes) : Prop where
  op : r.op = .kI2cOpRead ∨ r.op = .kI2cOpReadBlock
  bufLen : r.bufLen = len
  full : bytes.length = len.toNat → r.error = .kI2cErrOk ∧ r.bufData = bytes
  short : bytes.length ≠ len.toNat → r.error = .kI2cErrRead ∨ r.error = .kI2cErrReadBlock

theorem hasRead_read (len : Int)
    (hgives : (I2cCall.read len).worker.call.Gives bytes answer) :
    ((I2cCall.read len).worker.done answer).HasRead (toUint8 len) bytes := by
  cases hgives with
  | read hle =>
      refine ⟨Or.inl rfl, rfl, fun hfull => ⟨?_, ?_⟩, fun hshort => Or.inl ?_⟩
      · exact if_neg (not_not.mpr (congrArg Nat.cast hfull))
      · show (bytes ++ List.replicate _ 0).take (toUint8 len).toNat = bytes
        rw [← hfull, List.take_left]
      · exact if_pos (mt Int.natCast_inj.mp hshort)

/-- The number of bytes fits in the first byte of the block. -/
theorem i2cSmbusReadI2cBlockDataResult_gives {bytes : Bytes} (rest : Bytes) {result : Int}
    (hlength : bytes.length < 256) (hresult : 0 ≤ result) :
    i2cSmbusReadI2cBlockDataResult ⟨result, toUint8 bytes.length :: (bytes ++ rest)⟩ =
      ((bytes.length : Int), bytes) := by
  rw [i2cSmbusReadI2cBlockDataResult, if_pos hresult]
  show (((toUint8 bytes.length).toNat : Int), (bytes ++ rest).take (toUint8 bytes.length).toNat) = _
  rw [toUint8_natCast, Nat.mod_eq_of_lt hlength, List.take_left]

theorem hasRead_readBytes (cmd len : Int)
    (hgives : (I2cCall.readBytes cmd len).worker.call.Gives bytes answer) :
    ((I2cCall.readBytes cmd len).worker.done answer).HasRead (toUint8 len) bytes := by
  generalize hcall : (I2cCall.readBytes cmd len).worker.call = syscall at hgives
  cases hgives with
  | read hle => cases hcall
  | byte command b hresult => cases hcall
  | @block command length bytes result hle hresult rest =>
      have hlength : bytes.length < 256 := Nat.lt_of_le_of_lt hle length.toNat_lt
      have hdone := i2cSmbusReadI2cBlockDataResult_gives rest hlength hresult
      refine ⟨Or.inr rfl, rfl, fun hfull => ⟨?_, ?_⟩, fun hshort => Or.inr ?_⟩
      · show (if (i2cSmbusReadI2cBlockDataResult _).1 ≠ _ then _ else _) = _
        rw [hdone]
        exact if_neg (not_not.mpr (congrArg Nat.cast hfull))
      · show (i2cSmbusReadI2cBlockDataResult _).2.take (toUint8 len).toNat = bytes
        rw [hdone, ← hfull, List.take_length]
      · show (if (i2cSmbusReadI2cBlockDataResult _).1 ≠ _ then _ else _) = _
        rw [hdone]
        exact if_pos (mt Int.natCast_inj.mp hshort)

theorem I2cCall.Reads.hasRead (hreads : call.Reads len)
    (hgives : call.worker.call.Gives bytes answer) :
    (call.worker.done answer).HasRead len bytes := by
  cases hreads with
  | read len => exact hasRead_read len hgives
  | readBytes cmd len => exact hasRead_readBytes cmd len hgives

/-- An array is passed where the device has given all the bytes that were asked for, and it has the
`char` values of the bytes. -/
theorem passes_iff (hreads : call.Reads len) (hgives : call.worker.call.Gives bytes answer)
    (numbers : List Int) :
    call.Passes charSigned answer numbers ↔
      bytes.length = len.toNat ∧ numbers = bytes.map (charValue charSigned) := by
  have hread := hreads.hasRead hgives
  by_cases hfull : bytes.length = len.toNat
  · obtain ⟨herror, hdata⟩ := hread.full hfull
    rw [I2cCall.Passes, afterI2cWork_read charSigned hread.op herror, jvalCreateByteArray, hdata,
      hread.bufLen, ← hfull, List.take_length]
    constructor
    · intro hpassed
      cases hpassed
      exact ⟨rfl, rfl⟩
    · rintro ⟨-, rfl⟩
      rfl
  · refine iff_of_false (fun hpassed => ?_) (fun hboth => hfull hboth.1)
    exact afterI2cWork_read_failed charSigned hread.op (hread.short hfull)
      (congrArg I2cJargs.error hpassed)

/-! ### The values -/

/-- A `char` goes back to its byte. -/
theorem toUint8_charValue (signed : Bool) (b : UInt8) : toUint8 (charValue signed b) = b := by
  have hlt := b.toNat_lt
  apply UInt8.toNat_inj.mp
  rw [toUint8, UInt8.ofInt, UInt8.toNat_ofNat', charValue]
  split
  all_goals omega

theorem map_toUint8_charValue (signed : Bool) (bytes : Bytes) :
    (bytes.map (charValue signed)).map toUint8 = bytes := by
  rw [List.map_map]
  exact (List.map_congr_left fun b _ => toUint8_charValue signed b).trans (List.map_id bytes)

theorem charValue_eq_toNat_iff (signed : Bool) (b : UInt8) :
    charValue signed b = b.toNat ↔ signed = false ∨ b.toNat < 128 := by
  cases signed with
  | false => simp only [charValue_false, true_or]
  | true =>
      rw [charValue]
      simp only [true_and, Bool.true_eq_false, false_or]
      split
      all_goals omega

theorem map_charValue_eq_iff (signed : Bool) (bytes : Bytes) :
    bytes.map (charValue signed) = byteNumbers bytes ↔
      signed = false ∨ ∀ b ∈ bytes, b.toNat < 128 := by
  rw [byteNumbers, List.map_inj_left]
  simp only [charValue_eq_toNat_iff]
  constructor
  · intro hall
    by_cases hsigned : signed = false
    · exact Or.inl hsigned
    · exact Or.inr fun b hb => (hall b hb).resolve_left hsigned
  · rintro (hsigned | hsmall) b hb
    · exact Or.inl hsigned
    · exact Or.inr (hsmall b hb)

theorem getElem?_byteNumbers {bytes : Bytes} {i : Nat} {b : UInt8} (hb : bytes[i]? = some b) :
    (byteNumbers bytes)[i]? = some (b.toNat : Int) := by
  rw [byteNumbers, List.getElem?_map, hb, Option.map_some]

/-- Whatever the values are, `write` sends the bytes that were read. -/
theorem transmits_back (hreads : call.Reads len) (hgives : call.worker.call.Gives bytes answer)
    {numbers : List Int} (hnumbers : call.Passes charSigned answer numbers) :
    (I2cCall.write numbers).Transmits charSigned (· = bytes) := by
  obtain ⟨hfull, rfl⟩ := (passes_iff hreads hgives numbers).mp hnumbers
  have hlt := len.toNat_lt
  exact (transmits_write_iff (map_toUint8_charValue charSigned bytes)).mpr (by omega)

/-- For `read` and `readBytes`, whatever the device gives: the array is right where `char` is
unsigned, where no array is passed, and where no byte has its upper bit. -/
theorem readsIntact_iff (charSigned : Bool) {call : I2cCall} {len : UInt8} {bytes : Bytes}
    {answer : I2cAnswer} (hreads : call.Reads len)
    (hgives : call.worker.call.Gives bytes answer) :
    call.ReadsIntact charSigned answer bytes ↔
      charSigned = false ∨ bytes.length ≠ len.toNat ∨ ∀ b ∈ bytes, b.toNat < 128 := by
  constructor
  · intro hintact
    by_cases hfull : bytes.length = len.toNat
    · have hvalues := hintact.values _ ((passes_iff hreads hgives _).mpr ⟨hfull, rfl⟩)
      exact ((map_charValue_eq_iff charSigned bytes).mp hvalues).imp_right Or.inr
    · exact Or.inr (Or.inl hfull)
  · intro hcondition
    have hvalues : ∀ numbers, call.Passes charSigned answer numbers →
        numbers = byteNumbers bytes := by
      intro numbers hnumbers
      obtain ⟨hfull, rfl⟩ := (passes_iff hreads hgives numbers).mp hnumbers
      have hsmall := hcondition.imp_right fun hrest => hrest.resolve_left (not_not.mpr hfull)
      exact (map_charValue_eq_iff charSigned bytes).mpr hsmall
    refine ⟨hvalues, ?_, fun numbers hnumbers => transmits_back hreads hgives hnumbers⟩
    intro numbers hnumbers i b hb
    obtain rfl := hvalues numbers hnumbers
    exact ⟨b.toNat, getElem?_byteNumbers hb, reportsByte charSigned b⟩

/-- Three bytes without their upper bits, where `char` is signed. -/
theorem readsIntact_small :
    (I2cCall.readBytes 16 3).ReadsIntact true ⟨0, [3, 0x12, 0x7F, 0]⟩ [0x12, 0x7F, 0] := by
  have hgives : (I2cCall.readBytes 16 3).worker.call.Gives [0x12, 0x7F, 0]
      ⟨0, toUint8 3 :: ([0x12, 0x7F, 0] ++ [])⟩ := .block (by decide) (by decide) []
  refine (readsIntact_iff true (.readBytes 16 3) hgives).mpr (Or.inr (Or.inr fun b hb => ?_))
  simp only [List.mem_cons, List.not_mem_nil, or_false] at hb
  rcases hb with rfl | rfl | rfl
  all_goals decide

/-- The byte `0xC3` is -61 in the array, and 195 where `readByte` reports it. -/
theorem readsIntact_fails :
    (I2cCall.read 1).worker.call.Gives [0xC3] ⟨1, [0xC3]⟩ ∧
      (I2cCall.read 1).Passes true ⟨1, [0xC3]⟩ [-61] ∧ ReportsByte true 0xC3 195 ∧
      ¬ (I2cCall.read 1).ReadsIntact true ⟨1, [0xC3]⟩ [0xC3] := by
  have hpassed : (I2cCall.read 1).Passes true ⟨1, [0xC3]⟩ [-61] := by
    unfold I2cCall.Passes
    decide
  refine ⟨.read (by decide), hpassed, reportsByte true 0xC3, fun hintact => ?_⟩
  have hvalues := hintact.values [-61] hpassed
  revert hvalues
  decide

end IotJs

import IotJs.Core.Buffer
import IotJs.Proofs.HttpOutgoingWire

/-!
# `IotJs.Proofs.BufferRoundTrip`: a string through a `Buffer`

`Buffer.byteLength` gives the `length` of a string, and the constructor makes room for that many
bytes and lets the native `write` cut the rest off. So a string comes back as it was exactly if it
is ASCII (`roundTrip_iff`). The empty string is a case of its own: its `Buffer` has no block, and
`toString` of it fails an assertion in a build that has them.

`copyLoop_eq` says what the native loop comes to, and `Write_eq` what a `write` does with any
offset and length. `new_string` and `toString_default` show that `newBuffer` and `bufferToString`,
which the streams are modelled with, are what the code computes.
-/

set_option autoImplicit false

namespace IotJs

/-- What is assumed of the engine: it counts code units, its bytes are UTF-8, and it reads such
bytes back. -/
structure Platform.Utf8 (P : Platform) : Prop where
  stringLength : ∀ s, P.stringLength s = Utf8.utf16Length s
  stringToBytes : ∀ s, P.stringToBytes s = Utf8.encode s
  bytesToString : ∀ s, P.bytesToString (Utf8.encode s) = s

theorem Platform.utf8_utf8 (nuttx : Bool) : (Platform.utf8 nuttx).Utf8 where
  stringLength _ := rfl
  stringToBytes _ := rfl
  bytesToString s := congrArg (Option.getD · "") (Utf8.decode_encode s)

/-- Such an engine is one that the messages on the wire are proved for. -/
theorem Platform.encodes_utf8 (nuttx : Bool) : (Platform.utf8 nuttx).Encodes where
  bytes_append := Utf8.encode_append
  length_append := Utf8.utf16Length_append
  length_le := Utf8.utf16Length_le
  decoded_length_le b := by
    show Utf8.utf16Length ((Utf8.decode b).getD "") ≤ b.length
    cases hdecode : Utf8.decode b with
    | none => exact Nat.zero_le _
    | some s =>
        have hle := Utf8.utf16Length_le s
        rw [Utf8.encode_of_decode hdecode] at hle
        exact hle
  crlf_bytes := by
    show Utf8.encode "\r\n" = [13, 10]
    decide
  crlf_length := by
    show Utf8.utf16Length "\r\n" = 2
    decide

/-- The strings that arrive on the wire as they are. -/
theorem OutgoingMessage.plain_iff_ascii {P : Platform} (utf8 : P.Utf8) (s : String) :
    OutgoingMessage.Plain P s ↔ Utf8.Ascii s := by
  rw [OutgoingMessage.Plain, utf8.stringLength, utf8.stringToBytes, Utf8.utf16Length_eq_iff]

namespace Buffer

variable {P : Platform}

/-! ### The native loop -/

theorem boundRange_le (index : Int) (upper : Nat) : boundRange index 0 upper ≤ upper := by
  unfold boundRange
  split
  · exact Nat.zero_le upper
  · split <;> omega

theorem boundRange_natCast (n upper : Nat) : boundRange n 0 upper = min n upper := by
  unfold boundRange
  split
  · omega
  · split <;> omega

theorem copyLoop_eq (src dst : Bytes) {n i j : Nat} (copied : Nat) (hsrc : i + n ≤ src.length)
    (hdst : j + n ≤ dst.length) :
    copyLoop src n i j copied dst =
      (dst.take j ++ (src.drop i).take n ++ dst.drop (j + n), copied + n) := by
  induction n generalizing i j copied dst with
  | zero => simp [copyLoop]
  | succ n ih =>
      have hj : j < dst.length := by omega
      have hi : i < src.length := by omega
      have hlength : (dst.set j (src.getD i 0)).length = dst.length := List.length_set
      rw [copyLoop, if_pos hj, ih (dst.set j (src.getD i 0)) (copied + 1) (by omega) (by omega)]
      have htake : (dst.set j (src.getD i 0)).take (j + 1) = dst.take j ++ [src[i]] := by
        rw [List.take_add_one, List.take_set_of_le (Nat.le_refl j), List.getElem?_set_self hj,
          List.getD_eq_getElem?_getD, List.getElem?_eq_getElem hi]
        rfl
      have hdrop : (dst.set j (src.getD i 0)).drop (j + 1 + n) = dst.drop (j + (n + 1)) := by
        rw [List.drop_set_of_lt (by omega)]
        congr 1
        omega
      have hstep : (src.drop i).take (n + 1) = src[i] :: (src.drop (i + 1)).take n := by
        rw [List.drop_eq_getElem_cons hi, List.take_succ_cons]
      rw [htake, hdrop, hstep, List.append_assoc (dst.take j), List.singleton_append]
      congr 1
      omega

/-- A `write` fills the bytes from its offset on, and leaves the others alone. -/
theorem Write_eq (this : Bytes) (string : String) (offset length : Int) :
    let start := boundRange offset 0 this.length
    let n := boundRange (boundRange length 0 (this.length - start)) 0
      (P.stringToBytes string).length
    Write P this string offset length =
      (this.take start ++ (P.stringToBytes string).take n ++ this.drop (start + n), n) := by
  intro start n
  have hstart : start ≤ this.length := boundRange_le _ _
  have hsrc : n ≤ (P.stringToBytes string).length := boundRange_le _ _
  have hroom : n ≤ this.length - start := by
    have hlength : boundRange length 0 (this.length - start) ≤ this.length - start :=
      boundRange_le _ _
    have hmin : n = min (boundRange length 0 (this.length - start))
        (P.stringToBytes string).length := boundRange_natCast _ _
    omega
  show copyLoop (P.stringToBytes string) (n - 0) 0 start 0 this = _
  rw [Nat.sub_zero, copyLoop_eq _ _ _ (by omega) (by omega), List.drop_zero, Nat.zero_add]

theorem boundRange_zero (upper : Nat) : boundRange 0 0 upper = 0 :=
  Nat.zero_min upper ▸ boundRange_natCast 0 upper

/-- A `Copy` of the whole source into a target of its length. -/
theorem Copy_whole (this target : Bytes) (hlength : target.length = this.length) :
    Copy this target 0 0 this.length = (this, this.length) := by
  have hend : boundRange (this.length : Int) 0 this.length = this.length := by
    rw [boundRange_natCast, Nat.min_self]
  unfold Copy copyInternal
  simp only [hend, boundRange_zero, Nat.not_lt_zero, if_false, Nat.sub_zero]
  rw [copyLoop_eq _ _ _ (by omega) (by omega)]
  simp [hlength]

/-! ### The constructor and `toString` -/

/-- The `Buffer` of a string, as the streams have it. -/
theorem new_string (P : Platform) (str : String) :
    Buffer.new P (.string str) = .ok (newBuffer P str) := by
  let room := create (byteLength P str)
  have hroom : room.length = P.stringLength str := List.length_replicate
  have hinside : ¬(P.stringLength str > 0 ∧ ((0 : Int) < 0 ∨ (0 : Int) ≥ room.length)) := by
    rintro ⟨hpos, hzero | hfull⟩ <;> omega
  have hwrite : write P room str none none = .ok (Write P room str 0 (room.length - 0)) :=
    if_neg hinside
  have hcount : boundRange (boundRange ((room.length : Int) - 0) 0 room.length) 0
      (P.stringToBytes str).length = min (P.stringLength str) (P.stringToBytes str).length := by
    rw [Int.sub_zero, boundRange_natCast, boundRange_natCast, Nat.min_self, hroom]
  have hrest : room.drop (min (P.stringLength str) (P.stringToBytes str).length)
      = List.replicate (P.stringLength str - (P.stringToBytes str).length) 0 := by
    show (List.replicate (P.stringLength str) 0).drop _ = _
    rw [List.drop_replicate]
    congr 1
    omega
  show (write P room str none none >>= fun result => Except.ok result.1) = _
  rw [hwrite, Write_eq, boundRange_zero, Nat.sub_zero, hcount, List.take_zero, List.nil_append,
    Nat.zero_add, hrest, ← List.take_eq_take_min]
  rfl

theorem new_buffer (P : Platform) (b : Bytes) : Buffer.new P (.buffer b) = .ok b := by
  have hlength : (create b.length).length = b.length := List.length_replicate
  have hcopy : copy b (create b.length) none none none
      = .ok (Copy b (create b.length) 0 0 b.length) :=
    if_neg fun h => absurd h.2 (by decide)
  show (copy b (create b.length) none none none >>= fun result => Except.ok result.1) = _
  rw [hcopy, Copy_whole b _ hlength]
  rfl

/-- `strnlen` counts the bytes that it takes. -/
theorem take_strnlen (data : Option Bytes) (max : Nat) :
    (data.getD []).take (strnlen data max) = ((data.getD []).take max).takeWhile (· != 0) := by
  have hprefix : ((data.getD []).take max).takeWhile (· != 0) <+: data.getD [] :=
    (List.takeWhile_prefix _).trans (List.take_prefix _ _)
  exact (List.prefix_iff_eq_take.mp hprefix).symm

/-- The second assertion of `iotjs_string_create_with_size` holds after a `strnlen`. -/
theorem strnlen_strnlen (data : Option Bytes) (max : Nat) :
    strnlen data (strnlen data max) = strnlen data max := by
  have hself : (((data.getD []).take max).takeWhile (· != 0)).takeWhile (· != 0)
      = ((data.getD []).take max).takeWhile (· != 0) :=
    List.takeWhile_eq_self_iff.mpr fun _ hx => List.mem_takeWhile_imp (p := (· != 0)) hx
  show ((List.take (strnlen data max) (data.getD [])).takeWhile (· != 0)).length = _
  rw [take_strnlen, hself]
  rfl

theorem stringCreateWithSize_strnlen (ndebug : Bool) (data : Option Bytes) (max : Nat) :
    stringCreateWithSize ndebug data (strnlen data max) =
      if ndebug = false ∧ data = none then .error .aborted
      else .ok (((data.getD []).take max).takeWhile (· != 0)) := by
  unfold stringCreateWithSize
  simp only [strnlen_strnlen, take_strnlen, ne_eq, not_true_eq_false, or_false]

/-- `toString` of a whole `Buffer`, as the streams have it, but for the assertion. -/
theorem toString_default (P : Platform) (ndebug : Bool) (this : Bytes) :
    toString P ndebug this none none =
      if ndebug = false ∧ this = [] then .error .aborted else .ok (bufferToString P this) := by
  have hlast : boundRange (this.length : Int) 0 this.length = this.length := by
    rw [boundRange_natCast, Nat.min_self]
  have hblock : (block this).map (List.drop 0) = block this := by
    cases block this <;> rfl
  have hnull : block this = none ↔ this = [] := by
    rw [block, ite_eq_right_iff, ← List.length_eq_zero_iff]
    simp
  have hbytes : ((block this).getD []).take this.length = this := by
    unfold block
    split
    · exact List.take_length
    · next h => rw [List.length_eq_zero_iff.mp (by omega : this.length = 0)]; rfl
  show ToString P ndebug this 0 this.length = _
  unfold ToString
  simp only [boundRange_zero, hlast, Nat.not_lt_zero, if_false, Nat.sub_zero, hblock,
    stringCreateWithSize_strnlen, hnull, hbytes]
  split
  · rfl
  · rfl

/-! ### The round trip -/

/-- What the documentation says of a string in a `Buffer`. -/
structure RoundTrip (P : Platform) (ndebug : Bool) (s : String) : Prop where
  byteLength : byteLength P s = (Utf8.encode s).length
  bytes : Buffer.new P (.string s) = .ok (Utf8.encode s)
  string : (Buffer.new P (.string s) >>= fun b => toString P ndebug b none none) = .ok s

section

variable (utf8 : P.Utf8)

include utf8

theorem newBuffer_of_ascii {s : String} (ascii : Utf8.Ascii s) :
    newBuffer P s = Utf8.encode s := by
  have hlength := (Utf8.utf16Length_eq_iff s).mpr ascii
  unfold newBuffer
  simp [utf8.stringLength, utf8.stringToBytes, hlength]

theorem bufferToString_encode {s : String} (noNul : '\x00' ∉ s.toList) :
    bufferToString P (Utf8.encode s) = s := by
  have hwhole : (Utf8.encode s).takeWhile (· != 0) = Utf8.encode s := by
    rw [List.takeWhile_eq_self_iff]
    intro byte hbyte
    have hne : byte ≠ 0 := fun hzero => noNul (Utf8.zero_mem_encode (hzero ▸ hbyte))
    simp [hne]
  rw [bufferToString, hwhole, utf8.bytesToString]

/-- A string without NUL makes the round trip exactly if it is ASCII and, where assertions are
built in, not empty. -/
theorem roundTrip_iff (ndebug : Bool) {s : String} (noNul : '\x00' ∉ s.toList) :
    RoundTrip P ndebug s ↔ Utf8.Ascii s ∧ (ndebug = true ∨ s ≠ "") := by
  constructor
  · rintro ⟨hlength, hbytes, hstring⟩
    rw [byteLength, utf8.stringLength, Utf8.utf16Length_eq_iff] at hlength
    refine ⟨hlength, ?_⟩
    by_contra hempty
    rw [not_or, Bool.not_eq_true, not_not] at hempty
    rw [hbytes] at hstring
    -- the `Buffer` of the empty string has no block
    have habort : toString P ndebug (Utf8.encode s) none none = .error .aborted := by
      rw [toString_default, if_pos ⟨hempty.1, (Utf8.encode_eq_nil_iff s).mpr hempty.2⟩]
    cases habort.symm.trans hstring
  · rintro ⟨ascii, hempty⟩
    have hnew : Buffer.new P (.string s) = .ok (Utf8.encode s) := by
      rw [new_string, newBuffer_of_ascii utf8 ascii]
    refine ⟨(utf8.stringLength s).trans ((Utf8.utf16Length_eq_iff s).mpr ascii), hnew, ?_⟩
    rw [hnew]
    show toString P ndebug (Utf8.encode s) none none = .ok s
    have hassert : ¬(ndebug = false ∧ Utf8.encode s = []) := by
      rw [Utf8.encode_eq_nil_iff]
      rintro ⟨hdebug, hs⟩
      rcases hempty with hndebug | hne
      · exact Bool.false_ne_true (hdebug.symm.trans hndebug)
      · exact hne hs
    rw [toString_default, if_neg hassert, bufferToString_encode utf8 noNul]

end

theorem roundTrip_test : RoundTrip (Platform.utf8 false) false "test" :=
  (roundTrip_iff (Platform.utf8_utf8 false) false (by decide)).mpr ⟨by decide, .inr (by decide)⟩

/-- Of the two bytes of `é` the `Buffer` has room for one. -/
theorem new_cuts_accent :
    '\x00' ∉ "é".toList
      ∧ Utf8.encode "é" = [0xC3, 0xA9]
      ∧ byteLength (Platform.utf8 false) "é" = 1
      ∧ Buffer.new (Platform.utf8 false) (.string "é") = .ok [0xC3]
      ∧ ¬RoundTrip (Platform.utf8 false) true "é" := by
  have hlength : byteLength (Platform.utf8 false) "é" = 1 := by decide
  refine ⟨by decide, by decide, hlength, by decide, ?_⟩
  rintro ⟨hbyte, -, -⟩
  exact absurd (hlength.symm.trans hbyte) (by decide)

end Buffer

end IotJs

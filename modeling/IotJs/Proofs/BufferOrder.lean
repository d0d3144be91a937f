import IotJs.Proofs.BufferHeap

/-!
# `IotJs.Proofs.BufferOrder`: `compare` and `equals`

The native loop compares values of type `char`. Where this type is signed, a byte from 128 on is
below all others, so `compare` is another order there than that of the bytes. It is a lexicographic
order in either case (`bufferwrapCompare_eq`), and `equals` is not concerned. `ordered_iff` says for
which two Buffers the order is that of their bytes.
-/

set_option autoImplicit false

namespace IotJs

open Buffer (Failure)

namespace BufferHeap

/-! ### The native loop -/

def sign : Ordering → Int
  | .lt => -1
  | .eq => 0
  | .gt => 1

theorem sign_swap (o : Ordering) : sign o.swap = -sign o := by
  cases o <;> rfl

theorem sign_le_zero {o : Ordering} : sign o ≤ 0 ↔ o.isLE = true := by
  cases o <;> decide

theorem sign_eq_zero {o : Ordering} : sign o = 0 ↔ o = .eq := by
  cases o <;> decide

theorem charValue_false (b : UInt8) : charValue false b = b.toNat := by
  rw [charValue, if_neg fun hsigned => Bool.noConfusion hsigned.1]

theorem charValue_injective (signed : Bool) : Function.Injective (charValue signed) := by
  intro x y hxy
  have hx := x.toNat_lt
  have hy := y.toNat_lt
  rw [← UInt8.toNat_inj]
  unfold charValue at hxy
  split at hxy <;> split at hxy <;> omega

/-- `iotjs_bufferwrap_compare` compares lists of `char` values, where the beginning of a list comes
before the list. -/
theorem bufferwrapCompare_eq (signed : Bool) (a b : Bytes) :
    bufferwrapCompare signed a b =
      sign (Ord.compare (a.map (charValue signed)) (b.map (charValue signed))) := by
  induction a generalizing b with
  | nil =>
      cases b with
      | nil => rfl
      | cons y b => rfl
  | cons x a ih =>
      cases b with
      | nil => rfl
      | cons y b =>
          rw [bufferwrapCompare, ih, List.map_cons, List.map_cons, List.compare_cons_cons,
            Int.compare_eq_ite_lt]
          split
          · rfl
          · split
            · rfl
            · rfl

theorem bufferwrapCompare_swap (signed : Bool) (a b : Bytes) :
    bufferwrapCompare signed b a = -bufferwrapCompare signed a b := by
  rw [bufferwrapCompare_eq, bufferwrapCompare_eq, ← sign_swap, ← Std.OrientedCmp.eq_swap]

theorem bufferwrapCompare_trans {signed : Bool} {a b c : Bytes}
    (hab : bufferwrapCompare signed a b ≤ 0) (hbc : bufferwrapCompare signed b c ≤ 0) :
    bufferwrapCompare signed a c ≤ 0 := by
  rw [bufferwrapCompare_eq, sign_le_zero] at hab hbc ⊢
  exact Std.TransCmp.isLE_trans hab hbc

theorem bufferwrapCompare_eq_zero_iff {signed : Bool} {a b : Bytes} :
    bufferwrapCompare signed a b = 0 ↔ a = b := by
  rw [bufferwrapCompare_eq, sign_eq_zero, Std.compare_eq_iff_eq]
  exact List.map_inj_right (charValue_injective signed)

/-! ### The order of the bytes -/

theorem compare_toNat (x y : UInt8) :
    Ord.compare (x.toNat : Int) y.toNat = Ord.compare x y := by
  show _ = compareOfLessAndEq x y
  rw [Int.compare_eq_ite_lt, compareOfLessAndEq]
  have hlt : x < y ↔ (x.toNat : Int) < y.toNat := by rw [Int.ofNat_lt]; exact UInt8.lt_iff_toNat_lt
  have heq : x = y ↔ (x.toNat : Int) = y.toNat := by rw [Int.ofNat_inj, UInt8.toNat_inj]
  by_cases hxy : (x.toNat : Int) < y.toNat
  · rw [if_pos hxy, if_pos (hlt.mpr hxy)]
  · rw [if_neg hxy, if_neg (hlt.not.mpr hxy)]
    by_cases hyx : (y.toNat : Int) < x.toNat
    · rw [if_pos hyx, if_neg (heq.not.mpr (by omega))]
    · rw [if_neg hyx, if_pos (heq.mpr (by omega))]

/-- An unsigned `char` is the byte. -/
theorem bufferwrapCompare_unsigned (a b : Bytes) :
    bufferwrapCompare false a b = sign (Ord.compare a b) := by
  have hmap : ∀ a b : Bytes, Ord.compare (a.map (charValue false)) (b.map (charValue false)) =
      Ord.compare a b := by
    intro a
    induction a with
    | nil =>
        intro b
        cases b with
        | nil => rfl
        | cons y b => rfl
    | cons x a ih =>
        intro b
        cases b with
        | nil => rfl
        | cons y b =>
            rw [List.map_cons, List.map_cons, List.compare_cons_cons, List.compare_cons_cons, ih,
              charValue_false, charValue_false, compare_toNat]
  rw [bufferwrapCompare_eq, hmap]

/-- Where two lists of bytes first differ, both bytes are below 128, or both are not. -/
def SameSide : Bytes → Bytes → Prop
  | x :: a, y :: b => if x = y then SameSide a b else (x.toNat < 128 ↔ y.toNat < 128)
  | _, _ => True

theorem charValue_lt_iff {x y : UInt8} (hne : x ≠ y) :
    (charValue true x < charValue true y ↔ charValue false x < charValue false y) ↔
      (x.toNat < 128 ↔ y.toNat < 128) := by
  have hx := x.toNat_lt
  have hy := y.toNat_lt
  have hne' : x.toNat ≠ y.toNat := fun heq => hne (UInt8.toNat_inj.mp heq)
  rw [charValue_false, charValue_false]
  unfold charValue
  simp only [true_and]
  split <;> split <;> omega

/-- Two values that differ decide, whatever follows. -/
theorem decided {p q : Int} (hne : p ≠ q) (rest : Int) :
    (if p < q then -1 else if p > q then 1 else rest) = if p < q then (-1 : Int) else 1 := by
  by_cases hlt : p < q
  · rw [if_pos hlt, if_pos hlt]
  · rw [if_neg hlt, if_pos (by omega), if_neg hlt]

theorem decided_eq_iff (P Q : Prop) [Decidable P] [Decidable Q] :
    ((if P then (-1 : Int) else 1) = if Q then -1 else 1) ↔ (P ↔ Q) := by
  by_cases hP : P <;> by_cases hQ : Q <;> simp [hP, hQ]

theorem signed_eq_unsigned_iff (a b : Bytes) :
    bufferwrapCompare true a b = bufferwrapCompare false a b ↔ SameSide a b := by
  induction a generalizing b with
  | nil =>
      cases b with
      | nil => exact iff_of_true rfl trivial
      | cons y b => exact iff_of_true rfl trivial
  | cons x a ih =>
      cases b with
      | nil => exact iff_of_true rfl trivial
      | cons y b =>
          rw [SameSide, bufferwrapCompare, bufferwrapCompare]
          -- the first two bytes that differ decide in both orders
          by_cases hxy : x = y
          · subst hxy
            simp only [gt_iff_lt, Int.lt_irrefl, if_false, if_true]
            exact ih b
          · rw [if_neg hxy, decided ((charValue_injective true).ne hxy),
              decided ((charValue_injective false).ne hxy), decided_eq_iff, charValue_lt_iff hxy]

/-! ### The order of the Buffers -/

/-- What the documentation says of `compare` and `equals`. -/
structure Ordered (T : BufferTarget) (h : BufferHeap) (a b : Nat) : Prop where
  lexicographic : h.compare T a b = .ok (sign (Ord.compare (h.wrap a).block (h.wrap b).block))
  antisymm : h.compare T b a = (h.compare T a b).map fun order => -order
  trans : ∀ c x y, h.compare T a b = .ok x → x ≤ 0 → h.compare T b c = .ok y → y ≤ 0 →
    ∃ z ≤ 0, h.compare T a c = .ok z
  equals : h.equals T a b = .ok (decide ((h.wrap a).block = (h.wrap b).block))

variable {T : BufferTarget} {h : BufferHeap} {a b : Nat}

theorem compare_eq (hb : b < h.length) :
    h.compare T a b = .ok (bufferwrapCompare T.charSigned (h.wrap a).block (h.wrap b).block) := by
  rw [compare, if_neg fun hno => not_isBuffer_iff.mp hno hb]

theorem equals_eq (hb : b < h.length) :
    h.equals T a b = .ok (decide ((h.wrap a).block = (h.wrap b).block)) := by
  rw [equals, if_neg fun hno => not_isBuffer_iff.mp hno hb,
    ← decide_eq_decide.mpr bufferwrapCompare_eq_zero_iff]
  rfl

/-- Of what the documentation says of two Buffers, only the order of their bytes can fail. -/
theorem ordered_iff (ha : a < h.length) (hb : b < h.length) :
    Ordered T h a b ↔
      T.charSigned = false ∨ SameSide (h.wrap a).block (h.wrap b).block := by
  constructor
  · intro hordered
    cases hsigned : T.charSigned with
    | false => exact .inl rfl
    | true =>
        have horder := hordered.lexicographic
        rw [compare_eq hb, hsigned, ← bufferwrapCompare_unsigned] at horder
        exact .inr ((signed_eq_unsigned_iff _ _).mp (Except.ok.inj horder))
  · intro hsame
    refine ⟨?_, ?_, fun c x y hab hx hbc hy => ?_, equals_eq hb⟩
    · rw [compare_eq hb, ← bufferwrapCompare_unsigned]
      cases hsigned : T.charSigned with
      | false => rfl
      | true =>
          rw [hsigned] at hsame
          rw [(signed_eq_unsigned_iff _ _).mpr (hsame.resolve_left (by decide))]
    · rw [compare_eq ha, compare_eq hb, bufferwrapCompare_swap]
      rfl
    · -- `c` is a Buffer, as `compare` has taken it
      have hc : c < h.length := by
        by_contra hge
        rw [compare, if_pos (not_isBuffer_iff.mpr hge)] at hbc
        cases hbc
      rw [compare_eq hb] at hab
      rw [compare_eq hc] at hbc
      cases hab
      cases hbc
      exact ⟨_, bufferwrapCompare_trans hx hy, compare_eq hc⟩

/-- `new Buffer('b')` and the Buffer of length one that `new Buffer('é')` makes. -/
theorem ordered_unsigned : Ordered (.ascii false) [⟨1, [98]⟩, ⟨1, [195]⟩] 0 1 :=
  (ordered_iff (by decide) (by decide)).mpr (.inl rfl)

/-- The first byte of `é` is below zero where `char` is signed. -/
theorem compare_signed_accent : ¬ Ordered (.ascii true) [⟨1, [98]⟩, ⟨1, [195]⟩] 0 1 := by
  intro hordered
  have horder := hordered.lexicographic
  exact absurd horder (by decide)

end BufferHeap

end IotJs

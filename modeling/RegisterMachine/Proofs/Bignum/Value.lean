import RegisterMachine.Bignum.Basic

/-!
# Values of magnitudes

What the operations on limbs do to the number that the limbs stand for. Each step of a product by a
limb writes the low half of a 64-bit intermediate and carries the high half, so the intermediate is
never lost: it fits 64 bits as long as the carry fits 32.
-/

namespace RegisterMachine.Magnitude

@[simp]
theorem value_nil : value [] = 0 := rfl

@[simp]
theorem value_cons (limb : UInt32) (rest : Magnitude) :
    value (limb :: rest) = limb.toNat + 2 ^ 32 * value rest := rfl

/-! ## Zero limbs at the top -/

theorem value_dropTopZeros (limbs : Magnitude) : value (dropTopZeros limbs) = value limbs := by
  induction limbs with
  | nil => rfl
  | cons limb rest ih =>
    rw [dropTopZeros, value_cons, ← ih]
    split
    · next hnil =>
      rw [hnil]
      split
      · next hzero => simp [hzero]
      · simp
    · rw [value_cons]

theorem value_normalize (limbs : Magnitude) : value (normalize limbs) = value limbs := by
  rw [← value_dropTopZeros limbs]
  unfold normalize
  split
  · next hnil =>
    rw [hnil]
    rfl
  · rfl

/-! ## Halves of an intermediate -/

theorem toNat_low (word : UInt64) : word.toUInt32.toNat = word.toNat % 2 ^ 32 :=
  UInt64.toNat_toUInt32 word

theorem toNat_high (word : UInt64) : (word >>> 32).toNat = word.toNat / 2 ^ 32 := by
  rw [UInt64.toNat_shiftRight, Nat.shiftRight_eq_div_pow]
  rfl

theorem toNat_high_lt (word : UInt64) : (word >>> 32).toNat < 2 ^ 32 := by
  have hword := word.toNat_lt
  rw [toNat_high]
  omega

/-- The low half of an intermediate is written and the high half carried, so nothing is lost. -/
theorem value_low_cons {word : UInt64} {rest : Magnitude} {later : Nat}
    (hrest : value rest = later + (word >>> 32).toNat) :
    value (word.toUInt32 :: rest) = word.toNat + 2 ^ 32 * later := by
  rw [value_cons, hrest, toNat_low, toNat_high]
  omega

theorem toNat_toUInt64_lt (limb : UInt32) : limb.toUInt64.toNat < 2 ^ 32 := by
  rw [UInt32.toNat_toUInt64]
  exact limb.toNat_lt

theorem toNat_add_carry (limb : UInt32) {carry : UInt64} (hcarry : carry.toNat < 2 ^ 32) :
    (limb.toUInt64 + carry).toNat = limb.toNat + carry.toNat := by
  have hlimb := limb.toNat_lt
  rw [UInt64.toNat_add, UInt32.toNat_toUInt64]
  omega

/-! ## Products by a limb -/

/-- A limb times a limb and a carry of 32 bits fit 64 bits. -/
theorem toNat_mul_add_carry (limb factor : UInt32) {carry : UInt64}
    (hcarry : carry.toNat < 2 ^ 32) :
    (limb.toUInt64 * factor.toUInt64 + carry).toNat = limb.toNat * factor.toNat + carry.toNat := by
  have hlimb : limb.toNat ≤ 2 ^ 32 - 1 := Nat.le_pred_of_lt limb.toNat_lt
  have hfactor : factor.toNat ≤ 2 ^ 32 - 1 := Nat.le_pred_of_lt factor.toNat_lt
  have hproduct : limb.toNat * factor.toNat ≤ (2 ^ 32 - 1) * (2 ^ 32 - 1) :=
    Nat.mul_le_mul hlimb hfactor
  rw [UInt64.toNat_add, UInt64.toNat_mul, UInt32.toNat_toUInt64, UInt32.toNat_toUInt64]
  omega

theorem value_scaleWith (limbs : Magnitude) (factor : UInt32) {carry : UInt64}
    (hcarry : carry.toNat < 2 ^ 32) :
    value (scaleWith limbs factor carry) = value limbs * factor.toNat + carry.toNat := by
  induction limbs generalizing carry with
  | nil =>
    unfold scaleWith
    split
    · next hzero => simp [hzero]
    · simp only [value_cons, value_nil, UInt64.toNat_toUInt32]
      omega
  | cons limb rest ih =>
    have hproduct := toNat_mul_add_carry limb factor hcarry
    unfold scaleWith
    dsimp only
    generalize limb.toUInt64 * factor.toUInt64 + carry = product at hproduct
    calc
      value (product.toUInt32 :: scaleWith rest factor (product >>> 32))
        = product.toNat + 2 ^ 32 * (value rest * factor.toNat) :=
          value_low_cons (ih (toNat_high_lt product))
      _ = limb.toNat * factor.toNat + carry.toNat + 2 ^ 32 * value rest * factor.toNat := by
          rw [hproduct, Nat.mul_assoc]
      _ = value (limb :: rest) * factor.toNat + carry.toNat := by
          rw [value_cons, Nat.add_mul]
          omega

theorem value_scaleAdd (limbs : Magnitude) (factor addend : UInt32) :
    value (scaleAdd limbs factor addend) = value limbs * factor.toNat + addend.toNat := by
  rw [scaleAdd, value_normalize, value_scaleWith limbs factor (toNat_toUInt64_lt addend),
    UInt32.toNat_toUInt64]

end RegisterMachine.Magnitude

import RegisterMachine.Proofs.Bignum.Sum

/-!
# Products of bignums

A product is gathered in an accumulator of as many limbs as both factors have together. The rows are
added into it one after the other; since the whole product fits the accumulator, no row runs out of
limbs for its last carry.
-/

namespace RegisterMachine

namespace Magnitude

/-! ## Partial products -/

theorem mul_value_cons (factor : Nat) (limb : UInt32) (rest : Magnitude) :
    factor * value (limb :: rest) = factor * limb.toNat + 2 ^ 32 * (factor * value rest) := by
  rw [value_cons, Nat.mul_add, Nat.mul_left_comm]

theorem value_cons_mul (limb : UInt32) (rest : Magnitude) (factor : Nat) :
    value (limb :: rest) * factor = limb.toNat * factor + 2 ^ 32 * (value rest * factor) := by
  rw [value_cons, Nat.add_mul, Nat.mul_assoc]

/-! ## Rows -/

theorem length_addCarry (accumulator : Magnitude) (carry : UInt64) :
    (addCarry accumulator carry).length = accumulator.length := by
  fun_induction addCarry accumulator carry with
  | case1 => rfl
  | case2 => rfl
  | case3 limb rest carry hpos sum ih => rw [List.length_cons, List.length_cons, ih]

/-- A carry that fits the accumulator is added to it. -/
theorem value_addCarry (accumulator : Magnitude) {carry : UInt64} (hcarry : carry.toNat < 2 ^ 32)
    (hfits : value accumulator + carry.toNat < 2 ^ (32 * accumulator.length)) :
    value (addCarry accumulator carry) = value accumulator + carry.toNat := by
  fun_induction addCarry accumulator carry with
  | case1 carry =>
    rw [value_nil, List.length_nil, Nat.mul_zero, Nat.pow_zero] at hfits
    rw [value_nil]
    omega
  | case2 limb rest => rfl
  | case3 limb rest carry hpos sum ih =>
    have hsum : sum.toNat = limb.toNat + carry.toNat := toNat_add_carry limb hcarry
    rw [value_cons, List.length_cons, two_pow_limbs_succ] at hfits
    have hrest := ih (toNat_high_lt sum) (by rw [toNat_high]; omega)
    rw [value_low_cons hrest, hsum, value_cons]
    omega

theorem length_addRow (accumulator limbs : Magnitude) (factor : UInt32) (carry : UInt64) :
    (addRow accumulator limbs factor carry).length = accumulator.length := by
  fun_induction addRow accumulator limbs factor carry with
  | case1 accumulator factor carry => exact length_addCarry accumulator carry
  | case2 => rfl
  | case3 limb rest y ys factor carry sum ih => rw [List.length_cons, List.length_cons, ih]

/-- The accumulator's limb, a product of limbs and a carry of 32 bits just fit 64 bits. -/
theorem toNat_limb_add_mul_add_carry (limb factor y : UInt32) {carry : UInt64}
    (hcarry : carry.toNat < 2 ^ 32) :
    (limb.toUInt64 + factor.toUInt64 * y.toUInt64 + carry).toNat =
      limb.toNat + factor.toNat * y.toNat + carry.toNat := by
  have hlimb := limb.toNat_lt
  have hproduct : factor.toNat * y.toNat ≤ (2 ^ 32 - 1) * (2 ^ 32 - 1) :=
    Nat.mul_le_mul (Nat.le_pred_of_lt factor.toNat_lt) (Nat.le_pred_of_lt y.toNat_lt)
  rw [UInt64.toNat_add, UInt64.toNat_add, UInt64.toNat_mul, UInt32.toNat_toUInt64,
    UInt32.toNat_toUInt64, UInt32.toNat_toUInt64]
  omega

theorem value_addRow (accumulator limbs : Magnitude) (factor : UInt32) {carry : UInt64}
    (hcarry : carry.toNat < 2 ^ 32)
    (hfits : value accumulator + factor.toNat * value limbs + carry.toNat <
      2 ^ (32 * accumulator.length)) :
    value (addRow accumulator limbs factor carry) =
      value accumulator + factor.toNat * value limbs + carry.toNat := by
  fun_induction addRow accumulator limbs factor carry with
  | case1 accumulator factor carry =>
    rw [value_nil, Nat.mul_zero, Nat.add_zero] at hfits ⊢
    exact value_addCarry accumulator hcarry hfits
  | case2 y ys factor carry =>
    rw [List.length_nil, Nat.mul_zero, Nat.pow_zero, Nat.lt_one_iff] at hfits
    exact hfits.symm
  | case3 limb rest y ys factor carry sum ih =>
    have hsum : sum.toNat = limb.toNat + factor.toNat * y.toNat + carry.toNat :=
      toNat_limb_add_mul_add_carry limb factor y hcarry
    rw [mul_value_cons, value_cons, List.length_cons, two_pow_limbs_succ] at hfits
    have hrest := ih (toNat_high_lt sum) (by rw [toNat_high]; omega)
    rw [value_low_cons hrest, hsum, mul_value_cons, value_cons]
    omega

/-- The row of a zero limb may be left out. -/
theorem addRow_zero (accumulator limbs : Magnitude) (hlength : limbs.length ≤ accumulator.length) :
    addRow accumulator limbs 0 0 = accumulator := by
  induction limbs generalizing accumulator with
  | nil =>
    rw [addRow]
    cases accumulator with
    | nil => rfl
    | cons limb rest => rw [addCarry, if_pos rfl]
  | cons y ys ih =>
    cases accumulator with
    | nil => exact absurd hlength (Nat.not_succ_le_zero _)
    | cons limb rest =>
      have hsum : limb.toUInt64 + UInt32.toUInt64 0 * y.toUInt64 + 0 = limb.toUInt64 := by simp
      have hhigh : limb.toUInt64 >>> 32 = 0 := by
        rw [← UInt64.toNat_inj, toNat_high]
        exact Nat.div_eq_of_lt (toNat_toUInt64_lt limb)
      rw [addRow, hsum, hhigh, ih rest (Nat.le_of_succ_le_succ hlength), UInt32.toUInt32_toUInt64]

/-! ## Products -/

theorem length_mulInto (first second accumulator : Magnitude)
    (hlength : first.length ≤ accumulator.length) :
    (mulInto first second accumulator).length = accumulator.length := by
  induction first generalizing accumulator with
  | nil => rfl
  | cons x xs ih =>
    have hsize := length_addRow accumulator second x 0
    unfold mulInto
    cases hadded : addRow accumulator second x 0 with
    | nil => rw [← hsize, hadded]
    | cons limb rest =>
      rw [hadded, List.length_cons] at hsize
      rw [List.length_cons] at hlength
      dsimp only
      rw [List.length_cons, ih rest (by omega), hsize]

/-- A row leaves the lowest limb final; what is left of the product fits the limbs above it. -/
theorem value_mulInto (first second accumulator : Magnitude)
    (hfits : value accumulator + value first * value second < 2 ^ (32 * accumulator.length)) :
    value (mulInto first second accumulator) =
      value accumulator + value first * value second := by
  induction first generalizing accumulator with
  | nil => rw [mulInto, value_nil, Nat.zero_mul, Nat.add_zero]
  | cons x xs ih =>
    rw [value_cons_mul] at hfits ⊢
    have hlength := length_addRow accumulator second x 0
    have hrow : value (addRow accumulator second x 0) =
        value accumulator + x.toNat * value second := by
      rw [value_addRow accumulator second x (by decide) (by rw [UInt64.toNat_zero]; omega)]
      rfl
    unfold mulInto
    cases haccumulator : addRow accumulator second x 0 with
    | nil =>
      rw [haccumulator, List.length_nil] at hlength
      rw [← hlength, Nat.mul_zero, Nat.pow_zero, Nat.lt_one_iff] at hfits
      exact hfits.symm
    | cons low rest =>
      rw [haccumulator, List.length_cons] at hlength
      rw [haccumulator, value_cons] at hrow
      rw [← hlength, two_pow_limbs_succ] at hfits
      dsimp only
      rw [value_cons, ih rest (by omega)]
      omega

theorem value_mul (first second : Magnitude) :
    value (mul first second) = value first * value second := by
  have hfits : value first * value second < 2 ^ (32 * (first.length + second.length)) := by
    rw [Nat.mul_add, Nat.pow_add]
    exact Nat.mul_lt_mul'' (value_lt first) (value_lt second)
  rw [mul, value_normalize, value_mulInto, value_replicate_zero, Nat.zero_add]
  rwa [value_replicate_zero, Nat.zero_add, List.length_replicate]

end Magnitude

namespace Bignum

/-- The product of the values, whichever sign a zero carries. -/
theorem toInt_mul (a b : Bignum) : (a.mul b).toInt = a.toInt * b.toInt := by
  rw [mul, toInt_clearZeroSign, toInt_mk, Magnitude.value_mul, toInt_eq_of_isNegative a,
    toInt_eq_of_isNegative b]
  cases a.isNegative <;> cases b.isNegative <;>
    simp only [bne_self_eq_false, Bool.bne_true, Bool.bne_false, Bool.not_false,
      Bool.false_eq_true, if_true, if_false, Int.natCast_mul, Int.neg_mul, Int.mul_neg, Int.neg_neg]

end Bignum

end RegisterMachine

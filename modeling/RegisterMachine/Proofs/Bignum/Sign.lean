import RegisterMachine.Proofs.Bignum.Canonical
import RegisterMachine.Proofs.Bignum.Numeral

/-!
# Signs and comparison of bignums

The flag of a bignum is its sign unless the value is zero. The comparison of bignums looks at signs
first and then at magnitudes, so it compares values.
-/

namespace RegisterMachine.Bignum

/-! ## Signs -/

theorem toInt_mk (limbs : Magnitude) (negative : Bool) :
    toInt ⟨limbs, negative⟩ = if negative then -(limbs.value : Int) else limbs.value := rfl

@[simp]
theorem limbs_clearZeroSign (n : Bignum) : n.clearZeroSign.limbs = n.limbs := by
  unfold clearZeroSign
  split <;> rfl

theorem isZero_iff (n : Bignum) : n.isZero = true ↔ n.limbs.value = 0 :=
  Magnitude.isZero_iff_value_eq_zero n.limbs

theorem negative_eq_isNegative {n : Bignum} (hzero : n.isZero = false) :
    n.negative = n.isNegative := by
  rw [isNegative, hzero, Bool.not_false, Bool.and_true]

theorem isZero_iff_toInt_eq_zero (n : Bignum) : n.isZero = true ↔ n.toInt = 0 := by
  rw [isZero_iff, toInt]
  split <;> omega

theorem toInt_of_isNegative {n : Bignum} (hsign : n.isNegative = true) :
    n.toInt = -(n.limbs.value : Int) ∧ 0 < n.limbs.value := by
  have hzero : n.isZero = false := by simpa using (Bool.and_eq_true_iff.1 hsign).2
  refine ⟨by rw [toInt_eq_of_isNegative, if_pos hsign], Nat.pos_of_ne_zero fun hvalue ↦ ?_⟩
  rw [(isZero_iff n).2 hvalue] at hzero
  exact Bool.noConfusion hzero

theorem toInt_of_not_isNegative {n : Bignum} (hsign : n.isNegative = false) :
    n.toInt = n.limbs.value := by
  rw [toInt_eq_of_isNegative, hsign, if_neg Bool.false_ne_true]

theorem isNegative_iff_toInt_neg (n : Bignum) : n.isNegative = true ↔ n.toInt < 0 := by
  cases hsign : n.isNegative with
  | true =>
    obtain ⟨hvalue, hpos⟩ := toInt_of_isNegative hsign
    exact iff_of_true rfl (by omega)
  | false =>
    rw [toInt_of_not_isNegative hsign]
    exact iff_of_false Bool.false_ne_true (by omega)

theorem natAbs_toInt (n : Bignum) : n.toInt.natAbs = n.limbs.value := by
  rw [toInt]
  split <;> omega

/-! ## Comparison -/

theorem compare_eq_compare_toInt {a b : Bignum} (ha : a.limbs.Canonical) (hb : b.limbs.Canonical) :
    a.compare b = Ord.compare a.toInt b.toInt := by
  unfold compare
  cases hsign : a.isNegative with
  | false =>
    rw [toInt_of_not_isNegative hsign]
    cases hsign' : b.isNegative with
    | false =>
      rw [toInt_of_not_isNegative hsign']
      simp only [Magnitude.compare_eq_compare_value ha hb, Nat.compare_eq_ite_lt,
        Int.compare_eq_ite_lt, Int.ofNat_lt]
    | true =>
      obtain ⟨hvalue, hpos⟩ := toInt_of_isNegative hsign'
      exact (Int.compare_eq_gt.2 (by omega)).symm
  | true =>
    obtain ⟨hvalue, hpos⟩ := toInt_of_isNegative hsign
    rw [hvalue]
    cases hsign' : b.isNegative with
    | false =>
      rw [toInt_of_not_isNegative hsign']
      exact (Int.compare_eq_lt.2 (by omega)).symm
    | true =>
      -- Of two negative numbers the one with the larger magnitude is the smaller.
      rw [(toInt_of_isNegative hsign').1]
      simp only [Magnitude.compare_eq_compare_value hb ha, Nat.compare_eq_ite_lt,
        Int.compare_eq_ite_lt, Int.neg_lt_neg_iff, Int.ofNat_lt]

end RegisterMachine.Bignum

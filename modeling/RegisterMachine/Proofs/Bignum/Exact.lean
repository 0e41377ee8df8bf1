import RegisterMachine.Proofs.Bignum.Built
import RegisterMachine.Proofs.InPlace.Work

/-!
# Exact sums, differences, steps and moduli

Of two bignums that can be built, whatever their signs and lengths, the sum and the difference are
those of the integers, and the modulus is the remainder of floored division. The results are in
normal form: a zero among them has a clear sign, also where a zero operand has not. Bignums in
normal form are told by their values, so a step by one, which stops at the first limb that its carry
does not run through, ends in the very limbs that a sum with one has.

The modulus is made in three steps in place of the dividend. Of these only the first can fail, and
it fails before anything is changed.
-/

namespace RegisterMachine.Bignum

variable {a b one : Bignum}

/-! ## Sums and differences -/

theorem normal_addSigned {limbs : Magnitude} (ha : a.limbs.Canonical) (hlimbs : limbs.Canonical)
    (negative : Bool) : (a.addSigned limbs negative).Normal := by
  have hcanonical := canonical_addSigned ha hlimbs negative
  unfold addSigned at hcanonical ⊢
  rw [limbs_clearZeroSign] at hcanonical
  exact normal_clearZeroSign hcanonical

/-- Sums and differences are exact, with any signs and any numbers of limbs. -/
theorem sum_difference_exact (ha : Built a) (hb : Built b) :
    (a.add b).toInt = a.toInt + b.toInt ∧ (a.add b).Normal ∧
      (a.sub b).toInt = a.toInt - b.toInt ∧ (a.sub b).Normal :=
  ⟨toInt_add ha.canonical hb.canonical, normal_addSigned ha.canonical hb.canonical _,
    toInt_sub ha.canonical hb.canonical, normal_addSigned ha.canonical hb.canonical _⟩

/-- A negative number of three limbs and a positive number of two: the sum borrows through all
limbs, the difference carries through them. -/
theorem sum_difference_exact_rippling :
    Built (ofLimbs [0, 0, 1] true) ∧ Built (ofLimbs [0xffffffff, 0xffffffff] false) ∧
      ((ofLimbs [0, 0, 1] true).add (ofLimbs [0xffffffff, 0xffffffff] false)).toInt = -1 ∧
      ((ofLimbs [0, 0, 1] true).sub (ofLimbs [0xffffffff, 0xffffffff] false)).toInt =
        -36893488147419103231 := by
  have hfirst : Built (ofLimbs [0, 0, 1] true) := .ofLimbs _ _
  have hsecond : Built (ofLimbs [0xffffffff, 0xffffffff] false) := .ofLimbs _ _
  obtain ⟨hsum, -, hdifference, -⟩ := sum_difference_exact hfirst hsecond
  exact ⟨hfirst, hsecond, hsum.trans (by decide), hdifference.trans (by decide)⟩

/-- Nothing is left of a sum of opposite numbers, not even the flag. -/
example : (ofLimbs [0, 1] true).add (ofLimbs [0, 1] false) = zero := by decide

/-! ## Steps by one -/

theorem toInt_inc (a : Bignum) : a.inc.toInt = a.toInt + 1 := by
  unfold inc
  split
  · next hbelow =>
    have hflag : a.negative = true := (Bool.and_eq_true_iff.1 hbelow).1
    obtain ⟨hvalue, hpos⟩ := toInt_of_isNegative hbelow
    rw [toInt_clearZeroSign, hvalue, toInt, if_pos hflag, Magnitude.value_dec hpos]
    omega
  · next habove =>
    have hvalue := toInt_of_not_isNegative (Bool.eq_false_iff.2 habove)
    rw [hvalue, toInt_mk, if_neg Bool.false_ne_true, Magnitude.value_inc, Int.natCast_succ]

theorem normal_inc (ha : a.limbs.Canonical) : a.inc.Normal := by
  have hcanonical := canonical_inc ha
  unfold inc at hcanonical ⊢
  split
  · next hbelow =>
    rw [if_pos hbelow, limbs_clearZeroSign] at hcanonical
    exact normal_clearZeroSign hcanonical
  · next habove =>
    rw [if_neg habove] at hcanonical
    exact ⟨hcanonical, fun _ ↦ rfl⟩

/-- Only one is followed downward by a zero, and its flag is clear. -/
theorem normal_dec (ha : a.limbs.Canonical) : a.dec.Normal where
  canonical := canonical_dec ha
  sign_of_zero hzero := by
    have hvalue := (isZero_iff_toInt_eq_zero _).1 hzero
    rw [toInt_dec] at hvalue
    have hnonzero : a.isZero = false :=
      Bool.eq_false_iff.2 (mt (isZero_iff_toInt_eq_zero a).1 (by omega))
    have habove : a.isNegative = false :=
      Bool.eq_false_iff.2 (mt (isNegative_iff_toInt_neg a).1 (by omega))
    have hflag : a.negative = false := (negative_eq_isNegative hnonzero).trans habove
    simp [dec, hnonzero, habove, hflag]

/-- Steps by one come to the same bignum, limb for limb, as a sum or a difference with one. -/
theorem steps_by_one_exact (ha : Built a) (hone : Built one) (hvalue : one.toInt = 1) :
    (a.inc.toInt = a.toInt + 1 ∧ a.inc = a.add one) ∧
      (a.dec.toInt = a.toInt - 1 ∧ a.dec = a.sub one) ∧
      (a.complement.toInt = -a.toInt - 1 ∧ a.complement = a.neg.sub one) := by
  have hneg : a.neg.limbs.Canonical := ha.canonical
  have hsub {b : Bignum} (hb : b.limbs.Canonical) : b.dec = b.sub one := by
    apply (normal_dec hb).eq_of_toInt_eq (normal_addSigned hb hone.canonical _)
    rw [toInt_dec]
    exact (hvalue ▸ toInt_sub hb hone.canonical).symm
  have hadd : a.inc = a.add one := by
    apply (normal_inc ha.canonical).eq_of_toInt_eq (normal_addSigned ha.canonical hone.canonical _)
    rw [toInt_inc]
    exact (hvalue ▸ toInt_add ha.canonical hone.canonical).symm
  exact ⟨⟨toInt_inc a, hadd⟩, ⟨toInt_dec a, hsub ha.canonical⟩, toInt_complement a, hsub hneg⟩

/-- All limbs overflow, all limbs borrow, and a zero with its flag set is complemented. -/
theorem steps_by_one_exact_rippling :
    Built (ofLimbs [0xffffffff, 0xffffffff] false) ∧ Built (ofLimbs [0, 0, 1] false) ∧
      Built (ofLimbs [0] true) ∧ Built (ofInt32 1) ∧ (ofInt32 1).toInt = 1 ∧
      (ofLimbs [0xffffffff, 0xffffffff] false).inc =
        (ofLimbs [0xffffffff, 0xffffffff] false).add (ofInt32 1) ∧
      (ofLimbs [0, 0, 1] false).dec = (ofLimbs [0, 0, 1] false).sub (ofInt32 1) ∧
      (ofLimbs [0] true).complement = (ofLimbs [0] true).neg.sub (ofInt32 1) := by
  have hones : Built (ofLimbs [0xffffffff, 0xffffffff] false) := .ofLimbs _ _
  have hpower : Built (ofLimbs [0, 0, 1] false) := .ofLimbs _ _
  have hflagged : Built (ofLimbs [0] true) := .ofLimbs _ _
  have hone : Built (ofInt32 1) := .ofInt32 1
  have hvalue : (ofInt32 1).toInt = 1 := by decide
  exact ⟨hones, hpower, hflagged, hone, hvalue, (steps_by_one_exact hones hone hvalue).1.2,
    (steps_by_one_exact hpower hone hvalue).2.1.2, (steps_by_one_exact hflagged hone hvalue).2.2.2⟩

/-! ## Remainders in normal form -/

theorem normal_divRem {quotient remainder : Bignum} (ha : a.limbs.Canonical)
    (hb : b.limbs.Canonical) (h : a.divRem b = .ok (quotient, remainder)) :
    quotient.Normal ∧ remainder.Normal := by
  obtain ⟨hquotient, hremainder⟩ := canonical_divRem ha hb h
  unfold divRem at h
  split at h
  · cases h
  · cases h
    rw [limbs_clearZeroSign] at hquotient hremainder
    exact ⟨normal_clearZeroSign hquotient, normal_clearZeroSign hremainder⟩

theorem normal_rem {result : Bignum} (ha : a.limbs.Canonical) (hb : b.limbs.Canonical)
    (h : a.rem b = .ok result) : result.Normal := by
  obtain ⟨⟨quotient, remainder⟩, hdivRem, hresult⟩ := bind_eq_ok_iff.1 h
  cases hresult
  exact (normal_divRem ha hb hdivRem).2

theorem normal_mod {result : Bignum} (ha : a.limbs.Canonical) (hb : b.limbs.Canonical)
    (h : a.mod b = .ok result) : result.Normal := by
  obtain ⟨remainder, hrem, hresult⟩ := bind_eq_ok_iff.1 h
  exact normal_rem (canonical_add (canonical_rem ha hb hrem) hb) hb hresult

/-! ## Moduli in place -/

section InPlace

open Work

/-- The remainder takes the place of the dividend. -/
def remInPlace (b : Bignum) : Work Bignum BignumError Unit := do
  let parts ← look fun a ↦ a.divRem b
  change fun _ ↦ parts.2

/-- The sum takes the place of the first summand. -/
def addInPlace (b : Bignum) : Work Bignum BignumError Unit :=
  change fun a ↦ a.add b

/-- The modulus takes the place of the dividend: the remainder of the remainder and the divisor. -/
def modInPlace (b : Bignum) : Work Bignum BignumError Unit := do
  remInPlace b
  addInPlace b
  remInPlace b

theorem remInPlace_realizes (a b : Bignum) :
    (remInPlace b).Realizes (fun remainder ↦ (.ok (), remainder)) a (a.rem b) :=
  Realizes.look fun _ ↦ rfl

theorem rem_zero (a : Bignum) (hzero : b.toInt = 0) : a.rem b = .error .divisionByZero := by
  rw [rem, divRem_zero hzero]
  rfl

theorem exists_rem (a : Bignum) (hne : b.toInt ≠ 0) : ∃ remainder, a.rem b = .ok remainder := by
  rw [rem, divRem, if_neg (mt (isZero_iff_toInt_eq_zero b).1 hne)]
  exact ⟨_, rfl⟩

theorem mod_zero (a : Bignum) (hzero : b.toInt = 0) : a.mod b = .error .divisionByZero := by
  rw [mod, rem_zero a hzero]
  rfl

/-- A divisor that the first remainder has taken is taken by the second one too, so the steps are
done all together or not at all. -/
theorem modInPlace_realizes (a b : Bignum) :
    (modInPlace b).Realizes (fun modulus ↦ (.ok (), modulus)) a (a.mod b) := by
  have hfirst := remInPlace_realizes a b
  unfold Realizes at hfirst ⊢
  by_cases hzero : b.toInt = 0
  · rw [rem_zero a hzero] at hfirst
    rw [mod_zero a hzero]
    exact on_bind_of_error hfirst
  · obtain ⟨remainder, hrem⟩ := exists_rem a hzero
    obtain ⟨modulus, hmod⟩ := exists_rem (remainder.add b) hzero
    have hresult : a.mod b = .ok modulus := by
      rw [mod, hrem]
      exact hmod
    have hsecond := remInPlace_realizes (remainder.add b) b
    unfold Realizes at hsecond
    rw [hrem] at hfirst
    rw [hmod] at hsecond
    rw [hresult]
    exact (on_bind_of_ok hfirst).trans ((on_bind_of_ok (on_change _ remainder)).trans hsecond)

/-- What the steps leave is what an operation in place leaves. -/
theorem modInPlace_leaves (a b : Bignum) :
    ((modInPlace b).on a).2 = BinaryOperation.mod.inPlace a b := by
  have hplace : (modInPlace b).on a = settle _ a (a.mod b) := modInPlace_realizes a b
  rw [hplace, BinaryOperation.inPlace, BinaryOperation.apply]
  cases a.mod b <;> rfl

end InPlace

/-! ## Floored moduli -/

/-- What floored division leaves: it has the sign of the divisor, unless it is zero. -/
structure FlooredModulus (dividend divisor modulus : Int) : Prop where
  equation : dividend = dividend.fdiv divisor * divisor + modulus
  of_pos : 0 < divisor → 0 ≤ modulus ∧ modulus < divisor
  of_neg : divisor < 0 → divisor < modulus ∧ modulus ≤ 0

theorem flooredModulus_fmod (x y : Int) : FlooredModulus x y (x.fmod y) where
  equation := (Int.fdiv_mul_add_fmod x y).symm
  of_pos hy := ⟨Int.fmod_nonneg_of_pos x hy, Int.fmod_lt_of_pos x hy⟩
  of_neg hy := by
    have hmirror : (-x).fmod (-y) = -x.fmod y := Int.neg_fmod_neg x y
    have hnonneg := Int.fmod_nonneg_of_pos (-x) (Int.neg_pos_of_neg hy)
    have hlt := Int.fmod_lt_of_pos (-x) (Int.neg_pos_of_neg hy)
    omega

/-- The modulus is floored for divisors of either sign, and comes out the same in place. A zero as
the divisor, of either flag, is refused and leaves the dividend as it was. -/
theorem modulus_floored (ha : Built a) (hb : Built b) :
    (b.toInt ≠ 0 → ∃ modulus, a.mod b = .ok modulus ∧
        FlooredModulus a.toInt b.toInt modulus.toInt ∧ modulus.Normal ∧
        (modInPlace b).on a = (.ok (), modulus)) ∧
      (a.mod b = .error .divisionByZero ↔ b.toInt = 0) ∧
      (b.toInt = 0 → (modInPlace b).on a = (.error .divisionByZero, a)) := by
  have hplace : (modInPlace b).on a = Work.settle _ a (a.mod b) := modInPlace_realizes a b
  by_cases hzero : b.toInt = 0
  · rw [mod_zero a hzero] at hplace
    exact ⟨fun hne ↦ absurd hzero hne, iff_of_true (mod_zero a hzero) hzero, fun _ ↦ hplace⟩
  · obtain ⟨modulus, hmod, hvalue⟩ := mod_spec ha.canonical hb.canonical hzero
    rw [hmod] at hplace
    refine ⟨fun _ ↦ ⟨modulus, hmod, ?_, normal_mod ha.canonical hb.canonical hmod, hplace⟩,
      iff_of_false (by simp [hmod]) hzero, fun h ↦ absurd h hzero⟩
    rw [hvalue]
    exact flooredModulus_fmod a.toInt b.toInt

/-- A positive dividend and a negative divisor of two limbs: their remainder is positive, so it is
moved by the divisor. A zero with its flag set is refused. -/
theorem modulus_floored_opposite :
    Built (ofLimbs [1, 0, 4] false) ∧ Built (ofLimbs [0, 3] true) ∧ Built (ofLimbs [0] true) ∧
      (ofLimbs [0, 3] true).toInt ≠ 0 ∧ (ofLimbs [0] true).toInt = 0 ∧
      (∃ modulus, (ofLimbs [1, 0, 4] false).mod (ofLimbs [0, 3] true) = .ok modulus ∧
        FlooredModulus 73786976294838206465 (-12884901888) modulus.toInt) ∧
      (modInPlace (ofLimbs [0] true)).on (ofLimbs [1, 0, 4] false) =
        (.error .divisionByZero, ofLimbs [1, 0, 4] false) := by
  have hdividend : Built (ofLimbs [1, 0, 4] false) := .ofLimbs _ _
  have hdivisor : Built (ofLimbs [0, 3] true) := .ofLimbs _ _
  have hflagged : Built (ofLimbs [0] true) := .ofLimbs _ _
  have hne : (ofLimbs [0, 3] true).toInt ≠ 0 := by decide
  have hzero : (ofLimbs [0] true).toInt = 0 := by decide
  obtain ⟨modulus, hmod, hfloored, -⟩ := (modulus_floored hdividend hdivisor).1 hne
  exact ⟨hdividend, hdivisor, hflagged, hne, hzero, ⟨modulus, hmod, hfloored⟩,
    (modulus_floored hdividend hflagged).2.2 hzero⟩

end RegisterMachine.Bignum

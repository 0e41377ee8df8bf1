import RegisterMachine.Proofs.Bignum.Shift

/-!
# Quotients of bignums

Division by one limb carries the remainder from limb to limb; long division brings the bits of the
dividend into the remainder one by one. Both keep the equation of a division for what they have
read of the dividend. On signed values the quotient is rounded toward zero.
-/

namespace RegisterMachine

/-- Quotient and remainder of a division of natural numbers. -/
structure IsDivision (dividend divisor quotient remainder : Nat) : Prop where
  equation : quotient * divisor + remainder = dividend
  remainder_lt : remainder < divisor

namespace IsDivision

variable {dividend divisor quotient remainder : Nat}

theorem unique (h : IsDivision dividend divisor quotient remainder) :
    quotient = dividend / divisor ∧ remainder = dividend % divisor := by
  have hequation : remainder + divisor * quotient = dividend := by
    rw [Nat.mul_comm, Nat.add_comm]
    exact h.equation
  have hunique := (Nat.div_mod_unique (Nat.zero_lt_of_lt h.remainder_lt)).2
    ⟨hequation, h.remainder_lt⟩
  exact ⟨hunique.1.symm, hunique.2.symm⟩

/-- Division of what follows on a remainder extends the quotient. -/
theorem extend {scale low digit rest : Nat} (h : IsDivision dividend divisor quotient remainder)
    (hlow : IsDivision (remainder * scale + low) divisor digit rest) :
    IsDivision (dividend * scale + low) divisor (quotient * scale + digit) rest where
  equation := by
    rw [← h.equation, Nat.add_mul, Nat.add_mul, Nat.mul_right_comm quotient scale, Nat.add_assoc,
      hlow.equation, Nat.add_assoc]
  remainder_lt := hlow.remainder_lt

end IsDivision

namespace Magnitude

variable {limbs divisor first second : Magnitude}

/-! ## Division by a limb -/

theorem value_cons_comm (limb : UInt32) (rest : Magnitude) :
    value (limb :: rest) = value rest * 2 ^ 32 + limb.toNat := by
  rw [value_cons, Nat.mul_comm, Nat.add_comm]

theorem toNat_shiftLeft_or_limb {remainder : UInt64} (limb : UInt32)
    (hremainder : remainder.toNat < 2 ^ 32) :
    ((remainder <<< 32) ||| limb.toUInt64).toNat = remainder.toNat * 2 ^ 32 + limb.toNat := by
  have hfits : remainder.toNat * 2 ^ 32 < 2 ^ 64 := by omega
  have hshift : (remainder <<< 32).toNat = 2 ^ 32 * remainder.toNat := by
    rw [UInt64.toNat_shiftLeft, Nat.shiftLeft_eq]
    change remainder.toNat * 2 ^ 32 % 2 ^ 64 = _
    rw [Nat.mod_eq_of_lt hfits, Nat.mul_comm]
  rw [UInt64.toNat_or, hshift, UInt32.toNat_toUInt64, ← Nat.two_pow_add_eq_or_of_lt limb.toNat_lt,
    Nat.mul_comm]

theorem divSmallWith_spec {divisor : UInt32} (hdivisor : 0 < divisor.toNat) (limbs : Magnitude) :
    IsDivision (value limbs) divisor.toNat (value (divSmallWith divisor limbs).1)
      (divSmallWith divisor limbs).2.toNat := by
  induction limbs with
  | nil =>
    refine ⟨?_, hdivisor⟩
    simp [divSmallWith]
  | cons limb rest ih =>
    have hbound := divisor.toNat_lt
    unfold divSmallWith
    generalize divSmallWith divisor rest = result at ih
    obtain ⟨quotient, remainder⟩ := result
    have hremainder := ih.remainder_lt
    have hcurrent := toNat_shiftLeft_or_limb limb (Nat.lt_trans hremainder hbound)
    dsimp only at hremainder hcurrent ⊢
    generalize (remainder <<< 32) ||| limb.toUInt64 = current at hcurrent
    have hdigit : (current / divisor.toUInt64).toUInt32.toNat = current.toNat / divisor.toNat := by
      have hlimb := limb.toNat_lt
      have hsmall : current.toNat / divisor.toNat < 2 ^ 32 := by
        apply Nat.div_lt_of_lt_mul
        have hscaled := Nat.mul_le_mul_right (2 ^ 32) (Nat.succ_le_of_lt hremainder)
        rw [Nat.succ_mul] at hscaled
        omega
      rw [toNat_low, UInt64.toNat_div, UInt32.toNat_toUInt64, Nat.mod_eq_of_lt hsmall]
    have hstep : IsDivision (remainder.toNat * 2 ^ 32 + limb.toNat) divisor.toNat
        (current / divisor.toUInt64).toUInt32.toNat (current % divisor.toUInt64).toNat := by
      rw [← hcurrent, hdigit, UInt64.toNat_mod, UInt32.toNat_toUInt64]
      exact ⟨Nat.div_add_mod' _ _, Nat.mod_lt _ hdivisor⟩
    rw [value_cons_comm, value_cons_comm]
    exact ih.extend hstep

/-! ## Long division -/

theorem shiftIn_eq_shiftLeftBits (limbs : Magnitude) (bit : UInt32) :
    shiftIn limbs bit = shiftLeftBits 1 limbs bit := by
  induction limbs generalizing bit with
  | nil => rfl
  | cons limb rest ih => rw [shiftIn, shiftLeftBits, ih]; rfl

theorem value_shiftIn (limbs : Magnitude) {bit : UInt32} (hbit : bit.toNat < 2) :
    value (shiftIn limbs bit) = 2 * value limbs + bit.toNat := by
  rw [shiftIn_eq_shiftLeftBits]
  exact value_shiftLeftBits (by decide) (by decide) limbs hbit

theorem canonical_shiftIn (hlimbs : Canonical limbs) {bit : UInt32} (hbit : bit.toNat < 2) :
    Canonical (shiftIn limbs bit) := by
  have hpos : 0 < limbs.length := List.length_pos_iff.2 hlimbs.1
  have hlong := (canonical_iff_length.1 hlimbs).2
  have hgrown : GrownFrom limbs.length (shiftIn limbs bit) :=
    shiftIn_eq_shiftLeftBits limbs bit ▸ grownFrom_shiftLeftBits 1 limbs bit
  apply hgrown.canonical hpos
  rw [value_shiftIn limbs hbit]
  omega

theorem toNat_bit (limb : UInt32) {position : Nat} (hposition : position < 32) :
    ((limb >>> UInt32.ofNat position) &&& 1).toNat = limb.toNat / 2 ^ position % 2 := by
  have hcount : (UInt32.ofNat position).toNat = position :=
    UInt32.toNat_ofNat_of_lt' (by change position < 2 ^ 32; omega)
  rw [UInt32.toNat_and, toNat_shiftRight limb (by omega), hcount]
  exact Nat.and_one_is_mod _

/-- With the low bits of a limb the remainder is divided on. The digits found go below those in
`digit`, which has room for them. -/
theorem divideLimb_spec (hdivisor : Canonical divisor) (limb : UInt32) {count : Nat}
    (hcount : count ≤ 32) (digit : UInt32) (hdigit : digit.toNat < 2 ^ (32 - count))
    {remainder : Magnitude} (hremainder : Canonical remainder)
    (hlt : value remainder < value divisor) :
    Canonical (divideLimb divisor limb count digit remainder).2 ∧
      ∃ digits, (divideLimb divisor limb count digit remainder).1.toNat =
          digit.toNat * 2 ^ count + digits ∧
        IsDivision (value remainder * 2 ^ count + limb.toNat % 2 ^ count) (value divisor) digits
          (value (divideLimb divisor limb count digit remainder).2) := by
  induction count generalizing digit remainder with
  | zero =>
    refine ⟨hremainder, 0, ?_, ?_, hlt⟩
    · rw [divideLimb, Nat.pow_zero, Nat.mul_one, Nat.add_zero]
    · rw [divideLimb, Nat.pow_zero, Nat.mod_one, Nat.zero_mul, Nat.zero_add, Nat.mul_one,
        Nat.add_zero]
  | succ count ih =>
    have hbit := toNat_bit limb (Nat.lt_of_succ_le hcount)
    unfold divideLimb
    generalize (limb >>> UInt32.ofNat count) &&& 1 = bit at hbit
    have hbound : bit.toNat < 2 := hbit ▸ Nat.mod_lt _ (by decide)
    have hcandidate := canonical_shiftIn hremainder hbound
    have hvalue := value_shiftIn remainder hbound
    have hroom : 2 * digit.toNat + 1 < 2 ^ (32 - count) := by
      have hpower : 2 ^ (32 - count) = 2 * 2 ^ (32 - (count + 1)) := by
        rw [← Nat.pow_succ']
        congr 1
        omega
      omega
    have hlimb : 2 ^ (32 - count) ≤ 2 ^ 32 := Nat.pow_le_pow_right (by decide) (by omega)
    have hnext {low : UInt32} (hlow : low.toNat < 2) :
        ((digit <<< 1) ||| low).toNat = 2 * digit.toNat + low.toNat := by
      rw [toNat_shiftLeft_or digit (by decide) hlow]
      change 2 * digit.toNat % 2 ^ 32 + low.toNat = _
      omega
    -- The dividend that is left, seen from the candidate.
    have hdividend : value remainder * 2 ^ (count + 1) + limb.toNat % 2 ^ (count + 1) =
        value (shiftIn remainder bit) * 2 ^ count + limb.toNat % 2 ^ count := by
      rw [Nat.mod_pow_succ, ← hbit, hvalue, Nat.pow_succ', Nat.add_mul, Nat.mul_comm (2 ^ count),
        ← Nat.mul_assoc, Nat.mul_comm (value remainder)]
      omega
    have hshifted : digit.toNat * 2 ^ (count + 1) = 2 * digit.toNat * 2 ^ count := by
      rw [Nat.pow_succ', ← Nat.mul_assoc, Nat.mul_comm digit.toNat]
    have hcompare := compare_eq_compare_value hcandidate hdivisor
    rw [hdividend, hshifted]
    dsimp only
    split
    · next hless =>
      have hsmall := Nat.compare_eq_lt.1 (hcompare.symm.trans hless)
      have hzero : (digit <<< 1).toNat = 2 * digit.toNat := by
        rw [← UInt32.or_zero (a := digit <<< 1), hnext (by decide)]
        rfl
      have hrest := ih (by omega) (digit <<< 1) (by omega) hcandidate hsmall
      rwa [hzero] at hrest
    · next hmore =>
      have hle : value divisor ≤ value (shiftIn remainder bit) := by
        rw [← Nat.not_lt, ← Nat.compare_eq_lt, ← hcompare]
        exact hmore
      have hdifference := value_sub hle
      have hone : ((digit <<< 1) ||| 1).toNat = 2 * digit.toNat + 1 := hnext (by decide)
      obtain ⟨hcanonical, digits, hdigits, hdivision⟩ :=
        ih (by omega) ((digit <<< 1) ||| 1) (by omega)
          (canonical_sub (shiftIn remainder bit) divisor) (by omega)
      refine ⟨hcanonical, 1 * 2 ^ count + digits, ?_, ?_⟩
      · rw [hdigits, hone, Nat.add_mul]
        omega
      · refine IsDivision.extend ⟨?_, ?_⟩ hdivision
        · omega
        · omega

theorem longDivide_spec (hdivisor : Canonical divisor) (hpos : 0 < value divisor)
    (limbs : Magnitude) :
    Canonical (longDivide divisor limbs).2 ∧
      IsDivision (value limbs) (value divisor) (value (longDivide divisor limbs).1)
        (value (longDivide divisor limbs).2) := by
  induction limbs with
  | nil =>
    unfold longDivide
    refine ⟨canonical_singleton 0, ?_, ?_⟩
    · simp
    · simpa using hpos
  | cons limb rest ih =>
    obtain ⟨hcanonical, hrest⟩ := ih
    unfold longDivide
    generalize longDivide divisor rest = result at hcanonical hrest
    obtain ⟨quotient, remainder⟩ := result
    obtain ⟨hcanonical', digits, hdigits, hstep⟩ :=
      divideLimb_spec hdivisor limb (Nat.le_refl 32) 0 (by decide) hcanonical
        hrest.remainder_lt
    rw [UInt32.toNat_zero, Nat.zero_mul, Nat.zero_add] at hdigits
    rw [Nat.mod_eq_of_lt limb.toNat_lt, ← hdigits] at hstep
    refine ⟨hcanonical', ?_⟩
    rw [value_cons_comm, value_cons_comm]
    exact hrest.extend hstep

/-! ## Quotients -/

theorem divRem_spec (hfirst : Canonical first) (hsecond : Canonical second)
    (hpos : 0 < value second) :
    Canonical (divRem first second).1 ∧ Canonical (divRem first second).2 ∧
      value (divRem first second).1 = value first / value second ∧
      value (divRem first second).2 = value first % value second := by
  have hcompare := compare_eq_compare_value hfirst hsecond
  unfold divRem
  split
  · next hless =>
    have hsmall := Nat.compare_eq_lt.1 (hcompare.symm.trans hless)
    refine ⟨canonical_singleton 0, hfirst, ?_, ?_⟩
    · rw [Nat.div_eq_of_lt hsmall]
      rfl
    · exact (Nat.mod_eq_of_lt hsmall).symm
  · next divisor _ =>
    have hvalue : value [divisor] = divisor.toNat := by simp
    rw [hvalue] at hpos ⊢
    have hdivision := divSmallWith_spec hpos first
    have hfits : (divSmallWith divisor first).2.toUInt32.toNat =
        (divSmallWith divisor first).2.toNat := by
      have hbound := Nat.lt_trans hdivision.remainder_lt divisor.toNat_lt
      rw [toNat_low, Nat.mod_eq_of_lt hbound]
    refine ⟨canonical_normalize _, canonical_singleton _, ?_, ?_⟩
    · exact (value_normalize _).trans hdivision.unique.1
    · change value [(divSmallWith divisor first).2.toUInt32] = _
      rw [value_cons, value_nil, hfits]
      exact hdivision.unique.2
  · obtain ⟨hcanonical, hdivision⟩ := longDivide_spec hsecond hpos first
    refine ⟨canonical_normalize _, hcanonical, ?_, hdivision.unique.2⟩
    exact (value_normalize _).trans hdivision.unique.1

end Magnitude

namespace Bignum

variable {a b : Bignum}

/-- The quotient is rounded toward zero and the remainder has the sign of the dividend. -/
theorem divRem_spec (ha : a.limbs.Canonical) (hb : b.limbs.Canonical) (hne : b.toInt ≠ 0) :
    ∃ quotient remainder, a.divRem b = .ok (quotient, remainder) ∧
      quotient.toInt = a.toInt.tdiv b.toInt ∧ remainder.toInt = a.toInt.tmod b.toInt ∧
      quotient.limbs.Canonical ∧ remainder.limbs.Canonical := by
  have hzero : ¬b.isZero = true := fun h ↦ hne ((isZero_iff_toInt_eq_zero b).1 h)
  have hpos : 0 < b.limbs.value := Nat.pos_of_ne_zero fun h ↦ hzero ((isZero_iff b).2 h)
  obtain ⟨hquotient, hremainder, hdiv, hmod⟩ := Magnitude.divRem_spec ha hb hpos
  refine ⟨_, _, by rw [divRem, if_neg hzero], ?_, ?_, ?_, ?_⟩
  · rw [toInt_clearZeroSign, toInt_mk, hdiv, toInt_eq_of_isNegative a, toInt_eq_of_isNegative b]
    cases a.isNegative <;> cases b.isNegative <;> simp [Int.neg_tdiv, Int.tdiv_neg]
  · rw [toInt_clearZeroSign, toInt_mk, hmod, Int.ofNat_tmod, toInt_eq_of_isNegative a,
      toInt_eq_of_isNegative b]
    cases a.isNegative <;> cases b.isNegative <;> simp [Int.neg_tmod, Int.tmod_neg]
  · rwa [limbs_clearZeroSign]
  · rwa [limbs_clearZeroSign]

theorem divRem_zero (hzero : b.toInt = 0) : a.divRem b = .error .divisionByZero := by
  rw [divRem, if_pos ((isZero_iff_toInt_eq_zero b).2 hzero)]

theorem div_spec (ha : a.limbs.Canonical) (hb : b.limbs.Canonical) (hne : b.toInt ≠ 0) :
    ∃ quotient, a.div b = .ok quotient ∧ quotient.toInt = a.toInt.tdiv b.toInt := by
  obtain ⟨quotient, remainder, hdivRem, hquotient, -⟩ := divRem_spec ha hb hne
  refine ⟨quotient, ?_, hquotient⟩
  rw [div, hdivRem]
  rfl

theorem rem_spec (ha : a.limbs.Canonical) (hb : b.limbs.Canonical) (hne : b.toInt ≠ 0) :
    ∃ remainder, a.rem b = .ok remainder ∧ remainder.toInt = a.toInt.tmod b.toInt ∧
      remainder.limbs.Canonical := by
  obtain ⟨quotient, remainder, hdivRem, -, hremainder, -, hcanonical⟩ := divRem_spec ha hb hne
  refine ⟨remainder, ?_, hremainder, hcanonical⟩
  rw [rem, hdivRem]
  rfl

/-- A remainder with the divisor added has the sign of the divisor, so the next remainder is
rounded down. -/
theorem tmod_tmod_add {x y : Int} (hy : y ≠ 0) : (x.tmod y + y).tmod y = x.fmod y := by
  have hpositive (x : Int) {y : Int} (hy : 0 < y) : (x.tmod y + y).tmod y = x.fmod y := by
    have habove := Int.lt_tmod_of_pos x hy
    have hrem : x.tmod y = x - y * x.tdiv y := Int.tmod_def x y
    calc
      (x.tmod y + y).tmod y = (x.tmod y + y) % y := Int.tmod_eq_emod_of_nonneg (by omega)
      _ = x % y := by rw [Int.add_emod_right, hrem, Int.sub_mul_emod_self_left]
      _ = x.fmod y := (Int.fmod_eq_emod_of_nonneg x (Int.le_of_lt hy)).symm
  rcases Int.lt_or_gt_of_ne hy with hneg | hpos
  · obtain ⟨z, rfl⟩ : ∃ z, y = -z := ⟨-y, (Int.neg_neg y).symm⟩
    have hmirror : x.tmod z + -z = -((-x).tmod z + z) := by
      rw [Int.neg_tmod]
      omega
    rw [Int.tmod_neg, Int.tmod_neg, hmirror, Int.neg_tmod, hpositive (-x) (by omega),
      ← Int.neg_fmod_neg, Int.neg_neg]
  · exact hpositive x hpos

theorem mod_spec (ha : a.limbs.Canonical) (hb : b.limbs.Canonical) (hne : b.toInt ≠ 0) :
    ∃ modulus, a.mod b = .ok modulus ∧ modulus.toInt = a.toInt.fmod b.toInt := by
  obtain ⟨remainder, hrem, hremainder, hcanonical⟩ := rem_spec ha hb hne
  obtain ⟨modulus, hmod, hmodulus, -⟩ := rem_spec (canonical_add hcanonical hb) hb hne
  refine ⟨modulus, ?_, ?_⟩
  · rw [mod, hrem]
    exact hmod
  · rw [hmodulus, toInt_add hcanonical hb, hremainder, tmod_tmod_add hne]

end Bignum

end RegisterMachine

import RegisterMachine.Proofs.Bignum.Printed
import RegisterMachine.Proofs.Bignum.Product
import RegisterMachine.Proofs.Bignum.Quotient
import RegisterMachine.Proofs.Bignum.Twos
import RegisterMachine.Proofs.Outcome

/-!
# Bignums that can be built

Bignums come from limbs, machine integers and text, and from operations on bignums. Each of these
leaves canonical limbs if it is given canonical limbs, so all bignums that can be built have
canonical limbs, and conversely. Comparison and hashing look at limbs only, division relies on
comparison, and all of them are thereby right about values.
-/

namespace RegisterMachine

namespace Magnitude

variable {limbs : Magnitude}

/-! ## Canonical results -/

theorem normalize_eq_self (hlimbs : Canonical limbs) : normalize limbs = limbs :=
  eq_of_value_eq (canonical_normalize limbs) hlimbs (value_normalize limbs)

theorem grownFrom_inc (limbs : Magnitude) : GrownFrom limbs.length (inc limbs) := by
  fun_induction inc limbs with
  | case1 => exact .inr ⟨rfl, by decide⟩
  | case2 limb rest _ ih => exact ih.cons 0
  | case3 => exact .inl rfl

theorem canonical_inc (hlimbs : Canonical limbs) : Canonical (inc limbs) := by
  obtain ⟨hne, hlong⟩ := canonical_iff_length.1 hlimbs
  refine (grownFrom_inc limbs).canonical (List.length_pos_iff.2 hne) (hlong.imp_right ?_)
  intro hlarge
  rw [value_inc]
  omega

theorem canonical_shiftLeft (hlimbs : Canonical limbs) (count : UInt32) :
    Canonical (shiftLeft limbs count) := by
  unfold shiftLeft
  split
  · exact hlimbs
  · exact canonical_normalize _

theorem canonical_shiftRight (limbs : Magnitude) (count : UInt32) :
    Canonical (shiftRight limbs count) :=
  canonical_normalize _

end Magnitude

namespace Bignum

variable {a b result : Bignum}

theorem canonical_divRem {quotient remainder : Bignum} (ha : a.limbs.Canonical)
    (hb : b.limbs.Canonical) (h : a.divRem b = .ok (quotient, remainder)) :
    quotient.limbs.Canonical ∧ remainder.limbs.Canonical := by
  by_cases hzero : b.toInt = 0
  · rw [divRem_zero hzero] at h
    cases h
  · obtain ⟨_, _, hdivRem, -, -, hcanonical⟩ := divRem_spec ha hb hzero
    rw [hdivRem] at h
    cases h
    exact hcanonical

theorem canonical_rem (ha : a.limbs.Canonical) (hb : b.limbs.Canonical)
    (h : a.rem b = .ok result) : result.limbs.Canonical := by
  obtain ⟨⟨quotient, remainder⟩, hdivRem, hresult⟩ := bind_eq_ok_iff.1 h
  cases hresult
  exact (canonical_divRem ha hb hdivRem).2

theorem canonical_inc (ha : a.limbs.Canonical) : a.inc.limbs.Canonical := by
  unfold inc
  split
  · rw [limbs_clearZeroSign]
    exact Magnitude.canonical_normalize _
  · exact Magnitude.canonical_inc ha

theorem canonical_dec (ha : a.limbs.Canonical) : a.dec.limbs.Canonical := by
  unfold dec
  split
  · exact Magnitude.canonical_singleton 1
  · split
    · exact Magnitude.canonical_inc ha
    · exact Magnitude.canonical_normalize _

theorem canonical_shiftRightBits (a : Bignum) (bits : UInt32) :
    (a.shiftRightBits bits).limbs.Canonical := by
  unfold shiftRightBits
  split
  · exact Magnitude.canonical_inc (Magnitude.canonical_shiftRight _ bits)
  · rw [limbs_clearZeroSign]
    exact Magnitude.canonical_shiftRight _ bits

/-! ## Operations -/

/-- The operations on two bignums. -/
inductive BinaryOperation where
  | add | sub | mul | div | rem | mod
  | shiftLeft | shiftRight | logicalShiftRight
  | and | or | xor

namespace BinaryOperation

/-- The result of an operation, if it has one. -/
def apply : BinaryOperation → Bignum → Bignum → Except BignumError Bignum
  | .add, a, b => .ok (a.add b)
  | .sub, a, b => .ok (a.sub b)
  | .mul, a, b => .ok (a.mul b)
  | .div, a, b => a.div b
  | .rem, a, b => a.rem b
  | .mod, a, b => a.mod b
  | .shiftLeft, a, b => a.shiftLeft b
  | .shiftRight, a, b => a.shiftRight b
  | .logicalShiftRight, a, b => a.logicalShiftRight b
  | .and, a, b => .ok (a.and b)
  | .or, a, b => .ok (a.or b)
  | .xor, a, b => .ok (a.xor b)

/-- What an operation in place makes of its first operand, which it leaves as it was if it has no
result. -/
def inPlace (operation : BinaryOperation) (a b : Bignum) : Bignum :=
  match operation.apply a b with
  | .ok result => result
  | .error _ => a

theorem canonical_apply (operation : BinaryOperation) (ha : a.limbs.Canonical)
    (hb : b.limbs.Canonical) (h : operation.apply a b = .ok result) :
    result.limbs.Canonical := by
  cases operation with
  | add =>
    cases h
    exact canonical_add ha hb
  | sub =>
    cases h
    exact canonical_addSigned ha hb _
  | mul =>
    cases h
    rw [Bignum.mul, limbs_clearZeroSign]
    exact Magnitude.canonical_normalize _
  | div =>
    obtain ⟨⟨quotient, remainder⟩, hdivRem, hresult⟩ := bind_eq_ok_iff.1 h
    cases hresult
    exact (canonical_divRem ha hb hdivRem).1
  | rem => exact canonical_rem ha hb h
  | mod =>
    obtain ⟨remainder, hrem, hresult⟩ := bind_eq_ok_iff.1 h
    exact canonical_rem (canonical_add (canonical_rem ha hb hrem) hb) hb hresult
  | shiftLeft =>
    obtain ⟨bits, -, hresult⟩ := bind_eq_ok_iff.1 h
    cases hresult
    exact Magnitude.canonical_shiftLeft ha bits
  | shiftRight =>
    obtain ⟨bits, -, hresult⟩ := bind_eq_ok_iff.1 h
    cases hresult
    exact canonical_shiftRightBits a bits
  | logicalShiftRight =>
    obtain ⟨bits, -, hresult⟩ := bind_eq_ok_iff.1 h
    cases hresult
    exact Magnitude.canonical_shiftRight _ bits
  | and | or | xor =>
    cases h
    exact Magnitude.canonical_normalize _

end BinaryOperation

/-- The operations on one bignum. -/
inductive UnaryOperation where
  | neg | abs | complement | inc | dec
  | shiftLeft (bits : UInt32) | shiftRight (bits : UInt32) | logicalShiftRight (bits : UInt32)

namespace UnaryOperation

/-- The result of an operation. -/
def apply : UnaryOperation → Bignum → Bignum
  | .neg, a => a.neg
  | .abs, a => a.abs
  | .complement, a => a.complement
  | .inc, a => a.inc
  | .dec, a => a.dec
  | .shiftLeft bits, a => a.shiftLeftBits bits
  | .shiftRight bits, a => a.shiftRightBits bits
  | .logicalShiftRight bits, a => a.logicalShiftRightBits bits

theorem canonical_apply (operation : UnaryOperation) (ha : a.limbs.Canonical) :
    (operation.apply a).limbs.Canonical := by
  cases operation with
  | neg | abs => exact ha
  | complement => exact canonical_dec ha
  | inc => exact canonical_inc ha
  | dec => exact canonical_dec ha
  | shiftLeft bits => exact Magnitude.canonical_shiftLeft ha bits
  | shiftRight bits => exact canonical_shiftRightBits a bits
  | logicalShiftRight bits => exact Magnitude.canonical_shiftRight _ bits

end UnaryOperation

/-! ## Bignums that can be built -/

/-- The bignums that constructors and operations build. -/
inductive Built : Bignum → Prop
  | zero : Built zero
  | withCapacity {capacity : Nat} {n : Bignum} : withCapacity capacity = .ok n → Built n
  | ofLimbs (limbs : List UInt32) (negative : Bool) : Built (ofLimbs limbs negative)
  | ofInt32 (n : Int32) : Built (ofInt32 n)
  | ofUInt32 (n : UInt32) : Built (ofUInt32 n)
  | ofInt64 (n : Int64) : Built (ofInt64 n)
  | ofUInt64 (n : UInt64) : Built (ofUInt64 n)
  | parse {text : String} {n : Bignum} : parse text = .ok n → Built n
  | unary {a : Bignum} (operation : UnaryOperation) : Built a → Built (operation.apply a)
  | binary {a b result : Bignum} (operation : BinaryOperation) : Built a → Built b →
      operation.apply a b = .ok result → Built result
  | inPlace {a b : Bignum} (operation : BinaryOperation) : Built a → Built b →
      Built (operation.inPlace a b)
  | quotient {a b quotient remainder : Bignum} : Built a → Built b →
      a.divRem b = .ok (quotient, remainder) → Built quotient
  | remainder {a b quotient remainder : Bignum} : Built a → Built b →
      a.divRem b = .ok (quotient, remainder) → Built remainder

theorem Built.canonical (built : Built a) : a.limbs.Canonical := by
  induction built with
  | zero => exact Magnitude.canonical_singleton 0
  | withCapacity h =>
    unfold Bignum.withCapacity at h
    split at h
    · cases h
    · split at h
      · cases h
      · cases h
        exact Magnitude.canonical_singleton 0
  | ofLimbs | ofInt64 | ofUInt64 => exact Magnitude.canonical_normalize _
  | ofInt32 | ofUInt32 => exact Magnitude.canonical_singleton _
  | parse h => exact (parse_normal h).canonical
  | unary operation _ ih => exact operation.canonical_apply ih
  | binary operation _ _ h ihfirst ihsecond =>
    exact operation.canonical_apply ihfirst ihsecond h
  | inPlace operation _ _ ihfirst ihsecond =>
    unfold BinaryOperation.inPlace
    split
    · next h => exact operation.canonical_apply ihfirst ihsecond h
    · exact ihfirst
  | quotient _ _ h ihfirst ihsecond => exact (canonical_divRem ihfirst ihsecond h).1
  | remainder _ _ h ihfirst ihsecond => exact (canonical_divRem ihfirst ihsecond h).2

/-- The bignums that can be built are those with canonical limbs. -/
theorem built_iff : Built a ↔ a.limbs.Canonical := by
  refine ⟨Built.canonical, fun hcanonical ↦ ?_⟩
  have hself : ofLimbs a.limbs a.negative = a := by
    rw [ofLimbs, Magnitude.normalize_eq_self hcanonical]
  rw [← hself]
  exact .ofLimbs a.limbs a.negative

/-! ## Comparison -/

theorem hashed_eq_iff (ha : a.limbs.Canonical) (hb : b.limbs.Canonical) :
    a.hashed = b.hashed ↔ a.toInt = b.toInt := by
  rw [hashed, hashed, Prod.mk.injEq]
  constructor
  · rintro ⟨hsign, hlimbs⟩
    rw [toInt_eq_of_isNegative a, toInt_eq_of_isNegative b, hsign, hlimbs]
  · intro hvalue
    constructor
    · rw [Bool.eq_iff_iff, isNegative_iff_toInt_neg, isNegative_iff_toInt_neg, hvalue]
    · apply Magnitude.eq_of_value_eq ha hb
      rw [← natAbs_toInt, ← natAbs_toInt, hvalue]

theorem equals_iff (ha : a.limbs.Canonical) (hb : b.limbs.Canonical) :
    a.equals b = true ↔ a.toInt = b.toInt := by
  rw [equals, beq_iff_eq, compare_eq_compare_toInt ha hb, Std.compare_eq_iff_eq]

/-- Bignums are canonical, however they were built. So they compare as their values do, are equal
exactly if their values are, and are then hashed alike. -/
theorem built_by_value (ha : Built a) (hb : Built b) :
    a.limbs.Canonical ∧ a.compare b = Ord.compare a.toInt b.toInt ∧
      (a.equals b = true ↔ a.toInt = b.toInt) ∧ (a.hashed = b.hashed ↔ a.toInt = b.toInt) :=
  ⟨ha.canonical, compare_eq_compare_toInt ha.canonical hb.canonical,
    equals_iff ha.canonical hb.canonical, hashed_eq_iff ha.canonical hb.canonical⟩

/-- Two limbs that are subtracted from themselves in place. -/
def spent : Bignum :=
  BinaryOperation.sub.inPlace (ofUInt64 0xffffffffffffffff) (ofUInt64 0xffffffffffffffff)

/-- A zero with its flag set, and a zero that is left of two limbs. -/
theorem built_by_value_zeros :
    Built (ofLimbs [0, 0] true) ∧ Built spent ∧ (ofLimbs [0, 0] true).equals spent = true ∧
      (ofLimbs [0, 0] true).hashed = spent.hashed := by
  have flagged : Built (ofLimbs [0, 0] true) := .ofLimbs _ _
  have left : Built spent := .inPlace .sub (.ofUInt64 _) (.ofUInt64 _)
  obtain ⟨-, -, hequals, hhashed⟩ := built_by_value flagged left
  exact ⟨flagged, left, hequals.2 (by decide +kernel), hhashed.2 (by decide +kernel)⟩

/-! ## Division -/

/-- A quotient that is rounded toward zero, and the remainder that it leaves. -/
structure TruncatedDivision (dividend divisor quotient remainder : Int) : Prop where
  equation : dividend = quotient * divisor + remainder
  remainder_lt : remainder.natAbs < divisor.natAbs
  truncated : quotient = dividend.tdiv divisor
  remainder_sign : remainder = 0 ∨ remainder.sign = dividend.sign

theorem truncatedDivision_tdiv_tmod (x : Int) {y : Int} (hy : y ≠ 0) :
    TruncatedDivision x y (x.tdiv y) (x.tmod y) where
  equation := (Int.tdiv_mul_add_tmod x y).symm
  remainder_lt := by
    rw [Int.natAbs_tmod]
    exact Nat.mod_lt _ (Int.natAbs_pos.2 hy)
  truncated := rfl
  remainder_sign := by
    by_cases hdvd : y ∣ x
    · exact .inl (Int.tmod_eq_zero_of_dvd hdvd)
    · exact .inr (by rw [Int.sign_tmod, if_neg hdvd])

/-- The quotient and the remainder are exact, canonical, and the same from each operation, and there
are none exactly if the divisor is a zero, of either flag. -/
theorem division_exact (ha : Built a) (hb : Built b) :
    (b.toInt ≠ 0 → ∃ quotient remainder, a.divRem b = .ok (quotient, remainder) ∧
        TruncatedDivision a.toInt b.toInt quotient.toInt remainder.toInt ∧
        quotient.limbs.Canonical ∧ remainder.limbs.Canonical ∧
        a.div b = .ok quotient ∧ a.rem b = .ok remainder) ∧
      (a.divRem b = .error .divisionByZero ↔ b.toInt = 0) ∧
      (a.div b = .error .divisionByZero ↔ b.toInt = 0) ∧
      (a.rem b = .error .divisionByZero ↔ b.toInt = 0) := by
  by_cases hzero : b.toInt = 0
  · have hdivRem : a.divRem b = .error .divisionByZero := divRem_zero hzero
    refine ⟨fun hne ↦ absurd hzero hne, iff_of_true hdivRem hzero, iff_of_true ?_ hzero,
      iff_of_true ?_ hzero⟩
    · rw [div, hdivRem]
      rfl
    · rw [rem, hdivRem]
      rfl
  · obtain ⟨quotient, remainder, hdivRem, hquotient, hremainder, hcanonical⟩ :=
      divRem_spec ha.canonical hb.canonical hzero
    have hdiv : a.div b = .ok quotient := by
      rw [div, hdivRem]
      rfl
    have hrem : a.rem b = .ok remainder := by
      rw [rem, hdivRem]
      rfl
    refine ⟨fun _ ↦ ⟨quotient, remainder, hdivRem, ?_, hcanonical.1, hcanonical.2, hdiv, hrem⟩,
      iff_of_false (by simp [hdivRem]) hzero, iff_of_false (by simp [hdiv]) hzero,
      iff_of_false (by simp [hrem]) hzero⟩
    rw [hquotient, hremainder]
    exact truncatedDivision_tdiv_tmod a.toInt hzero

/-- A negative dividend of three limbs and a divisor of two, whose lower limb is zero. -/
theorem division_exact_long :
    Built (ofLimbs [5, 0, 0x80000000] true) ∧ Built (ofLimbs [0, 3] false) ∧
      (ofLimbs [0, 3] false).toInt ≠ 0 ∧
      ∃ quotient remainder, (ofLimbs [5, 0, 0x80000000] true).divRem (ofLimbs [0, 3] false) =
          .ok (quotient, remainder) ∧
        TruncatedDivision (-39614081257132168796771975173) 12884901888 quotient.toInt
          remainder.toInt := by
  have dividend : Built (ofLimbs [5, 0, 0x80000000] true) := .ofLimbs _ _
  have divisor : Built (ofLimbs [0, 3] false) := .ofLimbs _ _
  have hne : (ofLimbs [0, 3] false).toInt ≠ 0 := by decide
  obtain ⟨quotient, remainder, hdivRem, hdivision, -⟩ := (division_exact dividend divisor).1 hne
  exact ⟨dividend, divisor, hne, quotient, remainder, hdivRem, hdivision⟩

end Bignum

end RegisterMachine

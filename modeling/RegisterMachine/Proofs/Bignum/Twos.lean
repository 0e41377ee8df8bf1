import RegisterMachine.Proofs.Bignum.Sum

/-!
# Two's complement forms of bignums

The two's complement form in a number of limbs is the value modulo a power of two, and reading it
back chooses the representative around zero. The lowest limb of a form does not depend on its width,
so a bitwise operation on bignums does with the low 32 bits what it does with limbs.
-/

namespace RegisterMachine.Bignum

open Magnitude

/-! ## Negation -/

theorem length_negateLimbs (limbs : Magnitude) (carry : Bool) :
    (negateLimbs limbs carry).length = limbs.length := by
  fun_induction negateLimbs limbs carry with
  | case1 => rfl
  | case2 limb rest ih => rw [List.length_cons, List.length_cons, ih]
  | case3 limb rest ih => rw [List.length_cons, List.length_cons, ih]

theorem value_complementLimbs (limbs : Magnitude) :
    value (negateLimbs limbs false) + value limbs + 1 = 2 ^ (32 * limbs.length) := by
  induction limbs with
  | nil => rfl
  | cons limb rest ih =>
    have hlimb := limb.toNat_lt
    have hnot : (~~~limb).toNat = 2 ^ 32 - 1 - limb.toNat := UInt32.toNat_not limb
    rw [negateLimbs, value_cons, value_cons, hnot, List.length_cons, two_pow_limbs_succ, ← ih]
    omega

/-- Negation modulo the power of two that the limbs do not reach. -/
theorem value_negateLimbs (limbs : Magnitude) :
    value (negateLimbs limbs true) = (2 ^ (32 * limbs.length) - value limbs) %
      2 ^ (32 * limbs.length) := by
  induction limbs with
  | nil => rfl
  | cons limb rest ih =>
    have hlimb := limb.toNat_lt
    have hrest := value_lt rest
    have hcomplement := value_complementLimbs rest
    have hneg : (~~~limb + 1).toNat = (2 ^ 32 - limb.toNat) % 2 ^ 32 := by
      have hnot : (~~~limb).toNat = 2 ^ 32 - 1 - limb.toNat := UInt32.toNat_not limb
      rw [UInt32.toNat_add, hnot]
      change (2 ^ 32 - 1 - limb.toNat + 1) % 2 ^ 32 = _
      congr 1
      omega
    rw [negateLimbs, value_cons, value_cons, hneg, List.length_cons, two_pow_limbs_succ]
    generalize 2 ^ (32 * rest.length) = power at ih hrest hcomplement
    by_cases hzero : limb.toNat = 0
    · -- The carry of a zero limb goes on to the next one.
      rw [hzero] at hneg ⊢
      have hcarry : (~~~limb + 1 == 0) = true := by
        rw [beq_iff_eq, ← UInt32.toNat_inj, hneg]
        rfl
      rw [hcarry, ih, Nat.zero_add, ← Nat.mul_sub, Nat.mul_mod_mul_left]
      omega
    · have hcarry : (~~~limb + 1 == 0) = false := by
        rw [beq_eq_false_iff_ne, ne_eq, ← UInt32.toNat_inj, hneg, UInt32.toNat_zero]
        omega
      rw [hcarry, Nat.mod_eq_of_lt (by omega), Nat.mod_eq_of_lt (by omega)]
      omega

/-! ## Forms -/

/-- The two's complement form is the value modulo the power of two of its width. -/
theorem value_toTwos (a : Bignum) {width : Nat} (hwidth : a.limbs.length ≤ width) :
    (value (a.toTwos width) : Int) = a.toInt % (2 ^ (32 * width) : Nat) := by
  have hpadded : value (a.limbs ++ List.replicate (width - a.limbs.length) 0) = value a.limbs := by
    rw [value_append, value_replicate_zero, Nat.mul_zero, Nat.add_zero]
  have hlength : (a.limbs ++ List.replicate (width - a.limbs.length) 0).length = width := by
    rw [List.length_append, List.length_replicate, Nat.add_sub_cancel' hwidth]
  have hlt := value_lt (a.limbs ++ List.replicate (width - a.limbs.length) 0)
  rw [hlength, hpadded] at hlt
  rw [toTwos, toInt_eq_of_isNegative]
  split
  · rw [value_negateLimbs, hlength, hpadded, Int.natCast_emod, Int.natCast_sub (Nat.le_of_lt hlt),
      Int.sub_eq_add_neg, Int.add_emod_left]
  · rw [hpadded, ← Int.natCast_emod, Nat.mod_eq_of_lt hlt]

theorem length_toTwos (a : Bignum) {width : Nat} (hwidth : a.limbs.length ≤ width) :
    (a.toTwos width).length = width := by
  rw [toTwos]
  split
  · rw [length_negateLimbs, List.length_append, List.length_replicate, Nat.add_sub_cancel' hwidth]
  · rw [List.length_append, List.length_replicate, Nat.add_sub_cancel' hwidth]

theorem and_top_bit_eq_zero_iff (limb : UInt32) :
    limb &&& 0x80000000 = 0 ↔ limb.toNat < 2 ^ 31 := by
  have hbound := limb.toNat_lt
  rw [← UInt32.toNat_inj, UInt32.toNat_and]
  change limb.toNat &&& 2 ^ 31 = 0 ↔ _
  constructor
  · intro hzero
    have hbit : (limb.toNat &&& 2 ^ 31).testBit 31 = false := by rw [hzero, Nat.zero_testBit]
    rw [Nat.testBit_and, Nat.testBit_two_pow_self, Bool.and_true,
      Nat.testBit_eq_decide_div_mod_eq, decide_eq_false_iff_not] at hbit
    omega
  · intro hlt
    apply Nat.eq_of_testBit_eq
    intro position
    rw [Nat.testBit_and, Nat.testBit_two_pow, Nat.zero_testBit]
    by_cases htop : 31 = position
    · rw [← htop, Nat.testBit_lt_two_pow hlt, Bool.false_and]
    · simp [htop]

/-- The top bit tells the upper half of the forms of a width. -/
theorem top_bit_eq_zero_iff (limbs : Magnitude) :
    limbs.getLast?.getD 0 &&& 0x80000000 = 0 ↔ 2 * value limbs < 2 ^ (32 * limbs.length) := by
  rcases List.eq_nil_or_concat limbs with rfl | ⟨low, top, hconcat⟩
  · decide
  · have hlow := value_lt low
    rw [List.concat_eq_append] at hconcat
    rw [hconcat, List.getLast?_concat, Option.getD_some, and_top_bit_eq_zero_iff, value_concat,
      List.length_append, List.length_singleton, two_pow_limbs_succ]
    generalize 2 ^ (32 * low.length) = power at hlow
    constructor
    · intro hclear
      have hsmall : power * top.toNat ≤ power * (2 ^ 31 - 1) :=
        Nat.mul_le_mul_left _ (Nat.le_pred_of_lt hclear)
      omega
    · intro hhalf
      apply Nat.lt_of_not_le
      intro hset
      have hlarge : power * 2 ^ 31 ≤ power * top.toNat := Nat.mul_le_mul_left _ hset
      omega

/-- Reading a form gives the value around zero that it stands for. -/
theorem toInt_ofTwos (limbs : Magnitude) :
    (ofTwos limbs).toInt = (value limbs : Int).bmod (2 ^ (32 * limbs.length)) := by
  have hlt := value_lt limbs
  have htop := top_bit_eq_zero_iff limbs
  have hneg := value_negateLimbs limbs
  unfold ofTwos
  rw [Int.bmod_def, ← Int.natCast_emod, Nat.mod_eq_of_lt hlt, toInt_mk, value_normalize]
  generalize 2 ^ (32 * limbs.length) = power at hlt htop hneg
  by_cases hclear : limbs.getLast?.getD 0 &&& 0x80000000 = 0
  · have hhalf := htop.1 hclear
    have hflag : (limbs.getLast?.getD 0 &&& 0x80000000 != 0) = false := by simpa using hclear
    rw [hflag, if_neg (by decide), if_neg (by decide), if_pos (by omega)]
  · have hhalf := mt htop.2 hclear
    have hflag : (limbs.getLast?.getD 0 &&& 0x80000000 != 0) = true := by simpa using hclear
    rw [Nat.mod_eq_of_lt (by omega)] at hneg
    rw [hflag, if_pos rfl, if_pos rfl, if_neg (by omega), hneg]
    omega

/-! ## The lowest limb -/

theorem two_pow_dvd_two_pow_limbs (count : Nat) : 2 ^ 32 ∣ 2 ^ (32 * (count + 1)) :=
  ⟨2 ^ (32 * count), two_pow_limbs_succ count⟩

theorem ofInt_bmod_limbs (n : Int) (count : Nat) :
    Int32.ofInt (n.bmod (2 ^ (32 * (count + 1)))) = Int32.ofInt n := by
  rw [← Int32.toInt_inj, Int32.toInt_ofInt, Int32.toInt_ofInt]
  exact Int.bmod_bmod_of_dvd (two_pow_dvd_two_pow_limbs count)

theorem toNat_toUInt32_ofInt (n : Int) : (Int32.ofInt n).toUInt32.toNat = (n % 2 ^ 32).toNat := by
  unfold Int32.ofInt Int32.toUInt32
  simp

theorem ofInt_value_cons (limb : UInt32) (rest : Magnitude) :
    Int32.ofInt (value (limb :: rest)) = limb.toInt32 := by
  have hlimb := limb.toNat_lt
  have hlow : (Int32.ofInt (value (limb :: rest))).toUInt32 = limb := by
    rw [← UInt32.toNat_inj, toNat_toUInt32_ofInt, value_cons]
    omega
  rw [← hlow, Int32.toInt32_toUInt32, hlow]

/-- The lowest limb of a form is the value modulo 2³². -/
theorem head_toTwos (a : Bignum) (width : Nat) (hwidth : a.limbs.length ≤ width + 1) :
    ∃ rest, a.toTwos (width + 1) = (Int32.ofInt a.toInt).toUInt32 :: rest := by
  obtain ⟨limb, rest, hform⟩ := List.exists_cons_of_length_eq_add_one (length_toTwos a hwidth)
  have hvalue := value_toTwos a hwidth
  rw [hform] at hvalue
  have hsame : Int32.ofInt a.toInt = limb.toInt32 := by
    rw [← ofInt_value_cons limb rest, hvalue, ← ofInt_bmod_limbs (_ % _) width, Int.emod_bmod,
      ofInt_bmod_limbs]
  refine ⟨rest, ?_⟩
  rw [hform, hsame, UInt32.toUInt32_toInt32]

/-- On the low 32 bits a bitwise operation is that of limbs. -/
theorem ofInt_toInt_bitwise (op : UInt32 → UInt32 → UInt32) (a b : Bignum) :
    Int32.ofInt (bitwise op a b).toInt =
      (op (Int32.ofInt a.toInt).toUInt32 (Int32.ofInt b.toInt).toUInt32).toInt32 := by
  obtain ⟨as, ha⟩ := head_toTwos a (max a.limbs.length b.limbs.length) (by omega)
  obtain ⟨bs, hb⟩ := head_toTwos b (max a.limbs.length b.limbs.length) (by omega)
  rw [bitwise, ha, hb, List.zipWith_cons_cons, toInt_ofTwos, List.length_cons, ofInt_bmod_limbs,
    ofInt_value_cons]

end RegisterMachine.Bignum

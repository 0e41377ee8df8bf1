import RegisterMachine.Proofs.Bignum.Sum

/-!
# Shifts of bignums

A shift by fewer bits than a limb has moves bits of each limb into its neighbour; whole limbs are
put in or dropped for the rest. On values a left shift is a product by a power of two, a right shift
the quotient rounded down.
-/

namespace RegisterMachine

namespace Magnitude

variable {limbs : Magnitude} {count low : UInt32}

/-! ## Bits that leave a limb -/

theorem two_pow_limb {bits : Nat} (hbits : bits ≤ 32) : 2 ^ 32 = 2 ^ bits * 2 ^ (32 - bits) := by
  rw [← Nat.pow_add, Nat.add_sub_cancel' hbits]

/-- The bits of a limb that stay in it after a left shift, with other bits in their place. -/
theorem toNat_shiftLeft_or (limb : UInt32) (hcount : count.toNat < 32)
    (hlow : low.toNat < 2 ^ count.toNat) :
    ((limb <<< count) ||| low).toNat = 2 ^ count.toNat * limb.toNat % 2 ^ 32 + low.toNat := by
  rw [UInt32.toNat_or, UInt32.toNat_shiftLeft, Nat.mod_eq_of_lt hcount, Nat.shiftLeft_eq,
    Nat.mul_comm limb.toNat, two_pow_limb (Nat.le_of_lt hcount), Nat.mul_mod_mul_left,
    Nat.two_pow_add_eq_or_of_lt hlow]

theorem toNat_shiftRight (limb : UInt32) (hcount : count.toNat < 32) :
    (limb >>> count).toNat = limb.toNat / 2 ^ count.toNat := by
  rw [UInt32.toNat_shiftRight, Nat.mod_eq_of_lt hcount, Nat.shiftRight_eq_div_pow]

theorem toNat_width_sub (hcount : count.toNat < 32) : (32 - count).toNat = 32 - count.toNat :=
  UInt32.toNat_sub_of_le 32 count (UInt32.le_iff_toNat_le.2 (Nat.le_of_lt hcount))

/-! ## Left shifts -/

/-- The bits that leave a limb are the low bits of the next one. -/
theorem value_shiftLeftBits (hpos : 0 < count.toNat) (hcount : count.toNat < 32)
    (limbs : Magnitude) (hlow : low.toNat < 2 ^ count.toNat) :
    value (shiftLeftBits count limbs low) = 2 ^ count.toNat * value limbs + low.toNat := by
  induction limbs generalizing low with
  | nil =>
    unfold shiftLeftBits
    split
    · next hzero => simp [hzero]
    · simp
  | cons limb rest ih =>
    have hwidth : (32 - count).toNat < 32 := by
      rw [toNat_width_sub hcount]
      omega
    have hsplit := two_pow_limb (Nat.le_of_lt hcount)
    have hout : (limb >>> (32 - count)).toNat = 2 ^ count.toNat * limb.toNat / 2 ^ 32 := by
      rw [toNat_shiftRight limb hwidth, toNat_width_sub hcount, hsplit,
        Nat.mul_div_mul_left _ _ (Nat.two_pow_pos _)]
    have hnext : (limb >>> (32 - count)).toNat < 2 ^ count.toNat := by
      rw [toNat_shiftRight limb hwidth, toNat_width_sub hcount]
      exact Nat.div_lt_of_lt_mul (Nat.mul_comm _ _ ▸ hsplit ▸ limb.toNat_lt)
    have hvalue : 2 ^ count.toNat * value (limb :: rest) =
        2 ^ count.toNat * limb.toNat + 2 ^ 32 * (2 ^ count.toNat * value rest) := by
      rw [value_cons, Nat.mul_add, Nat.mul_left_comm]
    rw [shiftLeftBits, value_cons, ih hnext, toNat_shiftLeft_or limb hcount hlow, hout, hvalue]
    omega

theorem grownFrom_shiftLeftBits (count : UInt32) (limbs : Magnitude) (low : UInt32) :
    GrownFrom limbs.length (shiftLeftBits count limbs low) := by
  induction limbs generalizing low with
  | nil =>
    unfold shiftLeftBits
    split
    · exact .inl rfl
    · next hpos =>
      have hne : low.toNat ≠ 0 := fun h ↦ hpos (UInt32.toNat_inj.1 h)
      refine .inr ⟨rfl, ?_⟩
      rw [value_cons, value_nil, List.length_nil, Nat.mul_zero, Nat.pow_zero]
      omega
  | cons limb rest ih => exact (ih _).cons _

/-- A count is so many limbs and so many bits. -/
theorem two_pow_count (count : UInt32) :
    2 ^ count.toNat = 2 ^ (32 * (count / 32).toNat) * 2 ^ (count % 32).toNat := by
  rw [← Nat.pow_add, UInt32.toNat_div, UInt32.toNat_mod]
  exact congrArg (2 ^ ·) (Nat.div_add_mod count.toNat 32).symm

theorem toNat_count_mod (count : UInt32) : (count % 32).toNat < 32 := by
  rw [UInt32.toNat_mod]
  exact Nat.mod_lt _ (by decide)

theorem toNat_pos_of_ne_zero {count : UInt32} (hne : count ≠ 0) : 0 < count.toNat :=
  Nat.pos_of_ne_zero fun h ↦ hne (UInt32.toNat_inj.1 h)

theorem value_shiftLeft (limbs : Magnitude) (count : UInt32) :
    value (shiftLeft limbs count) = value limbs * 2 ^ count.toNat := by
  unfold shiftLeft
  split
  · next hzero => rw [(isZero_iff_value_eq_zero limbs).1 hzero, Nat.zero_mul]
  · have hshifted : value (if count % 32 = 0 then limbs else shiftLeftBits (count % 32) limbs 0) =
        2 ^ (count % 32).toNat * value limbs := by
      split
      · next hzero => rw [hzero, UInt32.toNat_zero, Nat.pow_zero, Nat.one_mul]
      · next hne =>
        rw [value_shiftLeftBits (toNat_pos_of_ne_zero hne) (toNat_count_mod count) limbs
          (Nat.two_pow_pos _)]
        rfl
    rw [value_normalize, value_append, value_replicate_zero, List.length_replicate, hshifted,
      two_pow_count count, Nat.zero_add, Nat.mul_comm (value limbs), Nat.mul_assoc]

/-! ## Right shifts -/

theorem value_drop (limbs : Magnitude) (count : Nat) :
    value (limbs.drop count) = value limbs / 2 ^ (32 * count) := by
  rcases Nat.le_total count limbs.length with hle | hle
  · have hlow := value_lt (limbs.take count)
    have hvalue := value_append (limbs.take count) (limbs.drop count)
    rw [List.take_append_drop] at hvalue
    rw [List.length_take_of_le hle] at hlow hvalue
    rw [hvalue, Nat.add_mul_div_left _ _ (Nat.two_pow_pos _), Nat.div_eq_of_lt hlow, Nat.zero_add]
  · have hlt : value limbs < 2 ^ (32 * count) :=
      Nat.lt_of_lt_of_le (value_lt limbs) (Nat.pow_le_pow_right (by decide) (by omega))
    rw [List.drop_eq_nil_of_le hle, Nat.div_eq_of_lt hlt, value_nil]

theorem value_mod_of_headD (limbs : Magnitude) (hcount : count.toNat < 32) :
    value limbs % 2 ^ count.toNat = (limbs.headD 0).toNat % 2 ^ count.toNat := by
  cases limbs with
  | nil => rfl
  | cons limb rest =>
    rw [value_cons, two_pow_limb (Nat.le_of_lt hcount), Nat.mul_assoc, Nat.add_mul_mod_self_left,
      List.headD_cons]

theorem value_shiftRightBits (hpos : 0 < count.toNat) (hcount : count.toNat < 32)
    (limbs : Magnitude) : value (shiftRightBits count limbs) = value limbs / 2 ^ count.toNat := by
  induction limbs with
  | nil => rw [shiftRightBits, value_nil, Nat.zero_div]
  | cons limb rest ih =>
    have hwidth := toNat_width_sub hcount
    have hsplit := two_pow_limb (Nat.le_of_lt hcount)
    have hkept : (limb >>> count).toNat < 2 ^ (32 - count).toNat := by
      rw [toNat_shiftRight limb hcount, hwidth]
      exact Nat.div_lt_of_lt_mul (hsplit ▸ limb.toNat_lt)
    have hlimb : ((limb >>> count) ||| (rest.headD 0 <<< (32 - count))).toNat =
        2 ^ (32 - count.toNat) * (value rest % 2 ^ count.toNat) +
          limb.toNat / 2 ^ count.toNat := by
      rw [UInt32.or_comm, toNat_shiftLeft_or _ (by omega) hkept, hwidth,
        toNat_shiftRight limb hcount, hsplit, Nat.mul_comm (2 ^ count.toNat),
        Nat.mul_mod_mul_left, value_mod_of_headD rest hcount]
    have hrest := Nat.div_add_mod (value rest) (2 ^ count.toNat)
    calc
      value (shiftRightBits count (limb :: rest))
        = 2 ^ (32 - count.toNat) * (value rest % 2 ^ count.toNat) +
            limb.toNat / 2 ^ count.toNat + 2 ^ 32 * (value rest / 2 ^ count.toNat) := by
          rw [shiftRightBits, value_cons, hlimb, ih]
      _ = limb.toNat / 2 ^ count.toNat + 2 ^ (32 - count.toNat) *
            (2 ^ count.toNat * (value rest / 2 ^ count.toNat) + value rest % 2 ^ count.toNat) := by
          rw [Nat.mul_add, ← Nat.mul_assoc, Nat.mul_comm _ (2 ^ count.toNat), ← hsplit]
          omega
      _ = value (limb :: rest) / 2 ^ count.toNat := by
          rw [hrest, value_cons, hsplit, Nat.mul_assoc,
            Nat.add_mul_div_left _ _ (Nat.two_pow_pos _)]

theorem value_shiftRight (limbs : Magnitude) (count : UInt32) :
    value (shiftRight limbs count) = value limbs / 2 ^ count.toNat := by
  have hshifted (kept : Magnitude) :
      value (if count % 32 = 0 then kept else shiftRightBits (count % 32) kept) =
        value kept / 2 ^ (count % 32).toNat := by
    split
    · next hzero => rw [hzero, UInt32.toNat_zero, Nat.pow_zero, Nat.div_one]
    · next hne =>
      exact value_shiftRightBits (toNat_pos_of_ne_zero hne) (toNat_count_mod count) kept
  unfold shiftRight
  rw [value_normalize, hshifted, value_drop, Nat.div_div_eq_div_mul, ← two_pow_count]

end Magnitude

namespace Bignum

theorem toInt_shiftLeftBits (a : Bignum) (bits : UInt32) :
    (a.shiftLeftBits bits).toInt = a.toInt * 2 ^ bits.toNat := by
  unfold shiftLeftBits toInt
  rw [Magnitude.value_shiftLeft]
  split
  · rw [Int.neg_mul]
    simp
  · simp

/-- Also a negative value is rounded down. -/
theorem toInt_shiftRightBits (a : Bignum) (bits : UInt32) :
    (a.shiftRightBits bits).toInt = a.toInt / 2 ^ bits.toNat := by
  have hpower : (2 : Int) ^ bits.toNat = ((2 ^ bits.toNat : Nat) : Int) :=
    (Int.natCast_pow 2 _).symm
  rw [toInt_eq_of_isNegative a, hpower]
  unfold shiftRightBits
  split
  · next hbelow =>
    have hflag : a.negative = true := (Bool.and_eq_true_iff.1 hbelow).1
    have hpos := (toInt_of_isNegative hbelow).2
    obtain ⟨less, hless⟩ := Nat.exists_eq_add_one_of_ne_zero (Nat.ne_of_gt hpos)
    have hfloor : -((less + 1 : Nat) : Int) / ((2 ^ bits.toNat : Nat) : Int) =
        -(((less / 2 ^ bits.toNat : Nat) : Int) + 1) :=
      Int.negSucc_ediv less (Int.natCast_pos.2 (Nat.two_pow_pos _))
    rw [toInt, if_pos hflag, Magnitude.value_inc, Magnitude.value_shiftRight,
      Magnitude.value_dec hpos, hless, hfloor]
    rfl
  · next habove =>
    rw [toInt_clearZeroSign, toInt, Magnitude.value_shiftRight]
    cases hflag : a.negative with
    | false => exact (Int.natCast_ediv _ _).symm
    | true =>
      -- A flag that does not make the value negative stands on zero.
      have hzero : a.isZero = true := by simpa [isNegative, hflag] using habove
      rw [(isZero_iff a).1 hzero, Nat.zero_div]
      simp

/-- A positive count of 32 bits is taken as it is. -/
theorem shiftCount_eq_ok {count : Bignum} (hcount : count.limbs.Canonical) (hpos : 0 < count.toInt)
    (hlt : count.toInt < 2 ^ 32) :
    ∃ bits, shiftCount count = .ok bits ∧ (bits.toNat : Int) = count.toInt := by
  have habove : count.isNegative = false := by
    rw [← Bool.not_eq_true]
    intro hbelow
    have hvalue := (toInt_of_isNegative hbelow).1
    omega
  have hvalue := toInt_of_not_isNegative habove
  have hzero : count.isZero = false := by
    rw [← Bool.not_eq_true, isZero_iff]
    omega
  obtain ⟨bits, hbits⟩ : ∃ bits, count.limbs = [bits] := by
    have hlength : 0 < count.limbs.length := List.length_pos_iff.2 hcount.1
    have hshort := (Magnitude.length_le_iff hcount Nat.one_pos).2 (by omega)
    exact List.length_eq_one_iff.1 (Nat.le_antisymm hshort hlength)
  refine ⟨bits, ?_, ?_⟩
  · simp [shiftCount, toUInt32?, habove, hzero, hbits]
  · rw [hvalue, hbits]
    simp

end Bignum

end RegisterMachine

import RegisterMachine.Bignum.Bitwise
import RegisterMachine.Proofs.Bignum.Sign

/-!
# Sums and differences of bignums

Sums and differences of magnitudes limb by limb, with a carry or a borrow between the limbs, and the
sums, differences and steps by one of bignums that are put together from them according to sign.
-/

namespace RegisterMachine

namespace Magnitude

variable {limbs first second : Magnitude}

/-! ## Sums -/

theorem value_addWith (first second : Magnitude) {carry : UInt64}
    (hcarry : carry.toNat < 2 ^ 32) :
    value (addWith first second carry) = value first + value second + carry.toNat := by
  fun_induction addWith first second carry with
  | case1 => rfl
  | case2 carry hpos =>
    simp only [value_cons, value_nil, toNat_low]
    omega
  | case3 x xs carry sum ih =>
    have hsum : sum.toNat = x.toNat + carry.toNat := toNat_add_carry x hcarry
    rw [value_low_cons (ih (toNat_high_lt sum)), hsum, value_cons, value_nil]
    omega
  | case4 y ys carry sum ih =>
    have hsum : sum.toNat = y.toNat + carry.toNat := toNat_add_carry y hcarry
    rw [value_low_cons (ih (toNat_high_lt sum)), hsum, value_cons, value_nil]
    omega
  | case5 x xs y ys carry sum ih =>
    have hx := x.toNat_lt
    have hy := y.toNat_lt
    have hsum : sum.toNat = x.toNat + y.toNat + carry.toNat := by
      rw [UInt64.toNat_add, UInt64.toNat_add, UInt32.toNat_toUInt64, UInt32.toNat_toUInt64]
      omega
    rw [value_low_cons (ih (toNat_high_lt sum)), hsum, value_cons, value_cons]
    omega

theorem value_add (first second : Magnitude) :
    value (add first second) = value first + value second :=
  value_addWith first second (by decide)

/-- As many limbs as given, or one more for a value that needs it. -/
def GrownFrom (count : Nat) (limbs : Magnitude) : Prop :=
  limbs.length = count ∨ limbs.length = count + 1 ∧ 2 ^ (32 * count) ≤ value limbs

theorem GrownFrom.cons {count : Nat} (hlimbs : GrownFrom count limbs) (limb : UInt32) :
    GrownFrom (count + 1) (limb :: limbs) := by
  rcases hlimbs with hsame | ⟨hmore, hlarge⟩
  · exact .inl (congrArg (· + 1) hsame)
  · refine .inr ⟨congrArg (· + 1) hmore, ?_⟩
    rw [value_cons, two_pow_limbs_succ]
    omega

theorem GrownFrom.canonical {count : Nat} (hlimbs : GrownFrom count limbs) (hcount : 0 < count)
    (hvalue : count ≤ 1 ∨ 2 ^ (32 * (count - 1)) ≤ value limbs) : Canonical limbs := by
  rw [canonical_iff_length, ← List.length_pos_iff]
  rcases hlimbs with hlength | ⟨hlength, hlarge⟩
  · rw [hlength]
    exact ⟨hcount, hvalue⟩
  · rw [hlength, Nat.add_sub_cancel]
    exact ⟨Nat.succ_pos count, .inr hlarge⟩

theorem grownFrom_addWith (first second : Magnitude) {carry : UInt64}
    (hcarry : carry.toNat < 2 ^ 32) :
    GrownFrom (max first.length second.length) (addWith first second carry) := by
  fun_induction addWith first second carry with
  | case1 => exact .inl rfl
  | case2 carry hpos =>
    have hne : carry.toNat ≠ 0 := fun h ↦ hpos (UInt64.toNat_inj.1 h)
    refine .inr ⟨rfl, ?_⟩
    simp only [value_cons, value_nil, toNat_low, List.length_nil, Nat.max_self, Nat.mul_zero,
      Nat.pow_zero]
    omega
  | case3 x xs carry sum ih =>
    have hrest := ih (toNat_high_lt sum)
    rw [List.length_nil, Nat.max_zero] at hrest ⊢
    exact hrest.cons _
  | case4 y ys carry sum ih =>
    have hrest := ih (toNat_high_lt sum)
    rw [List.length_nil, Nat.zero_max] at hrest ⊢
    exact hrest.cons _
  | case5 x xs y ys carry sum ih =>
    have hrest := ih (toNat_high_lt sum)
    rw [List.length_cons, List.length_cons, Nat.add_max_add_right]
    exact hrest.cons _

theorem canonical_add (hfirst : Canonical first) (hsecond : Canonical second) :
    Canonical (add first second) := by
  have hpos : 0 < first.length := List.length_pos_iff.2 hfirst.1
  have hlong := (canonical_iff_length.1 hfirst).2
  have hlong' := (canonical_iff_length.1 hsecond).2
  apply (grownFrom_addWith first second (by decide)).canonical (by omega)
  change _ ∨ _ ≤ value (add first second)
  rw [value_add]
  rcases Nat.le_total first.length second.length with hle | hle
  · rw [Nat.max_eq_right hle]
    omega
  · rw [Nat.max_eq_left hle]
    omega

/-! ## Differences -/

/-- The difference of two limbs and a borrow wraps at 64 bits if it is negative: its low half is too
large by 2³² then, which the top bit tells. -/
theorem borrow_equation (x y : UInt32) {borrow difference : UInt64} (hborrow : borrow.toNat ≤ 1)
    (hdifference : difference = x.toUInt64 - y.toUInt64 - borrow) :
    (difference >>> 63).toNat ≤ 1 ∧
      difference.toUInt32.toNat + y.toNat + borrow.toNat =
        x.toNat + 2 ^ 32 * (difference >>> 63).toNat := by
  have hx := x.toNat_lt
  have hy := y.toNat_lt
  have htop : (difference >>> 63).toNat = difference.toNat / 2 ^ 63 := by
    rw [UInt64.toNat_shiftRight, Nat.shiftRight_eq_div_pow]
    rfl
  rw [htop, toNat_low, hdifference, UInt64.toNat_sub, UInt64.toNat_sub, UInt32.toNat_toUInt64,
    UInt32.toNat_toUInt64]
  omega

theorem value_subWith (first second : Magnitude) (borrow : UInt64) (hborrow : borrow.toNat ≤ 1)
    (hle : value second + borrow.toNat ≤ value first) :
    value (subWith first second borrow) + value second + borrow.toNat = value first := by
  fun_induction subWith first second borrow with
  | case1 second borrow =>
    rw [value_nil] at hle ⊢
    omega
  | case2 x xs borrow difference ih =>
    have hlow := difference.toUInt32.toNat_lt
    have hdifference : difference = x.toUInt64 - UInt32.toUInt64 0 - borrow := by
      simp [difference]
    obtain ⟨hnext, hlimb⟩ := borrow_equation x 0 hborrow hdifference
    rw [UInt32.toNat_zero] at hlimb
    rw [value_nil, value_cons] at hle
    have hrest := ih hnext (by rw [value_nil]; omega)
    rw [value_nil] at hrest ⊢
    rw [value_cons, value_cons]
    omega
  | case3 x xs y ys borrow difference ih =>
    have hlow := difference.toUInt32.toNat_lt
    obtain ⟨hnext, hlimb⟩ := borrow_equation x y hborrow (rfl : difference = _)
    rw [value_cons, value_cons] at hle
    have hrest := ih hnext (by omega)
    rw [value_cons, value_cons, value_cons]
    omega

theorem value_sub (hle : value second ≤ value first) :
    value (sub first second) = value first - value second := by
  have hdifference := value_subWith first second 0 (by decide) hle
  rw [UInt64.toNat_zero] at hdifference
  rw [sub, value_normalize]
  omega

theorem canonical_sub (first second : Magnitude) : Canonical (sub first second) :=
  canonical_normalize _

/-! ## Steps by one -/

theorem value_inc (limbs : Magnitude) : value (inc limbs) = value limbs + 1 := by
  fun_induction inc limbs with
  | case1 => rfl
  | case2 limb rest hzero ih =>
    have hlimb := limb.toNat_lt
    have hwrapped : (limb.toNat + 1) % 2 ^ 32 = 0 := by
      rw [← UInt32.toNat_zero, ← hzero, UInt32.toNat_add]
      rfl
    rw [value_cons, ih, value_cons, UInt32.toNat_zero]
    omega
  | case3 limb rest hpos =>
    have hlimb := limb.toNat_lt
    have hsum : (limb + 1).toNat = (limb.toNat + 1) % 2 ^ 32 := UInt32.toNat_add limb 1
    have hne : (limb + 1).toNat ≠ 0 := fun h ↦ hpos (UInt32.toNat_inj.1 h)
    rw [value_cons, value_cons]
    omega

theorem value_borrowOne (limbs : Magnitude) (hpos : 0 < value limbs) :
    value (borrowOne limbs) + 1 = value limbs := by
  fun_induction borrowOne limbs with
  | case1 => exact absurd hpos (Nat.lt_irrefl 0)
  | case2 rest ih =>
    have hones : (0 - 1 : UInt32).toNat = 2 ^ 32 - 1 := by decide
    rw [value_cons, UInt32.toNat_zero] at hpos
    have hrest := ih (by omega)
    rw [value_cons, value_cons, hones, UInt32.toNat_zero]
    omega
  | case3 limb rest hlimb =>
    have hbound := limb.toNat_lt
    have hne : limb.toNat ≠ 0 := fun h ↦ hlimb (UInt32.toNat_inj.1 h)
    have hless : (limb - 1).toNat = limb.toNat - 1 :=
      UInt32.toNat_sub_of_le limb 1 (UInt32.le_iff_toNat_le.2 (Nat.pos_of_ne_zero hne))
    rw [value_cons, value_cons, hless]
    omega

theorem value_dec (hpos : 0 < value limbs) : value (dec limbs) = value limbs - 1 := by
  have hborrowed := value_borrowOne limbs hpos
  rw [dec, value_normalize]
  omega

end Magnitude

namespace Bignum

variable {a b : Bignum}

/-! ## Signed sums -/

/-- Which operand a difference is taken from, and whose sign it gets, is for the values to say. -/
theorem toInt_addSigned {limbs : Magnitude} (ha : a.limbs.Canonical) (hlimbs : limbs.Canonical)
    (negative : Bool) :
    (a.addSigned limbs negative).toInt = a.toInt + toInt ⟨limbs, negative⟩ := by
  have hadded : toInt ⟨limbs, negative⟩ = toInt ⟨limbs, negative && !Magnitude.isZero limbs⟩ :=
    toInt_eq_of_isNegative ⟨limbs, negative⟩
  rw [hadded]
  unfold addSigned
  rw [toInt_clearZeroSign]
  generalize (negative && !Magnitude.isZero limbs) = negative
  split
  · next hzero =>
    have hvalue := (isZero_iff a).1 hzero
    simp only [toInt, Magnitude.value_add, hvalue]
    split <;> simp
  · next hzero =>
    rw [Bool.not_eq_true] at hzero
    have hsign := negative_eq_isNegative hzero
    split
    · next hsame =>
      rw [← hsame, ← hsign]
      simp only [toInt, Magnitude.value_add]
      split <;> omega
    · next hother =>
      rw [← hsign] at hother
      have hopposite : negative = !a.negative := Bool.eq_not.2 (Ne.symm hother)
      have hcompare := Magnitude.compare_eq_compare_value ha hlimbs
      rw [hopposite]
      split
      · next hlt =>
        have hle := Nat.le_of_lt (Nat.compare_eq_lt.1 (hcompare.symm.trans hlt))
        simp only [toInt, Magnitude.value_sub hle, Int.natCast_sub hle]
        cases a.negative <;> simp <;> omega
      · next hnot =>
        have hle : limbs.value ≤ a.limbs.value := by
          rw [← Nat.not_lt, ← Nat.compare_eq_lt, ← hcompare]
          exact hnot
        simp only [toInt, Magnitude.value_sub hle, Int.natCast_sub hle]
        cases a.negative <;> simp <;> omega

theorem canonical_addSigned {limbs : Magnitude} (ha : a.limbs.Canonical) (hlimbs : limbs.Canonical)
    (negative : Bool) : (a.addSigned limbs negative).limbs.Canonical := by
  unfold addSigned
  rw [limbs_clearZeroSign]
  split
  · exact Magnitude.canonical_add ha hlimbs
  · split
    · exact Magnitude.canonical_add ha hlimbs
    · split <;> exact Magnitude.canonical_sub _ _

theorem toInt_add (ha : a.limbs.Canonical) (hb : b.limbs.Canonical) :
    (a.add b).toInt = a.toInt + b.toInt :=
  toInt_addSigned ha hb b.negative

theorem canonical_add (ha : a.limbs.Canonical) (hb : b.limbs.Canonical) :
    (a.add b).limbs.Canonical :=
  canonical_addSigned ha hb b.negative

theorem toInt_neg (a : Bignum) : a.neg.toInt = -a.toInt := by
  unfold neg toInt
  cases a.negative <;> simp

theorem toInt_sub (ha : a.limbs.Canonical) (hb : b.limbs.Canonical) :
    (a.sub b).toInt = a.toInt - b.toInt := by
  have hneg : toInt ⟨b.limbs, !b.negative⟩ = -b.toInt := toInt_neg b
  rw [sub, toInt_addSigned ha hb, hneg, Int.sub_eq_add_neg]

/-! ## Steps by one -/

theorem toInt_dec (a : Bignum) : a.dec.toInt = a.toInt - 1 := by
  unfold dec
  split
  · next hzero =>
    have hvalue := (isZero_iff a).1 hzero
    simp [toInt, hvalue]
  · next hzero =>
    have hpos : 0 < a.limbs.value := Nat.pos_of_ne_zero fun hvalue ↦ hzero ((isZero_iff a).2 hvalue)
    have hsign := negative_eq_isNegative (Bool.not_eq_true _ ▸ hzero)
    split
    · next hbelow =>
      rw [← hsign] at hbelow
      simp only [toInt, hbelow, if_true, Magnitude.value_inc]
      omega
    · next habove =>
      rw [← hsign] at habove
      simp only [toInt, habove, Magnitude.value_dec hpos]
      simp only [Bool.false_eq_true, if_false]
      omega

theorem toInt_complement (a : Bignum) : a.complement.toInt = -a.toInt - 1 := by
  rw [complement, toInt_dec, toInt_neg]

end Bignum

end RegisterMachine

import Mathlib.Data.Int.Bitwise
import RegisterMachine.Proofs.Bignum.Twos

/-!
# Bits of bignums

An integer has a bit at every position: its infinite two's complement form goes on with zeros above
a natural number, and with ones above a negative number. A bitwise operation on bignums is done in a
form of finite width. The form has the bits of the integer as far as it goes, and its top bit stands
for all the others; so the operation does the same to each of the infinitely many bits.
-/

namespace RegisterMachine

/-! ## Bits of integers -/

/-- Bits that are the same at all positions are those of one integer. -/
theorem eq_of_testBit_eq {x y : Int} (h : ∀ position, x.testBit position = y.testBit position) :
    x = y := by
  -- Far up, the bits of a natural number are clear and those of a negative number are set.
  have hfar (m n : Nat) : m.testBit (m + n) = false ∧ n.testBit (m + n) = false :=
    ⟨Nat.testBit_lt_two_pow (Nat.lt_of_le_of_lt (Nat.le_add_right m n) Nat.lt_two_pow_self),
      Nat.testBit_lt_two_pow (Nat.lt_of_le_of_lt (Nat.le_add_left n m) Nat.lt_two_pow_self)⟩
  cases x with
  | ofNat m =>
    cases y with
    | ofNat n => exact congrArg Int.ofNat (Nat.eq_of_testBit_eq h)
    | negSucc n =>
      have hbit : m.testBit (m + n) = !n.testBit (m + n) := h (m + n)
      simp [hfar m n] at hbit
  | negSucc m =>
    cases y with
    | ofNat n =>
      have hbit : (!m.testBit (m + n)) = n.testBit (m + n) := h (m + n)
      simp [hfar m n] at hbit
    | negSucc n =>
      exact congrArg Int.negSucc (Nat.eq_of_testBit_eq fun position ↦ Bool.not_inj (h position))

/-- The residue modulo a power of two has the bits below the power. -/
theorem testBit_of_eq_emod {form width : Nat} {x : Int} (hform : (form : Int) = x % (2 ^ width : Nat))
    (position : Nat) :
    form.testBit position = (decide (position < width) && x.testBit position) := by
  cases x with
  | ofNat m =>
    have hresidue : form = m % 2 ^ width := Int.natCast_inj.1 hform
    rw [hresidue, Nat.testBit_mod_two_pow]
    rfl
  | negSucc m =>
    have hlt : m % 2 ^ width < 2 ^ width := Nat.mod_lt _ (Nat.two_pow_pos width)
    have hresidue : form = 2 ^ width - (m % 2 ^ width + 1) := by
      rw [Int.negSucc_emod m (Int.natCast_pos.2 (Nat.two_pow_pos width))] at hform
      omega
    rw [hresidue, Nat.testBit_two_pow_sub_succ hlt, Nat.testBit_mod_two_pow]
    by_cases hposition : position < width
    · simp [hposition, Int.testBit]
    · simp [hposition]

/-- Above the bits that an integer needs, its sign is repeated. -/
theorem testBit_eq_sign {x : Int} {bits position : Nat} (hle : -(2 ^ bits : Nat) ≤ x)
    (hlt : x < (2 ^ bits : Nat)) (hposition : bits ≤ position) :
    x.testBit position = decide (x < 0) := by
  have hpower : 2 ^ bits ≤ 2 ^ position := Nat.pow_le_pow_right (by decide) hposition
  cases x with
  | ofNat m =>
    have hclear : m.testBit position = false :=
      Nat.testBit_lt_two_pow (Nat.lt_of_lt_of_le (Int.ofNat_lt.1 hlt) hpower)
    have hsign : ¬(Int.ofNat m) < 0 := Int.not_lt.2 (Int.natCast_nonneg m)
    rw [decide_eq_false hsign]
    exact hclear
  | negSucc m =>
    have hclear : m.testBit position = false := by
      apply Nat.testBit_lt_two_pow
      rw [Int.negSucc_eq] at hle
      omega
    simpa [Int.testBit] using hclear

/-! ## Operations on limbs -/

/-- An operation on limbs that does the same to each bit. -/
def ActsOnBits (op : UInt32 → UInt32 → UInt32) (combine : Bool → Bool → Bool) : Prop :=
  ∀ x y position, (op x y).toNat.testBit position =
    combine (x.toNat.testBit position) (y.toNat.testBit position)

namespace ActsOnBits

variable {op : UInt32 → UInt32 → UInt32} {combine : Bool → Bool → Bool}

theorem and : ActsOnBits (· &&& ·) (· && ·) := by
  intro x y position
  rw [UInt32.toNat_and, Nat.testBit_and]

theorem or : ActsOnBits (· ||| ·) (· || ·) := by
  intro x y position
  rw [UInt32.toNat_or, Nat.testBit_or]

theorem xor : ActsOnBits (· ^^^ ·) (· ^^ ·) := by
  intro x y position
  rw [UInt32.toNat_xor, Nat.testBit_xor]

/-- No limb has a bit at position 32. -/
theorem clear (h : ActsOnBits op combine) : combine false false = false := by
  have hbit := h 0 0 32
  rwa [Nat.testBit_lt_two_pow (op 0 0).toNat_lt, UInt32.toNat_zero, Nat.zero_testBit,
    eq_comm] at hbit

open Magnitude in
theorem testBit_zipWith (h : ActsOnBits op combine) {first second : Magnitude}
    (hlength : first.length = second.length) (position : Nat) :
    (value (List.zipWith op first second)).testBit position =
      combine ((value first).testBit position) ((value second).testBit position) := by
  induction first generalizing second position with
  | nil =>
    rw [List.length_eq_zero_iff.1 hlength.symm, List.zipWith_nil_left, value_nil,
      Nat.zero_testBit, h.clear]
  | cons x xs ih =>
    obtain ⟨y, ys, rfl⟩ := List.exists_cons_of_length_eq_add_one hlength.symm
    have hcons (limb : UInt32) (rest : Magnitude) : (value (limb :: rest)).testBit position =
        if position < 32 then limb.toNat.testBit position
        else (value rest).testBit (position - 32) := by
      rw [value_cons, Nat.add_comm, Nat.testBit_two_pow_mul_add _ limb.toNat_lt]
    rw [List.zipWith_cons_cons, hcons, hcons, hcons]
    split
    · exact h x y position
    · exact ih (Nat.succ.inj hlength) (position - 32)

end ActsOnBits

/-! ## Operations on bignums -/

namespace Bignum

open Magnitude

/-- A form of more limbs than the magnitude has a bit to spare for the sign. -/
theorem toInt_bounds {a : Bignum} {width top : Nat} (hwidth : a.limbs.length < width)
    (htop : 32 * width = top + 1) : -(2 ^ top : Nat) ≤ a.toInt ∧ a.toInt < (2 ^ top : Nat) := by
  have hpower : 2 ^ (32 * a.limbs.length) ≤ 2 ^ top :=
    Nat.pow_le_pow_right (by decide) (by omega)
  have hvalue := value_lt a.limbs
  rw [toInt]
  split <;> omega

theorem bmod_two_pow_bounds (x : Int) (bits : Nat) :
    -(2 ^ bits : Nat) ≤ x.bmod (2 ^ (bits + 1)) ∧ x.bmod (2 ^ (bits + 1)) < (2 ^ bits : Nat) := by
  have hpos : 0 < 2 ^ (bits + 1) := Nat.two_pow_pos _
  have hle := Int.le_bmod (x := x) hpos
  have hlt := Int.bmod_lt (x := x) hpos
  rw [Nat.pow_succ] at hle hlt ⊢
  omega

variable {op : UInt32 → UInt32 → UInt32} {combine : Bool → Bool → Bool} {a b : Bignum} {width : Nat}

/-- A form has the bits of the integer as far as it goes. -/
theorem testBit_toTwos (hwidth : a.limbs.length ≤ width) {position : Nat}
    (hposition : position < 32 * width) :
    (value (a.toTwos width)).testBit position = a.toInt.testBit position := by
  rw [testBit_of_eq_emod (value_toTwos a hwidth), decide_eq_true hposition, Bool.true_and]

/-- What is read from a form has the bits of the form as far as it goes. -/
theorem testBit_ofTwos {limbs : Magnitude} {position : Nat}
    (hposition : position < 32 * limbs.length) :
    (ofTwos limbs).toInt.testBit position = (value limbs).testBit position := by
  have hform : (value limbs : Int) = (ofTwos limbs).toInt % (2 ^ (32 * limbs.length) : Nat) := by
    rw [toInt_ofTwos, Int.bmod_emod, ← Int.natCast_emod, Nat.mod_eq_of_lt (value_lt limbs)]
  rw [testBit_of_eq_emod hform, decide_eq_true hposition, Bool.true_and]

/-- With a limb to spare for the sign, a form of finite width is enough for all positions. -/
theorem testBit_ofTwos_zipWith (h : ActsOnBits op combine) (hfirst : a.limbs.length < width)
    (hsecond : b.limbs.length < width) (position : Nat) :
    (ofTwos (List.zipWith op (a.toTwos width) (b.toTwos width))).toInt.testBit position =
      combine (a.toInt.testBit position) (b.toInt.testBit position) := by
  have hlengths : (a.toTwos width).length = (b.toTwos width).length := by
    rw [length_toTwos a (Nat.le_of_lt hfirst), length_toTwos b (Nat.le_of_lt hsecond)]
  have hlength : (List.zipWith op (a.toTwos width) (b.toTwos width)).length = width := by
    rw [List.length_zipWith, ← hlengths, Nat.min_self, length_toTwos a (Nat.le_of_lt hfirst)]
  have hbelow (position : Nat) (hposition : position < 32 * width) :
      (ofTwos (List.zipWith op (a.toTwos width) (b.toTwos width))).toInt.testBit position =
        combine (a.toInt.testBit position) (b.toInt.testBit position) := by
    rw [testBit_ofTwos (hlength.symm ▸ hposition), h.testBit_zipWith hlengths,
      testBit_toTwos (Nat.le_of_lt hfirst) hposition,
      testBit_toTwos (Nat.le_of_lt hsecond) hposition]
  rcases Nat.lt_or_ge position (32 * width) with hposition | hposition
  · exact hbelow position hposition
  · -- From the top bit of the form on, each of the three integers repeats its sign.
    obtain ⟨top, htop⟩ : ∃ top, 32 * width = top + 1 := Nat.exists_eq_add_one.2 (by omega)
    have hrepeat {x : Int} (hx : -(2 ^ top : Nat) ≤ x ∧ x < (2 ^ top : Nat)) :
        x.testBit position = x.testBit top := by
      rw [testBit_eq_sign hx.1 hx.2 (by omega), testBit_eq_sign hx.1 hx.2 (Nat.le_refl top)]
    have hresult : -(2 ^ top : Nat) ≤
          (ofTwos (List.zipWith op (a.toTwos width) (b.toTwos width))).toInt ∧
        (ofTwos (List.zipWith op (a.toTwos width) (b.toTwos width))).toInt < (2 ^ top : Nat) := by
      rw [toInt_ofTwos, hlength, htop]
      exact bmod_two_pow_bounds _ top
    rw [hrepeat hresult, hrepeat (toInt_bounds hfirst htop), hrepeat (toInt_bounds hsecond htop)]
    exact hbelow top (by omega)

theorem testBit_bitwise (h : ActsOnBits op combine) (a b : Bignum) (position : Nat) :
    (bitwise op a b).toInt.testBit position =
      combine (a.toInt.testBit position) (b.toInt.testBit position) :=
  testBit_ofTwos_zipWith h (by omega) (by omega) position

/-- Bit for bit, at each of the infinitely many positions of the two's complement forms, and so as
integers. -/
theorem bitwise_twosComplement (a b : Bignum) :
    ((∀ position, (a.and b).toInt.testBit position =
        (a.toInt.testBit position && b.toInt.testBit position)) ∧
      (a.and b).toInt = a.toInt.land b.toInt) ∧
    ((∀ position, (a.or b).toInt.testBit position =
        (a.toInt.testBit position || b.toInt.testBit position)) ∧
      (a.or b).toInt = a.toInt.lor b.toInt) ∧
    ((∀ position, (a.xor b).toInt.testBit position =
        (a.toInt.testBit position ^^ b.toInt.testBit position)) ∧
      (a.xor b).toInt = a.toInt.xor b.toInt) := by
  have hand := testBit_bitwise .and a b
  have hor := testBit_bitwise .or a b
  have hxor := testBit_bitwise .xor a b
  refine ⟨⟨hand, ?_⟩, ⟨hor, ?_⟩, ⟨hxor, ?_⟩⟩
  · exact eq_of_testBit_eq fun position ↦ by rw [Int.testBit_land]; exact hand position
  · exact eq_of_testBit_eq fun position ↦ by rw [Int.testBit_lor]; exact hor position
  · exact eq_of_testBit_eq fun position ↦ by rw [Int.testBit_lxor]; exact hxor position

/-- A negative power of 2³² is read back from the spare limb alone. -/
example : (ofLimbs [0, 1] true).and (ofLimbs [0xffffffff] true) = ofLimbs [0, 1] true := by decide

end Bignum

end RegisterMachine

import RegisterMachine.Proofs.Bignum.Printed
import RegisterMachine.Proofs.Bignum.Product

/-!
# Products in one buffer

A product is written here as loops over positions of one output buffer, with as many limbs as both
factors have together. For each limb of the first factor that is not zero a row is added to the
output, and the row's last carry is pushed on for as long as there is one. No test keeps this inside
the buffer, and sums of a limb, a product of two limbs and a carry are trusted to 64 bits. So that
such an event would show, a position past the end and a sum of more than 64 bits stop the loops.
Neither can happen: the product so far, with the carry at hand, always fits the buffer.
-/

namespace RegisterMachine

namespace Magnitude

/-! ## Loops -/

/-- What would stop the loops: a position that the output does not have, or a sum that does not fit
64 bits. -/
inductive Trap where
  | pastEnd (position : Nat)
  | overflow (sum : Nat)

/-- Adds to the limb at a position: the low half of the sum is written, the high half is carried. -/
def accumulate (output : Magnitude) (position addend : Nat) : Except Trap (Magnitude × Nat) :=
  match output[position]? with
  | none => .error (.pastEnd position)
  | some limb =>
    let sum := limb.toNat + addend
    if sum < 2 ^ 64 then .ok (output.set position (UInt32.ofNat sum), sum / 2 ^ 32)
    else .error (.overflow sum)

theorem accumulate_bounds {output written : Magnitude} {position addend carry : Nat}
    (h : accumulate output position addend = .ok (written, carry)) :
    position < output.length ∧ written.length = output.length := by
  unfold accumulate at h
  split at h
  · cases h
  · next limb hlimb =>
    obtain ⟨hposition, -⟩ := List.getElem?_eq_some_iff.1 hlimb
    dsimp only at h
    split at h
    · cases h
      exact ⟨hposition, List.length_set⟩
    · cases h

/-- Pushes a carry on, from a position upward, until none is left. -/
def pushCarry (output : Magnitude) (position carry : Nat) : Except Trap Magnitude :=
  if carry = 0 then .ok output
  else
    match h : accumulate output position carry with
    | .error trap => .error trap
    | .ok (written, next) => pushCarry written (position + 1) next
termination_by output.length - position
decreasing_by
  have hbounds := accumulate_bounds h
  omega

/-- Adds `factor` times the limbs to the output, from a position upward. -/
def pushRow (factor : UInt32) :
    Magnitude → Magnitude → Nat → Nat → Except Trap Magnitude
  | output, [], position, carry => pushCarry output position carry
  | output, y :: ys, position, carry => do
    let (output, carry) ← accumulate output position (factor.toNat * y.toNat + carry)
    pushRow factor output ys (position + 1) carry

/-- Adds a row for each limb of the first factor that is not zero, each one position higher. -/
def pushRows (second : Magnitude) : Magnitude → Magnitude → Nat → Except Trap Magnitude
  | output, [], _ => .ok output
  | output, x :: xs, position =>
    if x = 0 then pushRows second output xs (position + 1)
    else do
      let output ← pushRow x output second position 0
      pushRows second output xs (position + 1)

/-- The limbs of the product, with zeros at the top where it needs fewer. -/
def schoolbook (first second : Magnitude) : Except Trap Magnitude :=
  pushRows second (List.replicate (first.length + second.length) 0) first 0

/-! ## One position -/

variable (low high : Magnitude)

/-- A sum that fits 64 bits is written and carried in halves. -/
theorem accumulate_append {limb : UInt32} {addend : Nat} {sum : UInt64}
    (hsum : sum.toNat = limb.toNat + addend) :
    accumulate (low ++ limb :: high) low.length addend =
      .ok (low ++ sum.toUInt32 :: high, (sum >>> 32).toNat) := by
  have hlimb : (low ++ limb :: high)[low.length]? = some limb := by simp
  have hset (written : UInt32) : (low ++ limb :: high).set low.length written =
      low ++ written :: high := by simp
  have hhalf : UInt32.ofNat sum.toNat = sum.toUInt32 := by
    rw [← UInt32.toNat_inj, toNat_low]
    exact UInt32.toNat_ofNat
  unfold accumulate
  rw [hlimb]
  dsimp only
  rw [← hsum, if_pos sum.toNat_lt, hset, hhalf, toNat_high]

theorem pushCarry_zero (output : Magnitude) (position : Nat) :
    pushCarry output position 0 = .ok output := by
  rw [pushCarry, if_pos rfl]

theorem pushCarry_of_accumulate {output written : Magnitude} {position carry next : Nat}
    (hcarry : carry ≠ 0) (h : accumulate output position carry = .ok (written, next)) :
    pushCarry output position carry = pushCarry written (position + 1) next := by
  rw [pushCarry, if_neg hcarry]
  split
  · next trap htrap => rw [h] at htrap; cases htrap
  · next written' next' hok => rw [h] at hok; cases hok; rfl

theorem pushRow_of_accumulate {output written limbs : Magnitude} {factor y : UInt32}
    {position carry next : Nat}
    (h : accumulate output position (factor.toNat * y.toNat + carry) = .ok (written, next)) :
    pushRow factor output (y :: limbs) position carry =
      pushRow factor written limbs (position + 1) next := by
  rw [pushRow, h]
  rfl

theorem pushRows_of_row {output written first second : Magnitude} {x : UInt32} {position : Nat}
    (h : (if x = 0 then .ok output else pushRow x output second position 0) = .ok written) :
    pushRows second output (x :: first) position = pushRows second written first (position + 1) := by
  rw [pushRows]
  split at h
  · next hzero => rw [if_pos hzero, Except.ok.inj h]
  · next hne =>
    rw [if_neg hne, h]
    rfl

/-! ## Rows -/

theorem pushCarry_append (accumulator : Magnitude) {carry : UInt64} (hcarry : carry.toNat < 2 ^ 32)
    (hfits : value accumulator + carry.toNat < 2 ^ (32 * accumulator.length)) :
    pushCarry (low ++ accumulator) low.length carry.toNat =
      .ok (low ++ addCarry accumulator carry) := by
  fun_induction addCarry accumulator carry generalizing low with
  | case1 carry =>
    have hzero : carry.toNat = 0 := by
      rw [value_nil, List.length_nil] at hfits
      omega
    rw [hzero, pushCarry_zero]
  | case2 limb rest => rw [UInt64.toNat_zero, pushCarry_zero]
  | case3 limb rest carry hne sum ih =>
    have hsum : sum.toNat = limb.toNat + carry.toNat := toNat_add_carry limb hcarry
    have hpos : carry.toNat ≠ 0 := fun h ↦ hne (UInt64.toNat_inj.1 h)
    rw [value_cons, List.length_cons, two_pow_limbs_succ] at hfits
    have hrest := ih (low ++ [sum.toUInt32]) (toNat_high_lt sum) (by rw [toNat_high]; omega)
    rw [pushCarry_of_accumulate hpos (accumulate_append low rest hsum)]
    simpa using hrest

theorem pushRow_append (factor : UInt32) (accumulator limbs : Magnitude) {carry : UInt64}
    (hcarry : carry.toNat < 2 ^ 32) (hlength : limbs.length ≤ accumulator.length)
    (hfits : value accumulator + factor.toNat * value limbs + carry.toNat <
      2 ^ (32 * accumulator.length)) :
    pushRow factor (low ++ accumulator) limbs low.length carry.toNat =
      .ok (low ++ addRow accumulator limbs factor carry) := by
  fun_induction addRow accumulator limbs factor carry generalizing low with
  | case1 accumulator factor carry =>
    rw [value_nil, Nat.mul_zero, Nat.add_zero] at hfits
    exact pushCarry_append low accumulator hcarry hfits
  | case2 y ys factor carry => exact absurd hlength (Nat.not_succ_le_zero _)
  | case3 limb rest y ys factor carry sum ih =>
    have hsum : sum.toNat = limb.toNat + (factor.toNat * y.toNat + carry.toNat) := by
      rw [← Nat.add_assoc]
      exact toNat_limb_add_mul_add_carry limb factor y hcarry
    rw [mul_value_cons, value_cons, List.length_cons, two_pow_limbs_succ] at hfits
    have hrest := ih (low ++ [sum.toUInt32]) (toNat_high_lt sum) (Nat.le_of_succ_le_succ hlength)
      (by rw [toNat_high]; omega)
    rw [pushRow_of_accumulate (accumulate_append low rest hsum)]
    simpa using hrest

/-! ## Products -/

/-- The rows so far and those to come fit the output, so they are all added without a stop. -/
theorem pushRows_append (first second accumulator : Magnitude)
    (hlength : first.length + second.length ≤ accumulator.length)
    (hfits : value accumulator + value first * value second < 2 ^ (32 * accumulator.length)) :
    pushRows second (low ++ accumulator) first low.length =
      .ok (low ++ mulInto first second accumulator) := by
  induction first generalizing low accumulator with
  | nil => rfl
  | cons x xs ih =>
    rw [List.length_cons] at hlength
    rw [value_cons_mul] at hfits
    have hfitsRow : value accumulator + x.toNat * value second + (0 : UInt64).toNat <
        2 ^ (32 * accumulator.length) := by
      rw [UInt64.toNat_zero]
      omega
    have hrow : (if x = 0 then .ok (low ++ accumulator)
        else pushRow x (low ++ accumulator) second low.length 0) =
          .ok (low ++ addRow accumulator second x 0) := by
      split
      · next hzero => rw [hzero, addRow_zero accumulator second (by omega)]
      · exact pushRow_append low x accumulator second (by decide) (by omega) hfitsRow
    have hvalue := value_addRow accumulator second x (by decide) hfitsRow
    have hsize := length_addRow accumulator second x 0
    unfold mulInto
    cases hadded : addRow accumulator second x 0 with
    | nil =>
      rw [hadded, List.length_nil] at hsize
      omega
    | cons limb rest =>
      rw [hadded, List.length_cons] at hsize
      rw [hadded, value_cons, UInt64.toNat_zero] at hvalue
      rw [hadded] at hrow
      rw [← hsize, two_pow_limbs_succ] at hfits
      -- With its lowest limb the row is done there; the rest is left for the rows above.
      have hrest := ih (low ++ [limb]) rest (by omega) (by omega)
      rw [pushRows_of_row hrow]
      simpa using hrest

theorem schoolbook_eq (first second : Magnitude) :
    schoolbook first second =
      .ok (mulInto first second (List.replicate (first.length + second.length) 0)) := by
  apply pushRows_append []
  · exact Nat.le_of_eq List.length_replicate.symm
  · rw [value_replicate_zero, Nat.zero_add, List.length_replicate, Nat.mul_add, Nat.pow_add]
    exact Nat.mul_lt_mul'' (value_lt first) (value_lt second)

end Magnitude

namespace Bignum

/-- Products are exact and in normal form, and the loops that make them come to their end: no sum
leaves 64 bits, no position leaves the buffer. -/
theorem product_exact (a b : Bignum) :
    (a.mul b).toInt = a.toInt * b.toInt ∧ (a.mul b).Normal ∧
      ∃ output, Magnitude.schoolbook a.limbs b.limbs = .ok output ∧
        output.length = a.limbs.length + b.limbs.length ∧
        (a.mul b).limbs = Magnitude.normalize output := by
  refine ⟨toInt_mul a b, normal_clearZeroSign (Magnitude.canonical_normalize _), _,
    Magnitude.schoolbook_eq a.limbs b.limbs, ?_, limbs_clearZeroSign _⟩
  rw [Magnitude.length_mulInto _ _ _ (by rw [List.length_replicate]; omega), List.length_replicate]

end Bignum

end RegisterMachine

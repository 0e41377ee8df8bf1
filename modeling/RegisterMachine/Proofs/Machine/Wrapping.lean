import RegisterMachine.Machine.Execute
import RegisterMachine.Native.Builtin
import RegisterMachine.Proofs.Bignum.Conversion

/-!
# Integers of the machine are wrapped bignums

The machine computes with integers of 32 bits in wrapping arithmetic, and with bignums limb by limb.
The two have no code in common, yet they agree: an operation on integers is the operation on the
bignums of the same values, wrapped at 32 bits, and both refuse the same divisors.
-/

namespace RegisterMachine

open Builtin (total)

namespace Bignum

/-- The value modulo 2³², as an integer of 32 bits. -/
def wrapped (n : Bignum) : Int32 :=
  Int32.ofInt n.toInt

/-- The product of a number of equal factors. -/
def power (base : Bignum) : Nat → Bignum
  | 0 => ofUInt32 1
  | count + 1 => (base.power count).mul base

/-! ## Powers -/

theorem toInt_power (base : Bignum) (count : Nat) :
    (base.power count).toInt = base.toInt ^ count := by
  induction count with
  | zero => rw [power, Int.pow_zero]; rfl
  | succ count ih => rw [power, toInt_mul, ih, Int.pow_succ]

/-! ## Sums, products and bits -/

variable (x y : Int32)

theorem wrapped_add : ((ofInt32 x).add (ofInt32 y)).wrapped = x + y := by
  rw [wrapped, toInt_add (canonical_ofInt32 x) (canonical_ofInt32 y), toInt_ofInt32, toInt_ofInt32,
    Int32.ofInt_add, Int32.ofInt_toInt, Int32.ofInt_toInt]

theorem wrapped_sub : ((ofInt32 x).sub (ofInt32 y)).wrapped = x - y := by
  rw [wrapped, toInt_sub (canonical_ofInt32 x) (canonical_ofInt32 y), toInt_ofInt32, toInt_ofInt32,
    Int32.ofInt_sub, Int32.ofInt_toInt, Int32.ofInt_toInt]

theorem wrapped_mul : ((ofInt32 x).mul (ofInt32 y)).wrapped = x * y := by
  rw [wrapped, toInt_mul, toInt_ofInt32, toInt_ofInt32, Int32.ofInt_mul, Int32.ofInt_toInt,
    Int32.ofInt_toInt]

theorem wrapped_neg : (ofInt32 x).neg.wrapped = -x := by
  rw [wrapped, toInt_neg, toInt_ofInt32, Int32.ofInt_neg, Int32.ofInt_toInt]

theorem wrapped_complement : (ofInt32 x).complement.wrapped = ~~~x := by
  rw [wrapped, toInt_complement, toInt_ofInt32, Int32.ofInt_sub, Int32.ofInt_neg, Int32.ofInt_toInt,
    Int32.not_eq_neg_sub]
  rfl

theorem wrapped_bitwise (op : UInt32 → UInt32 → UInt32) :
    (bitwise op (ofInt32 x) (ofInt32 y)).wrapped = (op x.toUInt32 y.toUInt32).toInt32 := by
  rw [wrapped, ofInt_toInt_bitwise, toInt_ofInt32, toInt_ofInt32, Int32.ofInt_toInt,
    Int32.ofInt_toInt]

theorem wrapped_and : ((ofInt32 x).and (ofInt32 y)).wrapped = x &&& y := by
  rw [Bignum.and, wrapped_bitwise, UInt32.toInt32_and, Int32.toInt32_toUInt32,
    Int32.toInt32_toUInt32]

theorem wrapped_or : ((ofInt32 x).or (ofInt32 y)).wrapped = x ||| y := by
  rw [Bignum.or, wrapped_bitwise, UInt32.toInt32_or, Int32.toInt32_toUInt32,
    Int32.toInt32_toUInt32]

theorem wrapped_xor : ((ofInt32 x).xor (ofInt32 y)).wrapped = x ^^^ y := by
  rw [Bignum.xor, wrapped_bitwise, UInt32.toInt32_xor, Int32.toInt32_toUInt32,
    Int32.toInt32_toUInt32]

end Bignum

/-! ## Quotients -/

/-- The modulus is the remainder, moved by the divisor if their signs differ. -/
theorem fmod_eq_ite (x y : Int) :
    x.fmod y = if x.tmod y ≠ 0 ∧ (x.tmod y < 0) ≠ (y < 0) then x.tmod y + y else x.tmod y := by
  rw [Int.fmod_eq_tmod]
  by_cases hdvd : y ∣ x
  · simp [hdvd, Int.tmod_eq_zero_of_dvd hdvd]
  · have hne : x.tmod y ≠ 0 := fun hzero ↦ hdvd (Int.dvd_of_tmod_eq_zero hzero)
    rw [if_neg hdvd]
    rcases Int.lt_or_le x 0 with hx | hx
    · have hbelow : x.tmod y < 0 := by
        have hmirror := Int.tmod_nonneg y (a := -x) (by omega)
        rw [Int.neg_tmod] at hmirror
        omega
      rw [if_neg (by omega)]
      rcases Int.lt_or_le y 0 with hy | hy
      · rw [if_neg (by omega), if_neg (by simp [hbelow, hy])]
        omega
      · rw [if_pos hy, if_pos ⟨hne, by simp [hbelow, hy]⟩]
        omega
    · have habove : ¬x.tmod y < 0 := Int.not_lt.2 (Int.tmod_nonneg y hx)
      rw [if_pos hx]
      rcases Int.lt_or_le y 0 with hy | hy
      · rw [if_neg (by omega), if_pos ⟨hne, by simp [habove, hy]⟩]
      · rw [if_pos hy, if_neg (by simp [habove, hy]), Int.add_zero]

theorem ofInt_tdiv (x y : Int32) : Int32.ofInt (x.toInt.tdiv y.toInt) = x / y := by
  rw [Int32.ofInt_tdiv x.minValue_le_toInt x.toInt_le y.minValue_le_toInt y.toInt_le,
    Int32.ofInt_toInt, Int32.ofInt_toInt]

theorem ofInt_tmod (x y : Int32) : Int32.ofInt (x.toInt.tmod y.toInt) = x % y := by
  rw [← Int32.toInt_mod, Int32.ofInt_toInt]

/-! ## Shifts -/

theorem toNat_shift_count {count : Nat} (hcount : count < 32) :
    ((Int32.ofNat count).toBitVec.smod 32).toNat = count := by
  have hall : ∀ count < 32, ((Int32.ofNat count).toBitVec.smod 32).toNat = count := by decide
  exact hall count hcount

theorem shiftLeft_eq_ofInt (x : Int32) {count : Nat} (hcount : count < 32) :
    x <<< Int32.ofNat count = Int32.ofInt (x.toInt * 2 ^ count) := by
  have hpower : BitVec.ofInt 32 (2 ^ count) = BitVec.twoPow 32 count := by
    have hcast : (2 : Int) ^ count = ((2 ^ count : Nat) : Int) := (Int.natCast_pow 2 count).symm
    rw [hcast, BitVec.ofInt_natCast, ← BitVec.toNat_inj, BitVec.toNat_twoPow, BitVec.toNat_ofNat]
  rw [← Int32.toBitVec_inj, Int32.toBitVec_shiftLeft, BitVec.shiftLeft_eq',
    toNat_shift_count hcount, Int32.toBitVec_ofInt, BitVec.shiftLeft_eq_mul_twoPow,
    BitVec.ofInt_mul, hpower, ← Int32.toInt_toBitVec, BitVec.ofInt_toInt]

theorem ofInt_mul_two_pow (x : Int) {count : Nat} (hcount : 32 ≤ count) :
    Int32.ofInt (x * 2 ^ count) = 0 := by
  obtain ⟨more, rfl⟩ := Nat.exists_eq_add_of_le hcount
  have hzero : Int32.ofInt (2 ^ 32) = 0 := by decide
  rw [Int.pow_add, Int32.ofInt_mul, Int32.ofInt_mul, hzero, Int32.zero_mul, Int32.mul_zero]

/-- A quotient by more than the dividend is its sign. -/
theorem ediv_eq_sign {x bound : Int} (hpos : 0 < bound) (hle : -bound ≤ x) (hlt : x < bound) :
    x / bound = if x < 0 then -1 else 0 := by
  have habove : -1 ≤ x / bound := (Int.le_ediv_iff_mul_le hpos).2 (by omega)
  have hbelow : x / bound < 1 := (Int.ediv_lt_iff_lt_mul hpos).2 (by omega)
  have hsign : x / bound < 0 ↔ x < 0 := by rw [Int.ediv_lt_iff_lt_mul hpos, Int.zero_mul]
  split <;> omega

/-- Counts above 31 give what 31 gives: only the sign is left. -/
theorem toInt_shiftRight (x : Int32) (count : Nat) :
    (x >>> Int32.ofNat (min count 31)).toInt = x.toInt / 2 ^ count := by
  have hle := x.le_toInt
  have hlt := x.toInt_lt
  have hshift : (x >>> Int32.ofNat (min count 31)).toInt = x.toInt / (2 ^ min count 31 : Nat) := by
    rw [← Int32.toInt_toBitVec, Int32.toBitVec_shiftRight, BitVec.sshiftRight_eq',
      toNat_shift_count (by omega), BitVec.toInt_sshiftRight, Int.shiftRight_eq_div_pow,
      Int32.toInt_toBitVec]
  rw [hshift]
  rcases Nat.le_total count 31 with hsmall | hlarge
  · rw [Nat.min_eq_left hsmall, Int.natCast_pow]
    rfl
  · have hpower : (2 : Int) ^ 31 ≤ 2 ^ count := by
      have hnat := Int.ofNat_le.2 (Nat.pow_le_pow_right (show 0 < 2 by decide) hlarge)
      rwa [Int.natCast_pow, Int.natCast_pow] at hnat
    rw [Nat.min_eq_right hlarge, ediv_eq_sign (by decide) (by omega) (by omega),
      ediv_eq_sign (by omega) (by omega) (by omega)]

/-! ## Powers -/

/-- Squaring the base halves the exponent. -/
theorem powWith_eq_ofInt (base : Int) {bits exponent : Nat} (hexponent : exponent < 2 ^ bits) :
    powWith (Int32.ofInt base) bits exponent = Int32.ofInt (base ^ exponent) := by
  induction bits generalizing base exponent with
  | zero =>
    rw [Nat.pow_zero, Nat.lt_one_iff] at hexponent
    rw [hexponent, powWith, Int.pow_zero]
    rfl
  | succ bits ih =>
    rw [Nat.pow_succ'] at hexponent
    have hrest : powWith (Int32.ofInt base * Int32.ofInt base) bits (exponent / 2) =
        Int32.ofInt (base ^ (2 * (exponent / 2))) := by
      rw [← Int32.ofInt_mul, ih (base * base) (by omega), Int.pow_mul, Int.pow_succ, Int.pow_succ,
        Int.pow_zero, Int.one_mul]
    unfold powWith
    rw [hrest]
    dsimp only
    split
    · next hodd =>
      have hsplit : exponent = 2 * (exponent / 2) + 1 := by omega
      rw [← Int32.ofInt_mul, Int.mul_comm, ← Int.pow_succ, Nat.succ_eq_add_one, ← hsplit]
    · next heven =>
      have hsplit : 2 * (exponent / 2) = exponent := by omega
      rw [hsplit]

/-! ## Agreement -/

/-- The operation on bignums of the same name, where it takes the operands as they are. -/
def IntBinary.counterpart? : IntBinary → Option (Bignum → Bignum → Except BignumError Bignum)
  | .add => some (total Bignum.add)
  | .sub => some (total Bignum.sub)
  | .mul => some (total Bignum.mul)
  | .div => some Bignum.div
  | .rem => some Bignum.rem
  | .mod => some Bignum.mod
  | .and => some (total Bignum.and)
  | .or => some (total Bignum.or)
  | .xor => some (total Bignum.xor)
  | .shl | .shr | .lsl | .lsr | .cmp | .pow => none

/-- An integer agrees with the bignum that it is wrapped from, and a refused divisor with a refused
divisor. -/
inductive Agrees : Except Fault Int32 → Except BignumError Bignum → Prop
  | value (n : Bignum) : Agrees (.ok n.wrapped) (.ok n)
  | divisionByZero : Agrees (.error .divisionByZero) (.error .divisionByZero)

theorem Agrees.of_eq {n : Bignum} {z : Int32} (h : n.wrapped = z) : Agrees (.ok z) (.ok n) :=
  h ▸ .value n

theorem toInt_ofInt32_eq_zero_iff (y : Int32) : (Bignum.ofInt32 y).toInt = 0 ↔ y = 0 := by
  rw [Bignum.toInt_ofInt32, ← Int32.toInt_zero, Int32.toInt_inj]

/-- A division refuses zero, and else has a result to agree on. -/
theorem Agrees.of_division {x y : Int32} (result : Int32 → Int32)
    {counterpart : Bignum → Bignum → Except BignumError Bignum}
    (hresult : (Bignum.ofInt32 y).toInt ≠ 0 →
      ∃ n, counterpart (.ofInt32 x) (.ofInt32 y) = .ok n ∧ n.wrapped = result y)
    (hzero : (Bignum.ofInt32 y).toInt = 0 →
      counterpart (.ofInt32 x) (.ofInt32 y) = .error .divisionByZero) :
    Agrees (do return result (← divisor y)) (counterpart (.ofInt32 x) (.ofInt32 y)) := by
  by_cases hy : y = 0
  · rw [hzero ((toInt_ofInt32_eq_zero_iff y).2 hy), divisor, if_pos hy]
    exact .divisionByZero
  · obtain ⟨n, hn, hwrapped⟩ := hresult (mt (toInt_ofInt32_eq_zero_iff y).1 hy)
    rw [hn, divisor, if_neg hy]
    exact .of_eq hwrapped

theorem divisor_bind_eq_error_iff (y : Int32) (result : Int32 → Int32) :
    (do return result (← divisor y)) = .error Fault.divisionByZero ↔ y = 0 := by
  unfold divisor
  split
  · next hzero => exact ⟨fun _ ↦ hzero, fun _ ↦ rfl⟩
  · next hne => exact ⟨nofun, fun hzero ↦ absurd hzero hne⟩

theorem shiftCount_bind_ne_error (y : Int32) (result : Nat → Int32) :
    (do return result (← shiftCount y)) ≠ .error Fault.divisionByZero := by
  unfold shiftCount
  split
  · nofun
  · nofun

section Operations

variable (x y : Int32)

theorem apply_eq_divisionByZero_iff (op : IntBinary) :
    op.apply x y = .error .divisionByZero ↔ op ∈ [.div, .rem, .mod] ∧ y = 0 := by
  cases op
  case div | rem | mod => exact (divisor_bind_eq_error_iff y _).trans (by simp)
  case shl | lsl | shr | lsr => exact iff_of_false (shiftCount_bind_ne_error y _) (by simp)
  case pow =>
    simp only [IntBinary.apply]
    split <;> simp
  all_goals simp [IntBinary.apply]

theorem div_agrees :
    Agrees (IntBinary.div.apply x y) (Bignum.div (.ofInt32 x) (.ofInt32 y)) := by
  refine Agrees.of_division (fun y ↦ x / y) (fun hne ↦ ?_) fun hzero ↦ ?_
  · obtain ⟨quotient, hdiv, hquotient⟩ :=
      Bignum.div_spec (Bignum.canonical_ofInt32 x) (Bignum.canonical_ofInt32 y) hne
    refine ⟨quotient, hdiv, ?_⟩
    rw [Bignum.wrapped, hquotient, Bignum.toInt_ofInt32, Bignum.toInt_ofInt32, ofInt_tdiv]
  · rw [Bignum.div, Bignum.divRem_zero hzero]
    rfl

theorem rem_agrees :
    Agrees (IntBinary.rem.apply x y) (Bignum.rem (.ofInt32 x) (.ofInt32 y)) := by
  refine Agrees.of_division (fun y ↦ x % y) (fun hne ↦ ?_) fun hzero ↦ ?_
  · obtain ⟨remainder, hrem, hremainder, -⟩ :=
      Bignum.rem_spec (Bignum.canonical_ofInt32 x) (Bignum.canonical_ofInt32 y) hne
    refine ⟨remainder, hrem, ?_⟩
    rw [Bignum.wrapped, hremainder, Bignum.toInt_ofInt32, Bignum.toInt_ofInt32, ofInt_tmod]
  · rw [Bignum.rem, Bignum.divRem_zero hzero]
    rfl

theorem mod_agrees :
    Agrees (IntBinary.mod.apply x y) (Bignum.mod (.ofInt32 x) (.ofInt32 y)) := by
  refine Agrees.of_division (fun divisor ↦
    if x % divisor ≠ 0 ∧ (x % divisor < 0) ≠ (y < 0) then x % divisor + y else x % divisor)
    (fun hne ↦ ?_) fun hzero ↦ ?_
  · obtain ⟨modulus, hmod, hmodulus⟩ :=
      Bignum.mod_spec (Bignum.canonical_ofInt32 x) (Bignum.canonical_ofInt32 y) hne
    have hzero : x % y ≠ 0 ↔ x.toInt.tmod y.toInt ≠ 0 := by
      rw [← Int32.toInt_mod, ← Int32.toInt_zero, ne_eq, ne_eq, Int32.toInt_inj]
    refine ⟨modulus, hmod, ?_⟩
    rw [Bignum.wrapped, hmodulus, Bignum.toInt_ofInt32, Bignum.toInt_ofInt32, fmod_eq_ite]
    simp only [hzero, Int32.lt_iff_toInt_lt, Int32.toInt_mod, Int32.toInt_zero]
    split
    · rw [Int32.ofInt_add, ofInt_tmod, Int32.ofInt_toInt]
    · rw [ofInt_tmod]
  · rw [Bignum.mod, Bignum.rem, Bignum.divRem_zero hzero]
    rfl

/-- A positive count is taken alike by both. -/
theorem shiftCount_agrees {y : Int32} (hy : 1 ≤ y) :
    ∃ bits, Bignum.shiftCount (.ofInt32 y) = .ok bits ∧ shiftCount y = .ok bits.toNat := by
  have hlt := y.toInt_lt
  have hpos : 1 ≤ y.toInt := Int32.le_iff_toInt_le.1 hy
  obtain ⟨bits, hcount, hbits⟩ := Bignum.shiftCount_eq_ok (Bignum.canonical_ofInt32 y)
    (by rw [Bignum.toInt_ofInt32]; omega) (by rw [Bignum.toInt_ofInt32]; omega)
  rw [Bignum.toInt_ofInt32] at hbits
  refine ⟨bits, hcount, ?_⟩
  have hnot : ¬y < 0 := by
    rw [Int32.lt_iff_toInt_lt, Int32.toInt_zero]
    omega
  rw [shiftCount, if_neg hnot, ← hbits, Int.toNat_natCast]

theorem shl_agrees (hy : 1 ≤ y) : ∃ n, Bignum.shiftLeft (.ofInt32 x) (.ofInt32 y) = .ok n ∧
    IntBinary.shl.apply x y = .ok n.wrapped := by
  obtain ⟨bits, hcount, hcount'⟩ := shiftCount_agrees hy
  refine ⟨(Bignum.ofInt32 x).shiftLeftBits bits, by rw [Bignum.shiftLeft, hcount]; rfl, ?_⟩
  rw [Bignum.wrapped, Bignum.toInt_shiftLeftBits, Bignum.toInt_ofInt32]
  unfold IntBinary.apply
  rw [hcount']
  refine congrArg Except.ok ?_
  split
  · next hlarge => rw [ofInt_mul_two_pow _ hlarge]
  · next hsmall => rw [shiftLeft_eq_ofInt x (Nat.lt_of_not_le hsmall)]

theorem shr_agrees (hy : 1 ≤ y) : ∃ n z, Bignum.shiftRight (.ofInt32 x) (.ofInt32 y) = .ok n ∧
    IntBinary.shr.apply x y = .ok z ∧ z.toInt = n.toInt := by
  obtain ⟨bits, hcount, hcount'⟩ := shiftCount_agrees hy
  refine ⟨(Bignum.ofInt32 x).shiftRightBits bits, x >>> Int32.ofNat (min bits.toNat 31),
    by rw [Bignum.shiftRight, hcount]; rfl, ?_, ?_⟩
  · unfold IntBinary.apply
    rw [hcount']
    rfl
  · rw [Bignum.toInt_shiftRightBits, Bignum.toInt_ofInt32, toInt_shiftRight]

theorem cmp_agrees : IntBinary.cmp.apply x y =
    .ok (Value.orderNumber (Bignum.compare (.ofInt32 x) (.ofInt32 y))) := by
  rw [Bignum.compare_eq_compare_toInt (Bignum.canonical_ofInt32 x) (Bignum.canonical_ofInt32 y),
    Bignum.toInt_ofInt32, Bignum.toInt_ofInt32]
  rfl

theorem pow_agrees (hy : 0 ≤ y) :
    IntBinary.pow.apply x y = .ok ((Bignum.ofInt32 x).power y.toInt.toNat).wrapped := by
  have hlt := y.toInt_lt
  have hnot : ¬y < 0 := by
    rw [Int32.lt_iff_toInt_lt]
    exact Int.not_lt.2 (Int32.le_iff_toInt_le.1 hy)
  have hexponent : y.toInt.toNat < 2 ^ 32 := by omega
  have hpower := powWith_eq_ofInt x.toInt hexponent
  rw [Int32.ofInt_toInt] at hpower
  rw [Bignum.wrapped, Bignum.toInt_power, Bignum.toInt_ofInt32, ← hpower]
  unfold IntBinary.apply
  rw [if_neg hnot]

end Operations

/-- Integers and bignums side by side, on a pair of integers. -/
structure WrapsBignums (x y : Int32) : Prop where
  /-- An operation that bignums have too gives the wrapped result, or the same refusal. -/
  binary : ∀ op counterpart, IntBinary.counterpart? op = some counterpart →
    Agrees (op.apply x y) (counterpart (.ofInt32 x) (.ofInt32 y))
  /-- What is refused is a division by zero. -/
  refused : ∀ op, IntBinary.apply op x y = .error .divisionByZero ↔
    op ∈ [.div, .rem, .mod] ∧ y = 0
  /-- A left shift drops the bits that bignums keep. -/
  shl : 1 ≤ y → ∃ n, Bignum.shiftLeft (.ofInt32 x) (.ofInt32 y) = .ok n ∧
    IntBinary.shl.apply x y = .ok n.wrapped
  /-- A right shift drops nothing, so the results are the same number. -/
  shr : 1 ≤ y → ∃ n z, Bignum.shiftRight (.ofInt32 x) (.ofInt32 y) = .ok n ∧
    IntBinary.shr.apply x y = .ok z ∧ z.toInt = n.toInt
  cmp : IntBinary.cmp.apply x y =
    .ok (Value.orderNumber (Bignum.compare (.ofInt32 x) (.ofInt32 y)))
  /-- The instruction that negates the integer in a register. -/
  neg : ∀ program machine frame operands, Frame.register frame operands.b = .ok (.int x) →
    execute program machine frame .intNeg operands =
      Effect.assign machine frame operands.a (.int (Bignum.ofInt32 x).neg.wrapped)
  /-- The instruction that complements the integer in a register. -/
  cpl : ∀ program machine frame operands, Frame.register frame operands.b = .ok (.int x) →
    execute program machine frame .intCpl operands =
      Effect.assign machine frame operands.a (.int (Bignum.ofInt32 x).complement.wrapped)
  /-- A power is the wrapped product of so many factors. -/
  pow : 0 ≤ y → IntBinary.pow.apply x y = .ok ((Bignum.ofInt32 x).power y.toInt.toNat).wrapped

/-- Wrapping arithmetic of 32 bits is bignum arithmetic modulo 2³², on all pairs of integers. -/
theorem integers_wrap_bignums (x y : Int32) : WrapsBignums x y where
  binary op counterpart hcounterpart := by
    cases op <;> cases hcounterpart
    case add => exact .of_eq (Bignum.wrapped_add x y)
    case sub => exact .of_eq (Bignum.wrapped_sub x y)
    case mul => exact .of_eq (Bignum.wrapped_mul x y)
    case div => exact div_agrees x y
    case rem => exact rem_agrees x y
    case mod => exact mod_agrees x y
    case and => exact .of_eq (Bignum.wrapped_and x y)
    case or => exact .of_eq (Bignum.wrapped_or x y)
    case xor => exact .of_eq (Bignum.wrapped_xor x y)
  refused := apply_eq_divisionByZero_iff x y
  shl := shl_agrees x y
  shr := shr_agrees x y
  cmp := cmp_agrees x y
  neg program machine frame operands hregister := by
    rw [Bignum.wrapped_neg]
    unfold execute
    simp only [hregister]
    rfl
  cpl program machine frame operands hregister := by
    rw [Bignum.wrapped_complement]
    unfold execute
    simp only [hregister]
    rfl
  pow := pow_agrees x y

/-- The one quotient that does not fit wraps to the dividend. -/
example : Bignum.div (.ofInt32 Int32.minValue) (.ofInt32 (-1)) = .ok ⟨[0x80000000], false⟩ ∧
    IntBinary.div.apply Int32.minValue (-1) = .ok Int32.minValue :=
  ⟨rfl, rfl⟩

end RegisterMachine

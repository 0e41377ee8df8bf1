import Mathlib.Logic.Function.Iterate
import RegisterMachine.Bytes.Checksum
import RegisterMachine.Proofs.Program.RoundTrip

/-!
# The checksum notices short errors

A step of the checksum is linear over exclusive or and loses nothing, because the polynomial has its
top bit. Up to four bytes in a row are therefore taken in at once: they are put on the register as
the word that they form, and the register then makes eight steps for each byte. Two texts that
differ only inside a window of four bytes leave the window with different registers, and the bytes
after it keep the registers apart.
-/

namespace RegisterMachine.Bytes

/-! ## One bit -/

/-- The lowest bit of a register, as a truth value. -/
def lowBit (word : UInt32) : Bool :=
  word.toNat.testBit 0

theorem lowBit_eq_false_iff (word : UInt32) : lowBit word = false ↔ word.toNat % 2 = 0 := by
  simp [lowBit]

theorem lowBit_xor (first second : UInt32) :
    lowBit (first ^^^ second) = (lowBit first ^^ lowBit second) := by
  rw [lowBit, UInt32.toNat_xor, Nat.testBit_xor]
  rfl

theorem crcBit_eq (crc : UInt32) :
    crcBit crc = (crc >>> 1) ^^^ (if lowBit crc then polynomial else 0) := by
  have hlow : crc &&& 1 = 1 ↔ lowBit crc := by
    rw [← UInt32.toNat_inj, UInt32.toNat_and]
    change crc.toNat &&& 1 = 1 ↔ _
    rw [Nat.and_one_is_mod, lowBit, Nat.testBit_zero, decide_eq_true_iff]
  unfold crcBit
  by_cases hodd : lowBit crc
  · rw [if_pos (hlow.2 hodd), if_pos hodd]
  · rw [if_neg (mt hlow.1 hodd), if_neg hodd, UInt32.xor_zero]

theorem crcBit_xor (first second : UInt32) :
    crcBit (first ^^^ second) = crcBit first ^^^ crcBit second := by
  rw [crcBit_eq, crcBit_eq, crcBit_eq, UInt32.shiftRight_xor, lowBit_xor]
  generalize first >>> 1 = x
  generalize second >>> 1 = y
  cases lowBit first <;> cases lowBit second
  case false.false => simp
  case false.true | true.false =>
    simp only [Bool.false_xor, Bool.true_xor, Bool.not_false, if_true, Bool.false_eq_true, if_false,
      UInt32.xor_zero]
    ac_rfl
  case true.true =>
    -- The polynomial is put on both, so it cancels.
    have hcancel : x ^^^ polynomial ^^^ (y ^^^ polynomial) =
        x ^^^ y ^^^ (polynomial ^^^ polynomial) := by ac_rfl
    simp [hcancel]

/-- A word without its lowest bit is halved. -/
theorem toNat_crcBit_of_even {crc : UInt32} (heven : crc.toNat % 2 = 0) :
    (crcBit crc).toNat = crc.toNat / 2 := by
  have hlow : lowBit crc = false := (lowBit_eq_false_iff crc).2 heven
  rw [crcBit_eq, hlow, if_neg Bool.false_ne_true, UInt32.xor_zero, UInt32.toNat_shiftRight]
  exact Nat.shiftRight_eq_div_pow crc.toNat 1

/-- Only zero is taken to zero: a word with its lowest bit gets the top bit of the polynomial. -/
theorem eq_zero_of_crcBit {crc : UInt32} (h : crcBit crc = 0) : crc = 0 := by
  have hhalf : (crc >>> 1).toNat = crc.toNat / 2 := by
    rw [UInt32.toNat_shiftRight]
    exact Nat.shiftRight_eq_div_pow crc.toNat 1
  have hbound : crc.toNat < 2 ^ 32 := crc.toNat_lt
  cases hlow : lowBit crc with
  | true =>
    rw [crcBit_eq, hlow, if_pos rfl, UInt32.xor_eq_zero_iff] at h
    have htop : crc.toNat / 2 = 0xedb88320 := by
      rw [← hhalf, h]
      rfl
    omega
  | false =>
    have hzero : crc.toNat / 2 = 0 := by
      rw [← toNat_crcBit_of_even ((lowBit_eq_false_iff crc).1 hlow), h]
      rfl
    have heven : crc.toNat % 2 = 0 := (lowBit_eq_false_iff crc).1 hlow
    apply UInt32.toNat_inj.1
    change crc.toNat = 0
    omega

theorem crcBit_injective : Function.Injective crcBit := by
  intro first second hsame
  have hzero : crcBit (first ^^^ second) = 0 := by
    rw [crcBit_xor, hsame, UInt32.xor_self]
  exact UInt32.xor_eq_zero_iff.1 (eq_zero_of_crcBit hzero)

/-! ## Several bits -/

theorem iterate_crcBit_xor (count : Nat) (first second : UInt32) :
    crcBit^[count] (first ^^^ second) = crcBit^[count] first ^^^ crcBit^[count] second := by
  induction count generalizing first second with
  | zero => rfl
  | succ count ih =>
    rw [Function.iterate_succ_apply, Function.iterate_succ_apply, Function.iterate_succ_apply,
      crcBit_xor, ih]

/-- Bits that are clear only let the rest move down. -/
theorem toNat_iterate_crcBit {count : Nat} {crc : UInt32} (hclear : 2 ^ count ∣ crc.toNat) :
    (crcBit^[count] crc).toNat = crc.toNat / 2 ^ count := by
  induction count generalizing crc with
  | zero => simp
  | succ count ih =>
    obtain ⟨rest, hrest⟩ := hclear
    have hdouble : crc.toNat = 2 * (2 ^ count * rest) := by
      rw [hrest, Nat.pow_succ', Nat.mul_assoc]
    have hhalf : (crcBit crc).toNat = 2 ^ count * rest := by
      rw [toNat_crcBit_of_even (by omega), hdouble]
      omega
    rw [Function.iterate_succ_apply, ih ⟨rest, hhalf⟩, hhalf, hrest,
      Nat.mul_div_cancel_left rest (Nat.two_pow_pos _),
      Nat.mul_div_cancel_left rest (Nat.two_pow_pos _)]

theorem iterate_crcBit_shiftLeft {word : UInt32} (hword : word.toNat < 2 ^ 24) :
    crcBit^[8] (word <<< 8) = word := by
  have hshift : (word <<< 8).toNat = 2 ^ 8 * word.toNat := by
    rw [UInt32.toNat_shiftLeft, Nat.shiftLeft_eq]
    change word.toNat * 2 ^ 8 % 2 ^ 32 = _
    omega
  apply UInt32.toNat_inj.1
  rw [toNat_iterate_crcBit ⟨word.toNat, hshift⟩, hshift]
  omega

/-! ## Bytes -/

theorem crcByte_eq (crc : UInt32) (byte : UInt8) :
    crcByte crc byte = crcBit^[8] (crc ^^^ byte.toUInt32) := rfl

theorem crcByte_injective (byte : UInt8) : Function.Injective (crcByte · byte) := by
  intro first second hsame
  have hmixed := crcBit_injective.iterate 8 hsame
  exact (UInt32.xor_left_inj _).1 hmixed

/-- Registers that differ stay so, whatever bytes are taken in. -/
theorem foldl_crcByte_injective (bytes : List UInt8) :
    Function.Injective fun crc ↦ bytes.foldl crcByte crc := by
  induction bytes with
  | nil => exact Function.injective_id
  | cons byte rest ih => exact ih.comp (crcByte_injective byte)

theorem toNat_toUInt32_lt {bytes : List UInt8} (hlength : bytes.length ≤ 4) :
    (toUInt32 bytes).toNat < 2 ^ (8 * bytes.length) := by
  induction bytes with
  | nil => decide
  | cons byte rest ih =>
    have hshorter : rest.length ≤ 3 := Nat.le_of_succ_le_succ hlength
    have hrest := ih (by omega)
    have hroom : 2 ^ (8 * rest.length) ≤ 2 ^ 24 := Nat.pow_le_pow_right (by decide) (by omega)
    have hbyte : byte.toNat < 2 ^ 8 := byte.toNat_lt
    rw [toNat_toUInt32_cons byte rest (by omega), List.length_cons, Nat.mul_succ, Nat.add_comm _ 8,
      Nat.pow_add]
    omega

/-- The word of at most three bytes leaves room for a fourth. -/
theorem toNat_toUInt32_lt_of_le {bytes : List UInt8} (hlength : bytes.length ≤ 3) :
    (toUInt32 bytes).toNat < 2 ^ 24 :=
  Nat.lt_of_lt_of_le (toNat_toUInt32_lt (by omega)) (Nat.pow_le_pow_right (by decide) (by omega))

/-- A byte and the bytes shifted over it have no bit in common. -/
theorem toUInt32_cons_eq_xor (byte : UInt8) (rest : List UInt8) :
    toUInt32 (byte :: rest) = byte.toUInt32 ^^^ (toUInt32 rest <<< 8) := by
  apply UInt32.toBitVec_inj.1
  rw [toUInt32, UInt32.toBitVec_or, UInt32.toBitVec_xor, UInt32.toBitVec_shiftLeft,
    UInt8.toBitVec_toUInt32]
  apply BitVec.eq_of_getLsbD_eq
  intro index hindex
  rw [BitVec.getLsbD_or, BitVec.getLsbD_xor]
  by_cases hlow : index < 8
  · simp [hlow]
  · have hclear : byte.toBitVec.getLsbD index = false :=
      BitVec.getLsbD_of_ge _ _ (Nat.le_of_not_lt hlow)
    simp [hclear]

/-- Up to four bytes are taken in at once, as a word. -/
theorem foldl_crcByte_eq (crc : UInt32) {bytes : List UInt8} (hlength : bytes.length ≤ 4) :
    bytes.foldl crcByte crc = crcBit^[8 * bytes.length] (crc ^^^ toUInt32 bytes) := by
  induction bytes generalizing crc with
  | nil => simp [toUInt32]
  | cons byte rest ih =>
    have hshorter : rest.length ≤ 3 := Nat.le_of_succ_le_succ hlength
    have hroom := toNat_toUInt32_lt_of_le hshorter
    calc
      (byte :: rest).foldl crcByte crc
        = crcBit^[8 * rest.length] (crcByte crc byte ^^^ toUInt32 rest) :=
          ih (crcByte crc byte) (by omega)
      _ = crcBit^[8 * rest.length]
            (crcBit^[8] (crc ^^^ byte.toUInt32) ^^^ crcBit^[8] (toUInt32 rest <<< 8)) := by
          rw [iterate_crcBit_shiftLeft hroom, crcByte_eq]
      _ = crcBit^[8 * rest.length] (crcBit^[8] (crc ^^^ toUInt32 (byte :: rest))) := by
          rw [← iterate_crcBit_xor, toUInt32_cons_eq_xor, UInt32.xor_assoc]
      _ = crcBit^[8 * (byte :: rest).length] (crc ^^^ toUInt32 (byte :: rest)) := by
          rw [← Function.iterate_add_apply, List.length_cons, Nat.mul_succ]

theorem toUInt32_injective {first second : List UInt8} (hlength : first.length = second.length)
    (hshort : first.length ≤ 4) (hsame : toUInt32 first = toUInt32 second) : first = second := by
  induction first generalizing second with
  | nil => exact (List.length_eq_zero_iff.1 hlength.symm).symm
  | cons byte rest ih =>
    obtain ⟨other, others, rfl⟩ := List.exists_cons_of_length_eq_add_one hlength.symm
    have hrest : rest.length = others.length := Nat.succ.inj hlength
    have hshorter : rest.length ≤ 3 := Nat.le_of_succ_le_succ hshort
    have hvalues := congrArg UInt32.toNat hsame
    rw [toNat_toUInt32_cons byte rest (toNat_toUInt32_lt_of_le hshorter),
      toNat_toUInt32_cons other others (toNat_toUInt32_lt_of_le (hrest ▸ hshorter))] at hvalues
    have hbyte : byte.toNat < 2 ^ 8 := byte.toNat_lt
    have hother : other.toNat < 2 ^ 8 := other.toNat_lt
    have hfirst : byte = other := UInt8.toNat_inj.1 (by omega)
    have hothers : rest = others :=
      ih hrest (by omega) (UInt32.toNat_inj.1 (by omega))
    rw [hfirst, hothers]

/-- Two texts that differ only inside a window of four bytes have different checksums. -/
theorem crc32_window_injective {before after first second : List UInt8}
    (hlength : first.length = second.length) (hshort : first.length ≤ 4)
    (hsame : crc32 (before ++ first ++ after) = crc32 (before ++ second ++ after)) :
    first = second := by
  have hregister := UInt32.not_inj.1 hsame
  simp only [List.foldl_append] at hregister
  have hwindow := foldl_crcByte_injective after hregister
  generalize before.foldl crcByte 0xffffffff = register at hwindow
  rw [foldl_crcByte_eq register hshort, foldl_crcByte_eq register (hlength ▸ hshort), hlength]
    at hwindow
  have hwords := crcBit_injective.iterate _ hwindow
  exact toUInt32_injective hlength hshort ((UInt32.xor_right_inj _).1 hwords)

end RegisterMachine.Bytes

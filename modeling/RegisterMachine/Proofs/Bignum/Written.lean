import RegisterMachine.Proofs.Bignum.Built

/-!
# Bignums as they are written

The text of a bignum is the one numeral of its value, in decimal and in hexadecimal: a minus sign
below zero, and the expansion of the absolute value. Each limb gives eight hexadecimal digits. The
decimal digits come in chunks of nine, and it makes no difference whether the chunks are gathered
from the top limb down or divided off at the bottom until nothing is left.
-/

namespace RegisterMachine

/-! ## Numerals of integers -/

namespace Text

/-- The text of an integer in a base: a minus sign below zero, and the digits of the absolute value,
with no zero in front of others. -/
def CanonicalNumeral (base : Nat) (number : Int) (text : String) : Prop :=
  ∃ digits, IsExpansion base number.natAbs digits ∧
    text.toList = (if number < 0 then ['-'] else []) ++ digits.map Nat.digitChar

theorem canonicalNumeral_iff {base : Nat} (hbase : 1 < base) {number : Int} {text : String} :
    CanonicalNumeral base number text ↔
      text.toList = (if number < 0 then ['-'] else []) ++ Nat.toDigits base number.natAbs := by
  simp only [CanonicalNumeral, isExpansion_iff hbase, toDigits_eq_expansion hbase,
    exists_eq_left]

/-- A layout that adds nothing to a numeral. -/
structure Layout.Plain (layout : Layout) : Prop where
  width_eq : layout.width = 0
  showPlus_eq : layout.showPlus = false
  showMarker_eq : layout.showMarker = false

theorem Layout.Plain.toList_apply {layout : Layout} (h : layout.Plain) (negative : Bool)
    (marker digits : String) :
    (layout.apply negative marker digits).toList =
      (if negative then ['-'] else []) ++ digits.toList := by
  obtain ⟨showPlus, showMarker, width, filling⟩ := layout
  obtain ⟨rfl, rfl, rfl⟩ := h
  cases negative <;> rcases filling with _ | ⟨_, _ | _ | _⟩ <;> simp [apply, repeated]

end Text

namespace Magnitude

variable {limbs : Magnitude}

/-! ## Hexadecimal digits of limbs -/

theorem ofDigits_limbs (limbs : Magnitude) :
    Nat.ofDigits (16 ^ 8) (limbs.map UInt32.toNat) = value limbs := by
  induction limbs with
  | nil => rfl
  | cons limb rest ih => rw [List.map_cons, Nat.ofDigits_cons, ih, value_cons]; rfl

/-- Canonical limbs are an expansion, and a limb is a block of eight hexadecimal digits. -/
theorem isExpansion_limbs (hlimbs : Canonical limbs) :
    Text.IsExpansion (16 ^ 8) (value limbs) (limbs.reverse.map UInt32.toNat) := by
  rw [List.map_reverse, ← ofDigits_limbs]
  refine Text.isExpansion_reverse (by simpa using hlimbs.1) ?_ ?_
  · intro digit hdigit
    obtain ⟨limb, -, rfl⟩ := List.mem_map.1 hdigit
    exact limb.toNat_lt
  · intro hlast
    rw [List.getLast?_map, Option.map_eq_some_iff] at hlast
    obtain ⟨top, htop, hzero⟩ := hlast
    have htopZero : top = 0 := UInt32.toNat_inj.1 hzero
    rw [hlimbs.2 (htopZero ▸ htop)]
    rfl

theorem limbsText_eq_blocksText (limbs : List UInt32) :
    limbsText limbs = Text.blocksText 16 8 (limbs.map UInt32.toNat) := by
  cases limbs with
  | nil => rfl
  | cons top rest =>
    simp only [limbsText, Text.blocksText, List.map_cons, List.foldl_map]
    rfl

theorem hexadecimal_eq_numeral (hlimbs : Canonical limbs) :
    hexadecimal limbs = Text.numeral 16 (value limbs) := by
  rw [hexadecimal, limbsText_eq_blocksText]
  exact Text.blocksText_eq_numeral (by decide) (by decide) (isExpansion_limbs hlimbs)

/-! ## Chunks divided off -/

theorem divSmall_spec (limbs : Magnitude) {divisor : UInt32} (hdivisor : 0 < divisor.toNat) :
    value (divSmall limbs divisor).1 = value limbs / divisor.toNat ∧
      (divSmall limbs divisor).2.toNat = value limbs % divisor.toNat := by
  have hdivision := divSmallWith_spec hdivisor limbs
  have hsmall : (divSmallWith divisor limbs).2.toNat < 2 ^ 32 :=
    Nat.lt_trans hdivision.remainder_lt divisor.toNat_lt
  rw [divSmall, value_normalize, toNat_low, Nat.mod_eq_of_lt hsmall]
  exact hdivision.unique

/-- Divides a chunk off: what is left, and the chunk. -/
def splitChunk (limbs : Magnitude) : Magnitude × UInt32 :=
  divSmall limbs chunkBase.toUInt32

theorem splitChunk_spec (limbs : Magnitude) :
    value (splitChunk limbs).1 = value limbs / 10 ^ 9 ∧
      (splitChunk limbs).2.toNat = value limbs % 10 ^ 9 :=
  divSmall_spec limbs (by decide)

/-- Divides chunks off, the least significant first, until nothing is left. The first division is
made in any case. -/
def divideOff (limbs : Magnitude) : List UInt32 :=
  if isZero (splitChunk limbs).1 then [(splitChunk limbs).2]
  else (splitChunk limbs).2 :: divideOff (splitChunk limbs).1
termination_by value limbs
decreasing_by
  next hrest =>
    have hquotient := (splitChunk_spec limbs).1
    rw [isZero_iff_value_eq_zero] at hrest
    omega

/-- The decimal numeral of the chunks divided off. -/
def dividedText (limbs : Magnitude) : String :=
  Text.blocksText 10 9 ((divideOff limbs).reverse.map UInt32.toNat)

/-- What is left of the number has an expansion, and the chunk divided off stands behind it. -/
theorem isExpansion_divideOff (limbs : Magnitude) :
    Text.IsExpansion (10 ^ 9) (value limbs) ((divideOff limbs).reverse.map UInt32.toNat) := by
  fun_induction divideOff limbs with
  | case1 limbs hzero =>
    obtain ⟨hquotient, hchunk⟩ := splitChunk_spec limbs
    rw [isZero_iff_value_eq_zero] at hzero
    have hvalue : value limbs = (splitChunk limbs).2.toNat := by omega
    rw [hvalue]
    exact Text.isExpansion_singleton (by omega)
  | case2 limbs hrest ih =>
    obtain ⟨hquotient, hchunk⟩ := splitChunk_spec limbs
    rw [isZero_iff_value_eq_zero] at hrest
    have hvalue : value limbs =
        10 ^ 9 * value (splitChunk limbs).1 + (splitChunk limbs).2.toNat := by
      rw [hquotient, hchunk, Nat.div_add_mod]
    rw [hvalue, List.reverse_cons, List.map_append]
    exact ih.concat (Nat.pos_of_ne_zero hrest) (by omega)

theorem dividedText_eq_decimal (limbs : Magnitude) : dividedText limbs = decimal limbs := by
  rw [decimal_eq_numeral]
  exact Text.blocksText_eq_numeral (by decide) (by decide) (isExpansion_divideOff limbs)

end Magnitude

namespace Bignum

variable {a : Bignum}

/-! ## Written and read -/

/-- A sign and the numeral of the absolute value are the numeral of the value. -/
theorem canonicalNumeral_iff_eq_apply (a : Bignum) {base : Nat} (hbase : 1 < base)
    {layout : Text.Layout} (hlayout : layout.Plain) (marker text : String) :
    Text.CanonicalNumeral base a.toInt text ↔
      text = layout.apply a.isNegative marker (Text.numeral base a.limbs.value) := by
  rw [Text.canonicalNumeral_iff hbase, natAbs_toInt, ← String.toList_inj, hlayout.toList_apply,
    Text.numeral, String.toList_ofList]
  simp only [isNegative_iff_toInt_neg]

/-- What is read from the text of a bignum is the bignum, with no sign on zero. -/
theorem parse_toText_eq (ha : a.limbs.Canonical) : parse a.toText = .ok a.clearZeroSign := by
  obtain ⟨b, hparse, hvalue⟩ := a.parse_toText
  have hsame : b.toInt = a.clearZeroSign.toInt := by rw [hvalue, toInt_clearZeroSign]
  rw [hparse, (parse_normal hparse).eq_of_toInt_eq (normal_clearZeroSign ha) hsame]

/-- The decimal and the hexadecimal text are the only numerals of the value without zeros in front,
and the decimal text is that of the chunks divided off. What is read from it equals the bignum. -/
theorem written_canonically (ha : a.limbs.Canonical) :
    (∀ layout : Text.Layout, layout.Plain → ∀ text : String,
      (Text.CanonicalNumeral 10 a.toInt text ↔ text = a.decimal layout) ∧
        (Text.CanonicalNumeral 16 a.toInt text ↔ text = a.hexadecimal layout)) ∧
      a.limbs.decimal = a.limbs.dividedText ∧
      parse a.toText = .ok a.clearZeroSign ∧ a.clearZeroSign.equals a = true ∧
      a.clearZeroSign.toInt = a.toInt := by
  refine ⟨fun layout hlayout text ↦ ⟨?_, ?_⟩, (Magnitude.dividedText_eq_decimal a.limbs).symm,
    parse_toText_eq ha, ?_, toInt_clearZeroSign a⟩
  · rw [decimal, Magnitude.decimal_eq_numeral]
    exact a.canonicalNumeral_iff_eq_apply (by decide) hlayout "" text
  · rw [hexadecimal, Magnitude.hexadecimal_eq_numeral ha]
    exact a.canonicalNumeral_iff_eq_apply (by decide) hlayout "0x" text
  · rw [equals_iff (normal_clearZeroSign ha).canonical ha]
    exact toInt_clearZeroSign a

/-- Three chunks, and the one in the middle is zero. -/
def zeroChunk : Bignum :=
  ⟨[0xa7640007, 0x0de0b6b3], true⟩

/-- Zero with its flag set has no sign in its text, and is read without the flag. -/
theorem written_canonically_zeros :
    zeroChunk.limbs.Canonical ∧ Text.Layout.Plain {} ∧
      Text.CanonicalNumeral 10 zeroChunk.toInt "-1000000000000000007" ∧
      Text.CanonicalNumeral 16 zeroChunk.toInt "-de0b6b3a7640007" ∧
      parse zeroChunk.toText = .ok zeroChunk ∧
      Text.CanonicalNumeral 10 (toInt ⟨[0], true⟩) "0" ∧
      parse (toText ⟨[0], true⟩) = .ok ⟨[0], false⟩ := by
  have hplain : Text.Layout.Plain {} := ⟨rfl, rfl, rfl⟩
  have hchunk := written_canonically (a := zeroChunk) (by decide)
  have hzero := written_canonically (a := ⟨[0], true⟩) (by decide)
  refine ⟨by decide, hplain, ((hchunk.1 {} hplain _).1).2 ?_, ((hchunk.1 {} hplain _).2).2 ?_,
    hchunk.2.2.1, ((hzero.1 {} hplain _).1).2 ?_, hzero.2.2.1⟩
  · decide
  · decide
  · decide

end Bignum

end RegisterMachine

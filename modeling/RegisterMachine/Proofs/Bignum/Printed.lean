import RegisterMachine.Proofs.Bignum.Literal

/-!
# Numerals of bignums are canonical

The numeral written for a bignum is the decimal numeral of its value. A numeral may be read that is
not of this form, with white space, a plus sign, zeros in front or underscores. What is read is then
in normal form all the same, and its own numeral is no longer than the one read.
-/

namespace RegisterMachine

namespace Magnitude

/-! ## Digits -/

theorem ofDigitChars_lt {digits : List Char} (hdigits : ∀ c ∈ digits, c.isDigit = true)
    (lead : Nat) : Nat.ofDigitChars 10 digits lead < 10 ^ digits.length * (lead + 1) := by
  induction digits generalizing lead with
  | nil =>
    rw [Nat.ofDigitChars_nil, List.length_nil, Nat.pow_zero]
    omega
  | cons c rest ih =>
    have hrange := toNat_of_isDigit (hdigits c (by simp))
    have hdigit : '0'.toNat = 48 := rfl
    have hnext : 10 * lead + (c.toNat - '0'.toNat) + 1 ≤ 10 * (lead + 1) := by omega
    rw [Nat.ofDigitChars_cons, List.length_cons, Nat.pow_succ, Nat.mul_assoc]
    exact Nat.lt_of_lt_of_le (ih (fun d hd ↦ hdigits d (by simp [hd])) _)
      (Nat.mul_le_mul_left _ hnext)

end Magnitude

namespace Bignum

/-- The form in which bignums are read: canonical limbs, and no sign on zero. -/
structure Normal (n : Bignum) : Prop where
  canonical : n.limbs.Canonical
  sign_of_zero : n.isZero = true → n.negative = false

theorem Normal.negative_eq_isNegative {n : Bignum} (hn : n.Normal) :
    n.negative = n.isNegative := by
  cases hzero : n.isZero with
  | true => rw [isNegative, hn.sign_of_zero hzero, Bool.false_and]
  | false => exact Bignum.negative_eq_isNegative hzero

/-- Bignums in normal form are told by their value. -/
theorem Normal.eq_of_toInt_eq {a b : Bignum} (ha : a.Normal) (hb : b.Normal)
    (hvalue : a.toInt = b.toInt) : a = b := by
  have hlimbs : a.limbs = b.limbs := by
    apply Magnitude.eq_of_value_eq ha.canonical hb.canonical
    rw [← natAbs_toInt, ← natAbs_toInt, hvalue]
  have hnegative : a.negative = b.negative := by
    rw [ha.negative_eq_isNegative, hb.negative_eq_isNegative, Bool.eq_iff_iff,
      isNegative_iff_toInt_neg, isNegative_iff_toInt_neg, hvalue]
  cases a
  cases b
  cases hlimbs
  cases hnegative
  rfl

theorem normal_clearZeroSign {n : Bignum} (hn : n.limbs.Canonical) : n.clearZeroSign.Normal where
  canonical := by rwa [limbs_clearZeroSign]
  sign_of_zero hzero := by
    rw [isZero, limbs_clearZeroSign] at hzero
    rw [clearZeroSign, isZero, if_pos hzero]

theorem negative_of_clearZeroSign {n : Bignum} (h : n.clearZeroSign.negative = true) :
    n.negative = true := by
  unfold clearZeroSign at h
  split at h
  · cases h
  · exact h

/-- The numeral of a bignum is the decimal numeral of its value. -/
theorem toText_eq_toString (n : Bignum) : n.toText = toString n.toInt := by
  apply String.toList_inj.1
  rw [toList_toText, Magnitude.decimal_eq_toString]
  cases hsign : n.isNegative with
  | true =>
    obtain ⟨hvalue, hpos⟩ := toInt_of_isNegative hsign
    obtain ⟨less, hless⟩ := Nat.exists_eq_add_one_of_ne_zero (Nat.ne_of_gt hpos)
    rw [hvalue, hless, if_pos rfl]
    change _ = ("-" ++ (less + 1).repr).toList
    rw [String.toList_append]
    rfl
  | false =>
    rw [toInt_of_not_isNegative hsign, if_neg Bool.false_ne_true]
    rfl

/-! ## What is read -/

theorem parse_normal {text : String} {n : Bignum} (h : parse text = .ok n) : n.Normal := by
  obtain ⟨literal, hstands⟩ := Literal.exists_of_parse h
  obtain ⟨limbs, hlimbs, -, hparse⟩ := literal.parse_of_standsIn hstands
  rw [hparse] at h
  cases h
  exact normal_clearZeroSign hlimbs

theorem length_le_utf8ByteSize (chars : List Char) :
    chars.length ≤ (String.ofList chars).utf8ByteSize := by
  induction chars with
  | nil => exact Nat.zero_le _
  | cons c rest ih =>
    have hc := c.utf8Size_pos
    rw [String.ofList_cons, String.utf8ByteSize_append, String.utf8ByteSize_singleton,
      List.length_cons]
    omega

theorem utf8ByteSize_of_ascii {chars : List Char} (h : ∀ c ∈ chars, c.utf8Size = 1) :
    (String.ofList chars).utf8ByteSize = chars.length := by
  induction chars with
  | nil => rfl
  | cons c rest ih =>
    rw [String.ofList_cons, String.utf8ByteSize_append, String.utf8ByteSize_singleton,
      List.length_cons, h c (by simp), ih fun d hd ↦ h d (by simp [hd]), Nat.add_comm]

theorem length_trim_le (chars : List Char) : (Text.trim chars).length ≤ chars.length := by
  have hdrop (chars : List Char) : (chars.dropWhile Text.isBlank).length ≤ chars.length :=
    (List.dropWhile_sublist _).length_le
  unfold Text.trim Text.trimEnd Text.trimStart
  rw [List.length_reverse]
  refine Nat.le_trans (hdrop _) ?_
  rw [List.length_reverse]
  exact hdrop chars

theorem utf8ByteSize_toText (n : Bignum) : n.toText.utf8ByteSize =
    (if n.isNegative then 1 else 0) + (Nat.toDigits 10 n.limbs.value).length := by
  have hdecimal : n.limbs.decimal.toList = Nat.toDigits 10 n.limbs.value := by
    rw [Magnitude.decimal_eq_toString]
    exact Nat.toList_repr
  have hdigit (c : Char) (hc : c.isDigit = true) : c.utf8Size = 1 := by
    have hrange := Magnitude.toNat_of_isDigit hc
    rw [Char.utf8Size_eq_one_iff, UInt32.le_iff_toNat_le]
    change c.toNat ≤ 127
    omega
  rw [← String.ofList_toList (s := n.toText), toList_toText, hdecimal, utf8ByteSize_of_ascii]
  · rw [List.length_append]
    cases n.isNegative <;> rfl
  · intro c hc
    rcases List.mem_append.1 hc with hsign | hnumeral
    · cases hnegative : n.isNegative <;> simp [hnegative] at hsign
      rw [hsign]
      rfl
    · exact hdigit c ((Magnitude.isNumeral_toDigits _).isDigit c hnumeral)

/-- The numeral that is written for a bignum is no longer than any numeral it is read from. -/
theorem utf8ByteSize_toText_le {text : String} {n : Bignum} (h : parse text = .ok n) :
    n.toText.utf8ByteSize ≤ text.utf8ByteSize := by
  obtain ⟨literal, hstands⟩ := Literal.exists_of_parse h
  obtain ⟨limbs, -, hvalue, hparse⟩ := literal.parse_of_standsIn hstands
  rw [hparse] at h
  cases h
  have hlength : (Nat.toDigits 10 limbs.value).length ≤ literal.digits.length := by
    rw [Nat.length_toDigits_le_iff (by decide) (List.length_pos_iff.2 literal.digits_ne_nil),
      hvalue, Literal.magnitude]
    simpa using Magnitude.ofDigitChars_lt (fun c hc ↦ literal.isDigit_digits hc) 0
  have hsigned : (if (clearZeroSign ⟨limbs, literal.mark.negates⟩).isNegative then 1 else 0) ≤
      literal.mark.chars.length := by
    split
    · next hbelow =>
      have hflag : (clearZeroSign ⟨limbs, literal.mark.negates⟩).negative = true :=
        (Bool.and_eq_true_iff.1 hbelow).1
      exact literal.mark.length_chars_of_negates (negative_of_clearZeroSign hflag)
    · exact Nat.zero_le _
  have htext := length_le_utf8ByteSize text.toList
  have htrimmed := length_trim_le text.toList
  have hfilter : literal.digits.length ≤ literal.body.length := List.length_filter_le ..
  rw [String.ofList_toList] at htext
  rw [literal.standsIn_iff.1 hstands, Literal.chars, List.length_append] at htrimmed
  rw [utf8ByteSize_toText, limbs_clearZeroSign]
  dsimp only
  omega

end Bignum

end RegisterMachine

import Mathlib.Data.Bool.AllAny
import RegisterMachine.Proofs.Bignum.Printed

/-!
# Texts that are read as bignums

A text is read exactly if a literal stands in it. Any other text is named as the cause.

Digits are gathered in chunks of nine, the most that a limb is sure to hold. The reader trusts the
chunk to its limb; here it is read with a test, which it always passes.
-/

namespace RegisterMachine

namespace Bignum

theorem eq_of_parse_eq_error {text : String} {cause : BignumError} (h : parse text = .error cause) :
    cause = .parse text := by
  unfold parse at h
  dsimp only at h
  split at h
  · cases h
  · cases h
    rfl

end Bignum

/-! ## Chunks that fit their limbs -/

namespace Magnitude

/-- A number that a limb does not hold. -/
structure Overflow where
  number : Nat

/-- The number as a limb, if a limb holds it. -/
def toLimb (number : Nat) : Except Overflow UInt32 :=
  if number < 2 ^ 32 then .ok (UInt32.ofNat number) else .error ⟨number⟩

theorem toLimb_of_toNat_eq {limb : UInt32} {number : Nat} (h : limb.toNat = number) :
    toLimb number = .ok limb := by
  rw [toLimb, ← h, if_pos limb.toNat_lt, UInt32.ofNat_toNat]

/-- Reads decimal digits and underscores as `readDigits` does, with a test for each number that is
kept in a limb. -/
def readTested (limbs : Magnitude) (chunk : UInt32) (count : Nat) :
    List Char → Except Overflow (Option Magnitude)
  | [] =>
    if count = 0 then .ok (some limbs)
    else do
      let factor ← toLimb (10 ^ count)
      return some (scaleAdd limbs factor chunk)
  | c :: rest =>
    if c = '_' then readTested limbs chunk count rest
    else
      match Text.decimalDigit? c with
      | none => .ok none
      | some digit => do
        let chunk ← toLimb (10 * chunk.toNat + digit)
        if count + 1 = 9 then readTested (scaleAdd limbs chunkBase.toUInt32 chunk) 0 0 rest
        else readTested limbs chunk (count + 1) rest

theorem decimalDigit?_lt {c : Char} {digit : Nat} (h : Text.decimalDigit? c = some digit) :
    digit < 10 := by
  have hc := isDigit_of_decimalDigit? h
  have hrange := toNat_of_isDigit hc
  rw [decimalDigit?_of_isDigit hc] at h
  rw [← Option.some.inj h]
  omega

/-- A chunk of fewer than nine digits has room for one more. -/
theorem readTested_eq (limbs : Magnitude) {chunk : UInt32} {count : Nat} (hcount : count < 9)
    (hchunk : chunk.toNat < 10 ^ count) (text : List Char) :
    readTested limbs chunk count text = .ok (readDigits limbs chunk count text) := by
  induction text generalizing limbs chunk count with
  | nil =>
    have hpower : 10 ^ count ≤ 10 ^ 8 := Nat.pow_le_pow_right (by decide) (by omega)
    have hfactor : (UInt32.ofNat (10 ^ count)).toNat = 10 ^ count :=
      UInt32.toNat_ofNat_of_lt' (by change 10 ^ count < 2 ^ 32; omega)
    unfold readTested readDigits
    split
    · rfl
    · rw [toLimb_of_toNat_eq hfactor]
      rfl
  | cons c rest ih =>
    unfold readTested readDigits
    split
    · exact ih limbs hcount hchunk
    · cases hdigit : Text.decimalDigit? c with
      | none => rfl
      | some digit =>
        obtain ⟨hgathered, hbound⟩ := toNat_gathered hcount hchunk (decimalDigit?_lt hdigit)
        dsimp only
        rw [toLimb_of_toNat_eq hgathered]
        rw [← hgathered] at hbound
        change (if count + 1 = 9 then _ else _) = _
        split
        · exact ih _ (by decide) (by decide)
        · exact ih limbs (by omega) hbound

end Magnitude

namespace Bignum

/-! ## Reading -/

/-- A text is read if a literal stands in it, and as the number that the literal stands for. No
other text is read, and it is named as the cause. On the way no number outgrows its limb. -/
theorem parse_exact (text : String) :
    ((∃ n, parse text = .ok n) ↔ ∃ literal : Literal, literal.StandsIn text) ∧
      (∀ literal : Literal, literal.StandsIn text →
        ∃ n, parse text = .ok n ∧ n.toInt = literal.value ∧ n.Normal) ∧
      ((¬∃ literal : Literal, literal.StandsIn text) → parse text = .error (.parse text)) ∧
      ∀ body, Magnitude.readTested [0] 0 0 body = .ok (Magnitude.readDigits [0] 0 0 body) := by
  have hread (literal : Literal) (h : literal.StandsIn text) :
      ∃ n, parse text = .ok n ∧ n.toInt = literal.value ∧ n.Normal := by
    obtain ⟨limbs, hlimbs, hvalue, hparse⟩ := literal.parse_of_standsIn h
    refine ⟨_, hparse, ?_, normal_clearZeroSign hlimbs⟩
    rw [toInt_clearZeroSign, toInt_mk, hvalue, Literal.value]
  refine ⟨⟨?_, ?_⟩, hread, ?_, Magnitude.readTested_eq [0] (by decide) (by decide)⟩
  · rintro ⟨n, hparse⟩
    exact Literal.exists_of_parse hparse
  · rintro ⟨literal, h⟩
    obtain ⟨n, hparse, -⟩ := hread literal h
    exact ⟨n, hparse⟩
  · intro hnone
    cases hparse : parse text with
    | ok n => exact absurd (Literal.exists_of_parse hparse) hnone
    | error cause => rw [eq_of_parse_eq_error hparse]

/-- A literal with more digits than a chunk holds. -/
def longLiteral : Literal where
  mark := .minus
  first := '1'
  rest := "_000_000_000_007_".toList
  isDigit_first := rfl
  isDigit_rest := List.all_iff_forall_prop.1 (by decide)

/-- The literal stands between an em space and a line feed. In the other text an underscore follows
the sign. -/
theorem parse_exact_spaced :
    longLiteral.StandsIn "\u2003-1_000_000_000_007_\n" ∧
      (¬∃ literal : Literal, literal.StandsIn "+_1") ∧
      (∃ n, parse "\u2003-1_000_000_000_007_\n" = .ok n ∧ n.toInt = -1000000000007 ∧ n.Normal) ∧
      parse "+_1" = .error (.parse "+_1") := by
  have hstands : longLiteral.StandsIn "\u2003-1_000_000_000_007_\n" :=
    ⟨['\u2003'], ['\n'], by decide, List.forall_mem_singleton.2 rfl,
      List.forall_mem_singleton.2 rfl⟩
  have hvalue : longLiteral.value = -1000000000007 := by decide
  have hnone : ¬∃ literal : Literal, literal.StandsIn "+_1" := by
    rintro ⟨literal, h⟩
    have htrim : Text.trim "+_1".toList = ['+', '_', '1'] := by decide
    have hchars := htrim.symm.trans (literal.standsIn_iff.1 h)
    have hdigit := literal.isDigit_first
    cases hmark : literal.mark <;>
      simp only [Literal.chars, Literal.body, SignMark.chars, hmark, List.nil_append,
        List.cons_append, List.cons.injEq] at hchars
    · rw [← hchars.1] at hdigit
      exact absurd hdigit (by decide)
    · exact literal.first_ne_underscore hchars.2.1.symm
    · exact absurd hchars.1 (by decide)
  refine ⟨hstands, hnone, ?_, (parse_exact "+_1").2.2.1 hnone⟩
  rw [← hvalue]
  exact (parse_exact _).2.1 longLiteral hstands

end Bignum

end RegisterMachine

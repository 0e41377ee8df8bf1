import RegisterMachine.Bignum.Numeral
import RegisterMachine.Proofs.Bignum.Value
import RegisterMachine.Proofs.Text.Expansion

/-!
# Decimal digits of bignums

Writing goes from limbs to chunks of nine decimal digits and from chunks to characters. The chunks
are the expansion of the number in base 10⁹, for the top one is not zero, so the text is its decimal
numeral. Reading gathers nine digits before each product by a limb, and keeps the number as well.
-/

namespace RegisterMachine

namespace Magnitude

/-! ## From limbs to chunks -/

/-- The number that chunks, least significant first, stand for. -/
def chunksValue : List UInt64 → Nat
  | [] => 0
  | chunk :: rest => chunk.toNat + 10 ^ 9 * chunksValue rest

/-- Every chunk has at most nine digits. -/
def ChunksBounded (chunks : List UInt64) : Prop :=
  ∀ chunk ∈ chunks, chunk.toNat < 10 ^ 9

theorem chunksBounded_cons {chunk : UInt64} {rest : List UInt64} (hchunk : chunk.toNat < 10 ^ 9)
    (hrest : ChunksBounded rest) : ChunksBounded (chunk :: rest) := by
  intro other hother
  cases hother with
  | head => exact hchunk
  | tail _ hmem => exact hrest other hmem

theorem carryChunks_spec {carry : UInt64} (hcarry : carry.toNat < 2 ^ 32) :
    chunksValue (carryChunks carry) = carry.toNat ∧ ChunksBounded (carryChunks carry) := by
  unfold carryChunks
  split
  · next hzero => simp [hzero, chunksValue, ChunksBounded]
  · split
    · next hsmall =>
      have hlt : carry.toNat < 10 ^ 9 := hsmall
      exact ⟨by simp [chunksValue], chunksBounded_cons hlt (by simp [ChunksBounded])⟩
    · have hlow : (carry % chunkBase).toNat = carry.toNat % 10 ^ 9 :=
        UInt64.toNat_mod carry chunkBase
      have hhigh : (carry / chunkBase).toNat = carry.toNat / 10 ^ 9 :=
        UInt64.toNat_div carry chunkBase
      constructor
      · simp only [chunksValue, hlow, hhigh]
        omega
      · apply chunksBounded_cons
        · omega
        · apply chunksBounded_cons
          · omega
          · simp [ChunksBounded]

theorem toNat_shiftLeft_add_carry {chunk carry : UInt64} (hchunk : chunk.toNat < 10 ^ 9)
    (hcarry : carry.toNat < 2 ^ 32) :
    ((chunk <<< 32) + carry).toNat = 2 ^ 32 * chunk.toNat + carry.toNat := by
  rw [UInt64.toNat_add, UInt64.toNat_shiftLeft, Nat.shiftLeft_eq]
  change (chunk.toNat * 2 ^ 32 % 2 ^ 64 + carry.toNat) % 2 ^ 64 = _
  omega

/-- A product by 2³² leaves a carry that fits 32 bits again, for a chunk is below 10⁹. -/
theorem chunksTimesLimb_spec {chunks : List UInt64} (hchunks : ChunksBounded chunks)
    {carry : UInt64} (hcarry : carry.toNat < 2 ^ 32) :
    chunksValue (chunksTimesLimb chunks carry) = 2 ^ 32 * chunksValue chunks + carry.toNat ∧
      ChunksBounded (chunksTimesLimb chunks carry) := by
  induction chunks generalizing carry with
  | nil => simpa [chunksTimesLimb, chunksValue] using carryChunks_spec hcarry
  | cons chunk rest ih =>
    have hchunk : chunk.toNat < 10 ^ 9 := hchunks chunk (by simp)
    have hrest : ChunksBounded rest := fun other hother ↦ hchunks other (by simp [hother])
    have hproduct := toNat_shiftLeft_add_carry hchunk hcarry
    unfold chunksTimesLimb
    dsimp only
    generalize (chunk <<< 32) + carry = product at hproduct
    have hlow : (product % chunkBase).toNat = product.toNat % 10 ^ 9 :=
      UInt64.toNat_mod product chunkBase
    have hhigh : (product / chunkBase).toNat = product.toNat / 10 ^ 9 :=
      UInt64.toNat_div product chunkBase
    have hnext : (product / chunkBase).toNat < 2 ^ 32 := by omega
    have hlater := ih hrest hnext
    constructor
    · simp only [chunksValue, hlater.1, hlow, hhigh]
      omega
    · exact chunksBounded_cons (by omega) hlater.2

theorem toChunks_spec (limbs : Magnitude) :
    chunksValue (toChunks limbs) = value limbs ∧ ChunksBounded (toChunks limbs) := by
  induction limbs with
  | nil => simp [toChunks, chunksValue, ChunksBounded]
  | cons limb rest ih =>
    have hstep := chunksTimesLimb_spec ih.2 (toNat_toUInt64_lt limb)
    constructor
    · calc
        chunksValue (chunksTimesLimb (toChunks rest) limb.toUInt64)
          = 2 ^ 32 * chunksValue (toChunks rest) + limb.toUInt64.toNat := hstep.1
        _ = limb.toNat + 2 ^ 32 * value rest := by
          rw [ih.1, UInt32.toNat_toUInt64, Nat.add_comm]
    · exact hstep.2

/-- The top chunk, if there is one, is not zero. -/
def TopNonzero (chunks : List UInt64) : Prop :=
  ∀ top, chunks.getLast? = some top → 0 < top.toNat

theorem TopNonzero.cons {chunks : List UInt64} (htop : TopNonzero chunks) (hne : chunks ≠ [])
    (chunk : UInt64) : TopNonzero (chunk :: chunks) := by
  intro top hlast
  rw [List.getLast?_cons_of_ne_nil hne] at hlast
  exact htop top hlast

theorem topNonzero_carryChunks (carry : UInt64) : TopNonzero (carryChunks carry) := by
  unfold carryChunks
  split
  · nofun
  · next hzero =>
    have hne : carry.toNat ≠ 0 := fun h ↦ hzero (UInt64.toNat_inj.1 h)
    have hone {top : UInt64} (hpos : 0 < top.toNat) : TopNonzero [top] := by
      rintro _ ⟨⟩
      exact hpos
    split
    · exact hone (Nat.pos_of_ne_zero hne)
    · next hlarge =>
      have hle : 10 ^ 9 ≤ carry.toNat := UInt64.le_iff_toNat_le.1 (UInt64.not_lt.1 hlarge)
      have hhigh : (carry / chunkBase).toNat = carry.toNat / 10 ^ 9 :=
        UInt64.toNat_div carry chunkBase
      exact (hone (by omega)).cons (by simp) _

/-- The top chunk times 2³² is more than one chunk holds, so a new top follows it. -/
theorem topNonzero_chunksTimesLimb {chunks : List UInt64} (hchunks : ChunksBounded chunks)
    (htop : TopNonzero chunks) {carry : UInt64} (hcarry : carry.toNat < 2 ^ 32) :
    TopNonzero (chunksTimesLimb chunks carry) := by
  induction chunks generalizing carry with
  | nil => exact topNonzero_carryChunks carry
  | cons chunk rest ih =>
    have hchunk : chunk.toNat < 10 ^ 9 := hchunks chunk (by simp)
    have hrest : ChunksBounded rest := fun other hother ↦ hchunks other (by simp [hother])
    have hproduct := toNat_shiftLeft_add_carry hchunk hcarry
    unfold chunksTimesLimb
    dsimp only
    generalize (chunk <<< 32) + carry = product at hproduct
    have hhigh : (product / chunkBase).toNat = product.toNat / 10 ^ 9 :=
      UInt64.toNat_div product chunkBase
    cases rest with
    | nil =>
      have hpos : 0 < chunk.toNat := htop chunk rfl
      refine (topNonzero_carryChunks _).cons ?_ _
      have hne : product / chunkBase ≠ 0 := by
        intro hzero
        rw [hzero, UInt64.toNat_zero] at hhigh
        omega
      unfold carryChunks
      rw [if_neg hne]
      split <;> simp
    | cons next others =>
      refine (ih hrest ?_ (by omega)).cons (by simp [chunksTimesLimb]) _
      intro top hlast
      exact htop top (by rwa [List.getLast?_cons_cons])

theorem topNonzero_toChunks (limbs : Magnitude) : TopNonzero (toChunks limbs) := by
  induction limbs with
  | nil => nofun
  | cons limb rest ih =>
    exact topNonzero_chunksTimesLimb (toChunks_spec rest).2 ih (toNat_toUInt64_lt limb)

/-! ## From chunks to characters -/

/-- Characters that are all decimal digits, and at least one. -/
structure IsNumeral (text : List Char) : Prop where
  ne_nil : text ≠ []
  isDigit : ∀ c ∈ text, c.isDigit = true

theorem isNumeral_toDigits (n : Nat) : IsNumeral (Nat.toDigits 10 n) where
  ne_nil := Nat.toDigits_ne_nil
  isDigit _ hc := Nat.isDigit_of_mem_toDigits (by decide) (by decide) hc

theorem ofDigits_chunks (chunks : List UInt64) :
    Nat.ofDigits (10 ^ 9) (chunks.map UInt64.toNat) = chunksValue chunks := by
  induction chunks with
  | nil => rfl
  | cons chunk rest ih => rw [List.map_cons, Nat.ofDigits_cons, ih, chunksValue]

/-- The chunks, if there are any, are the expansion of the number. -/
theorem isExpansion_toChunks {limbs : Magnitude} (hne : (toChunks limbs).reverse ≠ []) :
    Text.IsExpansion (10 ^ 9) (value limbs) ((toChunks limbs).reverse.map UInt64.toNat) := by
  obtain ⟨hvalue, hbounded⟩ := toChunks_spec limbs
  rw [List.map_reverse, ← hvalue, ← ofDigits_chunks]
  refine Text.isExpansion_reverse (by simpa using hne) ?_ ?_
  · intro digit hdigit
    obtain ⟨chunk, hchunk, rfl⟩ := List.mem_map.1 hdigit
    exact hbounded chunk hchunk
  · intro hlast
    rw [List.getLast?_map, Option.map_eq_some_iff] at hlast
    obtain ⟨top, htop, hzero⟩ := hlast
    exact absurd hzero (Nat.ne_of_gt (topNonzero_toChunks limbs top htop))

theorem chunksText_eq_blocksText {chunks : List UInt64} (hne : chunks ≠ []) :
    chunksText chunks = Text.blocksText 10 9 (chunks.map UInt64.toNat) := by
  cases chunks with
  | nil => exact absurd rfl hne
  | cons top rest =>
    simp only [chunksText, Text.blocksText, List.map_cons, List.foldl_map]
    rfl

theorem decimal_eq_numeral (limbs : Magnitude) : decimal limbs = Text.numeral 10 (value limbs) := by
  by_cases hnil : (toChunks limbs).reverse = []
  · have hzero : value limbs = 0 := by
      rw [← (toChunks_spec limbs).1, List.reverse_eq_nil_iff.1 hnil]
      rfl
    rw [decimal, hnil, hzero]
    rfl
  · rw [decimal, chunksText_eq_blocksText hnil]
    exact Text.blocksText_eq_numeral (by decide) (by decide) (isExpansion_toChunks hnil)

theorem decimal_eq_toString (limbs : Magnitude) : decimal limbs = toString (value limbs) := by
  rw [decimal_eq_numeral]
  exact Nat.repr_eq_ofList_toDigits.symm

/-- The decimal numeral of a magnitude consists of digits, and they have its value. -/
theorem decimal_spec (limbs : Magnitude) :
    IsNumeral (decimal limbs).toList ∧
      Nat.ofDigitChars 10 (decimal limbs).toList 0 = value limbs := by
  rw [decimal_eq_numeral, Text.numeral, String.toList_ofList]
  exact ⟨isNumeral_toDigits _, Nat.ofDigitChars_ten_toDigits⟩

/-! ## From characters to limbs -/

theorem toNat_of_isDigit {c : Char} (h : c.isDigit = true) : 48 ≤ c.toNat ∧ c.toNat ≤ 57 := by
  simp only [Char.isDigit, Bool.and_eq_true, decide_eq_true_eq, ge_iff_le, UInt32.le_iff_toNat_le]
    at h
  exact h

theorem decimalDigit?_of_isDigit {c : Char} (h : c.isDigit = true) :
    Text.decimalDigit? c = some (c.toNat - 48) := by
  have hrange := toNat_of_isDigit h
  have hle : '0' ≤ c ∧ c ≤ '9' := by
    simp only [Char.le_def, UInt32.le_iff_toNat_le]
    exact hrange
  rw [Text.decimalDigit?, if_pos hle]
  rfl

/-- With one more digit a chunk still fits its limb, for it has nine digits at most. -/
theorem toNat_gathered {chunk : UInt32} {count digit : Nat} (hcount : count < 9)
    (hchunk : chunk.toNat < 10 ^ count) (hdigit : digit < 10) :
    (chunk * 10 + UInt32.ofNat digit).toNat = 10 * chunk.toNat + digit ∧
      10 * chunk.toNat + digit < 10 ^ (count + 1) := by
  have hpower : 10 ^ (count + 1) ≤ 10 ^ 9 := Nat.pow_le_pow_right (by decide) (by omega)
  have hword : (UInt32.ofNat digit).toNat = digit :=
    UInt32.toNat_ofNat_of_lt' (by change digit < 2 ^ 32; omega)
  have hbound : 10 * chunk.toNat + digit < 10 ^ (count + 1) := by omega
  refine ⟨?_, hbound⟩
  rw [UInt32.toNat_add, UInt32.toNat_mul, hword]
  change (chunk.toNat * 10 % 2 ^ 32 + digit) % 2 ^ 32 = _
  omega

/-- Reading digits extends the number read so far: the limbs, followed by the digits gathered. -/
theorem readDigits_spec {text : List Char} (htext : ∀ c ∈ text, c.isDigit = true)
    (limbs : Magnitude) (chunk : UInt32) (count : Nat) (hcount : count < 9)
    (hchunk : chunk.toNat < 10 ^ count) :
    ∃ result, readDigits limbs chunk count text = some result ∧
      value result = Nat.ofDigitChars 10 text (10 ^ count * value limbs + chunk.toNat) := by
  induction text generalizing limbs chunk count with
  | nil =>
    refine ⟨_, rfl, ?_⟩
    rw [Nat.ofDigitChars_nil]
    split
    · next hzero =>
      subst hzero
      simp only [Nat.pow_zero, Nat.lt_one_iff] at hchunk
      simp [hchunk]
    · have hpower : 10 ^ count ≤ 10 ^ 8 := Nat.pow_le_pow_right (by decide) (by omega)
      have hfactor : (UInt32.ofNat (10 ^ count)).toNat = 10 ^ count :=
        UInt32.toNat_ofNat_of_lt' (by change 10 ^ count < 2 ^ 32; omega)
      rw [value_scaleAdd, hfactor, Nat.mul_comm]
  | cons c rest ih =>
    have hc : c.isDigit = true := htext c (by simp)
    have hrest : ∀ d ∈ rest, d.isDigit = true := fun d hd ↦ htext d (by simp [hd])
    have hrange := toNat_of_isDigit hc
    have hunderscore : c ≠ '_' := by
      rintro rfl
      exact absurd hc (by decide)
    have hdigit : c.toNat - 48 < 10 := by omega
    obtain ⟨hgathered, hbound⟩ := toNat_gathered hcount hchunk hdigit
    have hextend : Nat.ofDigitChars 10 (c :: rest) (10 ^ count * value limbs + chunk.toNat) =
        Nat.ofDigitChars 10 rest
          (10 ^ (count + 1) * value limbs + (10 * chunk.toNat + (c.toNat - 48))) := by
      rw [Nat.ofDigitChars_cons]
      congr 1
      change 10 * (10 ^ count * value limbs + chunk.toNat) + (c.toNat - 48) = _
      rw [Nat.pow_succ', Nat.mul_assoc]
      omega
    rw [readDigits, if_neg hunderscore, decimalDigit?_of_isDigit hc, hextend]
    dsimp only
    generalize chunk * 10 + UInt32.ofNat (c.toNat - 48) = gathered at hgathered
    rw [← hgathered] at hbound ⊢
    split
    · next hfull =>
      obtain ⟨result, hread, hvalue⟩ := ih hrest (scaleAdd limbs chunkBase.toUInt32 gathered)
        0 0 (by decide) (by decide)
      refine ⟨result, hread, ?_⟩
      rw [hvalue, value_scaleAdd, hfull]
      congr 1
      change 1 * (value limbs * 10 ^ 9 + gathered.toNat) + 0 = _
      omega
    · next hopen => exact ih hrest limbs gathered (count + 1) (by omega) hbound

end Magnitude

/-! ## Signs -/

namespace Magnitude

theorem isZero_iff_value_eq_zero (limbs : Magnitude) : isZero limbs = true ↔ value limbs = 0 := by
  induction limbs with
  | nil => simp [isZero]
  | cons limb rest ih =>
    have hlimb : limb = 0 ↔ limb.toNat = 0 := UInt32.toNat_inj.symm
    unfold isZero at ih ⊢
    rw [List.all_cons, Bool.and_eq_true, beq_iff_eq, ih, hlimb, value_cons]
    omega

end Magnitude

namespace Bignum

theorem toInt_clearZeroSign (n : Bignum) : n.clearZeroSign.toInt = n.toInt := by
  unfold clearZeroSign
  split
  · next hzero =>
    have hvalue : n.limbs.value = 0 := (Magnitude.isZero_iff_value_eq_zero n.limbs).1 hzero
    simp [toInt, hvalue]
  · rfl

/-- A minus sign is written exactly for the numbers below zero. -/
theorem toInt_eq_of_isNegative (n : Bignum) :
    n.toInt = if n.isNegative then -(n.limbs.value : Int) else n.limbs.value := by
  have hzero := Magnitude.isZero_iff_value_eq_zero n.limbs
  unfold toInt isNegative isZero
  cases hisZero : Magnitude.isZero n.limbs with
  | true => simp [hzero.1 hisZero]
  | false => simp

theorem toList_toText (n : Bignum) :
    n.toText.toList = (if n.isNegative then ['-'] else []) ++ n.limbs.decimal.toList := by
  cases hsign : n.isNegative <;>
    simp [toText, decimal, Text.Layout.apply, Text.repeated, hsign]

end Bignum

end RegisterMachine

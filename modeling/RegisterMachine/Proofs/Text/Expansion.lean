import Mathlib.Data.Nat.Digits.Lemmas
import RegisterMachine.Power
import RegisterMachine.Text.Digits

/-!
# Expansions of numbers in a base

Every number has one expansion in a base: digits below the base, with its value, and without a zero
in front of others. Its numeral is the expansion in characters.

Cut into blocks of one width, the expansion becomes an expansion in a power of the base. To write
the numeral from the blocks, each of them is filled with zeros to the width, the top one excepted.
-/

namespace RegisterMachine.Text

/-- The digits of a number in a base, most significant first, with no zero in front of others. -/
structure IsExpansion (base number : Nat) (digits : List Nat) : Prop where
  ne_nil : digits ≠ []
  digit_lt : ∀ digit ∈ digits, digit < base
  zero_alone : digits.head? = some 0 → digits = [0]
  value : Nat.ofDigits base digits.reverse = number

/-- The digits of a number in a base, most significant first. -/
def expansion (base number : Nat) : List Nat :=
  if number = 0 then [0] else (Nat.digits base number).reverse

/-- The numeral of a number in a base. -/
def numeral (base number : Nat) : String :=
  String.ofList (Nat.toDigits base number)

variable {base number lead low width : Nat} {digits blocks : List Nat}

/-! ## One expansion for each number -/

/-- Digits that are given from the least significant on. -/
theorem isExpansion_reverse (hne : digits ≠ []) (hlt : ∀ digit ∈ digits, digit < base)
    (htop : digits.getLast? = some 0 → digits = [0]) :
    IsExpansion base (Nat.ofDigits base digits) digits.reverse where
  ne_nil := by simpa using hne
  digit_lt digit hdigit := hlt digit (List.mem_reverse.1 hdigit)
  zero_alone hhead := by
    rw [List.head?_reverse] at hhead
    rw [htop hhead, List.reverse_singleton]
  value := by rw [List.reverse_reverse]

theorem expansion_of_pos (hnumber : 0 < number) :
    expansion base number = (Nat.digits base number).reverse :=
  if_neg (Nat.ne_of_gt hnumber)

theorem isExpansion_singleton {digit : Nat} (hdigit : digit < base) :
    IsExpansion base digit [digit] where
  ne_nil := List.cons_ne_nil _ _
  digit_lt other hother := by rwa [List.mem_singleton.1 hother]
  zero_alone hhead := by rw [Option.some.inj hhead]
  value := Nat.ofDigits_singleton

theorem isExpansion_expansion (hbase : 1 < base) (number : Nat) :
    IsExpansion base number (expansion base number) := by
  rcases Nat.eq_zero_or_pos number with rfl | hpos
  · exact isExpansion_singleton (Nat.zero_lt_of_lt hbase)
  · have hne : Nat.digits base number ≠ [] :=
      Nat.digits_ne_nil_iff_ne_zero.2 (Nat.ne_of_gt hpos)
    have hexpansion : IsExpansion base (Nat.ofDigits base (Nat.digits base number))
        (Nat.digits base number).reverse := by
      refine isExpansion_reverse hne (fun digit hdigit ↦ Nat.digits_lt_base hbase hdigit) ?_
      intro hlast
      rw [List.getLast?_eq_some_getLast hne] at hlast
      exact absurd (Option.some.inj hlast) (Nat.getLast_digit_ne_zero base (Nat.ne_of_gt hpos))
    rwa [Nat.ofDigits_digits, ← expansion_of_pos hpos] at hexpansion

/-- A digit behind the expansion of what is in front of it. -/
theorem IsExpansion.concat {digit : Nat} (h : IsExpansion base lead digits) (hlead : 0 < lead)
    (hdigit : digit < base) : IsExpansion base (base * lead + digit) (digits ++ [digit]) where
  ne_nil := by simp
  digit_lt other hother := by
    rcases List.mem_append.1 hother with hmem | hmem
    · exact h.digit_lt other hmem
    · rwa [List.mem_singleton.1 hmem]
  zero_alone hhead := by
    rw [List.head?_append_of_ne_nil _ h.ne_nil] at hhead
    have hzero := h.value
    rw [h.zero_alone hhead, List.reverse_singleton, Nat.ofDigits_singleton] at hzero
    exact absurd hzero (Nat.ne_of_lt hlead)
  value := by
    rw [List.reverse_append, List.reverse_singleton, List.singleton_append, Nat.ofDigits_cons,
      h.value, Nat.add_comm]

/-- A number has one expansion. -/
theorem isExpansion_iff (hbase : 1 < base) :
    IsExpansion base number digits ↔ digits = expansion base number := by
  constructor
  · intro h
    by_cases hhead : digits.head? = some 0
    · have hzero : number = 0 := by
        rw [← h.value, h.zero_alone hhead, List.reverse_singleton, Nat.ofDigits_singleton]
      rw [h.zero_alone hhead, expansion, if_pos hzero]
    · have hdigits : Nat.digits base number = digits.reverse := by
        rw [← h.value]
        have hlt : ∀ digit ∈ digits.reverse, digit < base := fun digit hdigit ↦
          h.digit_lt digit (List.mem_reverse.1 hdigit)
        refine Nat.digits_ofDigits base hbase _ hlt fun hne hlast ↦ hhead ?_
        rw [← List.getLast?_reverse, List.getLast?_eq_some_getLast hne, hlast]
      have hpos : 0 < number := by
        have hne : Nat.digits base number ≠ [] := by simpa [hdigits] using h.ne_nil
        exact Nat.pos_of_ne_zero (Nat.digits_ne_nil_iff_ne_zero.1 hne)
      rw [expansion_of_pos hpos, hdigits, List.reverse_reverse]
  · rintro rfl
    exact isExpansion_expansion hbase number

/-- The numeral is the expansion, written with one character for each digit. -/
theorem toDigits_eq_expansion (hbase : 1 < base) (number : Nat) :
    Nat.toDigits base number = (expansion base number).map Nat.digitChar := by
  induction number using Nat.strongRecOn with
  | _ number ih =>
    rcases Nat.lt_or_ge number base with hlt | hge
    · rw [Nat.toDigits_of_lt_base hlt]
      rcases Nat.eq_zero_or_pos number with rfl | hpos
      · rfl
      · rw [expansion_of_pos hpos, Nat.digits_of_lt base number (Nat.ne_of_gt hpos) hlt]
        rfl
    · have hpos : 0 < number := Nat.zero_lt_of_lt (Nat.lt_of_lt_of_le hbase hge)
      have hquotient : 0 < number / base := Nat.div_pos hge (Nat.zero_lt_of_lt hbase)
      rw [Nat.toDigits_of_base_le hbase hge, ih _ (Nat.div_lt_self hpos hbase),
        expansion_of_pos hpos, expansion_of_pos hquotient, Nat.digits_def' hbase hpos,
        List.reverse_cons, List.map_append]
      rfl

/-! ## Blocks -/

/-- Zero fills a width with as many zeros as any other digits leave places. -/
theorem replicate_append_expansion (hwidth : 0 < width) (low : Nat) :
    List.replicate (width - (expansion base low).length) 0 ++ expansion base low =
      List.replicate (width - (Nat.digits base low).length) 0 ++ (Nat.digits base low).reverse := by
  rcases Nat.eq_zero_or_pos low with rfl | hpos
  · obtain ⟨less, rfl⟩ := Nat.exists_eq_add_one_of_ne_zero (Nat.ne_of_gt hwidth)
    simp [expansion, List.replicate_succ']
  · rw [expansion_of_pos hpos, List.length_reverse]

/-- Digits that fill a width stand behind the expansion of what is in front of them. -/
theorem expansion_append (hbase : 1 < base) (hlead : 0 < lead) (hwidth : 0 < width)
    (hlow : low < base ^ width) :
    expansion base lead ++
        (List.replicate (width - (expansion base low).length) 0 ++ expansion base low) =
      expansion base (base ^ width * lead + low) := by
  have hlength : (Nat.digits base low).length ≤ width :=
    (Nat.digits_length_le_iff hbase low).2 hlow
  have hpos : 0 < base ^ width * lead + low :=
    Nat.add_pos_left (Nat.mul_pos (Nat.pow_pos (Nat.zero_lt_of_lt hbase)) hlead) low
  have hdigits := Nat.digits_append_zeroes_append_digits
    (k := width - (Nat.digits base low).length) (n := low) hbase hlead
  rw [Nat.add_sub_cancel' hlength] at hdigits
  rw [replicate_append_expansion hwidth, expansion_of_pos hlead, expansion_of_pos hpos,
    Nat.add_comm, ← hdigits]
  simp

theorem numeral_append_zeroFill (hbase : 1 < base) (hlead : 0 < lead) (hwidth : 0 < width)
    (hlow : low < base ^ width) :
    numeral base lead ++ zeroFill width (numeral base low) =
      numeral base (base ^ width * lead + low) := by
  apply String.toList_inj.1
  simp only [numeral, zeroFill, String.toList_append, String.toList_ofList, String.length_ofList,
    toDigits_eq_expansion hbase, List.length_map]
  rw [← expansion_append hbase hlead hwidth hlow, List.map_append, List.map_append,
    List.map_replicate]
  rfl

/-- Writes blocks, the top one first. All others are filled to a width. -/
def blocksText (base width : Nat) : List Nat → String
  | [] => ""
  | top :: rest =>
    rest.foldl (fun text block ↦ text ++ zeroFill width (numeral base block)) (numeral base top)

/-- Block by block, the text is the numeral of the number so far. -/
theorem foldl_zeroFill (hbase : 1 < base) (hwidth : 0 < width)
    (hblocks : ∀ block ∈ blocks, block < base ^ width) (hlead : 0 < lead) :
    blocks.foldl (fun text block ↦ text ++ zeroFill width (numeral base block))
        (numeral base lead) =
      numeral base (Nat.ofDigits (base ^ width) (lead :: blocks).reverse) := by
  induction blocks generalizing lead with
  | nil => rw [List.reverse_singleton, Nat.ofDigits_singleton, List.foldl_nil]
  | cons block rest ih =>
    have hnext : 0 < base ^ width * lead + block :=
      Nat.add_pos_left (Nat.mul_pos (Nat.pow_pos (Nat.zero_lt_of_lt hbase)) hlead) block
    rw [List.foldl_cons, numeral_append_zeroFill hbase hlead hwidth (hblocks block (by simp)),
      ih (fun other hother ↦ hblocks other (by simp [hother])) hnext]
    congr 1
    simp only [List.reverse_cons, Nat.ofDigits_append, Nat.ofDigits_singleton, List.length_append,
      List.length_singleton, Nat.pow_succ]
    ring

/-- Written block by block, the expansion in a power of the base is the numeral in the base. -/
theorem blocksText_eq_numeral (hbase : 1 < base) (hwidth : 0 < width)
    (hblocks : IsExpansion (base ^ width) number blocks) :
    blocksText base width blocks = numeral base number := by
  rw [← hblocks.value]
  cases blocks with
  | nil => exact absurd rfl hblocks.ne_nil
  | cons top rest =>
    rcases Nat.eq_zero_or_pos top with rfl | hpos
    · rw [hblocks.zero_alone rfl, List.reverse_singleton, Nat.ofDigits_singleton]
      rfl
    · have hrest : ∀ block ∈ rest, block < base ^ width := fun block hblock ↦
        hblocks.digit_lt block (List.mem_cons_of_mem _ hblock)
      exact foldl_zeroFill hbase hwidth hrest hpos

end RegisterMachine.Text

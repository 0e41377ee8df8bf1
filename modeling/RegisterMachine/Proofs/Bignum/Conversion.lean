import RegisterMachine.Proofs.Bignum.Built

/-!
# Bignums and machine integers

A bignum converts to a machine integer exactly if its value is in the range of the type, and then to
the integer of that value. For canonical limbs it shows in their number whether the magnitude fits.
A range with a sign reaches one further down than up, so the limbs are given their sign on twice
their width, where both ends fit, before the range is tested. Conversely a machine integer makes a
bignum of its value, in normal form.
-/

namespace RegisterMachine

namespace Magnitude

variable {limbs : Magnitude}

/-- The value of no more than two limbs. -/
theorem value_of_length_le_two (h : limbs.length ≤ 2) :
    value limbs = (limbs.headD 0).toNat + 2 ^ 32 * (limbs[1]?.getD 0).toNat := by
  match limbs with
  | [] | [_] | [_, _] => simp
  | _ :: _ :: _ :: _ => simp at h

/-- Two limbs put together on 128 bits. -/
theorem toNat_joined (low high : UInt32) :
    (low.toBitVec.setWidth 128 ||| high.toBitVec.setWidth 128 <<< 32).toNat =
      low.toNat + 2 ^ 32 * high.toNat := by
  have hlow := low.toNat_lt
  have hhigh := high.toNat_lt
  have hshifted : (high.toBitVec.setWidth 128 <<< 32).toNat = 2 ^ 32 * high.toNat := by
    rw [BitVec.toNat_shiftLeft, BitVec.toNat_setWidth, UInt32.toNat_toBitVec, Nat.shiftLeft_eq]
    omega
  rw [BitVec.toNat_or, hshifted, BitVec.toNat_setWidth, UInt32.toNat_toBitVec,
    Nat.mod_eq_of_lt (by omega), Nat.or_comm, ← Nat.two_pow_add_eq_or_of_lt hlow, Nat.add_comm]

/-- A magnitude of 64 bits with its sign on 128. -/
theorem toInt_signed {magnitude : BitVec 128} (hfits : magnitude.toNat < 2 ^ 64) (negative : Bool) :
    (if negative then -magnitude else magnitude).toInt =
      if negative then -(magnitude.toNat : Int) else magnitude.toNat := by
  have hpositive : magnitude.toInt = magnitude.toNat := BitVec.toInt_eq_toNat_of_lt (by omega)
  cases negative with
  | false => exact hpositive
  | true =>
    simp only [if_true]
    rw [BitVec.toInt_neg, hpositive, Int.bmod_eq_of_le (by omega) (by omega)]

end Magnitude

namespace Bignum

variable {α : Type} {convert : Bignum → Option α} {value : α → Int} {least greatest : Int}
  {n : Bignum}

/-! ## To machine integers -/

/-- A conversion to integers of some type gives the one of the same value, and nothing if the value
is out of the range of the type. -/
structure ConvertsExactly (convert : Bignum → Option α) (value : α → Int) (least greatest : Int) :
    Prop where
  eq_some_iff : ∀ n, n.Built → ∀ v, convert n = some v ↔ n.toInt = value v
  eq_none_iff : ∀ n, n.Built → (convert n = none ↔ ¬ (least ≤ n.toInt ∧ n.toInt ≤ greatest))

theorem ConvertsExactly.of_cases (hinjective : Function.Injective value)
    (hrange : ∀ v, least ≤ value v ∧ value v ≤ greatest)
    (h : ∀ n, n.Built → (∃ v, convert n = some v ∧ n.toInt = value v) ∨
      convert n = none ∧ ¬ (least ≤ n.toInt ∧ n.toInt ≤ greatest)) :
    ConvertsExactly convert value least greatest := by
  constructor
  case eq_some_iff =>
    intro n built v
    rcases h n built with ⟨found, hfound, hvalue⟩ | ⟨hnone, hout⟩
    · rw [hfound, hvalue, Option.some.injEq, hinjective.eq_iff]
    · rw [hnone]
      exact iff_of_false nofun fun hvalue ↦ hout (hvalue ▸ hrange v)
  case eq_none_iff =>
    intro n built
    rcases h n built with ⟨found, hfound, hvalue⟩ | ⟨hnone, hout⟩
    · rw [hfound, hvalue]
      exact iff_of_false nofun fun hout ↦ hout (hrange found)
    · exact iff_of_true hnone hout

theorem toInt64?_eq (hn : n.limbs.Canonical) :
    n.toInt64? =
      if -(2 ^ 63) ≤ n.toInt ∧ n.toInt < 2 ^ 63 then some (Int64.ofInt n.toInt) else none := by
  have habs := natAbs_toInt n
  have hfits : n.limbs.length ≤ 2 ↔ n.limbs.value < 2 ^ 64 := Magnitude.length_le_iff hn (by decide)
  unfold toInt64?
  by_cases hlong : n.limbs.length > 2
  · have hout : ¬ (-(2 ^ 63) ≤ n.toInt ∧ n.toInt < 2 ^ 63) := by omega
    rw [if_pos hlong, if_neg hout]
  · have hvalue := Magnitude.value_of_length_le_two (Nat.le_of_not_lt hlong)
    simp only [if_neg hlong]
    rw [Magnitude.toInt_signed, Magnitude.toNat_joined, ← hvalue]
    · rfl
    · rw [Magnitude.toNat_joined, ← hvalue]
      omega

theorem toInt64?_exact :
    ConvertsExactly toInt64? Int64.toInt (-(2 ^ 63)) (2 ^ 63 - 1) := by
  refine .of_cases (fun _ _ ↦ Int64.toInt_inj.1) (fun v ↦ ?_) fun n built ↦ ?_
  · have hle := v.le_toInt
    have hlt := v.toInt_lt
    omega
  · rw [toInt64?_eq built.canonical]
    split
    · next hin =>
      exact .inl ⟨_, rfl, (Int64.toInt_ofInt_of_le hin.1 hin.2).symm⟩
    · next hout => exact .inr ⟨rfl, by omega⟩

theorem toInt32?_exact :
    ConvertsExactly toInt32? Int32.toInt (-(2 ^ 31)) (2 ^ 31 - 1) := by
  refine .of_cases (fun _ _ ↦ Int32.toInt_inj.1) (fun v ↦ ?_) fun n built ↦ ?_
  · have hle := v.le_toInt
    have hlt := v.toInt_lt
    omega
  · unfold toInt32?
    cases hwide : n.toInt64? with
    | none =>
      have hout := (toInt64?_exact.eq_none_iff n built).1 hwide
      exact .inr ⟨rfl, by omega⟩
    | some wide =>
      have hvalue := (toInt64?_exact.eq_some_iff n built wide).1 hwide
      simp only [Option.bind_eq_bind, Option.bind_some, ← hvalue]
      split
      · next hin => exact .inl ⟨_, rfl, (Int32.toInt_ofInt_of_le hin.1 hin.2).symm⟩
      · next hout => exact .inr ⟨rfl, by omega⟩

theorem toUInt32?_exact :
    ConvertsExactly toUInt32? (fun v ↦ v.toNat) 0 (2 ^ 32 - 1) := by
  refine .of_cases (fun _ _ h ↦ UInt32.toNat_inj.1 (Int.ofNat.inj h)) (fun v ↦ ?_) fun n built ↦ ?_
  · have hlt := v.toNat_lt
    omega
  · have hfits : n.limbs.length ≤ 1 ↔ n.limbs.value < 2 ^ 32 :=
      Magnitude.length_le_iff built.canonical Nat.one_pos
    unfold toUInt32?
    cases hsign : n.isNegative with
    | true =>
      have hneg := (isNegative_iff_toInt_neg n).1 hsign
      exact .inr ⟨rfl, by omega⟩
    | false =>
      have hvalue := toInt_of_not_isNegative hsign
      simp only [Bool.false_eq_true, if_false]
      split
      · next limb hlimbs => exact .inl ⟨limb, rfl, by simp [hvalue, hlimbs]⟩
      · next hlimbs =>
        refine .inr ⟨rfl, fun hin ↦ ?_⟩
        have hlength : 0 < n.limbs.length := List.length_pos_iff.2 built.canonical.1
        have hshort := hfits.2 (by omega)
        obtain ⟨limb, hlimb⟩ := List.length_eq_one_iff.1 (Nat.le_antisymm hshort hlength)
        exact hlimbs limb hlimb

/-! ## From machine integers -/

/-- Integers of some type make bignums of their value, in normal form. -/
def MakesExactly (make : α → Bignum) (value : α → Int) : Prop :=
  ∀ v, (make v).Normal ∧ (make v).toInt = value v

theorem canonical_ofInt32 (x : Int32) : (ofInt32 x).limbs.Canonical :=
  Magnitude.canonical_singleton _

theorem toInt_ofInt32 (x : Int32) : (ofInt32 x).toInt = x.toInt := by
  have hle := x.le_toInt
  have hlt := x.toInt_lt
  have hlimb : (UInt32.ofNat x.toInt.natAbs).toNat = x.toInt.natAbs :=
    UInt32.toNat_ofNat_of_lt' (by change x.toInt.natAbs < 2 ^ 32; omega)
  rw [ofInt32, toInt_mk, Magnitude.value_cons, Magnitude.value_nil, hlimb]
  simp only [decide_eq_true_eq, Int32.lt_iff_toInt_lt, Int32.toInt_zero]
  split <;> omega

/-- The limbs of a 64-bit natural number. -/
theorem value_ofUInt64 (n : UInt64) : (ofUInt64 n).limbs.value = n.toNat := by
  have hlt := n.toNat_lt
  have hhigh := Magnitude.toNat_high_lt n
  rw [ofUInt64, ofLimbs, Magnitude.value_normalize, Magnitude.value_cons, Magnitude.value_cons,
    Magnitude.value_nil, UInt64.toNat_toUInt32, UInt64.toNat_toUInt32, Nat.mod_eq_of_lt hhigh,
    Magnitude.toNat_high]
  omega

theorem canonical_ofUInt64 (n : UInt64) : (ofUInt64 n).limbs.Canonical :=
  Magnitude.canonical_normalize _

theorem toInt_ofInt64 (n : Int64) : (ofInt64 n).toInt = n.toInt := by
  have hle := n.le_toInt
  have hlt := n.toInt_lt
  have habs : (UInt64.ofNat n.toInt.natAbs).toNat = n.toInt.natAbs :=
    UInt64.toNat_ofNat_of_lt' (by change n.toInt.natAbs < 2 ^ 64; omega)
  rw [ofInt64, toInt_mk, value_ofUInt64, habs]
  simp only [decide_eq_true_eq, Int64.lt_iff_toInt_lt, Int64.toInt_zero]
  split <;> omega

/-- A sign that only a value below zero has is not that of zero. -/
theorem normal_of_negative (hn : n.limbs.Canonical) (hsign : n.negative = true → n.toInt < 0) :
    n.Normal where
  canonical := hn
  sign_of_zero hzero := by
    rw [isZero_iff_toInt_eq_zero] at hzero
    refine Bool.eq_false_iff.2 fun hnegative ↦ ?_
    have hneg := hsign hnegative
    omega

theorem ofInt32_exact : MakesExactly ofInt32 Int32.toInt := by
  intro v
  refine ⟨normal_of_negative (canonical_ofInt32 v) fun hsign ↦ ?_, toInt_ofInt32 v⟩
  rw [toInt_ofInt32]
  exact Int32.lt_iff_toInt_lt.1 (of_decide_eq_true hsign)

theorem ofInt64_exact : MakesExactly ofInt64 Int64.toInt := by
  intro v
  refine ⟨normal_of_negative (canonical_ofUInt64 _) fun hsign ↦ ?_, toInt_ofInt64 v⟩
  rw [toInt_ofInt64]
  exact Int64.lt_iff_toInt_lt.1 (of_decide_eq_true hsign)

theorem ofUInt32_exact : MakesExactly ofUInt32 (fun v ↦ v.toNat) := by
  intro v
  refine ⟨normal_of_negative (Magnitude.canonical_singleton v) nofun, ?_⟩
  simp [ofUInt32, toInt_mk]

theorem ofUInt64_exact : MakesExactly ofUInt64 (fun v ↦ v.toNat) := by
  intro v
  refine ⟨normal_of_negative (canonical_ofUInt64 v) nofun, ?_⟩
  exact congrArg Int.ofNat (value_ofUInt64 v)

/-- What is made of an integer converts back to it. -/
theorem ConvertsExactly.of_make {make : α → Bignum}
    (converts : ConvertsExactly convert value least greatest) (hmake : MakesExactly make value)
    (v : α) : convert (make v) = some v :=
  (converts.eq_some_iff _ (built_iff.2 (hmake v).1.canonical) v).2 (hmake v).2

end Bignum

end RegisterMachine

import RegisterMachine.Proofs.Bignum.Value

/-!
# Canonical magnitudes

A canonical magnitude has as few limbs as its value needs, so its length tells the size of its value
up to one limb. Canonical magnitudes of one value are therefore the same, and the comparison that
looks at lengths first compares values.
-/

namespace RegisterMachine.Magnitude

variable {limbs first second : Magnitude}

/-! ## Size -/

theorem two_pow_limbs_succ (count : Nat) : 2 ^ (32 * (count + 1)) = 2 ^ 32 * 2 ^ (32 * count) := by
  rw [Nat.mul_succ, Nat.add_comm, Nat.pow_add]

theorem value_lt (limbs : Magnitude) : value limbs < 2 ^ (32 * limbs.length) := by
  induction limbs with
  | nil => decide
  | cons limb rest ih =>
    have hlimb : limb.toNat < 2 ^ 32 := limb.toNat_lt
    rw [value_cons, List.length_cons, two_pow_limbs_succ]
    omega

theorem value_append (low high : Magnitude) :
    value (low ++ high) = value low + 2 ^ (32 * low.length) * value high := by
  induction low with
  | nil => simp
  | cons limb rest ih =>
    rw [List.cons_append, value_cons, value_cons, ih, List.length_cons, two_pow_limbs_succ,
      Nat.mul_add, Nat.mul_assoc, Nat.add_assoc]

theorem value_concat (low : Magnitude) (top : UInt32) :
    value (low ++ [top]) = value low + 2 ^ (32 * low.length) * top.toNat := by
  rw [value_append, value_cons, value_nil, Nat.mul_zero, Nat.add_zero]

theorem value_replicate_zero (count : Nat) : value (List.replicate count 0) = 0 := by
  induction count with
  | zero => rfl
  | succ count ih =>
    rw [List.replicate_succ, value_cons, ih]
    rfl

/-- A magnitude is canonical if fewer limbs do not hold its value. -/
theorem canonical_iff_length : Canonical limbs ↔
    limbs ≠ [] ∧ (limbs.length ≤ 1 ∨ 2 ^ (32 * (limbs.length - 1)) ≤ value limbs) := by
  refine and_congr_right fun hne ↦ ?_
  obtain ⟨low, top, rfl⟩ : ∃ low top, limbs = low ++ [top] :=
    ⟨limbs.dropLast, limbs.getLast hne, (List.dropLast_concat_getLast hne).symm⟩
  rw [List.getLast?_concat, List.length_append, List.length_singleton, Nat.add_sub_cancel,
    value_concat]
  by_cases htop : top = 0
  · have hlow := value_lt low
    subst htop
    simp only [forall_const, UInt32.toNat_zero, Nat.mul_zero, Nat.add_zero]
    constructor
    · intro hsingle
      have hlength := congrArg List.length hsingle
      simp only [List.length_append, List.length_singleton] at hlength
      exact .inl (Nat.le_of_eq hlength)
    · rintro (hshort | hlarge)
      · have hnil : low = [] := List.length_eq_zero_iff.1 (by omega)
        rw [hnil, List.nil_append]
      · omega
  · have hpos : 0 < top.toNat := by
      have hzero : top.toNat ≠ 0 := fun h ↦ htop (UInt32.toNat_inj.1 h)
      omega
    have hlarge : 2 ^ (32 * low.length) ≤ 2 ^ (32 * low.length) * top.toNat :=
      Nat.le_mul_of_pos_right _ hpos
    constructor
    · intro _
      right
      omega
    · intro _ hzero
      exact absurd (Option.some.inj hzero) htop

/-- The number of canonical limbs shows how large their value is. -/
theorem length_le_iff (hlimbs : Canonical limbs) {count : Nat} (hpos : 0 < count) :
    limbs.length ≤ count ↔ value limbs < 2 ^ (32 * count) := by
  constructor
  · intro hlength
    exact Nat.lt_of_lt_of_le (value_lt limbs)
      (Nat.pow_le_pow_right (by decide) (Nat.mul_le_mul_left 32 hlength))
  · intro hvalue
    rcases (canonical_iff_length.1 hlimbs).2 with hshort | hlarge
    · omega
    · have hpower := Nat.lt_of_le_of_lt hlarge hvalue
      have hexponent := (Nat.pow_lt_pow_iff_right (by decide)).1 hpower
      omega

/-! ## Normal forms -/

theorem getLast?_dropTopZeros (limbs : Magnitude) : (dropTopZeros limbs).getLast? ≠ some 0 := by
  induction limbs with
  | nil => simp [dropTopZeros]
  | cons limb rest ih =>
    rw [dropTopZeros]
    split
    · split
      · simp
      · next hlimb => simpa using hlimb
    · next hne =>
      obtain ⟨next, others, hsome⟩ := List.exists_cons_of_ne_nil hne
      rw [hsome] at ih ⊢
      rwa [List.getLast?_cons_cons]

theorem canonical_normalize (limbs : Magnitude) : Canonical (normalize limbs) := by
  have hlast := getLast?_dropTopZeros limbs
  unfold normalize
  split
  · exact ⟨by simp, fun _ ↦ rfl⟩
  · next hne => exact ⟨hne, fun hzero ↦ absurd hzero hlast⟩

theorem canonical_singleton (limb : UInt32) : Canonical [limb] := by
  refine ⟨by simp, fun hzero ↦ ?_⟩
  rw [List.getLast?_singleton] at hzero
  rw [Option.some.inj hzero]

/-! ## Comparison -/

theorem compare_limb (x y : UInt32) : Ord.compare x y = Ord.compare x.toNat y.toNat := by
  change compareOfLessAndEq x y = compareOfLessAndEq x.toNat y.toNat
  simp only [compareOfLessAndEq, UInt32.lt_iff_toNat_lt, UInt32.toNat_inj]

/-- Limbs of equal number are compared as the numbers that they stand for. -/
theorem compareLimbs_eq (hlength : first.length = second.length) :
    compareLimbs first second = Ord.compare (value first) (value second) := by
  induction first generalizing second with
  | nil =>
    rw [List.length_eq_zero_iff.1 hlength.symm]
    rfl
  | cons x xs ih =>
    obtain ⟨y, ys, rfl⟩ := List.exists_cons_of_length_eq_add_one hlength.symm
    have hx : x.toNat < 2 ^ 32 := x.toNat_lt
    have hy : y.toNat < 2 ^ 32 := y.toNat_lt
    rw [compareLimbs, ih (Nat.succ.inj hlength), compare_limb, value_cons, value_cons]
    rcases Nat.lt_trichotomy (value xs) (value ys) with hlt | heq | hgt
    · have hsum : x.toNat + 2 ^ 32 * value xs < y.toNat + 2 ^ 32 * value ys := by omega
      rw [Nat.compare_eq_lt.2 hlt, Nat.compare_eq_lt.2 hsum]
      rfl
    · rw [Nat.compare_eq_eq.2 heq, heq, Ordering.eq_then]
      simp only [Nat.compare_eq_ite_lt, Nat.add_lt_add_iff_right]
    · have hsum : y.toNat + 2 ^ 32 * value ys < x.toNat + 2 ^ 32 * value xs := by omega
      rw [Nat.compare_eq_gt.2 hgt, Nat.compare_eq_gt.2 hsum]
      rfl

/-- The longer of two canonical magnitudes is the larger. -/
theorem value_lt_of_length_lt (hfirst : Canonical first) (hsecond : Canonical second)
    (hlength : first.length < second.length) : value first < value second := by
  have hpos : 0 < first.length := List.length_pos_iff.2 hfirst.1
  have hbound := value_lt first
  rcases (canonical_iff_length.1 hsecond).2 with hshort | hlarge
  · omega
  · have hpower : 2 ^ (32 * first.length) ≤ 2 ^ (32 * (second.length - 1)) :=
      Nat.pow_le_pow_right (by decide) (by omega)
    omega

theorem compare_eq_compare_value (hfirst : Canonical first) (hsecond : Canonical second) :
    compare first second = Ord.compare (value first) (value second) := by
  unfold compare
  rcases Nat.lt_trichotomy first.length second.length with hlt | heq | hgt
  · have hvalue := value_lt_of_length_lt hfirst hsecond hlt
    rw [Nat.compare_eq_lt.2 hlt, Nat.compare_eq_lt.2 hvalue]
    rfl
  · rw [Nat.compare_eq_eq.2 heq, Ordering.eq_then, compareLimbs_eq heq]
  · have hvalue := value_lt_of_length_lt hsecond hfirst hgt
    rw [Nat.compare_eq_gt.2 hgt, Nat.compare_eq_gt.2 hvalue]
    rfl

theorem eq_of_value_eq (hfirst : Canonical first) (hsecond : Canonical second)
    (hvalue : value first = value second) : first = second := by
  have hlength : first.length = second.length := by
    rcases Nat.lt_trichotomy first.length second.length with hlt | heq | hgt
    · exact absurd hvalue (Nat.ne_of_lt (value_lt_of_length_lt hfirst hsecond hlt))
    · exact heq
    · exact absurd hvalue (Nat.ne_of_gt (value_lt_of_length_lt hsecond hfirst hgt))
  clear hfirst hsecond
  induction first generalizing second with
  | nil => exact (List.length_eq_zero_iff.1 hlength.symm).symm
  | cons x xs ih =>
    obtain ⟨y, ys, rfl⟩ := List.exists_cons_of_length_eq_add_one hlength.symm
    have hx : x.toNat < 2 ^ 32 := x.toNat_lt
    have hy : y.toNat < 2 ^ 32 := y.toNat_lt
    rw [value_cons, value_cons] at hvalue
    have hlimb : x = y := UInt32.toNat_inj.1 (by omega)
    rw [hlimb, ih (by omega) (Nat.succ.inj hlength)]

end RegisterMachine.Magnitude

import Mathlib.Data.List.Induction
import RegisterMachine.Proofs.Bignum.Built
import RegisterMachine.Proofs.Program.Pool
import RegisterMachine.Proofs.Program.RoundTrip

/-!
# Constants that are found again

A constant that is added to a pool is found at its index as long as the pool lives, since entries
stay where they are and an addition either appends the constant or finds an entry that equals it.
What equals a constant is that constant, with one exception: floats are equal as numbers, so the
two zeros are one entry, and it is the first of them that the pool holds.
-/

namespace RegisterMachine

/-! ## Floats that are equal as numbers -/

namespace Binary32

variable {x y : Binary32}

theorem magnitude_eq (x : Binary32) : x.magnitude = x.bits.toNat % 2 ^ 31 := by
  rw [magnitude, UInt32.toNat_and]
  exact Nat.and_two_pow_sub_one_eq_mod x.bits.toNat 31

theorem signBit_iff (x : Binary32) : x.signBit = true ↔ 2 ^ 31 ≤ x.bits.toNat := by
  rw [signBit, bne_iff_ne, Ne, Bignum.and_top_bit_eq_zero_iff, Nat.not_lt]

/-- The bits are the sign and the magnitude. -/
theorem eq_iff : x = y ↔ x.signBit = y.signBit ∧ x.magnitude = y.magnitude := by
  refine ⟨fun h ↦ h ▸ ⟨rfl, rfl⟩, fun ⟨hsign, hmagnitude⟩ ↦ ?_⟩
  rcases x with ⟨xbits⟩
  rcases y with ⟨ybits⟩
  have hx := xbits.toNat_lt
  have hy := ybits.toNat_lt
  rw [magnitude_eq, magnitude_eq] at hmagnitude
  rw [Bool.eq_iff_iff, signBit_iff, signBit_iff] at hsign
  dsimp only at hmagnitude hsign
  congr 1
  apply UInt32.toNat_inj.1
  omega

theorem isZero_iff (x : Binary32) : x.isZero = true ↔ x.magnitude = 0 :=
  beq_iff_eq

theorem not_isNan_of_isZero (h : x.isZero = true) : x.isNan = false := by
  rw [isNan, (isZero_iff x).1 h]
  rfl

/-- Numbers are equal if they have the same bits or are both zeros. -/
theorem numericEq_iff : x.numericEq y = true ↔
    x.isNan = false ∧ y.isNan = false ∧ (x = y ∨ x.isZero = true ∧ y.isZero = true) := by
  have hrank : compare x.rank y.rank = .eq ↔ x = y ∨ x.isZero = true ∧ y.isZero = true := by
    rw [Std.compare_eq_iff_eq, eq_iff, isZero_iff, isZero_iff]
    unfold rank
    cases x.signBit <;> cases y.signBit <;> simp <;> omega
  rw [numericEq, compare?, beq_iff_eq]
  cases x.isNan <;> cases y.isNan <;> simp [hrank]

theorem isZero_zero (negative : Bool) : (zero negative).isZero = true := by
  cases negative <;> rfl

/-- There are two zeros. -/
theorem eq_zero_of_isZero (h : x.isZero = true) : x = zero x.signBit := by
  have hsign : ∀ negative, (zero negative).signBit = negative := by decide
  rw [eq_iff, hsign]
  exact ⟨rfl, ((isZero_iff x).1 h).trans ((isZero_iff _).1 (isZero_zero _)).symm⟩

/-- The negation of a zero is the other zero. -/
theorem eq_neg_iff_of_isZero (hx : x.isZero = true) (hy : y.isZero = true) : x = y.neg ↔ x ≠ y := by
  rw [eq_zero_of_isZero hx, eq_zero_of_isZero hy]
  cases x.signBit <;> cases y.signBit <;> decide

end Binary32

/-! ## Constants that are the same -/

namespace Constant

variable {entry constant : Constant}

/-- A float that is not a number. -/
def isNan : Constant → Bool
  | .float value => value.isNan
  | _ => false

/-- A float zero of either sign. -/
def isZero : Constant → Bool
  | .float value => value.isZero
  | _ => false

/-- The other zero of a float zero. -/
def otherZero? : Constant → Option Constant
  | .float value => if value.isZero then some (.float value.neg) else none
  | _ => none

/-- Bignums in constants have been built. -/
def Built (constant : Constant) : Prop :=
  ∀ n, constant = .big n → n.Built

theorem SameValue.refl (constant : Constant) : constant.SameValue constant := by
  cases constant with
  | big n => exact .big rfl
  | _ => constructor

@[simp]
theorem int_sameValue_iff {value : Int32} :
    (int value).SameValue constant ↔ int value = constant :=
  ⟨fun h ↦ by cases h; rfl, fun h ↦ h ▸ .int value⟩

@[simp]
theorem float_sameValue_iff {value : Binary32} :
    (float value).SameValue constant ↔ float value = constant :=
  ⟨fun h ↦ by cases h; rfl, fun h ↦ h ▸ .float value⟩

@[simp]
theorem str_sameValue_iff {value : String} :
    (str value).SameValue constant ↔ str value = constant :=
  ⟨fun h ↦ by cases h; rfl, fun h ↦ h ▸ .str value⟩

@[simp]
theorem big_sameValue_iff {n : Bignum} :
    (big n).SameValue constant ↔ ∃ other, constant = .big other ∧ n.toInt = other.toInt :=
  ⟨fun h ↦ by cases h; exact ⟨_, rfl, ‹_›⟩, fun ⟨_, hbig, hvalue⟩ ↦ hbig ▸ .big hvalue⟩

@[simp]
theorem native_sameValue_iff {name : String} :
    (native name).SameValue constant ↔ native name = constant :=
  ⟨fun h ↦ by cases h; rfl, fun h ↦ h ▸ .native name⟩

theorem otherZero?_eq_some_iff :
    constant.otherZero? = some entry ↔
      entry ≠ constant ∧ entry.isZero = true ∧ constant.isZero = true := by
  cases constant with
  | float y =>
    rw [otherZero?, Option.ite_none_right_eq_some, Option.some.injEq]
    constructor
    · rintro ⟨hy, rfl⟩
      have hneg : y.neg.isZero = true := by
        rw [Binary32.eq_zero_of_isZero hy]
        cases y.signBit <;> rfl
      have hne := (Binary32.eq_neg_iff_of_isZero hneg hy).1 rfl
      exact ⟨fun h ↦ hne (Constant.float.inj h), hneg, hy⟩
    · rintro ⟨hne, hentry, hy⟩
      cases entry with
      | float x =>
        have hx := (Binary32.eq_neg_iff_of_isZero hentry hy).2 fun h ↦ hne (congrArg _ h)
        exact ⟨hy, congrArg _ hx.symm⟩
      | _ => cases hentry
  | _ => exact ⟨nofun, fun ⟨_, _, h⟩ ↦ nomatch h⟩

/-- Only the zeros equal a zero. -/
theorem equals_iff_isZero (h : constant.isZero = true) :
    entry.equals constant = true ↔ entry.isZero = true := by
  cases constant with
  | float y =>
    cases entry with
    | float x =>
      have hy : y.isZero = true := h
      rw [equals, isZero, Binary32.numericEq_iff]
      constructor
      · rintro ⟨-, -, rfl | ⟨hx, -⟩⟩
        · exact hy
        · exact hx
      · intro hx
        exact ⟨Binary32.not_isNan_of_isZero hx, Binary32.not_isNan_of_isZero hy, .inr ⟨hx, hy⟩⟩
    | _ => exact Iff.rfl
  | _ => cases h

/-- Constants count as the same entry if they are the same, except that nothing counts as a
not-a-number and that each zero counts as the other. -/
theorem equals_iff (hentry : entry.Built) (hconstant : constant.Built) :
    entry.equals constant = true ↔
      constant.isNan = false ∧ (entry.SameValue constant ∨ constant.otherZero? = some entry) := by
  rw [otherZero?_eq_some_iff]
  cases entry with
  | int x => cases constant <;> simp [equals, isNan, isZero]
  | str x => cases constant <;> simp [equals, isNan, isZero]
  | native x => cases constant <;> simp [equals, isNan, isZero]
  | big x =>
    cases constant with
    | big y =>
      rw [equals, Bignum.equals_iff (hentry x rfl).canonical (hconstant y rfl).canonical]
      simp [isNan, isZero]
    | _ => simp [equals, isNan, isZero]
  | float x =>
    cases constant with
    | float y =>
      rw [equals, Binary32.numericEq_iff, float_sameValue_iff, Constant.float.injEq]
      constructor
      · rintro ⟨-, hnan, rfl | ⟨hx, hy⟩⟩
        · exact ⟨hnan, .inl rfl⟩
        · by_cases h : x = y
          · exact ⟨hnan, .inl h⟩
          · exact ⟨hnan, .inr ⟨fun hsame ↦ h (Constant.float.inj hsame), hx, hy⟩⟩
      · rintro ⟨hnan, rfl | ⟨-, hx, hy⟩⟩
        · exact ⟨hnan, hnan, .inl rfl⟩
        · exact ⟨Binary32.not_isNan_of_isZero hx, hnan, .inr ⟨hx, hy⟩⟩
    | _ => simp [equals, isNan, isZero]

end Constant

namespace ConstantPool

variable {pool : ConstantPool} {history : List Constant} {entry constant : Constant} {index : Nat}

/-! ## Additions in a row -/

/-- The pool after additions in order. -/
def added (history : List Constant) : ConstantPool :=
  history.foldl (fun pool constant ↦ (pool.add constant).2) {}

theorem added_concat (history : List Constant) (constant : Constant) :
    added (history ++ [constant]) = ((added history).add constant).2 := by
  rw [added, List.foldl_append, ← added]
  rfl

/-- Entries stay where they are, whatever is added after them. -/
theorem get?_added_append (h : (added history).get? index = some entry) (after : List Constant) :
    (added (history ++ after)).get? index = some entry := by
  induction after using List.reverseRecOn with
  | nil => rwa [List.append_nil]
  | append_singleton after constant ih =>
    rw [← List.append_assoc, added_concat]
    exact get?_add ih

/-- The entries are constants that were added. -/
theorem mem_of_mem_added (h : entry ∈ (added history).entries) : entry ∈ history := by
  induction history using List.reverseRecOn with
  | nil => exact absurd h (Array.not_mem_empty entry)
  | append_singleton history constant ih =>
    rw [added_concat] at h
    rcases (added history).add_cases constant with ⟨_, _, -, -, hadd⟩ | ⟨-, hadd⟩ <;> rw [hadd] at h
    · exact List.mem_append_left _ (ih h)
    · rcases Array.mem_push.1 h with h | rfl
      · exact List.mem_append_left _ (ih h)
      · exact List.mem_append_right _ List.mem_cons_self

/-- A pool holds one zero at most, and it is the first that was added. -/
theorem filter_isZero_added (history : List Constant) :
    (added history).entries.toList.filter Constant.isZero =
      (history.find? Constant.isZero).toList := by
  induction history using List.reverseRecOn with
  | nil => rfl
  | append_singleton history constant ih =>
    rw [added_concat, List.find?_append, List.find?_singleton]
    rcases (added history).add_cases constant with
      ⟨index, entry, hentry, hequals, hadd⟩ | ⟨hnone, hadd⟩ <;> rw [hadd]
    · rw [ih]
      split
      · next hzero =>
        -- The entry that was found is a zero, so there is one in the history.
        have hmem : entry ∈ (added history).entries.toList.filter Constant.isZero :=
          List.mem_filter.2 ⟨(Array.mem_of_getElem? hentry).val,
            (Constant.equals_iff_isZero hzero).1 hequals⟩
        rw [ih, Option.mem_toList] at hmem
        rw [hmem]
        rfl
      · rw [Option.or_none]
    · rw [Array.toList_push, List.filter_append, ih]
      split
      · next hzero =>
        have hempty : (added history).entries.toList.filter Constant.isZero = [] := by
          rw [List.filter_eq_nil_iff]
          intro entry hentry hisZero
          exact hnone entry (Array.mem_def.2 hentry) ((Constant.equals_iff_isZero hzero).2 hisZero)
        rw [ih, Option.toList_eq_nil_iff] at hempty
        rw [hempty, List.filter_cons_of_pos hzero]
        rfl
      · next hzero => rw [List.filter_cons_of_neg hzero, Option.or_none, List.filter_nil,
          List.append_nil]

/-- A pool holds a zero exactly if that was the first zero added. -/
theorem mem_added_iff_of_isZero (h : entry.isZero = true) :
    entry ∈ (added history).entries ↔ history.find? Constant.isZero = some entry := by
  rw [← Option.mem_toList, ← filter_isZero_added, List.mem_filter, Array.mem_def,
    and_iff_left h]

/-! ## What an index holds -/

/-- In a pool of built constants, what equals a constant is the same or the other zero. -/
theorem equals_iff_of_get? (built : ∀ given ∈ constant :: history, given.Built)
    (h : (added history).get? index = some entry) :
    entry.equals constant = true ↔
      constant.isNan = false ∧ (entry.SameValue constant ∨ constant.otherZero? = some entry) := by
  obtain ⟨hconstant, hhistory⟩ := List.forall_mem_cons.1 built
  exact Constant.equals_iff (hhistory entry (mem_of_mem_added (Array.mem_of_getElem? h))) hconstant

/-- The index of an addition holds the other zero if the pool does, and else the constant. -/
theorem get?_added_index (built : ∀ given ∈ constant :: history, given.Built) : ∃ entry,
    (added (history ++ [constant])).get? ((added history).add constant).1 = some entry ∧
      (∀ other, constant.otherZero? = some other →
        history.find? Constant.isZero = some other → entry = other) ∧
      ((∀ other, constant.otherZero? = some other →
        history.find? Constant.isZero ≠ some other) → entry.SameValue constant) := by
  rw [added_concat]
  rcases (added history).add_cases constant with
    ⟨index, entry, hentry, hequals, hadd⟩ | ⟨hnone, hadd⟩ <;> rw [hadd]
  · refine ⟨entry, hentry, fun other hother hfirst ↦ ?_, fun hfirst ↦ ?_⟩
    · obtain ⟨-, -, hzero⟩ := Constant.otherZero?_eq_some_iff.1 hother
      have hfound := (mem_added_iff_of_isZero ((Constant.equals_iff_isZero hzero).1 hequals)).1
        (Array.mem_of_getElem? hentry)
      exact Option.some.inj (hfound.symm.trans hfirst)
    · rcases ((equals_iff_of_get? built hentry).1 hequals).2 with hsame | hother
      · exact hsame
      · obtain ⟨-, hzero, -⟩ := Constant.otherZero?_eq_some_iff.1 hother
        exact absurd ((mem_added_iff_of_isZero hzero).1 (Array.mem_of_getElem? hentry))
          (hfirst entry hother)
  · refine ⟨constant, by simp [get?, size], fun other hother hfirst ↦ ?_, fun _ ↦ .refl constant⟩
    obtain ⟨-, hzero, hconstant⟩ := Constant.otherZero?_eq_some_iff.1 hother
    have hmem := (mem_added_iff_of_isZero hzero).2 hfirst
    exact absurd ((Constant.equals_iff_isZero hconstant).2 hzero) (hnone other hmem)

/-- **A constant is found where it was added**, at every later time: its index holds an entry that
is the same, unless the first zero that was added is the other zero of the constant, which is found
then. Entries stay where they are and as they are, and a constant that the pool holds is not added
again unless it is a not-a-number. -/
theorem added_found (before : List Constant) (constant : Constant)
    (built : ∀ given ∈ constant :: before, given.Built) :
    (∃ entry,
      (∀ after, (added (before ++ constant :: after)).get? ((added before).add constant).1 =
        some entry) ∧
      (∀ other, constant.otherZero? = some other →
        before.find? Constant.isZero = some other → entry = other) ∧
      ((∀ other, constant.otherZero? = some other →
        before.find? Constant.isZero ≠ some other) → entry.SameValue constant)) ∧
    (∀ index entry after, (added before).get? index = some entry →
      (added (before ++ after)).get? index = some entry) ∧
    ∀ index entry, (added before).get? index = some entry → entry.SameValue constant →
      constant.isNan = false → added (before ++ [constant]) = added before := by
  refine ⟨?held, fun index entry after h ↦ get?_added_append h after, ?unchanged⟩
  case held =>
    obtain ⟨entry, hentry, hholds⟩ := get?_added_index built
    refine ⟨entry, fun after ↦ ?_, hholds⟩
    rw [List.append_cons]
    exact get?_added_append hentry after
  case unchanged =>
    intro index entry hentry hsame hnan
    have hfinds := (equals_iff_of_get? built hentry).2 ⟨hnan, .inl hsame⟩
    rw [added_concat]
    rcases (added before).add_cases constant with ⟨_, _, -, -, hadd⟩ | ⟨hnone, -⟩
    · rw [hadd]
    · exact absurd hfinds (hnone entry (Array.mem_of_getElem? hentry))

/-- A bignum, a zero and the other zero, which is not appended. -/
theorem added_found_zeros :
    (∀ given ∈ [Constant.float (.zero true), .big .zero, .float (.zero false)], given.Built) ∧
      ∀ after, (added (.big .zero :: .float (.zero false) :: .float (.zero true) :: after)).get? 1 =
        some (.float (.zero false)) := by
  have built : ∀ given ∈ [Constant.float (.zero true), .big .zero, .float (.zero false)],
      given.Built := by
    simp only [List.forall_mem_cons]
    exact ⟨nofun, fun n h ↦ Constant.big.inj h ▸ .zero, nofun, nofun⟩
  obtain ⟨⟨entry, hentry, hother, -⟩, -⟩ :=
    added_found [.big .zero, .float (.zero false)] (.float (.zero true)) built
  obtain rfl := hother (.float (.zero false)) (by decide) (by decide)
  have hindex : ((added [.big .zero, .float (.zero false)]).add (.float (.zero true))).1 = 1 := by
    decide +kernel
  exact ⟨built, fun after ↦ hindex ▸ hentry after⟩

/-- Not every constant is found where it was added. -/
theorem not_added_found :
    ¬ ∀ (before : List Constant) (constant : Constant),
      (∀ given ∈ constant :: before, given.Built) →
        ∃ entry, (added (before ++ [constant])).get? ((added before).add constant).1 = some entry ∧
          entry.SameValue constant := by
  intro h
  obtain ⟨entry, hentry, hsame⟩ := h [.float (.zero false)] (.float (.zero true))
    (by simp only [List.forall_mem_cons]; exact ⟨nofun, nofun, nofun⟩)
  have hfound : (added ([.float (.zero false)] ++ [.float (.zero true)])).get?
      ((added [.float (.zero false)]).add (.float (.zero true))).1 =
        some (.float (.zero false)) := by decide +kernel
  obtain rfl : Constant.float (.zero false) = entry := Option.some.inj (hfound.symm.trans hentry)
  exact absurd (Constant.float_sameValue_iff.1 hsame) (by decide)

end ConstantPool

end RegisterMachine

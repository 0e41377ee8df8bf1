import Mathlib.Data.List.Forall2
import RegisterMachine.Machine.Fault

/-!
# Judgements on computations that can fail

`Meets` speaks about every outcome of one computation: its errors are among those allowed, and its
result meets a condition. `Follows` compares two computations: whenever the first has a result, the
second has the image of that result. Both are closed under sequencing, so an instruction is judged
by judging its parts in order.
-/

namespace RegisterMachine

variable {ε α β γ δ : Type}

/-! ## One computation -/

/-- Every error is allowed and every result meets the condition. -/
def Meets (allowed : ε → Prop) (condition : α → Prop) : Except ε α → Prop
  | .ok value => condition value
  | .error cause => allowed cause

namespace Meets

variable {allowed weaker : ε → Prop} {condition : α → Prop} {goal : β → Prop}
  {computation : Except ε α} {next : α → Except ε β}

/-- The rest of a sequence may use that the first part has come to its result, and what is known of
that result. -/
theorem bind (first : Meets allowed condition computation)
    (rest : ∀ value, computation = .ok value → condition value → Meets allowed goal (next value)) :
    Meets allowed goal (computation >>= next) := by
  cases computation with
  | ok value => exact rest value rfl first
  | error cause => exact first

theorem mono (judged : Meets allowed condition computation)
    (weaken : ∀ cause, allowed cause → weaker cause) : Meets weaker condition computation := by
  cases computation with
  | ok value => exact judged
  | error cause => exact weaken cause judged

theorem of_ok (judged : Meets allowed condition computation) {value : α}
    (result : computation = .ok value) : condition value := by
  rw [result] at judged
  exact judged

theorem of_error (judged : Meets allowed condition computation) {cause : ε}
    (result : computation = .error cause) : allowed cause := by
  rw [result] at judged
  exact judged

end Meets

/-- Every result meets the condition; errors are left open. -/
def Yields (condition : α → Prop) (computation : Except ε α) : Prop :=
  Meets (fun _ ↦ True) condition computation

namespace Yields

variable {condition : α → Prop} {goal : β → Prop} {computation : Except ε α}

theorem bind {next : α → Except ε β} (rest : ∀ value, Yields goal (next value)) :
    Yields goal (computation >>= next) := by
  cases computation with
  | ok value => exact rest value
  | error cause => trivial

theorem of_forall (holds : ∀ value, condition value) : Yields condition computation := by
  cases computation with
  | ok value => exact holds value
  | error cause => trivial

theorem unconditional (computation : Except ε α) : Yields (fun _ ↦ True) computation := by
  cases computation <;> trivial

theorem of_ok (judged : Yields condition computation) {value : α}
    (result : computation = .ok value) : condition value :=
  Meets.of_ok judged result

end Yields

theorem eq_ok_of_toOption {computation : Except ε α} {value : α}
    (h : computation.toOption = some value) : computation = .ok value := by
  cases computation with
  | ok found => rw [Option.some.inj h]
  | error cause => cases h

/-- A sequence has a result if both of its parts have one. -/
theorem bind_eq_ok_iff {computation : Except ε α} {next : α → Except ε β} {result : β} :
    computation >>= next = .ok result ↔
      ∃ value, computation = .ok value ∧ next value = .ok result := by
  cases computation with
  | ok value => exact ⟨fun h ↦ ⟨value, rfl, h⟩, by rintro ⟨_, ⟨⟩, h⟩; exact h⟩
  | error cause => exact ⟨nofun, nofun⟩

theorem map_eq_ok_iff {computation : Except ε α} {image : α → β} {result : β} :
    computation.map image = .ok result ↔
      ∃ value, computation = .ok value ∧ image value = result := by
  cases computation with
  | ok value => simp [Except.map]
  | error cause => simp [Except.map]

theorem map_eq_error_iff {computation : Except ε α} {image : α → β} {cause : ε} :
    computation.map image = .error cause ↔ computation = .error cause := by
  cases computation with
  | ok value => simp [Except.map]
  | error found => simp [Except.map]

/-- A list of computations has a result if each of them has one. -/
theorem mapM_eq_ok_iff {run : α → Except ε β} {inputs : List α} {results : List β} :
    inputs.mapM run = .ok results ↔
      List.Forall₂ (fun input result ↦ run input = .ok result) inputs results := by
  induction inputs generalizing results with
  | nil =>
    rw [List.mapM_nil, List.forall₂_nil_left_iff]
    exact ⟨fun h ↦ (Except.ok.inj h).symm, fun h ↦ h ▸ rfl⟩
  | cons input rest ih =>
    rw [List.mapM_cons, bind_eq_ok_iff, List.forall₂_cons_left_iff]
    constructor
    · rintro ⟨first, hfirst, h⟩
      obtain ⟨others, hothers, hresults⟩ := bind_eq_ok_iff.1 h
      exact ⟨first, others, hfirst, ih.1 hothers, (Except.ok.inj hresults).symm⟩
    · rintro ⟨first, others, hfirst, hothers, rfl⟩
      exact ⟨first, hfirst, bind_eq_ok_iff.2 ⟨others, ih.2 hothers, rfl⟩⟩

/-- A list of computations fails with the error of the first that fails. -/
theorem mapM_eq_error_iff {run : α → Except ε β} {inputs : List α} {cause : ε} :
    inputs.mapM run = .error cause ↔
      ∃ before input after, inputs = before ++ input :: after ∧
        (∀ earlier ∈ before, ∃ result, run earlier = .ok result) ∧ run input = .error cause := by
  induction inputs with
  | nil =>
    rw [List.mapM_nil]
    exact ⟨nofun, fun ⟨_, _, _, hsplit, _⟩ ↦ absurd hsplit (by simp)⟩
  | cons input rest ih =>
    rw [List.mapM_cons]
    constructor
    · intro h
      cases hfirst : run input with
      | error found =>
        rw [hfirst] at h
        obtain rfl : found = cause := Except.error.inj h
        exact ⟨[], input, rest, rfl, by simp, hfirst⟩
      | ok first =>
        cases hrest : rest.mapM run with
        | ok others =>
          rw [hfirst, hrest] at h
          cases h
        | error found =>
          rw [hfirst, hrest] at h
          obtain rfl : found = cause := Except.error.inj h
          obtain ⟨before, failing, after, rfl, hbefore, hfailing⟩ := ih.1 hrest
          exact ⟨input :: before, failing, after, rfl,
            List.forall_mem_cons.2 ⟨⟨first, hfirst⟩, hbefore⟩, hfailing⟩
    · rintro ⟨before, failing, after, hsplit, hbefore, hfailing⟩
      cases before with
      | nil =>
        obtain ⟨rfl, rfl⟩ := List.cons.inj hsplit
        rw [hfailing]
        rfl
      | cons earlier before =>
        obtain ⟨rfl, rfl⟩ := List.cons.inj hsplit
        obtain ⟨⟨first, hfirst⟩, hbefore⟩ := List.forall_mem_cons.1 hbefore
        rw [hfirst, ih.2 ⟨before, failing, after, rfl, hbefore, hfailing⟩]
        rfl

/-! ## Two computations -/

/-- Whenever the first computation has a result, the second has its image. -/
def Follows (image : α → β) (first : Except ε α) (second : Except ε β) : Prop :=
  ∀ value, first = .ok value → second = .ok (image value)

namespace Follows

variable {image : α → β} {next : γ → δ} {first : Except ε α} {second : Except ε β}

theorem ok (image : α → β) (value : α) :
    Follows image (.ok value : Except ε α) (.ok (image value)) := by
  intro other result
  cases result
  rfl

theorem error (image : α → β) (cause : ε) (second : Except ε β) :
    Follows image (.error cause) second := by
  intro value result
  cases result

theorem bind {rest : α → Except ε γ} {rest' : β → Except ε δ} (head : Follows image first second)
    (tail : ∀ value, first = .ok value → Follows next (rest value) (rest' (image value))) :
    Follows next (first >>= rest) (second >>= rest') := by
  cases first with
  | ok value =>
    rw [head value rfl]
    exact tail value rfl
  | error cause => exact error next cause _

/-- What two computations begin with alike need not be compared. -/
theorem after {computation : Except ε γ} {rest : γ → Except ε α} {rest' : γ → Except ε β}
    (tail : ∀ value, Follows image (rest value) (rest' value)) :
    Follows image (computation >>= rest) (computation >>= rest') := by
  cases computation with
  | ok value => exact tail value
  | error cause => exact error image cause _

/-- The second computation may refuse less than the first. -/
theorem refuse {large larger : Prop} [Decidable large] [Decidable larger] {cause cause' : ε}
    (less : larger → large) (rest : Follows image first second) :
    Follows image (if large then .error cause else first)
      (if larger then .error cause' else second) := by
  by_cases h : large
  · rw [if_pos h]
    exact error image cause _
  · rw [if_neg h, if_neg (mt less h)]
    exact rest

end Follows

end RegisterMachine

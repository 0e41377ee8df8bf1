import Mathlib.Data.List.Basic
import Mathlib.Data.List.TakeWhile
import RegisterMachine.Text.Blank

/-!
# Scanning and trimming

A scan stops at the first character outside of a class. Trimming scans for the first character that
is no blank, from either end, so a text is what trimming leaves of it between blanks.
-/

namespace RegisterMachine.Text

/-- No visible character of ASCII is a blank. -/
theorem isBlank_of_visible {c : Char} (hlow : 0x20 < c.toNat) (hhigh : c.toNat < 0x85) :
    isBlank c = false := by
  simp only [isBlank, Bool.or_eq_false_iff, Bool.and_eq_false_iff, decide_eq_false_iff_not,
    beq_eq_false_iff_ne]
  omega

/-- Where a scan for the first character outside of a class stops. -/
theorem scan_iff {inside : Char → Bool} {text front back : List Char} :
    text.takeWhile inside = front ∧ text.dropWhile inside = back ↔
      text = front ++ back ∧ (∀ c ∈ front, inside c = true) ∧
        ∀ c ∈ back.head?, inside c = false := by
  constructor
  · rintro ⟨rfl, rfl⟩
    refine ⟨List.takeWhile_append_dropWhile.symm, fun c hc ↦ List.mem_takeWhile_imp hc, ?_⟩
    intro c hc
    have h := List.head?_dropWhile_not inside text
    rw [Option.mem_def.1 hc] at h
    exact h
  · rintro ⟨rfl, hfront, hback⟩
    rw [List.takeWhile_append_of_pos hfront, List.dropWhile_append_of_pos hfront]
    cases back with
    | nil => simp
    | cons c rest => simp [hback c (by simp)]

/-- A text is what trimming leaves of it, between blanks. -/
theorem exists_blanks (text : List Char) :
    ∃ before after, text = before ++ trim text ++ after ∧ (∀ c ∈ before, isBlank c = true) ∧
      ∀ c ∈ after, isBlank c = true := by
  refine ⟨text.takeWhile isBlank, ((trimStart text).reverse.takeWhile isBlank).reverse, ?_,
    fun c hc ↦ List.mem_takeWhile_imp hc,
    fun c hc ↦ List.mem_takeWhile_imp (List.mem_reverse.1 hc)⟩
  have hend : trim text ++ ((trimStart text).reverse.takeWhile isBlank).reverse =
      trimStart text := by
    unfold trim trimEnd
    rw [← List.reverse_append, List.takeWhile_append_dropWhile, List.reverse_reverse]
  rw [List.append_assoc, hend]
  exact List.takeWhile_append_dropWhile.symm

/-- Blanks are trimmed up to the first and the last character that are none. -/
theorem trim_between {before text after : List Char} (hbefore : ∀ c ∈ before, isBlank c = true)
    (hafter : ∀ c ∈ after, isBlank c = true) (hne : text ≠ [])
    (hfirst : ∀ c ∈ text.head?, isBlank c = false)
    (hlast : ∀ c ∈ text.getLast?, isBlank c = false) : trim (before ++ text ++ after) = text := by
  have hstart : (before ++ text ++ after).dropWhile isBlank = text ++ after := by
    refine (scan_iff.2 ⟨List.append_assoc .., hbefore, fun c hc ↦ hfirst c ?_⟩).2
    rwa [List.head?_append_of_ne_nil _ hne] at hc
  have hend : (text ++ after).reverse.dropWhile isBlank = text.reverse :=
    (scan_iff.2 ⟨List.reverse_append, fun c hc ↦ hafter c (List.mem_reverse.1 hc),
      by simpa using hlast⟩).2
  rw [trim, trimStart, hstart, trimEnd, hend, List.reverse_reverse]

theorem trim_of_ends {text : List Char} (hfirst : ∀ c ∈ text.head?, isBlank c = false)
    (hlast : ∀ c ∈ text.getLast?, isBlank c = false) : trim text = text := by
  cases text with
  | nil => rfl
  | cons c rest =>
    have htrim := trim_between (List.forall_mem_nil _) (List.forall_mem_nil _)
      (List.cons_ne_nil c rest) hfirst hlast
    rwa [List.nil_append, List.append_nil] at htrim

end RegisterMachine.Text

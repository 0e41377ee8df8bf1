import RegisterMachine.Program.Constant

/-!
# Constants in a pool

The index that a constant is given holds an entry that counts as the same constant, and additions
leave the entries of a pool where they are.
-/

namespace RegisterMachine.ConstantPool

variable {pool : ConstantPool} {constant entry : Constant} {index : Nat}

/-- An addition finds the first entry that equals the constant, or appends it. -/
theorem add_cases (pool : ConstantPool) (constant : Constant) :
    (∃ index entry, pool.get? index = some entry ∧ entry.equals constant = true ∧
      pool.add constant = (index, pool)) ∨
    (∀ entry ∈ pool.entries, ¬ entry.equals constant = true) ∧
      pool.add constant = (pool.size, ⟨pool.entries.push constant⟩) := by
  unfold add
  split
  · next index hfound =>
    obtain ⟨hlt, hequals, -⟩ := Array.findIdx?_eq_some_iff_getElem.1 hfound
    exact .inl ⟨index, pool.entries[index], Array.getElem?_eq_getElem hlt, hequals, rfl⟩
  · next hnone => exact .inr ⟨by simpa using hnone, rfl⟩

/-- The index of an added constant holds that constant, or an entry that it equals. -/
theorem get?_add_index (pool : ConstantPool) (constant : Constant) : ∃ entry,
    (pool.add constant).2.get? (pool.add constant).1 = some entry ∧
      (entry = constant ∨ entry.equals constant = true) := by
  rcases pool.add_cases constant with ⟨index, entry, hentry, hequals, hadd⟩ | ⟨-, hadd⟩ <;>
    rw [hadd]
  · exact ⟨entry, hentry, .inr hequals⟩
  · exact ⟨constant, by simp [get?, size], .inl rfl⟩

/-- Entries stay where they are. -/
theorem get?_add (h : pool.get? index = some entry) :
    (pool.add constant).2.get? index = some entry := by
  rcases pool.add_cases constant with ⟨_, _, -, -, hadd⟩ | ⟨-, hadd⟩ <;> rw [hadd]
  · exact h
  · obtain ⟨hlt, -⟩ := Array.getElem?_eq_some_iff.1 h
    exact (Array.getElem?_push_lt hlt).trans (Array.getElem?_eq_getElem hlt ▸ h)

end RegisterMachine.ConstantPool

import RegisterMachine.Proofs.Heap.Lookup
import RegisterMachine.Proofs.Heap.Representation

/-!
# Chains that end at a stale reference

A walk that comes to a reference whose object is gone has passed living objects only, none of them
twice. If it has passed fewer than there are, the search comes as far and reports the reference. If
it has passed them all, the bound of the search ends it one step too early, and a field is missing
where the reference should be reported. So it matters to a search what else is in the heap: an
object allocated elsewhere lets a reference be reported that was not, and one freed elsewhere
conceals a reference that was. No other search depends on objects off its chain.
-/

namespace RegisterMachine.Heap

variable {heap later : Heap} {key : String} {handle target made next dead : Handle}
  {object : HeapObject} {steps : Nat}

/-! ## Away from a chain -/

/-- Another heap has the same at every reference of a chain. -/
def KeepsChain (heap later : Heap) (handle : Handle) : Prop :=
  ∀ steps passed, heap.ancestor? handle steps = some passed → later.get passed = heap.get passed

theorem KeepsChain.get_eq (kept : heap.KeepsChain later handle) :
    later.get handle = heap.get handle :=
  kept 0 handle rfl

theorem KeepsChain.prototype (kept : heap.KeepsChain later handle)
    (hnext : heap.prototype? handle = some next) : heap.KeepsChain later next := by
  intro steps passed hpassed
  apply kept (steps + 1) passed
  rw [ancestor?_succ, hnext, Option.bind_some, hpassed]

/-- A search looks at nothing off its chain. -/
theorem KeepsChain.findField_eq (kept : heap.KeepsChain later handle) (key : String)
    (budget : Nat) : later.findField key budget handle = heap.findField key budget handle := by
  induction budget generalizing handle with
  | zero => rfl
  | succ budget ih =>
    have hcontains : later.contains handle = heap.contains handle :=
      Bool.eq_iff_iff.2 (by simp only [contains_iff, kept.get_eq])
    have hown : later.ownField? key handle = heap.ownField? key handle := by
      rw [ownField?, ownField?, kept.get_eq]
    have hprototype : later.prototype? handle = heap.prototype? handle := by
      rw [Heap.prototype?, Heap.prototype?, kept.get_eq]
    rw [findField_succ, findField_succ, hcontains, hown, hprototype]
    cases heap.ownField? key handle with
    | some value => rfl
    | none =>
      cases hnext : heap.prototype? handle with
      | none => rfl
      | some next => simp only [ih (kept.prototype hnext)]

theorem get_congr (h : ∀ object, later.get handle = .ok object ↔ heap.get handle = .ok object) :
    later.get handle = heap.get handle := by
  by_cases hlive : heap.contains handle
  · obtain ⟨object, hget⟩ := contains_iff.1 hlive
    rw [hget, h object, hget]
  · have hgone : ¬ later.contains handle := by simpa only [contains_iff, h] using hlive
    rw [get_eq_error hlive, get_eq_error hgone]

/-- Allocating an object leaves every other reference as it is, stale ones too. -/
theorem Issues.get_eq_of_ne (issues : heap.Issues object made later) (hne : handle ≠ made) :
    later.get handle = heap.get handle := by
  refine get_congr fun found ↦ ?_
  by_cases hindex : handle.index.toNat = made.index.toNat
  · have hmade : later.contains made :=
      contains_iff.2 ⟨object, get_eq_ok_iff.2 ⟨_, issues.slot_eq, rfl, rfl⟩⟩
    refine iff_of_false (fun hget ↦ hne ?_) fun hget ↦ ?_
    · exact eq_of_index_eq hmade (contains_iff.2 ⟨found, hget⟩) hindex
    · obtain ⟨slot, hslot, -, hobject⟩ := get_eq_ok_iff.1 hget
      rw [issues.was_vacant slot (hindex ▸ hslot)] at hobject
      cases hobject
  · rw [get_eq_ok_iff, get_eq_ok_iff, issues.other_eq _ hindex]

/-- Freeing an object leaves every other reference as it is. -/
theorem Consistent.get_eq_of_release (consistent : heap.Consistent)
    (hrelease : heap.release target = .ok (object, later)) (hne : handle ≠ target) :
    later.get handle = heap.get handle := by
  obtain ⟨-, slot, hslot, hgeneration, hobject, hslots⟩ := consistent.release hrelease
  refine get_congr fun found ↦ ?_
  by_cases hindex : handle.index.toNat = target.index.toNat
  · have htarget : heap.contains target :=
      contains_iff.2 ⟨object, get_eq_ok_iff.2 ⟨slot, hslot, hgeneration, hobject⟩⟩
    refine iff_of_false (fun hget ↦ ?_) fun hget ↦ hne ?_
    · obtain ⟨freed, hfreed, -, hfound⟩ := get_eq_ok_iff.1 hget
      obtain ⟨hlt, -⟩ := Array.getElem?_eq_some_iff.1 hslot
      rw [hslots, hindex, Array.getElem?_setIfInBounds_self_of_lt hlt] at hfreed
      cases hfreed
      cases hfound
    · exact eq_of_index_eq htarget (contains_iff.2 ⟨found, hget⟩) hindex
  · rw [get_eq_ok_iff, get_eq_ok_iff, hslots, Array.getElem?_setIfInBounds_ne (Ne.symm hindex)]

/-! ## At the bound of a search -/

section

variable (counted : heap.live = heap.slots.toList.countP (·.object.isSome))

include counted

/-- A walk passes a stale reference once at most, for it ends there, and only living objects
before. -/
theorem DeadEnd.le_live (deadEnd : heap.DeadEnd key handle steps dead) : steps ≤ heap.live := by
  obtain ⟨⟨hreached, -⟩, hdead⟩ := deadEnd
  have hfirst (fewer : Nat) (hlt : fewer < steps) :
      heap.ancestor? handle fewer ≠ some dead :=
    fun hearlier ↦ hdead (contains_of_ancestor? hreached hlt hearlier)
  exact le_live_of_ancestor? counted hreached hfirst (Nat.le_succ steps)
    fun fewer hlt passed hpassed ↦ contains_of_ancestor? hreached hlt hpassed

/-- The search reports a stale reference, unless it needs the whole bound to come there. -/
theorem DeadEnd.getField_eq (deadEnd : heap.DeadEnd key handle steps dead) :
    heap.getField handle key =
      if steps < heap.live then .error (.danglingReference dead) else .ok none := by
  split
  · next hlt => exact findField_eq_error_iff.2 ⟨steps, hlt, dead, deadEnd, rfl⟩
  · next hreached =>
    obtain rfl : steps = heap.live :=
      Nat.le_antisymm (deadEnd.le_live counted) (Nat.le_of_not_lt hreached)
    exact findField_of_comes deadEnd.1 0

/-- One step more than there are living objects makes a difference to a search only where the step
comes to a stale reference. -/
theorem findField_live_succ (key : String) (handle : Handle) :
    heap.findField key (heap.live + 1) handle = heap.getField handle key ∨
      ∃ dead, heap.DeadEnd key handle heap.live dead ∧ heap.getField handle key = .ok none ∧
        heap.findField key (heap.live + 1) handle = .error (.danglingReference dead) := by
  rcases findField_of_le key handle (Nat.le_succ heap.live) with hnone | hsame
  · cases hlonger : heap.findField key (heap.live + 1) handle with
    | ok found =>
      cases found with
      | none => exact .inl hnone.symm
      | some value => exact .inl (getField_of_findField counted hlonger).symm
    | error cause =>
      obtain ⟨steps, hsteps, dead, deadEnd, rfl⟩ := findField_eq_error_iff.1 hlonger
      rcases Nat.lt_succ_iff_lt_or_eq.1 hsteps with hlt | rfl
      · exact .inl (findField_eq_error_iff.2 ⟨steps, hlt, dead, deadEnd, rfl⟩).symm
      · exact .inr ⟨dead, deadEnd, hnone, rfl⟩
  · exact .inl hsame

end

/-! ## What a search depends on -/

/-- A walk that comes to a stale reference has taken at most as many steps as there are living
objects. The search reports the reference if the walk has taken fewer, and finds nothing if it has
taken exactly as many. An object allocated off the chain changes the result of a search only if it
lets the search come to a stale reference that it just did not reach, and one freed off the chain
only if it keeps the search from a stale reference that it just reached. -/
theorem dead_end_reported_short_of_live (consistent : heap.Consistent) (handle : Handle)
    (key : String) :
    (∀ steps dead, heap.DeadEnd key handle steps dead →
      steps ≤ heap.live ∧
      (heap.getField handle key = .error (.danglingReference dead) ↔ steps < heap.live) ∧
      (heap.getField handle key = .ok none ↔ steps = heap.live)) ∧
    (∀ object made later, heap.alloc object = .ok (made, later) →
      (∀ steps, heap.ancestor? handle steps ≠ some made) →
      later.getField handle key = heap.getField handle key ∨
        ∃ dead, heap.DeadEnd key handle heap.live dead ∧ heap.getField handle key = .ok none ∧
          later.getField handle key = .error (.danglingReference dead)) ∧
    (∀ target freed later, heap.release target = .ok (freed, later) →
      (∀ steps, heap.ancestor? handle steps ≠ some target) →
      later.getField handle key = heap.getField handle key ∨
        ∃ dead, later.DeadEnd key handle later.live dead ∧
          heap.getField handle key = .error (.danglingReference dead) ∧
          later.getField handle key = .ok none) := by
  refine ⟨fun steps dead deadEnd ↦ ?_, fun object made later halloc haway ↦ ?_,
    fun target freed later hrelease haway ↦ ?_⟩
  · have hle := deadEnd.le_live consistent.live_eq
    refine ⟨hle, ?_⟩
    rw [deadEnd.getField_eq consistent.live_eq]
    split
    · next hlt => simp [hlt, Nat.ne_of_lt hlt]
    · next hreached => simp [Nat.le_antisymm hle (Nat.le_of_not_lt hreached)]
  · obtain ⟨-, issues⟩ := consistent.alloc halloc
    have kept : heap.KeepsChain later handle := fun steps passed hpassed ↦
      issues.get_eq_of_ne fun h ↦ haway steps (h ▸ hpassed)
    have hlive : later.live = heap.live + 1 := (count_of_store (store_of_alloc halloc)).1
    rw [getField, hlive, kept.findField_eq]
    exact findField_live_succ consistent.live_eq key handle
  · obtain ⟨consistentLater, -⟩ := consistent.release hrelease
    have kept : heap.KeepsChain later handle := fun steps passed hpassed ↦
      consistent.get_eq_of_release hrelease fun h ↦ haway steps (h ▸ hpassed)
    have hlive : later.live + 1 = heap.live := (live_of_release consistent hrelease).1
    have hbefore : heap.getField handle key = later.findField key (later.live + 1) handle := by
      rw [getField, ← hlive, kept.findField_eq]
    rw [hbefore]
    rcases findField_live_succ consistentLater.live_eq key handle with hsame | hlost
    · exact .inl hsame.symm
    · obtain ⟨dead, deadEnd, hnone, herror⟩ := hlost
      exact .inr ⟨dead, deadEnd, herror, hnone⟩

/-- The prototype of the only object is gone. -/
def orphaned : Heap :=
  performAll {} [.alloc (.plain {}), .alloc (.plain { prototype := some ⟨0, 0⟩ }), .release ⟨0, 0⟩]

/-- The same, and another object where the prototype was. -/
def accompanied : Heap :=
  orphaned.perform (.alloc (.str "elsewhere"))

theorem deadEnd_orphaned : orphaned.DeadEnd "x" ⟨1, 0⟩ 1 ⟨0, 0⟩ :=
  deadEnd_succ_iff.2 ⟨rfl, ⟨0, 0⟩, rfl, deadEnd_zero_iff.2 ⟨by decide, rfl⟩⟩

theorem ancestor?_orphaned_ne (steps : Nat) : orphaned.ancestor? ⟨1, 0⟩ steps ≠ some ⟨0, 1⟩ := by
  match steps with
  | 0 | 1 => decide
  | steps + 2 =>
    have hend : orphaned.ancestor? ⟨1, 0⟩ 2 = none := rfl
    rw [Nat.add_comm, ancestor?_add, hend]
    exact nofun

/-- The object that joins the only one, off its chain, lets the search report what it did not. -/
theorem dead_end_reported_short_of_live_orphaned :
    orphaned.Consistent ∧ orphaned.live = 1 ∧ orphaned.DeadEnd "x" ⟨1, 0⟩ 1 ⟨0, 0⟩ ∧
      orphaned.getField ⟨1, 0⟩ "x" = .ok none ∧
      orphaned.alloc (.str "elsewhere") = .ok (⟨0, 1⟩, accompanied) ∧
      (∀ steps, orphaned.ancestor? ⟨1, 0⟩ steps ≠ some ⟨0, 1⟩) ∧
      accompanied.getField ⟨1, 0⟩ "x" = .error (.danglingReference ⟨0, 0⟩) := by
  have consistent : orphaned.Consistent := (consistent_empty none).performAll _
  have joined : orphaned.alloc (.str "elsewhere") = .ok (⟨0, 1⟩, accompanied) := rfl
  have before := dead_end_reported_short_of_live consistent ⟨1, 0⟩ "x"
  have hmissed := (before.1 1 ⟨0, 0⟩ deadEnd_orphaned).2.2.2 rfl
  have after := dead_end_reported_short_of_live (consistent.alloc joined).1 ⟨1, 0⟩ "x"
  have hreported := (after.1 1 ⟨0, 0⟩ (deadEnd_succ_iff.2 ⟨rfl, ⟨0, 0⟩, rfl,
    deadEnd_zero_iff.2 ⟨by decide, rfl⟩⟩)).2.1.2 (by decide)
  exact ⟨consistent, rfl, deadEnd_orphaned, hmissed, joined, ancestor?_orphaned_ne, hreported⟩

/-- A stale reference at the end of a chain is not always reported, and whether it is depends on
objects off the chain. -/
theorem dead_end_not_reported :
    orphaned.Consistent ∧ orphaned.DeadEnd "x" ⟨1, 0⟩ 1 ⟨0, 0⟩ ∧
      orphaned.getField ⟨1, 0⟩ "x" ≠ .error (.danglingReference ⟨0, 0⟩) ∧
      orphaned.alloc (.str "elsewhere") = .ok (⟨0, 1⟩, accompanied) ∧
      (∀ steps, orphaned.ancestor? ⟨1, 0⟩ steps ≠ some ⟨0, 1⟩) ∧
      accompanied.getField ⟨1, 0⟩ "x" ≠ orphaned.getField ⟨1, 0⟩ "x" := by
  have hmissed : orphaned.getField ⟨1, 0⟩ "x" = .ok none := rfl
  have hreported : accompanied.getField ⟨1, 0⟩ "x" = .error (.danglingReference ⟨0, 0⟩) := rfl
  refine ⟨(consistent_empty none).performAll _, deadEnd_orphaned, ?_, rfl,
    ancestor?_orphaned_ne, ?_⟩
  · rw [hmissed]
    exact nofun
  · rw [hmissed, hreported]
    exact nofun

end RegisterMachine.Heap

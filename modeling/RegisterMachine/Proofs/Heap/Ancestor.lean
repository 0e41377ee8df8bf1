import Mathlib.Data.Finset.Card
import Mathlib.Data.List.Dedup
import RegisterMachine.Proofs.Heap.Grounded

/-!
# Chains of prototypes

What lies above an object is numbered by the steps that lead to it. Every step is determined by
where it starts, so a chain that arrives where it never was before has not been anywhere twice. All
it passed were living objects, and as these are in slots of their own, there are no more of them
than the heap counts. Nothing is assumed of the prototypes themselves: they may be stale, may be no
objects with fields, and may form cycles.
-/

namespace RegisterMachine.Heap

/-- The prototype of a living object with fields, if it has one. -/
def prototype? (heap : Heap) (handle : Handle) : Option Handle :=
  match heap.get handle with
  | .ok (.plain object) => object.prototype
  | _ => none

/-- What lies so many prototypes above a reference. Each step starts from a living object with
fields; what it leads to may be anything. -/
def ancestor? (heap : Heap) (handle : Handle) : Nat → Option Handle
  | 0 => some handle
  | steps + 1 => (heap.ancestor? handle steps).bind heap.prototype?

variable {heap : Heap} {handle next last : Handle} {steps : Nat}

theorem prototype?_eq_some_iff :
    heap.prototype? handle = some next ↔ heap.Descends handle next := by
  unfold prototype? Descends
  split
  · next object hget => simp [hget]
  · next hother => exact iff_of_false nofun fun ⟨object, hget, _⟩ ↦ hother object hget

theorem contains_of_prototype? (h : heap.prototype? handle = some next) : heap.contains handle := by
  obtain ⟨object, hget, -⟩ := prototype?_eq_some_iff.1 h
  exact contains_iff.2 ⟨_, hget⟩

/-! ## Along a chain -/

theorem ancestor?_add (handle : Handle) (first second : Nat) :
    heap.ancestor? handle (first + second) =
      (heap.ancestor? handle first).bind fun middle ↦ heap.ancestor? middle second := by
  induction second with
  | zero => simp [ancestor?]
  | succ second ih =>
    rw [← Nat.add_assoc, ancestor?, ih, Option.bind_assoc]
    rfl

/-- The first step may be taken on its own. -/
theorem ancestor?_succ (handle : Handle) (steps : Nat) :
    heap.ancestor? handle (steps + 1) =
      (heap.prototype? handle).bind fun next ↦ heap.ancestor? next steps := by
  rw [Nat.add_comm, ancestor?_add]
  simp [ancestor?]

/-- A chain has no gaps. -/
theorem exists_ancestor? (h : heap.ancestor? handle steps = some last) {fewer : Nat}
    (hle : fewer ≤ steps) : ∃ passed, heap.ancestor? handle fewer = some passed := by
  obtain ⟨rest, rfl⟩ := Nat.exists_eq_add_of_le hle
  rw [ancestor?_add, Option.bind_eq_some_iff] at h
  obtain ⟨passed, hpassed, -⟩ := h
  exact ⟨passed, hpassed⟩

/-- What a chain passes is alive. -/
theorem contains_of_ancestor? (h : heap.ancestor? handle steps = some last) {fewer : Nat}
    (hlt : fewer < steps) {passed : Handle} (hpassed : heap.ancestor? handle fewer = some passed) :
    heap.contains passed := by
  obtain ⟨after, hafter⟩ := exists_ancestor? h (Nat.succ_le_of_lt hlt)
  rw [ancestor?, hpassed, Option.bind_some] at hafter
  exact contains_of_prototype? hafter

/-- A chain that arrives where it never was before has not been anywhere twice: from a place where
it had been before it would have gone on as it did then, and have arrived earlier. -/
theorem ancestor?_ne_of_lt (h : heap.ancestor? handle steps = some last)
    (hfirst : ∀ fewer < steps, heap.ancestor? handle fewer ≠ some last) {i j : Nat} (hij : i < j)
    (hj : j ≤ steps) : heap.ancestor? handle i ≠ heap.ancestor? handle j := by
  intro hsame
  obtain ⟨rest, rfl⟩ := Nat.exists_eq_add_of_le hj
  refine hfirst (i + rest) (by omega) ?_
  rw [ancestor?_add, hsame, ← ancestor?_add, h]

/-! ## How long a chain can be -/

/-- Distinct living objects are counted one by one. -/
theorem le_live_of_distinct (counted : heap.live = heap.slots.toList.countP (·.object.isSome))
    {count : Nat} (member : Nat → Handle) (halive : ∀ i < count, heap.contains (member i))
    (hdistinct : ∀ i < count, ∀ j < count, member i = member j → i = j) : count ≤ heap.live := by
  let occupied := (heap.slots.toList.zipIdx.filter (·.1.object.isSome)).map Prod.snd
  have hlength : occupied.length = heap.live := by
    rw [List.length_map, length_filter_zipIdx (·.object.isSome), counted]
  have hplace : ∀ i < count, (member i).index.toNat ∈ occupied := by
    intro i hi
    obtain ⟨slot, hslot, -, hsome⟩ := contains_iff_exists_slot.1 (halive i hi)
    refine List.mem_map.2 ⟨(slot, _), List.mem_filter.2 ⟨?_, hsome⟩, rfl⟩
    rwa [List.mem_zipIdx_iff_getElem?, Array.getElem?_toList]
  calc
    count = (Finset.range count).card := (Finset.card_range count).symm
    _ ≤ occupied.toFinset.card := by
      refine Finset.card_le_card_of_injOn (fun i ↦ (member i).index.toNat) ?_ ?_
      · intro i hi
        exact List.mem_toFinset.2 (hplace i (Finset.mem_range.1 hi))
      · intro i hi j hj hindex
        have hi := Finset.mem_range.1 hi
        have hj := Finset.mem_range.1 hj
        exact hdistinct i hi j hj (eq_of_index_eq (halive j hj) (halive i hi) hindex)
    _ ≤ occupied.length := List.toFinset_card_le occupied
    _ = heap.live := hlength

/-- A chain that arrives where it never was before has at most as many living objects on it as
there are. -/
theorem le_live_of_ancestor? (counted : heap.live = heap.slots.toList.countP (·.object.isSome))
    (h : heap.ancestor? handle steps = some last)
    (hfirst : ∀ fewer < steps, heap.ancestor? handle fewer ≠ some last) {count : Nat}
    (hcount : count ≤ steps + 1)
    (halive : ∀ i < count, ∀ passed, heap.ancestor? handle i = some passed → heap.contains passed) :
    count ≤ heap.live := by
  have hmember (i : Nat) (hi : i < count) :
      heap.ancestor? handle i = some ((heap.ancestor? handle i).getD handle) := by
    obtain ⟨passed, hpassed⟩ := exists_ancestor? h (show i ≤ steps by omega)
    rw [hpassed, Option.getD_some]
  refine le_live_of_distinct counted (fun i ↦ (heap.ancestor? handle i).getD handle)
    (fun i hi ↦ halive i hi _ (hmember i hi)) fun i hi j hj hsame ↦ ?_
  have hplaces : heap.ancestor? handle i = heap.ancestor? handle j := by
    rw [hmember i hi, hmember j hj]
    exact congrArg some hsame
  rcases Nat.lt_trichotomy i j with hlt | heq | hgt
  · exact absurd hplaces (ancestor?_ne_of_lt h hfirst hlt (by omega))
  · exact heq
  · exact absurd hplaces.symm (ancestor?_ne_of_lt h hfirst hgt (by omega))

end RegisterMachine.Heap

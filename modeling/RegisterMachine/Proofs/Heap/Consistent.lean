import Mathlib.Data.List.Nodup
import RegisterMachine.Proofs.Heap.Collection

/-!
# Heaps whose parts agree

A heap keeps the same facts in several places: in its slots, in the list of free slots and in the
count of living objects. It is consistent when they agree: no slot has a mark, the living objects
are counted, and the list names every empty slot exactly once and no other. Allocating, replacing,
freeing and collecting keep a heap consistent. The first three change a single slot, so they are
instances of one lemma, but for the allocation that adds a slot.
-/

namespace RegisterMachine.Heap

/-- A slot of the table is empty. -/
def Vacant (slots : Array Slot) (index : Nat) : Prop :=
  ∃ slot, slots[index]? = some slot ∧ slot.object = none

/-- The parts of a heap agree. -/
structure Consistent (heap : Heap) : Prop extends heap.WellFormed where
  size_le : heap.slots.size ≤ 2 ^ 32
  free_nodup : heap.free.Nodup
  mem_free_iff : ∀ index : UInt32, index ∈ heap.free ↔ Vacant heap.slots index.toNat

variable {heap later : Heap} {handle : Handle} {object : HeapObject} {roots : List Value}
  {slots : Array Slot} {slot : Slot}

theorem consistent_empty (limit : Option Nat) : Consistent { limit } where
  unmarked := by simp
  live_eq := rfl
  size_le := by simp
  free_nodup := List.nodup_nil
  mem_free_iff := by simp [Vacant]

/-! ## One slot changes -/

theorem modify_eq_setIfInBounds {index : Nat} (hslot : slots[index]? = some slot)
    (change : Slot → Slot) :
    slots.modify index change = slots.setIfInBounds index (change slot) := by
  obtain ⟨hlt, -⟩ := Array.getElem?_eq_some_iff.1 hslot
  refine Array.ext_getElem? fun other ↦ ?_
  rw [Array.getElem?_modify, Array.getElem?_setIfInBounds, if_pos hlt]
  split
  · next hother => rw [← hother, hslot, Option.map_some]
  · rfl

theorem vacant_setIfInBounds_iff {index : Nat} (hslot : slots[index]? = some slot) (new : Slot)
    (other : Nat) : Vacant (slots.setIfInBounds index new) other ↔
      if other = index then new.object = none else Vacant slots other := by
  obtain ⟨hlt, -⟩ := Array.getElem?_eq_some_iff.1 hslot
  unfold Vacant
  rw [Array.getElem?_setIfInBounds, if_pos hlt]
  split
  · next hother => simp [← hother]
  · next hother => rw [if_neg (Ne.symm hother)]

theorem vacant_push_iff (hslot : slot.object.isSome = true) (other : Nat) :
    Vacant (slots.push slot) other ↔ Vacant slots other := by
  unfold Vacant
  rw [Array.getElem?_push]
  split
  · next hother =>
    have hnone : slots[other]? = none := Array.getElem?_eq_none (Nat.le_of_eq hother.symm)
    rw [hnone]
    simpa using Option.isSome_iff_ne_none.1 hslot
  · rfl

/-- A change to one slot is counted by what becomes of its object. -/
theorem countP_setIfInBounds {index : Nat} (hslot : slots[index]? = some slot) (new : Slot) :
    (slots.setIfInBounds index new).toList.countP (·.object.isSome) + slot.object.isSome.toNat =
      slots.toList.countP (·.object.isSome) + new.object.isSome.toNat := by
  obtain ⟨hlt, rfl⟩ := Array.getElem?_eq_some_iff.1 hslot
  have hlen : index < slots.toList.length := by simpa using hlt
  have hcount := List.countP_set (p := fun slot : Slot ↦ slot.object.isSome) hlen (a := new)
  rw [Array.toList_setIfInBounds, hcount, Array.getElem_toList]
  cases hold : slots[index].object.isSome with
  | false => cases new.object.isSome <;> simp
  | true =>
    have hpos : 0 < slots.toList.countP (·.object.isSome) :=
      List.countP_pos_iff.2 ⟨slots[index], by simp, hold⟩
    cases new.object.isSome <;> simp only [Bool.toNat_true, Bool.toNat_false, if_true,
      Bool.false_eq_true, if_false] <;> omega

/-- The parts of a heap still agree when a slot has changed, the count follows its object, and the
list of free slots names it exactly if it is empty now. -/
theorem Consistent.replace (consistent : heap.Consistent) {index : UInt32} (new : Slot)
    (hslot : heap.slots[index.toNat]? = some slot)
    (hslots : later.slots = heap.slots.setIfInBounds index.toNat new)
    (hmarked : new.marked = false)
    (hlive : later.live + slot.object.isSome.toNat = heap.live + new.object.isSome.toNat)
    (hnodup : later.free.Nodup)
    (hfree : ∀ other, other ∈ later.free ↔
      if other = index then new.object = none else other ∈ heap.free) : later.Consistent := by
  constructor
  · constructor
    case unmarked =>
      intro found hfound
      rw [hslots] at hfound
      rcases Array.mem_or_eq_of_mem_setIfInBounds hfound with hold | rfl
      · exact consistent.unmarked found hold
      · exact hmarked
    case live_eq =>
      have hcount := countP_setIfInBounds hslot new
      rw [← hslots, ← consistent.live_eq] at hcount
      omega
  case size_le => simpa [hslots] using consistent.size_le
  case free_nodup => exact hnodup
  case mem_free_iff =>
    intro other
    rw [hfree, hslots, vacant_setIfInBounds_iff hslot, consistent.mem_free_iff]
    simp only [UInt32.toNat_inj]

/-! ## Allocation -/

/-- The slot that was freed last is used again, under the generation that it has. -/
theorem Consistent.store_of_free (consistent : heap.Consistent) {index : UInt32}
    {free : List UInt32} (hfree : heap.free = index :: free) (object : HeapObject) :
    ∃ slot, heap.slots[index.toNat]? = some slot ∧ slot.object = none ∧
      heap.store object = .ok (⟨index, slot.generation⟩, grown { heap with
        slots := heap.slots.setIfInBounds index.toNat { slot with object := some object }
        free }) := by
  obtain ⟨slot, hslot, hvacant⟩ := (consistent.mem_free_iff index).1 (by simp [hfree])
  have hmarked := consistent.unmarked slot (Array.mem_of_getElem? hslot)
  refine ⟨slot, hslot, hvacant, ?_⟩
  simp only [store, hfree, modify_eq_setIfInBounds hslot, hslot, hmarked, Option.map_some,
    Option.getD_some]

/-- Where no slot is free, one is added as long as there is a number for it. -/
theorem store_of_nil (hfree : heap.free = []) (object : HeapObject) :
    heap.store object =
      if heap.slots.size < 2 ^ 32 then
        .ok (⟨UInt32.ofNat heap.slots.size, 0⟩,
          grown { heap with slots := heap.slots.push { object := some object } })
      else .error .allocationFailed := by
  unfold store
  split
  · next heq => simp [hfree] at heq
  · rfl

/-- What an allocation does to the slots: one that was empty, or is new, holds the object under the
generation that it had; all others stay as they are. -/
structure Issues (heap : Heap) (object : HeapObject) (handle : Handle) (later : Heap) : Prop where
  slot_eq : later.slots[handle.index.toNat]? =
    some { generation := handle.generation, object := some object }
  other_eq : ∀ index, index ≠ handle.index.toNat → later.slots[index]? = heap.slots[index]?
  was_vacant : ∀ slot, heap.slots[handle.index.toNat]? = some slot →
    slot = { generation := handle.generation, object := none }

theorem store_of_alloc {made : Handle × Heap} (h : heap.alloc object = .ok made) :
    heap.store object = .ok made := by
  unfold alloc at h
  split at h
  · split at h
    · cases h
    · exact h
  · exact h

/-- A new slot is added at the end. -/
theorem Consistent.push (consistent : heap.Consistent) (hsize : heap.slots.size < 2 ^ 32)
    (object : HeapObject) :
    (grown { heap with slots := heap.slots.push { object := some object } }).Consistent := by
  constructor
  · constructor
    case unmarked =>
      intro found hfound
      rcases Array.mem_push.1 hfound with hold | rfl
      · exact consistent.unmarked found hold
      · rfl
    case live_eq => simp [grown, consistent.live_eq]
  case size_le => simpa [grown] using Nat.succ_le_of_lt hsize
  case free_nodup => exact consistent.free_nodup
  case mem_free_iff =>
    intro index
    exact (consistent.mem_free_iff index).trans (vacant_push_iff rfl _).symm

theorem Consistent.alloc (consistent : heap.Consistent)
    (h : heap.alloc object = .ok (handle, later)) :
    later.Consistent ∧ heap.Issues object handle later := by
  have hstore := store_of_alloc h
  cases hfree : heap.free with
  | cons index free =>
    obtain ⟨slot, hslot, hvacant, hreuse⟩ := consistent.store_of_free hfree object
    obtain ⟨hlt, -⟩ := Array.getElem?_eq_some_iff.1 hslot
    have hmarked := consistent.unmarked slot (Array.mem_of_getElem? hslot)
    have hnodup := consistent.free_nodup
    rw [hfree, List.nodup_cons] at hnodup
    obtain ⟨rfl, rfl⟩ := Prod.mk.inj (Except.ok.inj (hreuse.symm.trans hstore))
    constructor
    · apply consistent.replace { slot with object := some object } hslot rfl hmarked
      · simp [grown, hvacant]
      · exact hnodup.2
      · intro other
        split
        · next hother => simpa [hother, grown] using hnodup.1
        · next hother => simp [grown, hfree, hother]
    · constructor
      · simp [grown, hlt, hmarked]
      · exact fun other hother ↦ Array.getElem?_setIfInBounds_ne hother.symm
      · intro found hfound
        obtain rfl : slot = found := Option.some.inj (hslot.symm.trans hfound)
        rw [← hvacant, ← hmarked]
  | nil =>
    rw [store_of_nil hfree] at hstore
    split at hstore
    · next hsize =>
      have hindex : (UInt32.ofNat heap.slots.size).toNat = heap.slots.size :=
        UInt32.toNat_ofNat_of_lt' hsize
      cases hstore
      refine ⟨consistent.push hsize object, ?_⟩
      constructor
      · rw [hindex]
        exact Array.getElem?_push_size
      · intro other hother
        rw [hindex] at hother
        simp only [grown, Array.getElem?_push, if_neg hother]
      · intro found hfound
        rw [hindex, Array.getElem?_eq_none (Nat.le_refl _)] at hfound
        cases hfound
    · cases hstore

/-! ## Replacing and freeing -/

/-- The slot of a living object is not among the free ones. -/
theorem Consistent.index_not_mem_free (consistent : heap.Consistent)
    (hget : heap.get handle = .ok object) : handle.index ∉ heap.free := by
  obtain ⟨slot, hslot, -, hobject⟩ := get_eq_ok_iff.1 hget
  rw [consistent.mem_free_iff]
  rintro ⟨found, hfound, hnone⟩
  rw [hslot, Option.some.injEq] at hfound
  simp [← hfound, hobject] at hnone

/-- A living object is counted. -/
theorem Consistent.live_pos (consistent : heap.Consistent) (hget : heap.get handle = .ok object) :
    0 < heap.live := by
  obtain ⟨slot, hslot, -, hobject⟩ := get_eq_ok_iff.1 hget
  have hmem : slot ∈ heap.slots.toList := Array.mem_toList_iff.2 (Array.mem_of_getElem? hslot)
  rw [consistent.live_eq]
  exact List.countP_pos_iff.2 ⟨slot, hmem, by simp [hobject]⟩

/-- Another object in the place of one that lives. -/
theorem Consistent.put (consistent : heap.Consistent) (hget : heap.get handle = .ok object)
    (new : HeapObject) :
    (heap.put handle new).Consistent ∧ ∃ slot, heap.slots[handle.index.toNat]? = some slot ∧
      slot.generation = handle.generation ∧ slot.object = some object ∧
      (heap.put handle new).slots =
        heap.slots.setIfInBounds handle.index.toNat { slot with object := some new } := by
  obtain ⟨slot, hslot, hgeneration, hobject⟩ := get_eq_ok_iff.1 hget
  have hslots := modify_eq_setIfInBounds hslot fun slot ↦ { slot with object := some new }
  refine ⟨?_, slot, hslot, hgeneration, hobject, hslots⟩
  apply consistent.replace _ hslot hslots
  · exact consistent.unmarked slot (Array.mem_of_getElem? hslot)
  · simp [Heap.put, hobject]
  · exact consistent.free_nodup
  · intro other
    split
    · next hother => simpa [Heap.put, hother] using consistent.index_not_mem_free hget
    · rfl

theorem Consistent.release (consistent : heap.Consistent)
    (h : heap.release handle = .ok (object, later)) :
    later.Consistent ∧ ∃ slot, heap.slots[handle.index.toNat]? = some slot ∧
      slot.generation = handle.generation ∧ slot.object = some object ∧
      later.slots = heap.slots.setIfInBounds handle.index.toNat slot.released := by
  unfold Heap.release at h
  cases hget : heap.get handle with
  | error cause =>
    rw [hget] at h
    cases h
  | ok found =>
    rw [hget] at h
    cases h
    obtain ⟨slot, hslot, hgeneration, hobject⟩ := get_eq_ok_iff.1 hget
    have hslots := modify_eq_setIfInBounds hslot Slot.released
    refine ⟨?_, slot, hslot, hgeneration, hobject, hslots⟩
    apply consistent.replace _ hslot hslots
    · exact consistent.unmarked slot (Array.mem_of_getElem? hslot)
    · have hpos := consistent.live_pos hget
      simp only [Slot.released, hobject, Option.isSome_some, Option.isSome_none, Bool.toNat_true,
        Bool.toNat_false]
      omega
    · exact List.nodup_cons.2 ⟨consistent.index_not_mem_free hget, consistent.free_nodup⟩
    · intro other
      split
      · next hother => simp [hother, Slot.released]
      · next hother => simp [hother]

/-! ## Collection -/

theorem mem_garbage_iff (hsize : slots.size ≤ 2 ^ 32) (index : UInt32) :
    index ∈ garbage slots ↔ ∃ slot, slots[index.toNat]? = some slot ∧ isGarbage slot := by
  constructor
  · intro hmem
    obtain ⟨⟨slot, place⟩, hentry, rfl⟩ := List.mem_map.1 hmem
    obtain ⟨hplace, hgarbage⟩ := List.mem_filter.1 hentry
    rw [List.mem_zipIdx_iff_getElem?, Array.getElem?_toList] at hplace
    have hlt := (Array.getElem?_eq_some_iff.1 hplace).1
    refine ⟨slot, ?_, hgarbage⟩
    rwa [UInt32.toNat_ofNat_of_lt' (Nat.lt_of_lt_of_le hlt hsize)]
  · rintro ⟨slot, hslot, hgarbage⟩
    have hmem := mem_garbage hslot hgarbage
    rwa [UInt32.ofNat_toNat] at hmem

theorem nodup_garbage (hsize : slots.size ≤ 2 ^ 32) : (garbage slots).Nodup := by
  have hplaces : (slots.toList.zipIdx.map Prod.snd).Nodup := by
    rw [List.zipIdx_map_snd]
    exact List.nodup_range'
  have hlt {entry : Slot × Nat} (hentry : entry ∈ slots.toList.zipIdx.filter (isGarbage ·.1)) :
      entry.2 < UInt32.size := by
    have hmem := (List.mem_filter.1 hentry).1
    rw [List.mem_zipIdx_iff_getElem?, Array.getElem?_toList] at hmem
    exact Nat.lt_of_lt_of_le (Array.getElem?_eq_some_iff.1 hmem).1 hsize
  refine List.Nodup.map_on ?_ ((List.Nodup.of_map _ hplaces).filter _)
  intro first hfirst second hsecond heq
  have hsame : first.2 = second.2 := by
    have := congrArg UInt32.toNat heq
    rwa [UInt32.toNat_ofNat_of_lt' (hlt hfirst), UInt32.toNat_ofNat_of_lt' (hlt hsecond)] at this
  exact List.inj_on_of_nodup_map hplaces (List.mem_filter.1 hfirst).1 (List.mem_filter.1 hsecond).1
    hsame

/-- A collection empties the slots that it sweeps, and fills none. -/
theorem vacant_swept_iff (index : Nat) : Vacant (slots.map swept) index ↔
    (∃ slot, slots[index]? = some slot ∧ isGarbage slot) ∨ Vacant (slots.map cleared) index := by
  unfold Vacant
  rw [Array.getElem?_map, Array.getElem?_map]
  cases slots[index]? with
  | none => simp
  | some slot =>
    by_cases hgarbage : isGarbage slot
    · simp [swept_of_isGarbage hgarbage, hgarbage]
    · simp [swept_of_not_isGarbage hgarbage, hgarbage]

theorem Consistent.collect (consistent : heap.Consistent) (roots : List Value) :
    (heap.collect roots).2.Consistent := by
  have marking := consistent.marking roots
  have hsize : (mark heap.slots (roots.filterMap Value.handle?)).size ≤ 2 ^ 32 := by
    have hsame := congrArg Array.size marking.slots_eq
    rw [Array.size_map] at hsame
    exact hsame ▸ consistent.size_le
  constructor
  · exact consistent.toWellFormed.collect roots
  case size_le => simpa [Heap.collect] using hsize
  case free_nodup =>
    refine List.nodup_append.2 ⟨List.nodup_reverse.2 (nodup_garbage hsize),
      consistent.free_nodup, fun index hfreed other hfree hsame ↦ ?_⟩
    -- A slot that is swept was occupied, so it was not among the free ones.
    rw [List.mem_reverse, mem_garbage_iff hsize] at hfreed
    rw [← hsame, consistent.mem_free_iff] at hfree
    obtain ⟨slot, hslot, hgarbage⟩ := hfreed
    obtain ⟨found, hfound, hnone⟩ := hfree
    rw [marking.getElem?_eq, hslot, Option.map_some, Option.some.injEq] at hfound
    have hsome := ((marking.isGarbage_iff hslot).1 hgarbage).1
    have hempty : slot.object = none := by rwa [← hfound] at hnone
    simp [hempty] at hsome
  case mem_free_iff =>
    intro index
    change index ∈ (garbage _).reverse ++ heap.free ↔ Vacant (Array.map swept _) _
    rw [List.mem_append, List.mem_reverse, mem_garbage_iff hsize, consistent.mem_free_iff,
      vacant_swept_iff, marking.slots_eq]

end RegisterMachine.Heap

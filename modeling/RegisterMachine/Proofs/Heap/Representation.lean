import Mathlib.Data.List.Induction
import Mathlib.Order.Bounds.Basic
import RegisterMachine.Proofs.Heap.History
import RegisterMachine.Proofs.InPlace.Native
import RegisterMachine.Proofs.Limits.Relaxed

/-!
# The heap keeps its books

A heap that goes through any operations in place, whether they succeed or fail, keeps what it stores
twice in agreement: the count of living objects, the list of free slots and the marks agree with the
slots, the count stays within the limit, and the peak is the largest count so far. Operations are
given here as work in place, store by store, so that one that fails might have left something
behind; that it has not is part of the result.
-/

namespace RegisterMachine

namespace InPlace

open Work

/-! ## Operations in place -/

/-- Frees an object. The object is taken out of its slot before it is known to be there. -/
def release (handle : Handle) : Work Heap HeapError HeapObject := do
  match ← get fun heap ↦ heap.slot? handle with
  | none => fail (.danglingReference handle)
  | some slot =>
    change fun heap ↦ { heap with
      slots := heap.slots.modify handle.index.toNat fun slot ↦ { slot with object := none } }
    match slot.object with
    | none => fail (.danglingReference handle)
    | some object =>
      change fun heap ↦ { heap with
        slots := heap.slots.modify handle.index.toNat fun slot ↦
          { slot with generation := slot.generation + 1 } }
      change fun heap ↦ { heap with free := handle.index :: heap.free }
      change fun heap ↦ { heap with live := heap.live - 1 }
      return object

/-- To take the object out of a slot that is empty changes nothing. -/
theorem modify_of_vacant {slots : Array Slot} {index : Nat} {slot : Slot}
    (hslot : slots[index]? = some slot) (hvacant : slot.object = none) :
    slots.modify index (fun slot ↦ { slot with object := none }) = slots := by
  apply Array.ext_getElem?
  intro other
  rw [Array.getElem?_modify]
  split
  · next hother =>
    rw [← hother, hslot, Option.map_some, ← hvacant]
  · rfl

theorem release_realizes (handle : Handle) (heap : Heap) :
    (release handle).Realizes (fun freed ↦ (.ok freed.1, freed.2)) heap (heap.release handle) := by
  unfold Realizes release Heap.release
  cases hfound : heap.slot? handle with
  | none =>
    have hget : heap.get handle = .error (.danglingReference handle) := by
      rw [Heap.get, hfound, Option.bind_none]
    simp only [on_bind, on_get, on_fail, hfound, hget]
    rfl
  | some slot =>
    have hslot : heap.slots[handle.index.toNat]? = some slot :=
      (Option.filter_eq_some_iff.1 hfound).1
    cases hobject : slot.object with
    | none =>
      have hget : heap.get handle = .error (.danglingReference handle) := by
        rw [Heap.get, hfound, Option.bind_some, hobject]
      simp only [on_bind, on_get, on_fail, on_change, hfound, hobject, hget,
        modify_of_vacant hslot hobject]
      rfl
    | some object =>
      have hget : heap.get handle = .ok object := by
        rw [Heap.get, hfound, Option.bind_some, hobject]
      simp only [on_bind, on_get, on_change, on_pure, hfound, hobject, hget, modify_modify]
      rfl

/-- Changes the object of a reference. -/
def edit (handle : Handle) (update : HeapObject → HeapObject) : Work Heap HeapError Unit := do
  let object ← look fun heap ↦ heap.get handle
  change fun heap ↦ heap.put handle (update object)

theorem edit_realizes (handle : Handle) (update : HeapObject → HeapObject) (heap : Heap) :
    (edit handle update).Realizes (fun later ↦ (.ok (), later)) heap (heap.edit handle update) :=
  .look fun _ ↦ rfl

/-- Frees what cannot be reached, and says how much. -/
def collect (roots : List Value) : Work Heap HeapError Nat := do
  let (count, later) ← get fun heap ↦ heap.collect roots
  change fun _ ↦ later
  return count

/-- An operation on the heap, of which only the state that it leaves matters. -/
def operate : Heap.Operation → Work Heap HeapError Unit
  | .alloc object => do let _ ← allocate object
  | .get handle => do let _ ← look fun heap ↦ heap.get handle
  | .edit handle update => edit handle update
  | .release handle => do let _ ← release handle
  | .collect roots => do let _ ← collect roots

/-- What a heap has become after operations in place, of which some may have failed. -/
def undergo (heap : Heap) (operations : List Heap.Operation) : Heap :=
  operations.foldl (fun heap operation ↦ ((operate operation).on heap).2) heap

theorem operate_snd (heap : Heap) (operation : Heap.Operation) :
    ((operate operation).on heap).2 = heap.perform operation := by
  cases operation with
  | alloc object =>
    rw [operate, ((allocate_realizes object heap).discard : _ = _), Heap.perform]
    cases heap.alloc object <;> rfl
  | get handle =>
    rw [operate, on_bind, on_look, Heap.perform]
    cases heap.get handle <;> rfl
  | edit handle update =>
    rw [operate, (edit_realizes handle update heap : _ = _), Heap.perform]
    cases heap.edit handle update <;> rfl
  | release handle =>
    rw [operate, ((release_realizes handle heap).discard : _ = _), Heap.perform]
    cases heap.release handle <;> rfl
  | collect roots => rfl

theorem undergo_concat (heap : Heap) (operations : List Heap.Operation)
    (operation : Heap.Operation) :
    undergo heap (operations ++ [operation]) = (undergo heap operations).perform operation := by
  rw [← operate_snd, undergo, List.foldl_append]
  rfl

end InPlace

namespace Heap

variable {heap later : Heap} {handle : Handle} {operation : Operation} {object : HeapObject}

/-! ## Limit and peak -/

/-- The count of living objects does not pass the limit, and the peak covers it. -/
structure Bounded (heap : Heap) : Prop where
  live_le_limit : ∀ limit, heap.limit = some limit → heap.live ≤ limit
  live_le_peak : heap.live ≤ heap.stats.peakLive

/-- What an operation makes of limit and peak: it keeps the one and raises the other to the count
that it leaves. -/
structure Records (heap later : Heap) : Prop where
  bounded : later.Bounded
  limit_eq : later.limit = heap.limit
  peak_eq : later.stats.peakLive = max heap.stats.peakLive later.live

/-- The count, limit and peak after an object is stored. -/
theorem count_of_store {made : Handle × Heap} (h : heap.store object = .ok made) :
    made.2.live = heap.live + 1 ∧ made.2.limit = heap.limit ∧
      made.2.stats.peakLive = max heap.stats.peakLive (heap.live + 1) := by
  unfold store at h
  split at h
  · cases h
    exact ⟨rfl, rfl, rfl⟩
  · split at h
    · cases h
      exact ⟨rfl, rfl, rfl⟩
    · cases h

theorem alloc_eq_limitExceeded_iff {limit : Nat} :
    heap.alloc object = .error (.limitExceeded limit) ↔
      heap.limit = some limit ∧ limit ≤ heap.live := by
  have hstore : heap.store object ≠ .error (.limitExceeded limit) := by
    unfold store
    split
    · simp
    · split <;> simp
  unfold alloc
  cases heap.limit with
  | none => simpa using hstore
  | some bound =>
    by_cases hfull : heap.live ≥ bound
    · simp only [if_pos hfull, Except.error.injEq, HeapError.limitExceeded.injEq,
        Option.some.injEq]
      constructor
      · rintro rfl
        exact ⟨rfl, hfull⟩
      · exact And.left
    · simp only [if_neg hfull, hstore, Option.some.injEq, false_iff]
      rintro ⟨rfl, hreached⟩
      exact hfull hreached

theorem live_of_release {freed : HeapObject × Heap} (consistent : heap.Consistent)
    (h : heap.release handle = .ok freed) :
    freed.2.live + 1 = heap.live ∧ freed.2.limit = heap.limit ∧ freed.2.stats = heap.stats := by
  unfold release at h
  cases hget : heap.get handle with
  | error cause =>
    rw [hget] at h
    cases h
  | ok found =>
    rw [hget] at h
    cases h
    exact ⟨Nat.sub_add_cancel (consistent.live_pos hget), rfl, rfl⟩

theorem Bounded.records_of_le (bounded : heap.Bounded) (hlive : later.live ≤ heap.live)
    (hlimit : later.limit = heap.limit) (hpeak : later.stats.peakLive = heap.stats.peakLive) :
    heap.Records later where
  bounded := {
    live_le_limit := fun limit h ↦
      Nat.le_trans hlive (bounded.live_le_limit limit (hlimit ▸ h))
    live_le_peak := hpeak ▸ Nat.le_trans hlive bounded.live_le_peak }
  limit_eq := hlimit
  peak_eq := by
    rw [hpeak, Nat.max_eq_left (Nat.le_trans hlive bounded.live_le_peak)]

theorem Bounded.perform (bounded : heap.Bounded) (consistent : heap.Consistent)
    (operation : Operation) : heap.Records (heap.perform operation) := by
  have hperforms := performs_perform heap operation
  generalize heap.perform operation = later at hperforms
  cases hperforms with
  | allocated halloc =>
    obtain ⟨hroom, hstore⟩ := alloc_eq_ok_iff.1 halloc
    obtain ⟨hlive, hlimit, hpeak⟩ := count_of_store hstore
    dsimp only at hlive hlimit hpeak
    refine ⟨⟨fun limit h ↦ ?_, ?_⟩, hlimit, ?_⟩
    · have hbelow := hroom limit (hlimit ▸ h)
      omega
    · omega
    · rw [hpeak, hlive]
  | full | read | unedited | unreleased => exact bounded.records_of_le (Nat.le_refl _) rfl rfl
  | edited hget => exact bounded.records_of_le (Nat.le_refl _) rfl rfl
  | released hrelease =>
    obtain ⟨hlive, hlimit, hstats⟩ := live_of_release consistent hrelease
    dsimp only at hlive hlimit hstats
    exact bounded.records_of_le (by omega) hlimit (by rw [hstats])
  | @collected roots =>
    have hlive := (consistent.live_collect roots).1
    exact bounded.records_of_le (by omega) rfl rfl

/-! ## Histories -/

/-- The counts of living objects that a history has seen, the first and the last included. -/
def seen (limit : Option Nat) (operations : List Operation) : Set Nat :=
  { count | ∃ before, before <+: operations ∧ (InPlace.undergo { limit } before).live = count }

theorem seen_concat (limit : Option Nat) (operations : List Operation) (operation : Operation) :
    seen limit (operations ++ [operation]) =
      insert (InPlace.undergo { limit } (operations ++ [operation])).live
        (seen limit operations) := by
  ext count
  simp only [seen, List.prefix_concat_iff, Set.mem_ofPred_eq, Set.mem_insert_iff]
  constructor
  · rintro ⟨before, rfl | hbefore, rfl⟩
    · exact .inl rfl
    · exact .inr ⟨before, hbefore, rfl⟩
  · rintro (rfl | ⟨before, hbefore, rfl⟩)
    · exact ⟨_, .inl rfl, rfl⟩
    · exact ⟨before, .inr hbefore, rfl⟩

theorem isGreatest_seen_nil (limit : Option Nat) : IsGreatest (seen limit []) 0 := by
  have hseen : seen limit [] = {0} := by
    ext count
    simp [seen, InPlace.undergo, eq_comm]
  rw [hseen]
  exact isGreatest_singleton

/-- What holds of a heap after any history, by induction on its last operation. -/
theorem undergo_invariant (limit : Option Nat) (operations : List Operation) :
    (InPlace.undergo { limit } operations).Consistent ∧
      (InPlace.undergo { limit } operations).Bounded ∧
      (InPlace.undergo { limit } operations).limit = limit ∧
      IsGreatest (seen limit operations)
        (InPlace.undergo { limit } operations).stats.peakLive := by
  induction operations using List.reverseRecOn with
  | nil =>
    exact ⟨consistent_empty limit, ⟨fun _ _ ↦ Nat.zero_le _, Nat.le_refl 0⟩, rfl,
      isGreatest_seen_nil limit⟩
  | append_singleton operations operation ih =>
    obtain ⟨consistent, bounded, hlimit, hpeak⟩ := ih
    have records := bounded.perform consistent operation
    rw [seen_concat, InPlace.undergo_concat, records.peak_eq, max_comm]
    exact ⟨consistent.perform operation, records.bounded, records.limit_eq.trans hlimit,
      hpeak.insert _⟩

/-- The free list names every empty slot, by its place in the table. -/
theorem Consistent.mem_free_toNat_iff (consistent : heap.Consistent) (index : Nat) :
    index ∈ heap.free.map UInt32.toNat ↔ Vacant heap.slots index := by
  constructor
  · intro hmem
    obtain ⟨entry, hentry, rfl⟩ := List.mem_map.1 hmem
    exact (consistent.mem_free_iff entry).1 hentry
  · intro vacant
    obtain ⟨slot, hslot, -⟩ := id vacant
    have hlt : index < heap.slots.size := (Array.getElem?_eq_some_iff.1 hslot).1
    have hindex : (UInt32.ofNat index).toNat = index :=
      UInt32.toNat_ofNat_of_lt' (Nat.lt_of_lt_of_le hlt consistent.size_le)
    refine List.mem_map.2 ⟨UInt32.ofNat index, ?_, hindex⟩
    rwa [consistent.mem_free_iff, hindex]

/-- The books of a heap, after a history of operations under a limit. -/
structure Accounted (limit : Option Nat) (operations : List Operation) (heap : Heap) : Prop where
  live_eq : heap.live = heap.slots.toList.countP (·.object.isSome)
  free_nodup : (heap.free.map UInt32.toNat).Nodup
  mem_free_iff : ∀ index, index ∈ heap.free.map UInt32.toNat ↔ Vacant heap.slots index
  unmarked : ∀ slot ∈ heap.slots, slot.marked = false
  live_le_limit : ∀ bound, limit = some bound → heap.live ≤ bound
  peak_greatest : IsGreatest (seen limit operations) heap.stats.peakLive
  alloc_exceeds_iff : ∀ object bound,
    (∃ later, (InPlace.allocate object).on heap = (.error (.limitExceeded bound), later)) ↔
      limit = some bound ∧ heap.live = bound
  failed_alloc_eq : ∀ object cause later,
    (InPlace.allocate object).on heap = (.error cause, later) → later = heap
  failed_release_eq : ∀ handle cause later,
    (InPlace.release handle).on heap = (.error cause, later) → later = heap
  free_lt_size : ∀ index ∈ heap.free, index.toNat < heap.slots.size
  /-- To count one object less does not pass zero. -/
  release_live : ∀ handle object later,
    (InPlace.release handle).on heap = (.ok object, later) → later.live + 1 = heap.live
  /-- Nor does it to count as many less as a collection frees. -/
  collect_live : ∀ roots, ∃ count later,
    (InPlace.collect roots).on heap = (.ok count, later) ∧ later.live + count = heap.live

/-- After any history of operations in place, successful or failed, the books of the heap are in
order. -/
theorem books_in_order (limit : Option Nat) (operations : List Operation) :
    Accounted limit operations (InPlace.undergo { limit } operations) := by
  obtain ⟨consistent, bounded, hlimit, hpeak⟩ := undergo_invariant limit operations
  generalize InPlace.undergo { limit } operations = heap at consistent bounded hlimit hpeak
  subst hlimit
  have hallocate (object : HeapObject) (cause : HeapError) (later : Heap) :
      (InPlace.allocate object).on heap = (.error cause, later) ↔
        heap.alloc object = .error cause ∧ later = heap :=
    Work.Realizes.on_eq_error_iff (InPlace.allocate_realizes object heap)
  constructor
  case live_eq => exact consistent.live_eq
  case free_nodup => exact consistent.free_nodup.map fun _ _ ↦ UInt32.toNat_inj.1
  case mem_free_iff => exact consistent.mem_free_toNat_iff
  case unmarked => exact consistent.unmarked
  case live_le_limit => exact bounded.live_le_limit
  case peak_greatest => exact hpeak
  case alloc_exceeds_iff =>
    intro object bound
    simp only [hallocate, alloc_eq_limitExceeded_iff, exists_and_left, exists_eq, and_true]
    refine and_congr_right fun hlimit ↦ ?_
    have hle := bounded.live_le_limit bound hlimit
    omega
  case failed_alloc_eq =>
    intro object cause later hfailed
    exact ((hallocate object cause later).1 hfailed).2
  case failed_release_eq =>
    intro handle cause later hfailed
    exact (Work.Realizes.on_eq_error_iff (InPlace.release_realizes handle heap) |>.1 hfailed).2
  case free_lt_size =>
    intro index hmem
    obtain ⟨slot, hslot, -⟩ := (consistent.mem_free_iff index).1 hmem
    exact (Array.getElem?_eq_some_iff.1 hslot).1
  case release_live =>
    intro handle object later hfreed
    have hrelease :=
      (Work.Realizes.on_eq_ok_iff (InPlace.release_realizes handle heap)).1 hfreed
    exact (live_of_release consistent hrelease).1
  case collect_live => exact fun roots ↦ ⟨_, _, rfl, (consistent.live_collect roots).1⟩

end Heap

end RegisterMachine

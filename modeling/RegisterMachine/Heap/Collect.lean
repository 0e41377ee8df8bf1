import RegisterMachine.Heap.Basic

/-!
# Collection

A collection marks every object that can be reached from the roots and frees the rest, in ascending
order of slots. Marking follows a list of references still to visit; it ends because every reference
is either dropped or marks a slot that was not marked.
-/

namespace RegisterMachine.Heap

/-! ## Marking -/

def unmarked (slots : Array Slot) : Nat :=
  slots.toList.countP fun slot => !slot.marked

def setMark (slots : Array Slot) (index : Nat) (slot : Slot) : Array Slot :=
  slots.setIfInBounds index { slot with marked := true }

/-- The occupied slot without a mark that a reference names. -/
def toVisit? (slots : Array Slot) (handle : Handle) : Option (Slot × HeapObject) :=
  match slots[handle.index.toNat]? with
  | some slot =>
    if slot.generation = handle.generation ∧ slot.marked = false then
      slot.object.map (slot, ·)
    else none
  | none => none

/-- What can be visited is a slot of the table without a mark. -/
theorem getElem?_of_toVisit? {slots : Array Slot} {handle : Handle} {visit : Slot × HeapObject}
    (h : toVisit? slots handle = some visit) :
    slots[handle.index.toNat]? = some visit.1 ∧ visit.1.marked = false := by
  unfold toVisit? at h
  split at h
  · next slot hslot =>
    split at h
    · next hfresh =>
      obtain ⟨object, _, rfl⟩ := Option.map_eq_some_iff.1 h
      exact ⟨hslot, hfresh.2⟩
    · simp at h
  · simp at h

/-- Marking a slot that has no mark leaves fewer without. -/
theorem unmarked_setMark_lt {slots : Array Slot} {index : Nat} {slot : Slot}
    (hslot : slots[index]? = some slot) (hfresh : slot.marked = false) :
    unmarked (setMark slots index slot) < unmarked slots := by
  obtain ⟨hlt, rfl⟩ := Array.getElem?_eq_some_iff.1 hslot
  have hlen : index < slots.toList.length := by simpa using hlt
  have hcount := List.countP_set (p := fun slot : Slot => !slot.marked) hlen
    (a := { slots[index] with marked := true })
  have hpos : 0 < slots.toList.countP fun slot => !slot.marked :=
    List.countP_pos_iff.2 ⟨slots[index], by simp, by simp [hfresh]⟩
  rw [Array.getElem_toList, hfresh] at hcount
  rw [unmarked, setMark, Array.toList_setIfInBounds, hcount]
  simp only [Bool.not_false, Bool.not_true, if_true, Bool.false_eq_true, if_false]
  exact Nat.sub_lt hpos Nat.one_pos

/-- Marks everything that can be reached from a list of references. -/
def mark (slots : Array Slot) (work : List Handle) : Array Slot :=
  match work with
  | [] => slots
  | handle :: rest =>
    match hvisit : toVisit? slots handle with
    | none => mark slots rest
    | some visit =>
      have := unmarked_setMark_lt (getElem?_of_toVisit? hvisit).1 (getElem?_of_toVisit? hvisit).2
      mark (setMark slots handle.index.toNat visit.1) (visit.2.references ++ rest)
termination_by (unmarked slots, work.length)

/-! ## Sweeping -/

def isGarbage (slot : Slot) : Bool :=
  slot.object.isSome && !slot.marked

def swept (slot : Slot) : Slot :=
  if isGarbage slot then Slot.released slot else { slot with marked := false }

/-- The slots that a sweep frees, in ascending order. -/
def garbage (slots : Array Slot) : List UInt32 :=
  (slots.toList.zipIdx.filter (isGarbage ·.1)).map fun entry => UInt32.ofNat entry.2

/-- Frees every object that cannot be reached from the roots, and says how many. -/
def collect (heap : Heap) (roots : List Value) : Nat × Heap :=
  let slots := mark heap.slots (roots.filterMap Value.handle?)
  let freed := garbage slots
  let count := freed.length
  (count,
    { heap with
      slots := slots.map swept
      free := freed.reverse ++ heap.free
      live := heap.live - count
      stats := { heap.stats with
        collections := heap.stats.collections + 1
        objectsFreed := heap.stats.objectsFreed + count } })

end RegisterMachine.Heap

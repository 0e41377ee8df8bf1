import RegisterMachine.Proofs.Heap.Consistent
import RegisterMachine.Proofs.Heap.Grounded

/-!
# Stale references are noticed

A heap goes through any sequence of operations. From the moment a reference is issued, two things
are followed: how often its slot is released, and its object as it is changed through the reference.
Every release advances the generation of the slot by one, modulo `2 ^ 32`, so as long as there were
fewer releases than that, the slot has the generation of the reference exactly if it was never
released. Until then the slot belongs to the reference alone, and afterwards the reference is
refused and never issued again.
-/

namespace RegisterMachine.Heap

/-! ## Operations -/

/-- Changes the object of a reference in place. -/
def edit (heap : Heap) (handle : Handle) (change : HeapObject → HeapObject) :
    Except HeapError Heap := do
  return heap.put handle (change (← heap.get handle))

/-- What can be asked of a heap. -/
inductive Operation where
  | alloc (object : HeapObject)
  | get (handle : Handle)
  | edit (handle : Handle) (change : HeapObject → HeapObject)
  | release (handle : Handle)
  | collect (roots : List Value)

/-- The heap that an operation leaves; one that fails changes nothing. -/
def perform (heap : Heap) : Operation → Heap
  | .alloc object =>
    match heap.alloc object with
    | .ok (_, later) => later
    | .error _ => heap
  | .get _ => heap
  | .edit handle change =>
    match heap.edit handle change with
    | .ok later => later
    | .error _ => heap
  | .release handle =>
    match heap.release handle with
    | .ok (_, later) => later
    | .error _ => heap
  | .collect roots => (heap.collect roots).2

/-- The heap after a sequence of operations. -/
def performAll (heap : Heap) (operations : List Operation) : Heap :=
  operations.foldl perform heap

/-- An operation releases a slot: it frees the object there through a reference that is not stale,
or it is a collection and the object there is not reachable. -/
def Operation.Releases (heap : Heap) (index : Nat) : Operation → Prop
  | .release handle => heap.contains handle ∧ handle.index.toNat = index
  | .collect roots => (heap.objectAt? index).isSome ∧ ¬ heap.Survives roots index
  | .alloc _ | .get _ | .edit _ _ => False

open Classical in
/-- How often a sequence of operations releases a slot. -/
noncomputable def releases (index : Nat) : Heap → List Operation → Nat
  | _, [] => 0
  | heap, operation :: rest =>
    (if operation.Releases heap index then 1 else 0) +
      releases index (heap.perform operation) rest

/-- The object of a reference after an operation, if only changes through that reference count. -/
def Operation.revise (handle : Handle) (object : HeapObject) : Operation → HeapObject
  | .edit target change => if target = handle then change object else object
  | .alloc _ | .get _ | .release _ | .collect _ => object

/-- The object of a reference as it was last changed through that reference. -/
def revised (handle : Handle) (object : HeapObject) (operations : List Operation) : HeapObject :=
  operations.foldl (Operation.revise handle) object

/-! ### What they come to -/

variable {heap later : Heap} {handle : Handle} {count : Nat} {object : HeapObject}

theorem get_eq_error (h : ¬ heap.contains handle) :
    heap.get handle = .error (.danglingReference handle) := by
  unfold contains at h
  unfold get
  cases hfound : (heap.slot? handle).bind (·.object) with
  | none => rfl
  | some object => simp [hfound] at h

theorem edit_eq_error (h : ¬ heap.contains handle) (change : HeapObject → HeapObject) :
    heap.edit handle change = .error (.danglingReference handle) := by
  rw [edit, get_eq_error h]
  rfl

theorem release_eq_error (h : ¬ heap.contains handle) :
    heap.release handle = .error (.danglingReference handle) := by
  rw [release, get_eq_error h]
  rfl

/-- The ways in which an operation can go. -/
inductive Performs (heap : Heap) : Operation → Heap → Prop
  | allocated {object : HeapObject} {made : Handle} {later : Heap} :
      heap.alloc object = .ok (made, later) → Performs heap (.alloc object) later
  | full {object : HeapObject} : Performs heap (.alloc object) heap
  | read {handle : Handle} : Performs heap (.get handle) heap
  | edited {handle : Handle} {object : HeapObject} {change : HeapObject → HeapObject} :
      heap.get handle = .ok object →
      Performs heap (.edit handle change) (heap.put handle (change object))
  | unedited {handle : Handle} {change : HeapObject → HeapObject} : ¬ heap.contains handle →
      Performs heap (.edit handle change) heap
  | released {handle : Handle} {object : HeapObject} {later : Heap} :
      heap.release handle = .ok (object, later) → Performs heap (.release handle) later
  | unreleased {handle : Handle} : ¬ heap.contains handle → Performs heap (.release handle) heap
  | collected {roots : List Value} : Performs heap (.collect roots) (heap.collect roots).2

theorem performs_perform (heap : Heap) (operation : Operation) :
    heap.Performs operation (heap.perform operation) := by
  cases operation with
  | alloc object =>
    cases halloc : heap.alloc object with
    | ok made =>
      simp only [perform, halloc]
      exact .allocated halloc
    | error cause =>
      simp only [perform, halloc]
      exact .full
  | get handle => exact .read
  | edit handle change =>
    by_cases hlive : heap.contains handle
    · obtain ⟨object, hget⟩ := contains_iff.1 hlive
      have hedit : heap.edit handle change = .ok (heap.put handle (change object)) := by
        rw [edit, hget]
        rfl
      simp only [perform, hedit]
      exact .edited hget
    · simp only [perform, edit_eq_error hlive]
      exact .unedited hlive
  | release handle =>
    by_cases hlive : heap.contains handle
    · obtain ⟨object, hget⟩ := contains_iff.1 hlive
      cases hrelease : heap.release handle with
      | ok freed =>
        simp only [perform, hrelease]
        exact .released hrelease
      | error cause =>
        rw [release, hget] at hrelease
        cases hrelease
    · simp only [perform, release_eq_error hlive]
      exact .unreleased hlive
  | collect roots => exact .collected

theorem Consistent.perform (consistent : heap.Consistent) (operation : Operation) :
    (heap.perform operation).Consistent := by
  have hperforms := performs_perform heap operation
  generalize heap.perform operation = later at hperforms
  cases hperforms with
  | allocated halloc => exact (consistent.alloc halloc).1
  | edited hget => exact (consistent.put hget _).1
  | released hrelease => exact (consistent.release hrelease).1
  | collected => exact consistent.collect _
  | full | read | unedited | unreleased => exact consistent

theorem Consistent.performAll (consistent : heap.Consistent) (operations : List Operation) :
    (heap.performAll operations).Consistent := by
  induction operations generalizing heap with
  | nil => exact consistent
  | cons operation rest ih => exact ih (consistent.perform operation)

/-! ## The slot of a reference -/

/-- The slot of a reference that was released so many times since the reference was issued. If it
never was, it holds the object of the reference. -/
def Tracks (heap : Heap) (handle : Handle) (count : Nat) (object : HeapObject) : Prop :=
  ∃ slot, heap.slots[handle.index.toNat]? = some slot ∧
    slot.generation = handle.generation + UInt32.ofNat count ∧
    (count = 0 → slot.object = some object)

theorem Issues.tracks (issues : heap.Issues object handle later) : later.Tracks handle 0 object :=
  ⟨_, issues.slot_eq, by simp, fun _ ↦ rfl⟩

namespace Tracks

variable (tracks : heap.Tracks handle count object)

include tracks

theorem get_of_unreleased (hcount : count = 0) : heap.get handle = .ok object := by
  obtain ⟨slot, hslot, hgeneration, hobject⟩ := tracks
  refine get_eq_ok_iff.2 ⟨slot, hslot, ?_, hobject hcount⟩
  rw [hgeneration, hcount]
  exact UInt32.add_zero _

/-- As long as the generation has not come round, it shows that the slot was released. -/
theorem generation_ne (hpos : 0 < count) (hlt : count < 2 ^ 32) {slot : Slot}
    (hslot : heap.slots[handle.index.toNat]? = some slot) :
    slot.generation ≠ handle.generation := by
  obtain ⟨found, hfound, hgeneration, -⟩ := tracks
  obtain rfl : found = slot := Option.some.inj (hfound.symm.trans hslot)
  intro hsame
  rw [hgeneration] at hsame
  have hzero : UInt32.ofNat count = 0 := by simpa using hsame
  have hcount := congrArg UInt32.toNat hzero
  rw [UInt32.toNat_ofNat_of_lt' hlt] at hcount
  exact absurd hcount (Nat.ne_of_gt hpos)

theorem not_contains (hpos : 0 < count) (hlt : count < 2 ^ 32) : ¬ heap.contains handle := by
  intro hlive
  obtain ⟨slot, hslot, hgeneration, -⟩ := contains_iff_exists_slot.1 hlive
  exact tracks.generation_ne hpos hlt hslot hgeneration

/-- An allocation finds an empty slot, so it does not issue a reference that is not released, nor
one whose generation has passed. -/
theorem ne_of_issues (hlt : count < 2 ^ 32) {other : HeapObject} {made : Handle}
    (issues : heap.Issues other made later) : made ≠ handle := by
  rintro rfl
  obtain ⟨slot, hslot, -, hobject⟩ := id tracks
  have hvacant := issues.was_vacant slot hslot
  rcases Nat.eq_zero_or_pos count with hzero | hpos
  · have hsome := hobject hzero
    rw [hvacant] at hsome
    cases hsome
  · exact tracks.generation_ne hpos hlt hslot (by rw [hvacant])

/-! ### What an operation does to it -/

theorem of_getElem?_eq (h : later.slots[handle.index.toNat]? = heap.slots[handle.index.toNat]?) :
    later.Tracks handle count object := by
  unfold Tracks
  rw [h]
  exact tracks

/-- The slot holds another object, under the same generation. -/
theorem replace {slot : Slot} {new : HeapObject}
    (hslot : heap.slots[handle.index.toNat]? = some slot)
    (hlater : later.slots[handle.index.toNat]? = some { slot with object := some new })
    {content : HeapObject} (hcontent : count = 0 → slot.object = some object → new = content) :
    later.Tracks handle count content := by
  obtain ⟨found, hfound, hgeneration, hobject⟩ := tracks
  obtain rfl : found = slot := Option.some.inj (hfound.symm.trans hslot)
  exact ⟨_, hlater, hgeneration, fun hzero ↦ congrArg some (hcontent hzero (hobject hzero))⟩

/-- The slot is released once more. -/
theorem release {slot : Slot} (hslot : heap.slots[handle.index.toNat]? = some slot)
    (hlater : later.slots[handle.index.toNat]? = some slot.released) (content : HeapObject) :
    later.Tracks handle (count + 1) content := by
  obtain ⟨found, hfound, hgeneration, -⟩ := tracks
  obtain rfl : found = slot := Option.some.inj (hfound.symm.trans hslot)
  refine ⟨_, hlater, ?_, fun hzero ↦ absurd hzero (Nat.succ_ne_zero count)⟩
  have hnext : UInt32.ofNat (count + 1) = UInt32.ofNat count + 1 := by simp
  rw [Slot.released, hgeneration, hnext, UInt32.add_assoc]

/-- Before the slot is released, only the reference itself names the object in it. -/
theorem eq_of_get {target : Handle} {found : HeapObject} (hcount : count = 0)
    (hget : heap.get target = .ok found) (hindex : handle.index.toNat = target.index.toNat) :
    target = handle ∧ found = object := by
  have hown := tracks.get_of_unreleased hcount
  obtain rfl : handle = target := eq_of_index_eq (contains_iff.2 ⟨_, hget⟩)
    (contains_iff.2 ⟨_, hown⟩) hindex
  exact ⟨rfl, Except.ok.inj (hget.symm.trans hown)⟩

theorem alloc {other : HeapObject} {made : Handle} (issues : heap.Issues other made later) :
    later.Tracks handle count object := by
  by_cases hindex : handle.index.toNat = made.index.toNat
  · obtain ⟨slot, hslot, -⟩ := id tracks
    have hvacant := issues.was_vacant slot (hindex ▸ hslot)
    apply tracks.replace hslot
    · rw [hindex, issues.slot_eq, hvacant]
    · intro _ hsome
      rw [hvacant] at hsome
      cases hsome
  · exact tracks.of_getElem?_eq (issues.other_eq _ hindex)

theorem edit (consistent : heap.Consistent) {target : Handle} {old : HeapObject}
    (hget : heap.get target = .ok old) (change : HeapObject → HeapObject) :
    (heap.put target (change old)).Tracks handle count
      ((Operation.edit target change).revise handle object) := by
  obtain ⟨-, slot, hslot, -, -, hslots⟩ := consistent.put hget (change old)
  by_cases hindex : handle.index.toNat = target.index.toNat
  · apply tracks.replace (hindex ▸ hslot)
    · rw [hslots, hindex, Array.getElem?_setIfInBounds_self_of_lt]
      exact (Array.getElem?_eq_some_iff.1 hslot).1
    · intro hzero _
      obtain ⟨rfl, rfl⟩ := tracks.eq_of_get hzero hget hindex
      simp [Operation.revise]
  · have hother : target ≠ handle := fun h ↦ hindex (by rw [h])
    simp only [Operation.revise, if_neg hother]
    apply tracks.of_getElem?_eq
    rw [hslots, Array.getElem?_setIfInBounds_ne (Ne.symm hindex)]

/-- A reference that is stale has been released, so it does not matter what is changed through
it. -/
theorem revise {target : Handle} (hstale : ¬ heap.contains target)
    (change : HeapObject → HeapObject) :
    heap.Tracks handle count ((Operation.edit target change).revise handle object) := by
  by_cases htarget : target = handle
  · obtain ⟨slot, hslot, hgeneration, -⟩ := id tracks
    refine ⟨slot, hslot, hgeneration, fun hzero ↦ absurd ?_ hstale⟩
    rw [htarget]
    exact contains_iff.2 ⟨object, tracks.get_of_unreleased hzero⟩
  · simpa only [Operation.revise, if_neg htarget] using tracks

open Classical in
theorem free (consistent : heap.Consistent) {target : Handle} {freed : HeapObject}
    (hrelease : heap.release target = .ok (freed, later)) :
    later.Tracks handle
      (count + if (Operation.release target).Releases heap handle.index.toNat then 1 else 0)
      object := by
  obtain ⟨-, slot, hslot, hgeneration, hfreed, hslots⟩ := consistent.release hrelease
  have hlive : heap.contains target :=
    contains_iff.2 ⟨freed, get_eq_ok_iff.2 ⟨slot, hslot, hgeneration, hfreed⟩⟩
  by_cases hindex : handle.index.toNat = target.index.toNat
  · rw [if_pos ⟨hlive, hindex.symm⟩]
    apply tracks.release (hindex ▸ hslot)
    rw [hslots, hindex, Array.getElem?_setIfInBounds_self_of_lt]
    exact (Array.getElem?_eq_some_iff.1 hslot).1
  · rw [if_neg fun h ↦ hindex h.2.symm]
    apply tracks.of_getElem?_eq
    rw [hslots, Array.getElem?_setIfInBounds_ne (Ne.symm hindex)]

open Classical in
theorem collect (consistent : heap.Consistent) (roots : List Value) :
    (heap.collect roots).2.Tracks handle
      (count + if (Operation.collect roots).Releases heap handle.index.toNat then 1 else 0)
      object := by
  obtain ⟨slot, hslot, -⟩ := id tracks
  have hobject : heap.objectAt? handle.index.toNat = slot.object := by
    rw [objectAt?, hslot, Option.bind_some]
  by_cases hgone : slot.object.isSome ∧ ¬ heap.Survives roots handle.index.toNat
  · have hfreed := (consistent.getElem?_of_freed hslot hgone.1 hgone.2).1
    have hmarked := consistent.unmarked slot (Array.mem_of_getElem? hslot)
    rw [if_pos (by rwa [Operation.Releases, hobject])]
    apply tracks.release hslot
    rw [hfreed, Slot.released, hmarked]
  · rw [if_neg (by rwa [Operation.Releases, hobject])]
    apply tracks.of_getElem?_eq
    rw [hslot]
    apply consistent.getElem?_of_kept hslot
    by_cases hsurvives : heap.Survives roots handle.index.toNat
    · exact .inr hsurvives
    · exact .inl (Option.not_isSome_iff_eq_none.1 fun hsome ↦ hgone ⟨hsome, hsurvives⟩)

open Classical in
theorem perform (consistent : heap.Consistent) (operation : Operation) :
    (heap.perform operation).Tracks handle
      (count + if operation.Releases heap handle.index.toNat then 1 else 0)
      (operation.revise handle object) := by
  have hperforms := performs_perform heap operation
  generalize heap.perform operation = later at hperforms
  cases hperforms with
  | full | read =>
    rw [if_neg (by simp [Operation.Releases])]
    exact tracks
  | allocated halloc =>
    rw [if_neg (by simp [Operation.Releases])]
    exact tracks.alloc (consistent.alloc halloc).2
  | edited hget =>
    rw [if_neg (by simp [Operation.Releases])]
    exact tracks.edit consistent hget _
  | unedited hstale =>
    rw [if_neg (by simp [Operation.Releases])]
    exact tracks.revise hstale _
  | released hrelease => exact tracks.free consistent hrelease
  | unreleased hstale =>
    rw [if_neg fun h ↦ hstale h.1]
    exact tracks
  | collected => exact tracks.collect consistent _

theorem performAll (consistent : heap.Consistent) (operations : List Operation) :
    (heap.performAll operations).Tracks handle
      (count + releases handle.index.toNat heap operations)
      (revised handle object operations) := by
  induction operations generalizing heap count object with
  | nil => exact tracks
  | cons operation rest ih =>
    have hrest := ih (tracks.perform consistent operation) (consistent.perform operation)
    rwa [Nat.add_assoc] at hrest

end Tracks

/-! ## Histories -/

/-- Whatever a heap goes through, a reference that was released is refused and is not issued again
until its slot has been released `2 ^ 32` times since it was issued; and until it is released, it
gives the object that was stored for it, as last changed through it. -/
theorem references_never_confused (limit : Option Nat) (before since : List Operation)
    (issued : (performAll { limit } before).alloc object = .ok (handle, later)) :
    (0 < releases handle.index.toNat later since →
      releases handle.index.toNat later since < 2 ^ 32 →
      (later.performAll since).get handle = .error (.danglingReference handle) ∧
        (∀ change, (later.performAll since).edit handle change =
          .error (.danglingReference handle)) ∧
        (later.performAll since).release handle = .error (.danglingReference handle)) ∧
      (releases handle.index.toNat later since < 2 ^ 32 →
        ∀ other made next, (later.performAll since).alloc other = .ok (made, next) →
          made ≠ handle) ∧
      (releases handle.index.toNat later since = 0 →
        (later.performAll since).get handle = .ok (revised handle object since)) := by
  have hbefore := (consistent_empty limit).performAll before
  obtain ⟨consistent, issues⟩ := hbefore.alloc issued
  have tracks := issues.tracks.performAll consistent since
  rw [Nat.zero_add] at tracks
  refine ⟨fun hpos hlt ↦ ?_, fun hlt other made next halloc ↦ ?_, tracks.get_of_unreleased⟩
  · have hstale := tracks.not_contains hpos hlt
    exact ⟨get_eq_error hstale, edit_eq_error hstale, release_eq_error hstale⟩
  · exact tracks.ne_of_issues hlt ((consistent.performAll since).alloc halloc).2

/-- A heap whose only slot is used for the second time. -/
def reused : Heap where
  slots := #[{ generation := 1, object := some (.str "second") }]
  live := 1
  stats := { peakLive := 1 }

/-- The object is changed, then collected, for nothing refers to it. -/
theorem references_never_confused_reused :
    (performAll {} [.alloc (.str "first"), .release ⟨0, 0⟩]).alloc (.str "second") =
        .ok (⟨0, 1⟩, reused) ∧
      releases 0 reused [.edit ⟨0, 1⟩ fun _ ↦ .str "third"] = 0 ∧
      (reused.performAll [.edit ⟨0, 1⟩ fun _ ↦ .str "third"]).get ⟨0, 1⟩ = .ok (.str "third") ∧
      releases 0 reused [.edit ⟨0, 1⟩ fun _ ↦ .str "third", .collect []] = 1 ∧
      (reused.performAll [.edit ⟨0, 1⟩ fun _ ↦ .str "third", .collect []]).get ⟨0, 1⟩ =
        .error (.danglingReference ⟨0, 1⟩) := by
  have issued : (performAll {} [.alloc (.str "first"), .release ⟨0, 0⟩]).alloc (.str "second") =
      .ok (⟨0, 1⟩, reused) := rfl
  have hunreachable (heap : Heap) : ¬ heap.Survives [] 0 := by
    rintro ⟨handle, reachable, -⟩
    induction reachable with
    | root hroot _ => exact List.not_mem_nil hroot
    | child _ _ _ _ ih => exact ih
  have hkept : releases 0 reused [.edit ⟨0, 1⟩ fun _ ↦ .str "third"] = 0 := by
    simp [releases, Operation.Releases]
  have hgone : releases 0 reused [.edit ⟨0, 1⟩ fun _ ↦ .str "third", .collect []] = 1 := by
    have hlive : ((reused.perform (.edit ⟨0, 1⟩ fun _ ↦ .str "third")).objectAt? 0).isSome := rfl
    simp [releases, Operation.Releases, hunreachable, hlive]
  have hbefore := references_never_confused none _ [.edit ⟨0, 1⟩ fun _ ↦ .str "third"] issued
  have hafter := references_never_confused none _
    [.edit ⟨0, 1⟩ fun _ ↦ .str "third", .collect []] issued
  have hrefused := hafter.1 (hgone.symm ▸ Nat.one_pos) (hgone.symm ▸ by decide)
  exact ⟨issued, hkept, hbefore.2.2 hkept, hgone, hrefused.1⟩

end RegisterMachine.Heap

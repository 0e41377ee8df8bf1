import RegisterMachine.Heap.Collect

/-!
# Collections are exact

A collection keeps the objects that a program can still come to and no others. `Reachable` says what
a program can come to: a living root, or a living child of a reachable object. Marking preserves the
invariant `Marking`: whatever has a mark or waits for one is reachable, and what is not yet marked
of the roots and of the children of marked objects waits for its visit. When nothing waits any more
the marks are therefore the reachable objects, and sweeping clears the rest.
-/

namespace RegisterMachine

/-- An object refers to another by its prototype, a field, an element, a key or value of a map, or
what it boxes. -/
inductive HeapObject.RefersTo : HeapObject → Handle → Prop
  | boxed {handle : Handle} : RefersTo (.boxed (.object handle)) handle
  | array {items : Array Value} {handle : Handle} :
      .object handle ∈ items → RefersTo (.array items) handle
  | list {items : Array Value} {handle : Handle} :
      .object handle ∈ items → RefersTo (.list items) handle
  | set {items : List Value} {handle : Handle} :
      .object handle ∈ items → RefersTo (.set items) handle
  | key {entries : List (Value × Value)} {handle : Handle} {value : Value} :
      (.object handle, value) ∈ entries → RefersTo (.map entries) handle
  | value {entries : List (Value × Value)} {key : Value} {handle : Handle} :
      (key, .object handle) ∈ entries → RefersTo (.map entries) handle
  | prototype {object : PlainObject} {handle : Handle} :
      object.prototype = some handle → RefersTo (.plain object) handle
  | field {object : PlainObject} {name : String} {handle : Handle} :
      (name, .object handle) ∈ object.fields → RefersTo (.plain object) handle

theorem Value.handle?_eq_some_iff {value : Value} {handle : Handle} :
    value.handle? = some handle ↔ value = .object handle := by
  cases value <;> simp [Value.handle?]

theorem Value.mem_filterMap_handle? {values : List Value} {handle : Handle} :
    handle ∈ values.filterMap Value.handle? ↔ .object handle ∈ values := by
  simp [List.mem_filterMap, Value.handle?_eq_some_iff]

/-- Marking follows all references of an object and nothing else. -/
theorem HeapObject.mem_references_iff {object : HeapObject} {handle : Handle} :
    handle ∈ object.references ↔ object.RefersTo handle := by
  rw [HeapObject.references, Value.mem_filterMap_handle?]
  constructor
  · intro hchild
    cases object with
    | bignum | str => simp [HeapObject.children] at hchild
    | boxed value =>
      obtain rfl : .object handle = value := by simpa [HeapObject.children] using hchild
      exact .boxed
    | array items => exact .array (by simpa [HeapObject.children] using hchild)
    | list items => exact .list (by simpa [HeapObject.children] using hchild)
    | set items => exact .set hchild
    | map entries =>
      obtain ⟨⟨key, value⟩, hentry, hside⟩ := List.mem_flatMap.1 hchild
      simp only [List.mem_cons, List.not_mem_nil, or_false] at hside
      rcases hside with rfl | rfl
      · exact .key hentry
      · exact .value hentry
    | plain object =>
      rcases List.mem_append.1 hchild with hprototype | hfield
      · exact .prototype (by simpa using hprototype)
      · obtain ⟨⟨name, value⟩, hmem, rfl⟩ := List.mem_map.1 hfield
        exact .field hmem
  · intro refers
    cases refers with
    | boxed => simp [HeapObject.children]
    | array hmem | list hmem => simpa [HeapObject.children] using hmem
    | set hmem => exact hmem
    | key hmem => exact List.mem_flatMap.2 ⟨_, hmem, by simp⟩
    | value hmem => exact List.mem_flatMap.2 ⟨_, hmem, by simp⟩
    | prototype hprototype => simp [HeapObject.children, hprototype]
    | field hmem => exact List.mem_append_right _ (List.mem_map.2 ⟨_, hmem, rfl⟩)

namespace Heap

/-- What a program can come to from its roots, through living objects only. -/
inductive Reachable (heap : Heap) (roots : List Value) : Handle → Prop
  | root {handle : Handle} : .object handle ∈ roots → heap.contains handle →
      Reachable heap roots handle
  | child {parent child : Handle} {object : HeapObject} : Reachable heap roots parent →
      heap.get parent = .ok object → object.RefersTo child → heap.contains child →
      Reachable heap roots child

/-- The slot of a reachable object. -/
def Survives (heap : Heap) (roots : List Value) (index : Nat) : Prop :=
  ∃ handle, heap.Reachable roots handle ∧ handle.index.toNat = index

/-- Between operations no slot has a mark, and the living objects are counted. -/
structure WellFormed (heap : Heap) : Prop where
  unmarked : ∀ slot ∈ heap.slots, slot.marked = false
  live_eq : heap.live = heap.slots.toList.countP (·.object.isSome)

/-! ## Living objects -/

variable {heap : Heap} {roots : List Value} {slots : Array Slot} {work : List Handle}
  {handle : Handle} {object : HeapObject}

theorem get_eq_ok_iff : heap.get handle = .ok object ↔
    ∃ slot, heap.slots[handle.index.toNat]? = some slot ∧
      slot.generation = handle.generation ∧ slot.object = some object := by
  have hget : heap.get handle = .ok object ↔
      (heap.slot? handle).bind (·.object) = some object := by
    unfold get
    cases (heap.slot? handle).bind (·.object) <;> simp
  rw [hget, Option.bind_eq_some_iff]
  simp only [slot?, Option.filter_eq_some_iff, beq_iff_eq, and_assoc]

theorem contains_iff : heap.contains handle ↔ ∃ object, heap.get handle = .ok object := by
  unfold contains get
  cases (heap.slot? handle).bind (·.object) <;> simp

theorem contains_iff_exists_slot : heap.contains handle ↔
    ∃ slot, heap.slots[handle.index.toNat]? = some slot ∧
      slot.generation = handle.generation ∧ slot.object.isSome := by
  simp only [contains_iff, get_eq_ok_iff, Option.isSome_iff_exists]
  grind

theorem Reachable.contains (reachable : heap.Reachable roots handle) : heap.contains handle := by
  cases reachable with
  | root _ hlive => exact hlive
  | child _ _ _ hlive => exact hlive

/-- Two references to living objects in one slot are the same. -/
theorem eq_of_index_eq {other : Handle} (hlive : heap.contains handle)
    (hother : heap.contains other) (hindex : other.index.toNat = handle.index.toNat) :
    other = handle := by
  obtain ⟨_, hget⟩ := contains_iff.1 hlive
  obtain ⟨_, hget'⟩ := contains_iff.1 hother
  obtain ⟨slot, hslot, hgeneration, -⟩ := get_eq_ok_iff.1 hget
  obtain ⟨slot', hslot', hgeneration', -⟩ := get_eq_ok_iff.1 hget'
  rw [hindex, hslot, Option.some.injEq] at hslot'
  subst hslot'
  have hslots : other.index = handle.index := UInt32.toNat_inj.1 hindex
  have hgenerations : other.generation = handle.generation := hgeneration'.symm.trans hgeneration
  cases handle
  cases other
  simp_all

/-! ## Marking -/

/-- A slot without its mark. -/
def cleared (slot : Slot) : Slot :=
  { slot with marked := false }

/-- A slot has a mark. -/
def Marked (slots : Array Slot) (index : Nat) : Prop :=
  ∃ slot, slots[index]? = some slot ∧ slot.marked = true

/-- The invariant of marking. -/
structure Marking (heap : Heap) (roots : List Value) (slots : Array Slot) (work : List Handle) :
    Prop where
  /-- Marking changes nothing but marks. -/
  slots_eq : slots.map cleared = heap.slots
  marked_survives : ∀ index, Marked slots index → heap.Survives roots index
  work_reachable : ∀ handle ∈ work, heap.contains handle → heap.Reachable roots handle
  root_covered : ∀ handle, .object handle ∈ roots → heap.contains handle →
    Marked slots handle.index.toNat ∨ handle ∈ work
  child_covered : ∀ parent object child, Marked slots parent.index.toNat →
    heap.get parent = .ok object → object.RefersTo child → heap.contains child →
    Marked slots child.index.toNat ∨ child ∈ work

/-- Marking begins without marks, with all roots waiting. -/
theorem Marking.start (wellFormed : heap.WellFormed) :
    Marking heap roots heap.slots (roots.filterMap Value.handle?) := by
  have hnone (index : Nat) : ¬ Marked heap.slots index := by
    rintro ⟨slot, hslot, hmarked⟩
    rw [wellFormed.unmarked slot (Array.mem_of_getElem? hslot)] at hmarked
    contradiction
  constructor
  case slots_eq =>
    refine Array.map_congr_left (fun slot hslot ↦ ?_) |>.trans (Array.map_id _)
    rw [cleared, ← wellFormed.unmarked slot hslot]
    rfl
  case marked_survives => exact fun index hmarked ↦ absurd hmarked (hnone index)
  case work_reachable =>
    exact fun handle hroot hlive ↦ .root (Value.mem_filterMap_handle?.1 hroot) hlive
  case root_covered =>
    exact fun handle hroot _ ↦ .inr (Value.mem_filterMap_handle?.2 hroot)
  case child_covered => exact fun parent _ _ hmarked ↦ absurd hmarked (hnone _)

theorem toVisit?_eq_some_iff {slot : Slot} : toVisit? slots handle = some (slot, object) ↔
    slots[handle.index.toNat]? = some slot ∧ slot.generation = handle.generation ∧
      slot.marked = false ∧ slot.object = some object := by
  unfold toVisit?
  cases slots[handle.index.toNat]? with
  | none => simp
  | some found =>
    by_cases hfresh : found.generation = handle.generation ∧ found.marked = false
    · simp only [if_pos hfresh, Option.map_eq_some_iff, Prod.mk.injEq, Option.some.injEq]
      grind
    · simp only [if_neg hfresh, Option.some.injEq]
      grind

namespace Marking

variable {rest : List Handle}

theorem getElem?_eq (marking : Marking heap roots slots work) (index : Nat) :
    heap.slots[index]? = slots[index]?.map cleared := by
  rw [← marking.slots_eq, Array.getElem?_map]

/-- A visit finds the object that the reference names. -/
theorem get_of_visit (marking : Marking heap roots slots work) {slot : Slot}
    (hvisit : toVisit? slots handle = some (slot, object)) : heap.get handle = .ok object := by
  obtain ⟨hslot, hgeneration, -, hobject⟩ := toVisit?_eq_some_iff.1 hvisit
  refine get_eq_ok_iff.2 ⟨cleared slot, ?_, hgeneration, hobject⟩
  rw [marking.getElem?_eq, hslot, Option.map_some]

/-- A living object that needs no visit has its mark. -/
theorem marked_of_not_visit (marking : Marking heap roots slots work)
    (hvisit : toVisit? slots handle = none) (hlive : heap.contains handle) :
    Marked slots handle.index.toNat := by
  obtain ⟨object, hget⟩ := contains_iff.1 hlive
  obtain ⟨kept, hkept, hgeneration, hobject⟩ := get_eq_ok_iff.1 hget
  rw [marking.getElem?_eq, Option.map_eq_some_iff] at hkept
  obtain ⟨slot, hslot, rfl⟩ := hkept
  refine ⟨slot, hslot, ?_⟩
  cases hmarked : slot.marked with
  | true => rfl
  | false =>
    have hsome := toVisit?_eq_some_iff.2 ⟨hslot, hgeneration, hmarked, hobject⟩
    rw [hvisit] at hsome
    contradiction

/-- A reference that needs no visit is dropped. -/
theorem skip (marking : Marking heap roots slots (handle :: rest))
    (hvisit : toVisit? slots handle = none) : Marking heap roots slots rest := by
  have hcovered (other : Handle) (hlive : heap.contains other)
      (hwaiting : Marked slots other.index.toNat ∨ other ∈ handle :: rest) :
      Marked slots other.index.toNat ∨ other ∈ rest := by
    rcases hwaiting with hmarked | hwork
    · exact .inl hmarked
    · rcases List.mem_cons.1 hwork with rfl | hrest
      · exact .inl (marking.marked_of_not_visit hvisit hlive)
      · exact .inr hrest
  exact { marking with
    work_reachable := fun other hother ↦
      marking.work_reachable other (List.mem_cons_of_mem _ hother)
    root_covered := fun other hroot hlive ↦
      hcovered other hlive (marking.root_covered other hroot hlive)
    child_covered := fun parent object child hparent hget hrefers hlive ↦
      hcovered child hlive (marking.child_covered parent object child hparent hget hrefers hlive) }

/-- The marks after a visit. -/
theorem marked_setMark_iff {index other : Nat} {slot : Slot} (hslot : slots[index]? = some slot) :
    Marked (setMark slots index slot) other ↔ other = index ∨ Marked slots other := by
  obtain ⟨hlt, -⟩ := Array.getElem?_eq_some_iff.1 hslot
  unfold Marked setMark
  by_cases hindex : index = other
  · rw [← hindex, Array.getElem?_setIfInBounds_self_of_lt hlt]
    simp
  · rw [Array.getElem?_setIfInBounds_ne hindex]
    simp [Ne.symm hindex]

/-- A visit marks an object and lets its references wait. -/
theorem visit (marking : Marking heap roots slots (handle :: rest)) {slot : Slot}
    (hvisit : toVisit? slots handle = some (slot, object)) :
    Marking heap roots (setMark slots handle.index.toNat slot) (object.references ++ rest) := by
  have hslot := (toVisit?_eq_some_iff.1 hvisit).1
  have hget := marking.get_of_visit hvisit
  have hlive : heap.contains handle := contains_iff.2 ⟨object, hget⟩
  have hreachable := marking.work_reachable handle List.mem_cons_self hlive
  -- What had its mark keeps it, and what waited still waits, but for the reference visited now.
  have hcovered (other : Handle)
      (hwaiting : Marked slots other.index.toNat ∨ other ∈ handle :: rest) :
      Marked (setMark slots handle.index.toNat slot) other.index.toNat ∨
        other ∈ object.references ++ rest := by
    rw [marked_setMark_iff hslot]
    rcases hwaiting with hmarked | hwork
    · exact .inl (.inr hmarked)
    · rcases List.mem_cons.1 hwork with rfl | hrest
      · exact .inl (.inl rfl)
      · exact .inr (List.mem_append_right _ hrest)
  constructor
  case slots_eq =>
    obtain ⟨hlt, -⟩ := Array.getElem?_eq_some_iff.1 hslot
    rw [← marking.slots_eq]
    refine Array.ext_getElem? fun index ↦ ?_
    rw [Array.getElem?_map, Array.getElem?_map, setMark]
    by_cases hindex : handle.index.toNat = index
    · subst hindex
      rw [Array.getElem?_setIfInBounds_self_of_lt hlt, hslot]
      rfl
    · rw [Array.getElem?_setIfInBounds_ne hindex]
  case marked_survives =>
    intro index hmarked
    rcases (marked_setMark_iff hslot).1 hmarked with hindex | hmarked
    · exact ⟨handle, hreachable, hindex.symm⟩
    · exact marking.marked_survives index hmarked
  case work_reachable =>
    intro other hwork hother
    rcases List.mem_append.1 hwork with hchild | hrest
    · exact .child hreachable hget (HeapObject.mem_references_iff.1 hchild) hother
    · exact marking.work_reachable other (List.mem_cons_of_mem _ hrest) hother
  case root_covered =>
    exact fun other hroot hother ↦ hcovered other (marking.root_covered other hroot hother)
  case child_covered =>
    intro parent found child hparent hfound hrefers hchild
    rcases (marked_setMark_iff hslot).1 hparent with hindex | hmarked
    · obtain rfl := eq_of_index_eq hlive (contains_iff.2 ⟨found, hfound⟩) hindex
      obtain rfl : object = found := Except.ok.inj (hget.symm.trans hfound)
      exact .inr (List.mem_append_left _ (HeapObject.mem_references_iff.2 hrefers))
    · exact hcovered child (marking.child_covered parent found child hmarked hfound hrefers hchild)

/-- Marking comes to an end with nothing waiting. -/
theorem mark (marking : Marking heap roots slots work) :
    Marking heap roots (mark slots work) [] := by
  fun_induction Heap.mark slots work with
  | case1 slots => exact marking
  | case2 slots handle rest hvisit ih => exact ih (marking.skip hvisit)
  | case3 slots handle rest visit hvisit _ ih => exact ih (marking.visit hvisit)

/-- At the end the marks are on the slots of reachable objects. -/
theorem marked_iff_survives (marking : Marking heap roots slots []) {index : Nat} :
    Marked slots index ↔ heap.Survives roots index := by
  refine ⟨marking.marked_survives index, ?_⟩
  rintro ⟨handle, reachable, rfl⟩
  -- Nothing waits any more, so roots and children that are covered are marked.
  induction reachable with
  | root hroot hlive => exact (marking.root_covered _ hroot hlive).resolve_right List.not_mem_nil
  | child _ hget hrefers hlive hparent =>
    exact (marking.child_covered _ _ _ hparent hget hrefers hlive).resolve_right List.not_mem_nil

end Marking

/-! ## Sweeping -/

/-- What a collection leaves: the reachable objects as they were, and every other slot empty. -/
structure Collected (heap : Heap) (roots : List Value) (count : Nat) (after : Heap) : Prop where
  contains_iff : ∀ handle, heap.contains handle →
    (after.contains handle ↔ heap.Reachable roots handle)
  dead : ∀ handle, ¬ heap.contains handle → ¬ after.contains handle
  kept : ∀ (index : Nat) (slot : Slot), heap.slots[index]? = some slot → heap.Survives roots index →
    after.slots[index]? = some slot
  freed : ∀ (index : Nat) (slot : Slot), heap.slots[index]? = some slot → slot.object.isSome →
    ¬ heap.Survives roots index →
    after.slots[index]? = some
        { generation := slot.generation + 1, marked := false, object := none } ∧
      UInt32.ofNat index ∈ after.free
  empty : ∀ (index : Nat) (slot : Slot), heap.slots[index]? = some slot → slot.object = none →
    after.slots[index]? = some slot
  unmarked : ∀ slot ∈ after.slots, slot.marked = false
  live_eq : after.live + count = heap.live

/-- A slot is swept when its object is not reachable. -/
theorem Marking.isGarbage_iff (marking : Marking heap roots slots []) {index : Nat} {slot : Slot}
    (hslot : slots[index]? = some slot) :
    isGarbage slot ↔ slot.object.isSome ∧ ¬ heap.Survives roots index := by
  rw [← marking.marked_iff_survives]
  simp [isGarbage, Marked, hslot]

theorem swept_of_isGarbage {slot : Slot} (hgarbage : isGarbage slot) :
    swept slot = { generation := slot.generation + 1, marked := false, object := none } := by
  obtain ⟨-, hmarked⟩ : slot.object.isSome ∧ slot.marked = false := by
    simpa [isGarbage] using hgarbage
  rw [swept, if_pos hgarbage, Slot.released, hmarked]

theorem swept_of_not_isGarbage {slot : Slot} (hkept : ¬ isGarbage slot) :
    swept slot = cleared slot :=
  if_neg hkept

theorem marked_swept (slot : Slot) : (swept slot).marked = false := by
  by_cases hgarbage : isGarbage slot
  · rw [swept_of_isGarbage hgarbage]
  · rw [swept_of_not_isGarbage hgarbage]
    rfl

theorem mem_garbage {index : Nat} {slot : Slot} (hslot : slots[index]? = some slot)
    (hgarbage : isGarbage slot) : UInt32.ofNat index ∈ garbage slots := by
  refine List.mem_map.2 ⟨(slot, index), List.mem_filter.2 ⟨?_, hgarbage⟩, rfl⟩
  rwa [List.mem_zipIdx_iff_getElem?, Array.getElem?_toList]

/-- Slots with their numbers are as many as slots. -/
theorem length_filter_zipIdx (p : Slot → Bool) :
    (slots.toList.zipIdx.filter (p ·.1)).length = slots.toList.countP p := by
  have hslots : slots.toList.countP p = (slots.toList.zipIdx.map Prod.fst).countP p := by
    rw [List.zipIdx_map_fst]
  rw [← List.countP_eq_length_filter, hslots, List.countP_map]
  rfl

theorem length_garbage : (garbage slots).length = slots.toList.countP isGarbage := by
  rw [garbage, List.length_map, length_filter_zipIdx]

/-- Every occupied slot is either swept or occupied afterwards. -/
theorem countP_swept : (slots.map swept).toList.countP (·.object.isSome) + (garbage slots).length =
    (slots.map cleared).toList.countP (·.object.isSome) := by
  have hkept (slot : Slot) :
      (swept slot).object.isSome = (slot.object.isSome && !isGarbage slot) := by
    by_cases hgarbage : isGarbage slot
    · simp [swept_of_isGarbage hgarbage, hgarbage]
    · simp [swept_of_not_isGarbage hgarbage, hgarbage, cleared]
  have hfreed (slot : Slot) : isGarbage slot = (slot.object.isSome && isGarbage slot) := by
    simp [isGarbage]
  have hsplit := List.countP_eq_countP_filter_add slots.toList (·.object.isSome) isGarbage
  rw [List.countP_filter, List.countP_filter] at hsplit
  simp only [Array.toList_map, List.countP_map, Function.comp_def, hkept, cleared, length_garbage]
  rw [hsplit, Nat.add_comm]
  simp only [← hfreed]

/-! ## Collecting -/

variable {index : Nat} {slot : Slot}

theorem survives_iff_reachable (hlive : heap.contains handle) :
    heap.Survives roots handle.index.toNat ↔ heap.Reachable roots handle := by
  refine ⟨?_, fun reachable ↦ ⟨handle, reachable, rfl⟩⟩
  rintro ⟨other, reachable, hindex⟩
  rwa [← eq_of_index_eq hlive reachable.contains hindex]

/-- The marks that a collection sweeps by. -/
theorem WellFormed.marking (wellFormed : heap.WellFormed) (roots : List Value) :
    Marking heap roots (mark heap.slots (roots.filterMap Value.handle?)) [] :=
  (Marking.start wellFormed).mark

/-- A collection keeps a slot that is empty or holds a reachable object. -/
theorem WellFormed.getElem?_of_kept (wellFormed : heap.WellFormed)
    (hslot : heap.slots[index]? = some slot)
    (hkept : slot.object = none ∨ heap.Survives roots index) :
    (heap.collect roots).2.slots[index]? = some slot := by
  have marking := wellFormed.marking roots
  rw [marking.getElem?_eq, Option.map_eq_some_iff] at hslot
  obtain ⟨found, hfound, rfl⟩ := hslot
  have hnot : ¬ isGarbage found := by
    rw [marking.isGarbage_iff hfound]
    rintro ⟨hsome, hgone⟩
    rcases hkept with hnone | hsurvives
    · simp_all [cleared]
    · exact hgone hsurvives
  rw [← swept_of_not_isGarbage hnot]
  simp only [collect, Array.getElem?_map, hfound, Option.map_some]

/-- A collection empties the slot of an object that is not reachable. -/
theorem WellFormed.getElem?_of_freed (wellFormed : heap.WellFormed)
    (hslot : heap.slots[index]? = some slot) (hsome : slot.object.isSome)
    (hgone : ¬ heap.Survives roots index) :
    (heap.collect roots).2.slots[index]? = some
        { generation := slot.generation + 1, marked := false, object := none } ∧
      UInt32.ofNat index ∈ (heap.collect roots).2.free := by
  have marking := wellFormed.marking roots
  rw [marking.getElem?_eq, Option.map_eq_some_iff] at hslot
  obtain ⟨found, hfound, rfl⟩ := hslot
  have hgarbage : isGarbage found := (marking.isGarbage_iff hfound).2 ⟨hsome, hgone⟩
  constructor
  · simp only [collect, Array.getElem?_map, hfound, Option.map_some, swept_of_isGarbage hgarbage,
      cleared]
  · exact List.mem_append_left _ (List.mem_reverse.2 (mem_garbage hfound hgarbage))

/-- What is occupied after a collection was so before, with an object that is reachable. -/
theorem WellFormed.of_getElem?_collect (wellFormed : heap.WellFormed)
    (hslot : (heap.collect roots).2.slots[index]? = some slot) (hsome : slot.object.isSome) :
    heap.slots[index]? = some slot ∧ heap.Survives roots index := by
  have marking := wellFormed.marking roots
  simp only [collect, Array.getElem?_map, Option.map_eq_some_iff] at hslot
  obtain ⟨found, hfound, rfl⟩ := hslot
  by_cases hgarbage : isGarbage found
  · rw [swept_of_isGarbage hgarbage] at hsome
    contradiction
  · rw [swept_of_not_isGarbage hgarbage] at hsome ⊢
    refine ⟨by rw [marking.getElem?_eq, hfound, Option.map_some], ?_⟩
    rw [marking.isGarbage_iff hfound] at hgarbage
    exact Classical.not_not.1 fun hgone ↦ hgarbage ⟨hsome, hgone⟩

/-- A collection counts what it frees. -/
theorem WellFormed.live_collect (wellFormed : heap.WellFormed) (roots : List Value) :
    (heap.collect roots).2.live + (heap.collect roots).1 = heap.live ∧
      (heap.collect roots).2.live =
        (heap.collect roots).2.slots.toList.countP (·.object.isSome) := by
  have hcount := @countP_swept (mark heap.slots (roots.filterMap Value.handle?))
  rw [(wellFormed.marking roots).slots_eq, ← wellFormed.live_eq] at hcount
  simp only [collect]
  omega

theorem unmarked_collect (heap : Heap) (roots : List Value) :
    ∀ slot ∈ (heap.collect roots).2.slots, slot.marked = false := by
  intro slot hslot
  obtain ⟨found, -, rfl⟩ := Array.mem_map.1 hslot
  exact marked_swept found

theorem WellFormed.collect (wellFormed : heap.WellFormed) (roots : List Value) :
    (heap.collect roots).2.WellFormed :=
  ⟨unmarked_collect heap roots, (wellFormed.live_collect roots).2⟩

theorem WellFormed.contains_collect_iff (wellFormed : heap.WellFormed) :
    (heap.collect roots).2.contains handle ↔ heap.Reachable roots handle := by
  constructor
  · intro hafter
    obtain ⟨slot, hslot, hgeneration, hsome⟩ := contains_iff_exists_slot.1 hafter
    obtain ⟨hbefore, hsurvives⟩ := wellFormed.of_getElem?_collect hslot hsome
    have hlive := contains_iff_exists_slot.2 ⟨slot, hbefore, hgeneration, hsome⟩
    exact (survives_iff_reachable hlive).1 hsurvives
  · intro reachable
    obtain ⟨slot, hslot, hgeneration, hsome⟩ := contains_iff_exists_slot.1 reachable.contains
    have hkept := wellFormed.getElem?_of_kept hslot (.inr ⟨handle, reachable, rfl⟩)
    exact contains_iff_exists_slot.2 ⟨slot, hkept, hgeneration, hsome⟩

theorem WellFormed.get_collect (wellFormed : heap.WellFormed)
    (reachable : heap.Reachable roots handle) (hget : heap.get handle = .ok object) :
    (heap.collect roots).2.get handle = .ok object := by
  obtain ⟨slot, hslot, hgeneration, hobject⟩ := get_eq_ok_iff.1 hget
  have hkept := wellFormed.getElem?_of_kept hslot (.inr ⟨handle, reachable, rfl⟩)
  exact get_eq_ok_iff.2 ⟨slot, hkept, hgeneration, hobject⟩

/-- What is reachable stays so. -/
theorem WellFormed.reachable_collect (wellFormed : heap.WellFormed)
    (reachable : heap.Reachable roots handle) :
    (heap.collect roots).2.Reachable roots handle := by
  induction reachable with
  | root hroot hlive => exact .root hroot (wellFormed.contains_collect_iff.2 (.root hroot hlive))
  | child parent hget hrefers hlive ih =>
    exact .child ih (wellFormed.get_collect parent hget) hrefers
      (wellFormed.contains_collect_iff.2 (.child parent hget hrefers hlive))

/-- A second collection frees nothing. -/
theorem WellFormed.collect_collect (wellFormed : heap.WellFormed) (roots : List Value) :
    ((heap.collect roots).2.collect roots).1 = 0 := by
  have marking := (wellFormed.collect roots).marking roots
  show (garbage _).length = 0
  rw [length_garbage, List.countP_eq_zero]
  intro found hmem hgarbage
  obtain ⟨index, hfound⟩ := List.getElem?_of_mem hmem
  rw [Array.getElem?_toList] at hfound
  obtain ⟨hsome, hgone⟩ := (marking.isGarbage_iff hfound).1 hgarbage
  have hslot : (heap.collect roots).2.slots[index]? = some (cleared found) := by
    rw [marking.getElem?_eq, hfound, Option.map_some]
  obtain ⟨-, handle, reachable, hindex⟩ := wellFormed.of_getElem?_collect hslot hsome
  exact hgone ⟨handle, wellFormed.reachable_collect reachable, hindex⟩

/-- A collection is exact, and repeated at once it frees nothing. -/
theorem collect_exact (wellFormed : heap.WellFormed) (roots : List Value) :
    Collected heap roots (heap.collect roots).1 (heap.collect roots).2 ∧
      ((heap.collect roots).2.collect roots).1 = 0 := by
  refine ⟨?_, wellFormed.collect_collect roots⟩
  exact {
    contains_iff := fun handle _ ↦ wellFormed.contains_collect_iff
    dead := fun handle hdead hafter ↦
      hdead (wellFormed.contains_collect_iff.1 hafter).contains
    kept := fun index slot hslot hsurvives ↦ wellFormed.getElem?_of_kept hslot (.inr hsurvives)
    freed := fun index slot hslot hsome hgone ↦ wellFormed.getElem?_of_freed hslot hsome hgone
    empty := fun index slot hslot hnone ↦ wellFormed.getElem?_of_kept hslot (.inl hnone)
    unmarked := unmarked_collect heap roots
    live_eq := (wellFormed.live_collect roots).1 }

/-- Two cycles of two objects, one of which also holds a stale reference into the other, and a slot
that was freed before. -/
def twoCycles : Heap where
  slots := #[
    { object := some (.array #[.object ⟨1, 0⟩, .object ⟨2, 0⟩]) },
    { object := some (.map [(.int 1, .object ⟨0, 0⟩)]) },
    { generation := 1, object := some (.plain ⟨some ⟨3, 0⟩, [("x", .null)]⟩) },
    { object := some (.boxed (.object ⟨2, 1⟩)) },
    { generation := 2 }]
  free := [4]
  live := 4

/-- Roots of which only one refers to a living object: that of the first cycle. -/
def mixedRoots : List Value :=
  [.object ⟨2, 0⟩, .int 3, .object ⟨0, 0⟩, .object ⟨9, 0⟩, .object ⟨0, 0⟩]

theorem collect_exact_twoCycles : twoCycles.WellFormed ∧
    Collected twoCycles mixedRoots (twoCycles.collect mixedRoots).1
      (twoCycles.collect mixedRoots).2 ∧
    ((twoCycles.collect mixedRoots).2.collect mixedRoots).1 = 0 ∧
    (twoCycles.collect mixedRoots).2.contains ⟨1, 0⟩ := by
  have wellFormed : twoCycles.WellFormed := ⟨by decide, by decide⟩
  have hroot : twoCycles.Reachable mixedRoots ⟨0, 0⟩ := .root (by decide) (by decide)
  have hget : twoCycles.get ⟨0, 0⟩ = .ok (.array #[.object ⟨1, 0⟩, .object ⟨2, 0⟩]) := rfl
  have hmember : twoCycles.Reachable mixedRoots ⟨1, 0⟩ :=
    .child hroot hget (.array (by simp)) (by decide)
  obtain ⟨hcollected, hagain⟩ := collect_exact wellFormed mixedRoots
  exact ⟨wellFormed, hcollected, hagain, (hcollected.contains_iff _ (by decide)).2 hmember⟩

end Heap

end RegisterMachine

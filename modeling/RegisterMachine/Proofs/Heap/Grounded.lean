import Mathlib.Logic.Relation
import RegisterMachine.Proofs.Heap.Collection
import RegisterMachine.Proofs.Outcome

/-!
# Heaps without stale references

A heap is grounded when nothing was ever freed, when every reference inside of an object names a
living object, and when a prototype is an object with fields in a lower slot than the object that
has it. Allocating an object and replacing one by another of the same descent keep a heap grounded,
as long as the values that go into it are held. A grounded heap has no cycle of prototypes, and
looking up a field in it never meets a stale reference.
-/

namespace RegisterMachine

/-! ## Entries by key -/

namespace Entries

variable {α β : Type} [BEq α] {entries : List (α × β)} {key : α} {value : β} {entry : α × β}

theorem mem_of_lookup [LawfulBEq α] (h : entries.lookup key = some value) :
    (key, value) ∈ entries := by
  obtain ⟨before, after, heq, -⟩ := List.lookup_eq_some_iff.1 h
  simp [heq]

theorem mem_of_insert (h : entry ∈ insert entries key value) :
    entry ∈ entries ∨ entry = (key, value) := by
  unfold insert at h
  split at h
  · obtain ⟨before, hbefore, heq⟩ := List.mem_map.1 h
    split at heq
    · exact .inr heq.symm
    · exact .inl (heq ▸ hbefore)
  · simpa using h

theorem mem_of_erase (h : entry ∈ erase entries key) : entry ∈ entries :=
  (List.mem_filter.1 h).1

end Entries

/-! ## Grounded heaps -/

/-- Whether a reference was stale. -/
def HeapError.isStale : HeapError → Bool
  | .danglingReference _ => true
  | .limitExceeded _ | .allocationFailed => false

/-- The prototype of an object with fields; other objects have no place for one. -/
def HeapObject.descent? : HeapObject → Option (Option Handle)
  | .plain object => some object.prototype
  | _ => none

theorem HeapObject.descent?_eq_some_iff {object : HeapObject} {parent : Option Handle} :
    object.descent? = some parent ↔
      ∃ plain : PlainObject, object = .plain plain ∧ plain.prototype = parent := by
  cases object <;> simp [HeapObject.descent?]

namespace Heap

/-- The object in a slot, whatever its generation. -/
def objectAt? (heap : Heap) (index : Nat) : Option HeapObject :=
  heap.slots[index]?.bind (·.object)

/-- A reference names an object with fields. -/
def IsPlain (heap : Heap) (handle : Handle) : Prop :=
  ∃ object, heap.get handle = .ok (.plain object)

/-- If a value is a reference, it names a living object. -/
def Holds (heap : Heap) (value : Value) : Prop :=
  ∀ handle, value = .object handle → heap.contains handle

/-- Nothing on the heap is stale. -/
structure Grounded (heap : Heap) : Prop where
  /-- Nothing was ever freed. -/
  free_eq : heap.free = []
  child_held : ∀ {index : Nat} {object : HeapObject}, heap.objectAt? index = some object →
    ∀ value ∈ object.children, heap.Holds value
  prototype_plain : ∀ {index : Nat} {object : HeapObject} {prototype : Handle},
    heap.objectAt? index = some object → object.descent? = some (some prototype) →
    heap.IsPlain prototype
  prototype_lt : ∀ {index : Nat} {object : HeapObject} {prototype : Handle},
    heap.objectAt? index = some object → object.descent? = some (some prototype) →
    prototype.index.toNat < index

/-- What a heap has, a later one still has, and objects with fields remain such. -/
structure Extends (heap later : Heap) : Prop where
  contains : ∀ {handle : Handle}, heap.contains handle → later.contains handle
  plain : ∀ {handle : Handle}, heap.IsPlain handle → later.IsPlain handle

/-- A later heap is grounded and has lost nothing. -/
structure Develops (heap later : Heap) : Prop where
  grounded : later.Grounded
  extend : heap.Extends later

variable {heap later : Heap} {handle : Handle} {object : HeapObject} {value : Value}

/-! ## Values -/

theorem Holds.of_scalar (h : value.handle? = none) : heap.Holds value := by
  intro handle hvalue
  rw [hvalue] at h
  cases h

@[simp] theorem holds_null : heap.Holds .null := .of_scalar rfl

@[simp] theorem holds_int (number : Int32) : heap.Holds (.int number) := .of_scalar rfl

@[simp] theorem holds_object_iff : heap.Holds (.object handle) ↔ heap.contains handle := by
  simp [Holds]

theorem Holds.contains (held : heap.Holds (.object handle)) : heap.contains handle :=
  held handle rfl

/-- What is missing counts as null. -/
theorem holds_getD {found : Option Value} (h : ∀ value ∈ found, heap.Holds value) :
    heap.Holds (found.getD .null) := by
  cases found with
  | none => exact holds_null
  | some value => exact h value rfl

theorem Extends.refl (heap : Heap) : heap.Extends heap := ⟨id, id⟩

theorem Extends.trans {last : Heap} (first : heap.Extends later) (second : later.Extends last) :
    heap.Extends last :=
  ⟨fun h ↦ second.contains (first.contains h), fun h ↦ second.plain (first.plain h)⟩

theorem Extends.holds (extend : heap.Extends later) (held : heap.Holds value) :
    later.Holds value :=
  fun handle hvalue ↦ extend.contains (held handle hvalue)

theorem Grounded.refl (grounded : heap.Grounded) : heap.Develops heap :=
  ⟨grounded, .refl heap⟩

theorem objectAt?_of_get (h : heap.get handle = .ok object) :
    heap.objectAt? handle.index.toNat = some object := by
  obtain ⟨slot, hslot, -, hobject⟩ := get_eq_ok_iff.1 h
  rw [objectAt?, hslot]
  exact hobject

theorem Grounded.holds_child (grounded : heap.Grounded) (h : heap.get handle = .ok object)
    (hvalue : value ∈ object.children) : heap.Holds value :=
  grounded.child_held (objectAt?_of_get h) value hvalue

/-- A heap on which nothing was ever allocated. -/
theorem grounded_empty (limit : Option Nat) : Grounded { limit } := by
  have hnone (index : Nat) : objectAt? { limit } index = none := by simp [objectAt?]
  constructor
  case free_eq => rfl
  all_goals
    intro index object
    simp [hnone]

/-! ## Prototypes -/

/-- The prototype of one object is another. -/
def Descends (heap : Heap) (handle prototype : Handle) : Prop :=
  ∃ object : PlainObject, heap.get handle = .ok (.plain object) ∧ object.prototype = some prototype

/-- Prototypes stand in lower and lower slots, so no object is among its own. -/
theorem Grounded.acyclic (grounded : heap.Grounded) (handle : Handle) :
    ¬ Relation.TransGen heap.Descends handle handle := by
  have hstep {first second : Handle} (h : heap.Descends first second) :
      second.index.toNat < first.index.toNat := by
    obtain ⟨object, hget, hprototype⟩ := h
    exact grounded.prototype_lt (objectAt?_of_get hget) (congrArg some hprototype)
  have hchain {first last : Handle} (h : Relation.TransGen heap.Descends first last) :
      last.index.toNat < first.index.toNat := by
    induction h with
    | single h => exact hstep h
    | tail _ h ih => exact Nat.lt_trans (hstep h) ih
  exact fun h ↦ Nat.lt_irrefl _ (hchain h)

/-- The search for a field never fails, and finds a value that is held. -/
theorem Grounded.findField_meets (grounded : heap.Grounded) (key : String) (remaining : Nat)
    (hlive : heap.contains handle) :
    Meets (fun _ ↦ False) (fun found ↦ ∀ value ∈ found, heap.Holds value)
      (heap.findField key remaining handle) := by
  induction remaining generalizing handle with
  | zero => simp [findField, Meets]
  | succ remaining ih =>
    obtain ⟨object, hget⟩ := contains_iff.1 hlive
    have hchild {value : Value} (hvalue : value ∈ object.children) : heap.Holds value :=
      grounded.holds_child hget hvalue
    simp only [findField, hget]
    cases object with
    | plain object =>
      dsimp only [Bind.bind, Except.bind]
      cases hlookup : object.fields.lookup key with
      | some value =>
        have hfield : value ∈ object.fields.map (·.2) :=
          List.mem_map.2 ⟨_, Entries.mem_of_lookup hlookup, rfl⟩
        simpa [Meets] using hchild (List.mem_append_right _ hfield)
      | none =>
        cases hprototype : object.prototype with
        | some next =>
          have hnext : heap.Holds (.object next) :=
            hchild (by simp [HeapObject.children, hprototype])
          exact ih hnext.contains
        | none => simp [Meets]
    | _ =>
      intro value hvalue
      cases hvalue

/-! ## Allocation -/

/-- What an allocation leaves when no slot is free: one more slot, at the end, for the object. -/
structure Allocates (heap : Heap) (object : HeapObject) (handle : Handle) (later : Heap) :
    Prop where
  index_eq : handle.index.toNat = heap.slots.size
  generation_eq : handle.generation = 0
  slots_eq : later.slots = heap.slots.push { object := some object }
  free_eq : later.free = []

theorem Grounded.allocates (grounded : heap.Grounded) (object : HeapObject) :
    Meets (fun cause ↦ cause.isStale = false)
      (fun made ↦ heap.Allocates object made.1 made.2) (heap.alloc object) := by
  have hstore : Meets (fun cause ↦ cause.isStale = false)
      (fun made ↦ heap.Allocates object made.1 made.2) (heap.store object) := by
    unfold store
    rw [grounded.free_eq]
    dsimp only
    split
    · next hsize =>
      constructor
      · exact UInt32.toNat_ofNat_of_lt' hsize
      · rfl
      · rfl
      · rfl
    · exact rfl
  unfold alloc
  split
  · split
    · exact rfl
    · exact hstore
  · exact hstore

namespace Allocates

variable (allocates : heap.Allocates object handle later)

include allocates

theorem objectAt?_eq (index : Nat) : later.objectAt? index =
    if index = heap.slots.size then some object else heap.objectAt? index := by
  rw [objectAt?, allocates.slots_eq, Array.getElem?_push]
  split
  · rfl
  · rfl

theorem get_eq : later.get handle = .ok object := by
  refine get_eq_ok_iff.2 ⟨{ object := some object }, ?_, allocates.generation_eq.symm, rfl⟩
  rw [allocates.slots_eq, allocates.index_eq, Array.getElem?_push_size]

theorem get_of_get {other : Handle} {found : HeapObject} (h : heap.get other = .ok found) :
    later.get other = .ok found := by
  obtain ⟨slot, hslot, hrest⟩ := get_eq_ok_iff.1 h
  refine get_eq_ok_iff.2 ⟨slot, ?_, hrest⟩
  have hlt := (Array.getElem?_eq_some_iff.1 hslot).1
  rw [allocates.slots_eq, Array.getElem?_push_lt hlt]
  simpa [Array.getElem?_eq_getElem hlt] using hslot

theorem extend : heap.Extends later := by
  constructor
  · intro other hlive
    obtain ⟨found, hget⟩ := contains_iff.1 hlive
    exact contains_iff.2 ⟨found, allocates.get_of_get hget⟩
  · intro other hplain
    obtain ⟨found, hget⟩ := hplain
    exact ⟨found, allocates.get_of_get hget⟩

theorem holds : later.Holds (.object handle) :=
  holds_object_iff.2 (contains_iff.2 ⟨object, allocates.get_eq⟩)

/-- A new object may hold what the heap holds, and have any object with fields for its prototype. -/
theorem develops (grounded : heap.Grounded)
    (hchildren : ∀ value ∈ object.children, heap.Holds value)
    (hplain : ∀ prototype, object.descent? = some (some prototype) → heap.IsPlain prototype) :
    heap.Develops later := by
  have hextend := allocates.extend
  refine ⟨?_, hextend⟩
  constructor
  case free_eq => exact allocates.free_eq
  all_goals
    intro index found
    rw [allocates.objectAt?_eq]
    split
  case child_held.isTrue =>
    intro hfound value hvalue
    cases hfound
    exact hextend.holds (hchildren value hvalue)
  case child_held.isFalse =>
    exact fun hfound value hvalue ↦ hextend.holds (grounded.child_held hfound value hvalue)
  case prototype_plain.isTrue =>
    intro prototype hfound hdescent
    cases hfound
    exact hextend.plain (hplain _ hdescent)
  case prototype_plain.isFalse =>
    exact fun hfound hdescent ↦ hextend.plain (grounded.prototype_plain hfound hdescent)
  case prototype_lt.isTrue hindex =>
    -- The new slot is the last one, and the prototype had a slot before.
    intro prototype hfound hdescent
    cases hfound
    obtain ⟨parent, hget⟩ := hplain prototype hdescent
    obtain ⟨slot, hslot, -⟩ := get_eq_ok_iff.1 hget
    rw [hindex]
    exact (Array.getElem?_eq_some_iff.1 hslot).1
  case prototype_lt.isFalse => exact fun hfound hdescent ↦ grounded.prototype_lt hfound hdescent

end Allocates

/-! ## Replacement -/

theorem objectAt?_put {old : HeapObject} (hget : heap.get handle = .ok old) (new : HeapObject)
    (index : Nat) : (heap.put handle new).objectAt? index =
      if index = handle.index.toNat then some new else heap.objectAt? index := by
  obtain ⟨slot, hslot, -⟩ := get_eq_ok_iff.1 hget
  unfold objectAt? put
  rw [Array.getElem?_modify]
  split
  · next h => simp [← h, hslot]
  · next h => rw [if_neg (Ne.symm h)]

theorem get_put {old : HeapObject} (hget : heap.get handle = .ok old) (new : HeapObject)
    (other : Handle) : (heap.put handle new).get other =
      if other = handle then .ok new else heap.get other := by
  obtain ⟨slot, hslot, hgeneration, hobject⟩ := get_eq_ok_iff.1 hget
  unfold get slot? put
  rw [Array.getElem?_modify]
  by_cases hindex : handle.index.toNat = other.index.toNat
  · rw [if_pos hindex, ← hindex, hslot]
    by_cases hsame : other.generation = handle.generation
    · have hother : other = handle := by
        have := UInt32.toNat_inj.1 hindex
        cases other
        cases handle
        simp_all
      simp [hother, hgeneration, Option.filter]
    · have hother : other ≠ handle := fun h ↦ hsame (congrArg Handle.generation h)
      simp [hother, hgeneration, Ne.symm hsame, Option.filter]
  · have hother : other ≠ handle := fun h ↦ hindex (by rw [h])
    rw [if_neg hindex, if_neg hother]

section Put

variable {old new : HeapObject} (hget : heap.get handle = .ok old)
  (hdescent : new.descent? = old.descent?)

include hget hdescent

theorem extends_put : heap.Extends (heap.put handle new) := by
  constructor
  · intro other hlive
    rw [contains_iff] at hlive ⊢
    rw [get_put hget]
    split
    · exact ⟨new, rfl⟩
    · exact hlive
  · intro other hplain
    unfold IsPlain
    rw [get_put hget]
    split
    · next hother =>
      obtain ⟨object, hobject⟩ := hplain
      rw [hother, hget, Except.ok.injEq] at hobject
      rw [hobject] at hdescent
      obtain ⟨plain, rfl, -⟩ := HeapObject.descent?_eq_some_iff.1 hdescent
      exact ⟨plain, rfl⟩
    · exact hplain

/-- An object may be replaced by one with the same prototype whose values are held. -/
theorem Grounded.put (grounded : heap.Grounded)
    (hchildren : ∀ value ∈ new.children, heap.Holds value) :
    heap.Develops (heap.put handle new) := by
  have hextend := extends_put hget hdescent
  have hold := objectAt?_of_get hget
  refine ⟨?_, hextend⟩
  constructor
  case free_eq => exact grounded.free_eq
  all_goals
    intro index found
    rw [objectAt?_put hget]
    split
  case child_held.isTrue =>
    intro hfound value hvalue
    cases hfound
    exact hextend.holds (hchildren value hvalue)
  case child_held.isFalse =>
    exact fun hfound value hvalue ↦ hextend.holds (grounded.child_held hfound value hvalue)
  case prototype_plain.isTrue =>
    intro prototype hfound hprototype
    cases hfound
    exact hextend.plain (grounded.prototype_plain hold (hdescent ▸ hprototype))
  case prototype_plain.isFalse =>
    exact fun hfound hprototype ↦ hextend.plain (grounded.prototype_plain hfound hprototype)
  case prototype_lt.isTrue hindex =>
    intro prototype hfound hprototype
    cases hfound
    rw [hindex]
    exact grounded.prototype_lt hold (hdescent ▸ hprototype)
  case prototype_lt.isFalse =>
    exact fun hfound hprototype ↦ grounded.prototype_lt hfound hprototype

end Put

end Heap

end RegisterMachine

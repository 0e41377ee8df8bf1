import RegisterMachine.Proofs.Heap.Ancestor
import RegisterMachine.Proofs.Heap.History

/-!
# Fields and prototypes

A field that an object lacks is looked for in its prototype, and on from there. The search makes as
many steps as there are living objects and no more, so what it finds has to be compared with a walk
that has no bound: at the first object that has the field the walk has passed living objects only,
and none of them twice, so the search comes as far. A walk that runs in a circle without meeting the
field is the one that the bound ends.
-/

namespace RegisterMachine.Heap

/-- The value that an object has itself for a field. -/
def ownField? (heap : Heap) (key : String) (handle : Handle) : Option Value :=
  match heap.get handle with
  | .ok (.plain object) => object.fields.lookup key
  | _ => none

/-- The walk from a reference along prototypes comes to another after so many steps, and nothing
that it passes has the field. -/
structure Comes (heap : Heap) (key : String) (handle : Handle) (steps : Nat) (last : Handle) :
    Prop where
  reached : heap.ancestor? handle steps = some last
  missing : ∀ fewer < steps, ∀ passed, heap.ancestor? handle fewer = some passed →
    heap.ownField? key passed = none

/-- The walk comes to an object that has the field, the first that does. -/
def FirstOwner (heap : Heap) (key : String) (handle : Handle) (steps : Nat) (value : Value) :
    Prop :=
  ∃ owner, heap.Comes key handle steps owner ∧ heap.ownField? key owner = some value

/-- The walk comes to a reference that names no living object. -/
def DeadEnd (heap : Heap) (key : String) (handle : Handle) (steps : Nat) (dead : Handle) : Prop :=
  heap.Comes key handle steps dead ∧ ¬ heap.contains dead

variable {heap : Heap} {key : String} {handle last dead : Handle} {value : Value}
  {steps budget : Nat}

theorem contains_of_ownField? (h : heap.ownField? key handle = some value) :
    heap.contains handle := by
  unfold ownField? at h
  split at h
  · next object hget => exact contains_iff.2 ⟨_, hget⟩
  · cases h

/-! ## The walk step by step -/

@[simp] theorem comes_zero_iff : heap.Comes key handle 0 last ↔ handle = last := by
  constructor
  · exact fun comes ↦ Option.some.inj comes.reached
  · rintro rfl
    exact ⟨rfl, fun fewer hlt ↦ absurd hlt (Nat.not_lt_zero fewer)⟩

theorem comes_succ_iff : heap.Comes key handle (steps + 1) last ↔
    heap.ownField? key handle = none ∧
      ∃ next, heap.prototype? handle = some next ∧ heap.Comes key next steps last := by
  constructor
  · rintro ⟨hreached, hmissing⟩
    rw [ancestor?_succ, Option.bind_eq_some_iff] at hreached
    obtain ⟨next, hnext, hreached⟩ := hreached
    refine ⟨hmissing 0 steps.succ_pos handle rfl, next, hnext, hreached, ?_⟩
    intro fewer hlt passed hpassed
    refine hmissing (fewer + 1) (Nat.succ_lt_succ hlt) passed ?_
    rw [ancestor?_succ, hnext, Option.bind_some, hpassed]
  · rintro ⟨hown, next, hnext, hreached, hmissing⟩
    refine ⟨by rw [ancestor?_succ, hnext, Option.bind_some, hreached], ?_⟩
    intro fewer hlt passed hpassed
    cases fewer with
    | zero => exact Option.some.inj hpassed ▸ hown
    | succ fewer =>
      rw [ancestor?_succ, hnext, Option.bind_some] at hpassed
      exact hmissing fewer (Nat.lt_of_succ_lt_succ hlt) passed hpassed

theorem firstOwner_zero_iff :
    heap.FirstOwner key handle 0 value ↔ heap.ownField? key handle = some value := by
  simp [FirstOwner]

theorem firstOwner_succ_iff : heap.FirstOwner key handle (steps + 1) value ↔
    heap.ownField? key handle = none ∧
      ∃ next, heap.prototype? handle = some next ∧ heap.FirstOwner key next steps value := by
  unfold FirstOwner
  simp only [comes_succ_iff]
  tauto

theorem deadEnd_zero_iff : heap.DeadEnd key handle 0 dead ↔
    ¬ heap.contains handle ∧ handle = dead := by
  simp only [DeadEnd, comes_zero_iff]
  constructor
  · rintro ⟨rfl, hdead⟩
    exact ⟨hdead, rfl⟩
  · rintro ⟨hdead, rfl⟩
    exact ⟨rfl, hdead⟩

theorem deadEnd_succ_iff : heap.DeadEnd key handle (steps + 1) dead ↔
    heap.ownField? key handle = none ∧
      ∃ next, heap.prototype? handle = some next ∧ heap.DeadEnd key next steps dead := by
  unfold DeadEnd
  simp only [comes_succ_iff]
  tauto

/-! ## The search follows the walk -/

theorem findField_succ (heap : Heap) (key : String) (budget : Nat) (handle : Handle) :
    heap.findField key (budget + 1) handle =
      if heap.contains handle then
        match heap.ownField? key handle, heap.prototype? handle with
        | some value, _ => .ok (some value)
        | none, some next => heap.findField key budget next
        | none, none => .ok none
      else .error (.danglingReference handle) := by
  by_cases hlive : heap.contains handle
  · obtain ⟨object, hget⟩ := contains_iff.1 hlive
    rw [if_pos hlive, findField, hget]
    cases object with
    | plain object =>
      cases hfield : object.fields.lookup key with
      | some value => simp only [ownField?, hget, Bind.bind, Except.bind, hfield]
      | none =>
        cases hnext : object.prototype with
        | some next =>
          simp only [ownField?, prototype?, hget, Bind.bind, Except.bind, hfield, hnext]
        | none => simp only [ownField?, prototype?, hget, Bind.bind, Except.bind, hfield, hnext]
    | _ => simp only [ownField?, prototype?, hget, Bind.bind, Except.bind]
  · rw [if_neg hlive, findField, get_eq_error hlive]
    rfl

/-- A search that is long enough to arrive somewhere goes on from there. -/
theorem findField_of_comes (comes : heap.Comes key handle steps last) (budget : Nat) :
    heap.findField key (steps + budget) handle = heap.findField key budget last := by
  induction steps generalizing handle with
  | zero => rw [Nat.zero_add, comes_zero_iff.1 comes]
  | succ steps ih =>
    obtain ⟨hown, next, hnext, rest⟩ := comes_succ_iff.1 comes
    rw [Nat.succ_add, findField_succ, if_pos (contains_of_prototype? hnext), hown, hnext]
    exact ih rest

theorem findField_eq_some_iff : heap.findField key budget handle = .ok (some value) ↔
    ∃ steps < budget, heap.FirstOwner key handle steps value := by
  induction budget generalizing handle with
  | zero => simp [findField]
  | succ budget ih =>
    rw [findField_succ, Nat.exists_lt_succ_left]
    simp only [firstOwner_zero_iff, firstOwner_succ_iff]
    cases hown : heap.ownField? key handle with
    | some found => simp [contains_of_ownField? hown]
    | none =>
      cases hnext : heap.prototype? handle with
      | some next => simp [contains_of_prototype? hnext, ih]
      | none => split <;> simp

theorem findField_eq_error_iff {cause : HeapError} :
    heap.findField key budget handle = .error cause ↔
      ∃ steps < budget, ∃ dead, heap.DeadEnd key handle steps dead ∧
        .danglingReference dead = cause := by
  induction budget generalizing handle with
  | zero => simp [findField]
  | succ budget ih =>
    rw [findField_succ, Nat.exists_lt_succ_left]
    simp only [deadEnd_zero_iff, deadEnd_succ_iff]
    cases hown : heap.ownField? key handle with
    | some found => simp [contains_of_ownField? hown]
    | none =>
      cases hnext : heap.prototype? handle with
      | some next => simp [contains_of_prototype? hnext, ih]
      | none => split <;> simp [*]

/-- What a search finds or reports, a longer one does too. -/
theorem findField_of_le (key : String) (handle : Handle) {larger : Nat} (hle : budget ≤ larger) :
    heap.findField key budget handle = .ok none ∨
      heap.findField key larger handle = heap.findField key budget handle := by
  cases hfound : heap.findField key budget handle with
  | ok found =>
    cases found with
    | none => exact .inl rfl
    | some value =>
      obtain ⟨steps, hlt, first⟩ := findField_eq_some_iff.1 hfound
      exact .inr (findField_eq_some_iff.2 ⟨steps, Nat.lt_of_lt_of_le hlt hle, first⟩)
  | error cause =>
    obtain ⟨steps, hlt, deadEnd⟩ := findField_eq_error_iff.1 hfound
    exact .inr (findField_eq_error_iff.2 ⟨steps, Nat.lt_of_lt_of_le hlt hle, deadEnd⟩)

/-! ## The search is long enough -/

section

variable (counted : heap.live = heap.slots.toList.countP (·.object.isSome))

include counted

/-- The walk passes the first owner of a field once, and nothing else twice on the way to it. -/
theorem FirstOwner.lt_live (first : heap.FirstOwner key handle steps value) :
    steps < heap.live := by
  obtain ⟨owner, ⟨hreached, hmissing⟩, hown⟩ := first
  have hfirst (fewer : Nat) (hlt : fewer < steps) :
      heap.ancestor? handle fewer ≠ some owner := by
    intro hearlier
    rw [hmissing fewer hlt owner hearlier] at hown
    cases hown
  refine le_live_of_ancestor? counted hreached hfirst (Nat.le_refl _) fun i hi passed hpassed ↦ ?_
  rcases Nat.lt_succ_iff_lt_or_eq.1 hi with hlt | rfl
  · exact contains_of_ancestor? hreached hlt hpassed
  · obtain rfl : owner = passed := Option.some.inj (hreached.symm.trans hpassed)
    exact contains_of_ownField? hown

/-- No search finds what the search over as many objects as live does not find. -/
theorem getField_of_findField (h : heap.findField key budget handle = .ok (some value)) :
    heap.getField handle key = .ok (some value) := by
  obtain ⟨steps, -, first⟩ := findField_eq_some_iff.1 h
  exact findField_eq_some_iff.2 ⟨steps, first.lt_live counted, first⟩

/-- A field is found exactly if the walk comes to an object that has it, and the value is that of
the first. The walk is over within as many steps as there are living objects: it meets the first
owner before, no longer search finds more, and where the walk alone would never end the search finds
nothing. -/
theorem getField_finds_first_owner (handle : Handle) (key : String) :
    (∀ value, heap.getField handle key = .ok (some value) ↔
      ∃ steps, heap.FirstOwner key handle steps value) ∧
    (∀ steps value, heap.FirstOwner key handle steps value → steps < heap.live) ∧
    (∀ budget value, heap.findField key budget handle = .ok (some value) →
      heap.getField handle key = .ok (some value)) ∧
    ((∀ steps, ∃ last, heap.Comes key handle steps last) →
      heap.getField handle key = .ok none) := by
  refine ⟨fun value ↦ ⟨fun h ↦ ?_, fun ⟨steps, first⟩ ↦ ?_⟩,
    fun steps value first ↦ first.lt_live counted,
    fun budget value ↦ getField_of_findField counted, fun endless ↦ ?_⟩
  · obtain ⟨steps, -, first⟩ := findField_eq_some_iff.1 h
    exact ⟨steps, first⟩
  · exact findField_eq_some_iff.2 ⟨steps, first.lt_live counted, first⟩
  · obtain ⟨last, comes⟩ := endless heap.live
    exact findField_of_comes comes 0

end

/-- Three objects whose prototypes form a circle. The last has a field, and so has the one before
it, under another name. -/
def ring : Heap where
  slots := #[
    { object := some (.plain { prototype := some ⟨1, 0⟩ }) },
    { object := some (.plain { prototype := some ⟨2, 0⟩, fields := [("y", .int 1)] }) },
    { object := some (.plain { prototype := some ⟨0, 0⟩, fields := [("x", .int 2)] }) }]
  live := 3
  stats := { peakLive := 3 }

/-- The walk needs every object of the heap to come to the owner, and without an owner it never
ends. -/
theorem getField_finds_first_owner_ring :
    ring.live = ring.slots.toList.countP (·.object.isSome) ∧
      ring.FirstOwner "x" ⟨0, 0⟩ 2 (.int 2) ∧
      ring.getField ⟨0, 0⟩ "x" = .ok (some (.int 2)) ∧
      (∀ steps, ∃ last, ring.Comes "z" ⟨0, 0⟩ steps last) ∧
      ring.getField ⟨0, 0⟩ "z" = .ok none := by
  have counted : ring.live = ring.slots.toList.countP (·.object.isSome) := rfl
  have first : ring.FirstOwner "x" ⟨0, 0⟩ 2 (.int 2) :=
    firstOwner_succ_iff.2 ⟨rfl, ⟨1, 0⟩, rfl,
      firstOwner_succ_iff.2 ⟨rfl, ⟨2, 0⟩, rfl, firstOwner_zero_iff.2 rfl⟩⟩
  let places : List Handle := [⟨0, 0⟩, ⟨1, 0⟩, ⟨2, 0⟩]
  have onward : ∀ start ∈ places, ring.ownField? "z" start = none ∧
      ∃ next ∈ places, ring.prototype? start = some next := by decide
  have endless (steps : Nat) : ∀ start ∈ places, ∃ last, ring.Comes "z" start steps last := by
    induction steps with
    | zero => exact fun start _ ↦ ⟨start, comes_zero_iff.2 rfl⟩
    | succ steps ih =>
      intro start hstart
      obtain ⟨hown, next, hplace, hnext⟩ := onward start hstart
      obtain ⟨last, rest⟩ := ih next hplace
      exact ⟨last, comes_succ_iff.2 ⟨hown, next, hnext, rest⟩⟩
  have circling (steps : Nat) := endless steps ⟨0, 0⟩ List.mem_cons_self
  have found := getField_finds_first_owner counted ⟨0, 0⟩ "x"
  have missed := getField_finds_first_owner counted ⟨0, 0⟩ "z"
  exact ⟨counted, first, (found.1 _).2 ⟨2, first⟩, circling, missed.2.2.2 circling⟩

end RegisterMachine.Heap

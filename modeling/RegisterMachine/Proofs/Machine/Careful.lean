import RegisterMachine.Proofs.Frame.Held
import RegisterMachine.Proofs.Native.Grounded

/-!
# Operations that meet no stale reference

The parts of an instruction are judged one by one. Most of them do not look into the heap, and fail
for no stale reference whatever they are given. Those that do are safe on a grounded heap, if it
holds the value they start from; what they read is held again, and what they change or make leaves
the heap grounded.
-/

namespace RegisterMachine

/-- Whether a reference was stale. -/
def Fault.isStale : Fault → Bool
  | .heap cause => cause.isStale
  | .native _ cause => cause.isStale
  | _ => false

/-- Whether a fault is neither a stale reference nor the end of a throw. -/
@[simp] def Fault.isBare : Fault → Bool
  | .heap cause => !cause.isStale
  | .native _ cause => !cause.isStale
  | .uncaught _ => false
  | _ => true

theorem Fault.isStale_of_isBare {cause : Fault} (h : cause.isBare = true) :
    cause.isStale = false := by
  cases cause <;> simp_all [Fault.isStale]

/-! ## Computations without stale references -/

/-- A computation that fails neither for a stale reference nor by a throw. -/
def Fresh (computation : Except Fault α) : Prop :=
  Meets (fun cause ↦ cause.isBare = true) (fun _ ↦ True) computation

section Fresh

variable {α β : Type}

@[simp] theorem fresh_ok (value : α) : Fresh (.ok value) := trivial

@[simp] theorem fresh_pure (value : α) : Fresh (pure value) := trivial

@[simp] theorem fresh_error_iff {cause : Fault} :
    Fresh (.error cause : Except Fault α) ↔ cause.isBare = true := .rfl

@[simp] theorem fresh_throw_iff {cause : Fault} :
    Fresh (throw cause : Except Fault α) ↔ cause.isBare = true := .rfl

@[simp] theorem fresh_bind_iff {computation : Except Fault α} {next : α → Except Fault β} :
    Fresh (computation >>= next) ↔
      Fresh computation ∧ ∀ value, computation = .ok value → Fresh (next value) := by
  cases computation with
  | ok value => simp [bind, Except.bind]
  | error cause => simp [bind, Except.bind]

@[simp] theorem fresh_map_iff {computation : Except Fault α} {function : α → β} :
    Fresh (function <$> computation) ↔ Fresh computation := by
  cases computation <;> exact .rfl

theorem Fresh.bind {computation : Except Fault α} {next : α → Except Fault β}
    (first : Fresh computation) (rest : ∀ value, Fresh (next value)) :
    Fresh (computation >>= next) :=
  Meets.bind first fun value _ _ ↦ rest value

/-- The value of a register is held. -/
theorem Fresh.register {heap : Heap} {frame : Frame} {index : UInt8}
    {next : Value → Except Fault α} (held : frame.Held heap)
    (rest : ∀ value, heap.Holds value → Fresh (next value)) :
    Fresh (frame.register index >>= next) := by
  cases hregister : frame.register index with
  | ok value => exact rest value (held.root (Frame.mem_roots_of_register hregister))
  | error cause =>
    unfold Frame.register at hregister
    split at hregister
    · cases hregister
    · cases hregister
      exact rfl

end Fresh

/-! ### Parts that do not look into the heap -/

section Parts

variable (program : Program) (machine : Machine) (frame : Frame) (op : Opcode) (value : Value)

@[simp] theorem intOperand_fresh : Fresh (intOperand op value) := by
  unfold intOperand
  split <;> simp

@[simp] theorem floatOperand_fresh : Fresh (floatOperand op value) := by
  unfold floatOperand
  split <;> simp

@[simp] theorem boolOperand_fresh : Fresh (boolOperand op value) := by
  unfold boolOperand
  split <;> simp

@[simp] theorem indexOperand_fresh : Fresh (indexOperand op value) := by
  rw [indexOperand, fresh_bind_iff]
  refine ⟨intOperand_fresh op value, fun number _ ↦ ?_⟩
  split <;> simp

@[simp] theorem checkTarget_fresh (size : Nat) (target : Int) :
    Fresh (Frame.checkTarget size target) := by
  unfold Frame.checkTarget
  split <;> simp

@[simp] theorem targetOperand_fresh : Fresh (targetOperand program value) := by
  unfold targetOperand
  split <;> simp

@[simp] theorem IntBinary.apply_fresh (op : IntBinary) (x y : Int32) : Fresh (op.apply x y) := by
  have hdivisor : Fresh (divisor y) := by
    unfold divisor
    split <;> simp
  have hcount : Fresh (shiftCount y) := by
    unfold shiftCount
    split <;> simp
  cases op with
  | pow =>
    simp only [IntBinary.apply]
    split <;> simp
  | _ => simp [IntBinary.apply, hdivisor, hcount]

@[simp] theorem Condition.test_fresh (condition : Condition) (x y : Value) :
    Fresh (condition.test op x y) := by
  unfold Condition.test
  split <;> simp

@[simp] theorem fieldName_fresh (index : Nat) : Fresh (Machine.fieldName program index) := by
  unfold Machine.fieldName
  split <;> simp

@[simp] theorem functionValue_fresh (index : Nat) :
    Fresh (Machine.functionValue program index) := by
  unfold Machine.functionValue
  split <;> simp

@[simp] theorem position_fresh (length : Nat) : Fresh (Sequence.position value length) := by
  unfold Sequence.position
  split
  · split <;> simp
  · simp

namespace Frame

@[simp] theorem register_fresh (index : UInt8) : Fresh (frame.register index) := by
  unfold register
  split <;> simp

@[simp] theorem setRegister_fresh (index : UInt8) : Fresh (frame.setRegister index value) := by
  unfold setRegister
  split <;> simp

@[simp] theorem argument_fresh (index : Nat) : Fresh (frame.argument index) := by
  unfold argument
  split <;> simp

@[simp] theorem reserveArguments_fresh (count : Nat) : Fresh (frame.reserveArguments count) := by
  unfold reserveArguments ArgumentBuffer.reserve
  split <;> simp

@[simp] theorem setArgument_fresh (index : Nat) : Fresh (frame.setArgument index value) := by
  unfold setArgument ArgumentBuffer.set
  split <;> simp

@[simp] theorem push_fresh : Fresh (frame.push value) := by
  unfold push
  split <;> simp

@[simp] theorem peek_fresh : Fresh frame.peek := by
  unfold peek
  split <;> simp

@[simp] theorem pop_fresh : Fresh frame.pop := by
  simp [pop]

@[simp] theorem storeLocal_fresh (index : Nat) : Fresh (frame.storeLocal index value) := by
  unfold storeLocal
  split <;> simp

@[simp] theorem addCatch_fresh (register : UInt8) (target : Nat) :
    Fresh (frame.addCatch register target) := by
  unfold addCatch
  split
  · simp
  · split <;> simp

@[simp] theorem endTry_fresh : Fresh frame.endTry := by
  unfold endTry
  split <;> simp

end Frame

@[simp] theorem unlock_fresh (key : LockKey) : Fresh (machine.unlock key) := by
  unfold Machine.unlock
  split <;> simp

@[simp] theorem set_fresh (items : Array Value) (item : Value) (maxLength : Nat) :
    Fresh (Sequence.set items value item maxLength) := by
  unfold Sequence.set
  split <;> simp

end Parts

/-! ### Parts that do -/

/-- A computation that, given what can be trusted, fails neither for a stale reference nor by a
throw, and whose results meet a condition in any case. -/
def Careful (trusted : Prop) (condition : α → Prop) (computation : Except Fault α) : Prop :=
  Meets (fun cause ↦ trusted → cause.isBare = true) condition computation

theorem Careful.fresh {trusted : Prop} {condition : α → Prop} {computation : Except Fault α}
    (careful : Careful trusted condition computation) (h : trusted) : Fresh computation := by
  cases computation with
  | ok value => trivial
  | error cause => exact careful h

theorem Fresh.careful {trusted : Prop} {computation : Except Fault α} (fresh : Fresh computation) :
    Careful trusted (fun _ ↦ True) computation :=
  Meets.mono fresh fun _ bare _ ↦ bare

section Heap

variable {machine : Machine} {value : Value}

theorem object_careful (machine : Machine) (handle : Handle) :
    Careful (machine.heap.Holds (.object handle))
      (fun object ↦ machine.heap.get handle = .ok object) (machine.object handle) := by
  unfold Machine.object
  split
  · next object hget => exact hget
  · next cause hget =>
    intro held
    obtain ⟨object, hlive⟩ := Heap.contains_iff.1 held.contains
    rw [hget] at hlive
    cases hlive

theorem object_fresh {handle : Handle} (held : machine.heap.Holds (.object handle)) :
    Fresh (machine.object handle) :=
  (object_careful machine handle).fresh held

theorem stringKey_fresh (held : machine.heap.Holds value) : Fresh (machine.stringKey value) := by
  cases value with
  | object handle =>
    refine .bind (object_fresh held) fun object ↦ ?_
    cases object <;> simp
  | _ => exact rfl

theorem lockKey_fresh (held : machine.heap.Holds value) : Fresh (machine.lockKey value) := by
  cases value with
  | object handle => exact .bind (object_fresh held) fun _ ↦ fresh_ok _
  | _ => simp [Machine.lockKey]

/-- A container is found by its reference. -/
theorem container_careful {condition : α → Prop} {next : Handle → HeapObject → Except Fault α}
    (op : Opcode)
    (rest : ∀ handle object, value = .object handle → machine.heap.get handle = .ok object →
      Careful (machine.heap.Holds value) condition (next handle object)) :
    Careful (machine.heap.Holds value) condition (do
      let handle ← Machine.containerHandle op value
      next handle (← machine.object handle)) := by
  cases value with
  | object handle =>
    exact (object_careful machine handle).bind fun object _ hget ↦ rest handle object rfl hget
  | _ => exact fun _ ↦ rfl

variable (grounded : machine.heap.Grounded)

include grounded

/-! #### Values that come out -/

theorem loadField_careful (target : Value) (key : String) :
    Careful (machine.heap.Holds target) machine.heap.Holds (machine.loadField target key) := by
  cases target with
  | object handle =>
    apply (object_careful machine handle).bind
    intro object _ hget
    cases object with
    | plain object =>
      have hfound := grounded.findField_meets key machine.heap.live
        (Heap.contains_iff.2 ⟨_, hget⟩)
      dsimp only [Heap.getField]
      split
      · next found heq => exact Heap.holds_getD (hfound.of_ok heq)
      · next cause heq => exact (hfound.of_error heq).elim
    | _ => exact fun _ ↦ rfl
  | _ => exact fun _ ↦ rfl

theorem unbox_careful (boxed : Value) :
    Careful (machine.heap.Holds boxed) machine.heap.Holds (machine.unbox boxed) := by
  cases boxed with
  | object handle =>
    apply (object_careful machine handle).bind
    intro object _ hget
    cases object with
    | boxed inner => exact grounded.holds_child hget (by simp [HeapObject.children])
    | bignum number =>
      dsimp only
      split
      · exact Heap.holds_int _
      · exact fun _ ↦ rfl
    | _ => exact fun _ ↦ rfl
  | _ => exact fun _ ↦ rfl

omit grounded in
theorem get_careful {trusted : Prop} {items : Array Value}
    (hitems : ∀ value ∈ items, machine.heap.Holds value) (key : Value) :
    Careful trusted machine.heap.Holds (Sequence.get items key) := by
  apply (position_fresh key items.size).careful.bind
  intro index _ _
  exact Heap.holds_getD fun item hitem ↦ hitems item (Array.mem_of_getElem? hitem)

theorem containerGet_careful (container key : Value) :
    Careful (machine.heap.Holds container) machine.heap.Holds
      (machine.containerGet container key) := by
  apply container_careful .arrayGet
  intro handle object _ hget
  have hchild {value : Value} (h : value ∈ object.children) : machine.heap.Holds value :=
    grounded.holds_child hget h
  cases object with
  | array items | list items =>
    exact get_careful (fun item hitem ↦ hchild (Array.mem_toList_iff.2 hitem)) key
  | map entries =>
    apply Heap.holds_getD
    intro value hlookup
    exact hchild (List.mem_flatMap.2 ⟨_, Entries.mem_of_lookup hlookup, by simp⟩)
  | set items => exact Heap.Holds.of_scalar rfl
  | _ => exact fun _ ↦ rfl

/-! #### Objects that change -/

/-- An object is replaced by another of the same descent. -/
theorem put_careful {trusted : Prop} {handle : Handle} {old new : HeapObject}
    (hget : machine.heap.get handle = .ok old) (hdescent : new.descent? = old.descent?)
    (hchildren : ∀ child ∈ new.children, child ∈ old.children ∨ machine.heap.Holds child) :
    Careful trusted (fun changed ↦ machine.heap.Develops changed.heap)
      (pure (machine.put handle new)) := by
  apply grounded.put hget hdescent
  intro child hchild
  rcases hchildren child hchild with hold | held
  · exact grounded.holds_child hget hold
  · exact held

theorem storeField_careful {item : Value} (hitem : machine.heap.Holds item) (target : Value)
    (key : String) :
    Careful (machine.heap.Holds target) (fun changed ↦ machine.heap.Develops changed.heap)
      (machine.storeField target key item) := by
  cases target with
  | object handle =>
    apply (object_careful machine handle).bind
    intro object _ hget
    cases object with
    | plain object =>
      apply put_careful grounded hget
      · exact rfl
      · intro child hchild
        rcases List.mem_append.1 hchild with hprototype | hfield
        · exact .inl (List.mem_append_left _ hprototype)
        · obtain ⟨entry, hentry, rfl⟩ := List.mem_map.1 hfield
          rcases Entries.mem_of_insert hentry with hold | rfl
          · exact .inl (List.mem_append_right _ (List.mem_map.2 ⟨entry, hold, rfl⟩))
          · exact .inr hitem
    | _ => exact fun _ ↦ rfl
  | _ => exact fun _ ↦ rfl

omit grounded in
theorem set_careful {trusted : Prop} (items : Array Value) (key item : Value) (maxLength : Nat) :
    Careful trusted (fun result ↦ ∀ value ∈ result, value ∈ items ∨ value = item)
      (Sequence.set items key item maxLength) := by
  unfold Sequence.set
  split
  · exact fun value hvalue ↦ Array.mem_push.1 hvalue
  · apply (position_fresh key items.size).careful.bind
    intro index _ _
    exact fun value hvalue ↦ Array.mem_or_eq_of_mem_setIfInBounds hvalue

omit grounded in
theorem erase_careful {trusted : Prop} (items : Array Value) (key : Value) :
    Careful trusted (fun result ↦ ∀ value ∈ result, value ∈ items) (Sequence.erase items key) := by
  apply (position_fresh key items.size).careful.bind
  intro index _ _ value hvalue
  rw [← Array.mem_toList_iff, Array.toList_eraseIdxIfInBounds] at hvalue
  exact Array.mem_toList_iff.1 (List.mem_of_mem_eraseIdx hvalue)

theorem containerSet_careful {key item : Value} (hkey : machine.heap.Holds key)
    (hitem : machine.heap.Holds item) (container : Value) :
    Careful (machine.heap.Holds container) (fun changed ↦ machine.heap.Develops changed.heap)
      (machine.containerSet container key item) := by
  apply container_careful .arraySet
  intro handle object _ hget
  cases object with
  | array items | list items =>
    apply (set_careful items key item _).bind
    intro result _ hresult
    apply put_careful grounded hget
    · exact rfl
    · intro child hchild
      rcases hresult child (Array.mem_toList_iff.1 hchild) with hold | rfl
      · exact .inl (Array.mem_toList_iff.2 hold)
      · exact .inr hitem
  | map entries =>
    apply put_careful grounded hget
    · exact rfl
    · intro child hchild
      obtain ⟨entry, hentry, hside⟩ := List.mem_flatMap.1 hchild
      rcases Entries.mem_of_insert hentry with hold | rfl
      · exact .inl (List.mem_flatMap.2 ⟨entry, hold, hside⟩)
      · simp only [List.mem_cons, List.not_mem_nil, or_false] at hside
        rcases hside with rfl | rfl
        · exact .inr hkey
        · exact .inr hitem
  | set items =>
    apply put_careful grounded hget
    · exact rfl
    · intro child hchild
      have hmem : child ∈ items ∨ child = key := by
        simp only [HeapObject.children] at hchild
        split at hchild
        · split at hchild
          · exact .inl hchild
          · simpa using hchild
        · exact .inl (List.mem_filter.1 hchild).1
      rcases hmem with hold | rfl
      · exact .inl hold
      · exact .inr hkey
  | _ => exact fun _ ↦ rfl

theorem containerErase_careful (container key : Value) :
    Careful (machine.heap.Holds container) (fun changed ↦ machine.heap.Develops changed.heap)
      (machine.containerErase container key) := by
  apply container_careful .arrayDelete
  intro handle object _ hget
  cases object with
  | array items | list items =>
    apply (erase_careful items key).bind
    intro result _ hresult
    apply put_careful grounded hget
    · exact rfl
    · intro child hchild
      exact .inl (Array.mem_toList_iff.2 (hresult child (Array.mem_toList_iff.1 hchild)))
  | map entries =>
    apply put_careful grounded hget
    · exact rfl
    · intro child hchild
      obtain ⟨entry, hentry, hside⟩ := List.mem_flatMap.1 hchild
      exact .inl (List.mem_flatMap.2 ⟨entry, Entries.mem_of_erase hentry, hside⟩)
  | set items =>
    apply put_careful grounded hget
    · exact rfl
    · intro child hchild
      exact .inl (List.mem_filter.1 hchild).1
  | _ => exact fun _ ↦ rfl

/-! #### Objects that are made -/

/-- A machine has developed, and holds a value. -/
def Yielded (machine : Machine) (made : Value × Machine) : Prop :=
  machine.heap.Develops made.2.heap ∧ made.2.heap.Holds made.1

theorem alloc_fresh (object : HeapObject) : Fresh (machine.alloc object) := by
  unfold Machine.alloc
  split
  · simp
  · next cause heq => simp [(grounded.allocates object).of_error heq]

theorem alloc_careful {object : HeapObject}
    (hchildren : ∀ value ∈ object.children, machine.heap.Holds value)
    (hplain : ∀ prototype, object.descent? = some (some prototype) →
      machine.heap.IsPlain prototype) :
    Careful True (Yielded machine) (machine.alloc object) := by
  have hmade := grounded.allocates object
  unfold Machine.alloc
  split
  · next handle heap heq =>
    have hallocates := hmade.of_ok heq
    exact ⟨hallocates.develops grounded hchildren hplain, hallocates.holds⟩
  · next cause heq =>
    intro _
    simp [hmade.of_error heq]

/-- An object that refers to nothing. -/
theorem alloc_careful_of_closed {object : HeapObject}
    (hchildren : ∀ value ∈ object.children, value.handle? = none)
    (hdescent : ∀ prototype, object.descent? ≠ some (some prototype)) :
    Careful True (Yielded machine) (machine.alloc object) := by
  apply alloc_careful grounded
  · exact fun value hvalue ↦ .of_scalar (hchildren value hvalue)
  · exact fun prototype h ↦ (hdescent prototype h).elim

theorem extend_careful (prototype : Value) :
    Careful (machine.heap.Holds prototype) (Yielded machine) (machine.extend prototype) := by
  cases prototype with
  | object handle =>
    apply (object_careful machine handle).bind
    intro object _ hget
    cases object with
    | plain object =>
      have hlive : machine.heap.Holds (.object handle) :=
        Heap.holds_object_iff.2 (Heap.contains_iff.2 ⟨_, hget⟩)
      have hmade : Careful True (Yielded machine)
          (machine.alloc (.plain { prototype := some handle })) := by
        apply alloc_careful grounded
        · simpa [HeapObject.children] using hlive
        · simpa [HeapObject.descent?] using ⟨object, hget⟩
      exact hmade.mono fun _ bare _ ↦ bare trivial
    | _ => exact fun _ ↦ rfl
  | _ => exact fun _ ↦ rfl

theorem newArray_careful (length : Nat) :
    Careful True (Yielded machine) (machine.newArray length) := by
  unfold Machine.newArray
  split
  · exact fun _ ↦ rfl
  · apply alloc_careful_of_closed grounded
    · intro value hvalue
      rw [(Array.mem_replicate.1 (Array.mem_toList_iff.1 hvalue)).2]
      rfl
    · simp [HeapObject.descent?]

theorem loadConstant_fresh (program : Program) (index : Nat) :
    Fresh (machine.loadConstant program index) := by
  unfold Machine.loadConstant
  split
  · simp
  · simp
  · simp
  · exact alloc_fresh grounded _
  · exact alloc_fresh grounded _
  · split <;> simp

end Heap

end RegisterMachine

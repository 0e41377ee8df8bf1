import RegisterMachine.Proofs.Heap.Grounded
import RegisterMachine.Proofs.Machine.Action

/-!
# Frames whose values a heap holds

Every reference in a frame names a living object. A frame keeps this when a value that is held goes
into a register, onto the stack, into a scratch slot or among the staged arguments, and when values
leave it.
-/

namespace RegisterMachine

namespace Frame

/-- Every value of a frame is held. -/
structure Held (heap : Heap) (frame : Frame) : Prop where
  registers : ∀ value ∈ frame.registers, heap.Holds value
  outgoing : ∀ value ∈ frame.outgoing.slots, heap.Holds value
  arguments : ∀ value ∈ frame.arguments, heap.Holds value
  stack : ∀ value ∈ frame.stack, heap.Holds value
  scratch : ∀ value ∈ frame.scratch, heap.Holds value
  receiver : heap.Holds frame.receiver
  moduleObject : heap.Holds frame.moduleObject

variable {heap later : Heap} {frame result : Frame} {value : Value}

theorem mem_roots_iff : value ∈ frame.roots ↔
    value ∈ frame.registers ∨ value ∈ frame.outgoing.slots ∨ value ∈ frame.arguments ∨
      value ∈ frame.stack ∨ value ∈ frame.scratch ∨ value = frame.receiver ∨
      value = frame.moduleObject := by
  simp [roots]

namespace Held

theorem root (held : frame.Held heap) (hvalue : value ∈ frame.roots) : heap.Holds value := by
  rcases mem_roots_iff.1 hvalue with h | h | h | h | h | rfl | rfl
  · exact held.registers value h
  · exact held.outgoing value h
  · exact held.arguments value h
  · exact held.stack value h
  · exact held.scratch value h
  · exact held.receiver
  · exact held.moduleObject

theorem mono (held : frame.Held heap) (extend : heap.Extends later) : frame.Held later where
  registers value h := extend.holds (held.registers value h)
  outgoing value h := extend.holds (held.outgoing value h)
  arguments value h := extend.holds (held.arguments value h)
  stack value h := extend.holds (held.stack value h)
  scratch value h := extend.holds (held.scratch value h)
  receiver := extend.holds held.receiver
  moduleObject := extend.holds held.moduleObject

theorem of_new {entry : Nat} {options : Options} (h : Frame.new entry options = .ok frame) :
    frame.Held heap := by
  unfold Frame.new at h
  split at h
  · cases h
  · cases h
    constructor <;> simp +contextual

theorem withArguments {arguments : List Value} (held : frame.Held heap)
    (harguments : ∀ value ∈ arguments, heap.Holds value)
    (h : frame.withArguments arguments = .ok result) : result.Held heap := by
  unfold Frame.withArguments at h
  split at h
  · cases h
  · cases h
    exact { held with arguments := harguments }

/-! ## Values that come in -/

theorem mem_or_eq_of_mem_setIfInBounds {size index : Nat} {values : Vector Value size}
    {value other : Value} (h : other ∈ values.setIfInBounds index value) :
    other ∈ values ∨ other = value := by
  rw [← Vector.mem_toArray_iff, Vector.toArray_setIfInBounds] at h
  rw [← Vector.mem_toArray_iff]
  exact Array.mem_or_eq_of_mem_setIfInBounds h

variable (held : frame.Held heap)

include held

/-- A register takes a value, or there is none of this number. -/
theorem setIfInBounds (hvalue : heap.Holds value) (index : Nat) :
    Held heap { frame with registers := frame.registers.setIfInBounds index value } := by
  refine { held with registers := fun other hother ↦ ?_ }
  rcases mem_or_eq_of_mem_setIfInBounds hother with hold | rfl
  · exact held.registers other hold
  · exact hvalue

theorem setRegister {index : UInt8} (hvalue : heap.Holds value)
    (h : frame.setRegister index value = .ok result) : result.Held heap := by
  unfold Frame.setRegister at h
  split at h
  · cases h
    exact held.setIfInBounds hvalue _
  · cases h

theorem push (hvalue : heap.Holds value) (h : frame.push value = .ok result) :
    result.Held heap := by
  unfold Frame.push at h
  split at h
  · cases h
  · cases h
    refine { held with stack := fun other hother ↦ ?_ }
    rcases Array.mem_push.1 hother with hold | rfl
    · exact held.stack other hold
    · exact hvalue

theorem storeLocal {index : Nat} (hvalue : heap.Holds value)
    (h : frame.storeLocal index value = .ok result) : result.Held heap := by
  unfold Frame.storeLocal at h
  split at h
  · cases h
  · cases h
    refine { held with scratch := fun other hother ↦ ?_ }
    rcases Array.mem_or_eq_of_mem_setIfInBounds hother with hold | rfl
    · rcases Array.mem_append.1 hold with hslot | hfill
      · exact held.scratch other hslot
      · rw [(Array.mem_replicate.1 hfill).2]
        exact Heap.holds_null
    · exact hvalue

theorem setArgument {index : Nat} (hvalue : heap.Holds value)
    (h : frame.setArgument index value = .ok result) : result.Held heap := by
  unfold Frame.setArgument ArgumentBuffer.set at h
  split at h
  · cases h
  · cases h
    refine { held with outgoing := fun other hother ↦ ?_ }
    rcases mem_or_eq_of_mem_setIfInBounds hother with hold | rfl
    · exact held.outgoing other hold
    · exact hvalue

/-! ## Values that go out -/

theorem clearArguments {reserved : Nat} : Held heap { frame with outgoing := { reserved } } := by
  refine { held with outgoing := fun other hother ↦ ?_ }
  rw [(Vector.mem_replicate.1 hother).2]
  exact Heap.holds_null

theorem reserveArguments {count : Nat} (h : frame.reserveArguments count = .ok result) :
    result.Held heap := by
  unfold Frame.reserveArguments ArgumentBuffer.reserve at h
  split at h
  · cases h
  · cases h
    exact held.clearArguments

theorem outgoing_arguments (hvalue : value ∈ frame.outgoing.arguments) : heap.Holds value := by
  have hslot : value ∈ frame.outgoing.slots.toList := List.mem_of_mem_take hvalue
  exact held.outgoing value (Vector.mem_toList_iff.1 hslot)

theorem pop {popped : Frame} (h : frame.pop = .ok (value, popped)) : popped.Held heap := by
  unfold Frame.pop at h
  cases hpeek : frame.peek with
  | ok top =>
    rw [hpeek] at h
    cases h
    refine { held with stack := fun other hother ↦ ?_ }
    rw [← Array.mem_toList_iff, Array.toList_pop] at hother
    exact held.stack other (Array.mem_toList_iff.1 (List.dropLast_subset _ hother))
  | error cause =>
    rw [hpeek] at h
    cases h

/-- Try contexts hold no values. -/
theorem addCatch {register : UInt8} {target : Nat}
    (h : frame.addCatch register target = .ok result) : result.Held heap := by
  unfold Frame.addCatch at h
  split at h
  · cases h
  · split at h
    · cases h
    · cases h
      exact { held with }

theorem endTry {finalizer : Option Nat} (h : frame.endTry = .ok (finalizer, result)) :
    result.Held heap := by
  unfold Frame.endTry at h
  split at h
  · cases h
  · cases h
    exact { held with }

theorem halt : frame.halt.Held heap := { held with }

/-- A thrown value goes into a register, and the stack becomes shorter. -/
theorem unwind (hvalue : heap.Holds value) : (frame.unwind value).2.Held heap := by
  unfold Frame.unwind
  split
  · exact { held with }
  · next handler depth outer _ =>
    refine { held.setIfInBounds hvalue handler.register.toNat with stack := fun other hother ↦ ?_ }
    obtain ⟨index, hindex, rfl⟩ := Array.mem_extract_iff_getElem.1 hother
    exact held.stack _ (Array.getElem_mem _)

end Held

end Frame

end RegisterMachine

import RegisterMachine.Machine.Execute
import RegisterMachine.Proofs.Outcome

/-!
# Faults that depend on values

Some faults are about the text of a program: an opcode, a register, a place, a constant, a function
or a number of argument slots that does not exist. One ends a run that throws a
value nothing catches. All others depend on the values at hand, or on what the run has used before,
which are instructions and nested frames. The operations on heaps, values and frames raise only
faults about values, whatever they are given.
-/

namespace RegisterMachine

/-- Whether a fault depends on the values at hand: it is neither about the text of a program nor the
end of a throw. -/
def Fault.isDynamic : Fault → Bool
  | .invalidOpcode _ _ | .invalidRegister _ | .pcOutOfBounds _ | .invalidJumpTarget _
  | .invalidConstant _ | .invalidFunction _ | .invalidModule _ | .tooManyArguments _
  | .uncaught _ => false
  | _ => true

/-- Whether a fault is about what a run uses up as a whole: its instructions, or frames at once. -/
def Fault.isMetered : Fault → Bool
  | .stepBudgetExceeded _ | .callDepthExceeded _ => true
  | _ => false

/-- Whether a fault depends on the values at hand, and on nothing that the run has used up. -/
def Fault.isLocal (cause : Fault) : Bool :=
  cause.isDynamic && !cause.isMetered

theorem Fault.isDynamic_of_isLocal {cause : Fault} (h : cause.isLocal = true) :
    cause.isDynamic = true :=
  (Bool.and_eq_true_iff.1 h).1

/-- A computation whose faults all depend on values. -/
def Dynamic (computation : Except Fault α) : Prop :=
  Meets (fun cause ↦ cause.isLocal = true) (fun _ ↦ True) computation

namespace Dynamic

theorem ok (value : α) : Dynamic (.ok value) := trivial

theorem error {cause : Fault} (h : cause.isLocal = true) :
    Dynamic (.error cause : Except Fault α) := h

theorem bind {computation : Except Fault α} {next : α → Except Fault β}
    (first : Dynamic computation) (rest : ∀ value, Dynamic (next value)) :
    Dynamic (computation >>= next) :=
  Meets.bind first fun value _ _ ↦ rest value

end Dynamic

/-! ## Operands -/

theorem intOperand_dynamic (op : Opcode) (value : Value) : Dynamic (intOperand op value) := by
  unfold intOperand
  split
  · exact .ok _
  · exact .error rfl

theorem floatOperand_dynamic (op : Opcode) (value : Value) : Dynamic (floatOperand op value) := by
  unfold floatOperand
  split
  · exact .ok _
  · exact .error rfl

theorem boolOperand_dynamic (op : Opcode) (value : Value) : Dynamic (boolOperand op value) := by
  unfold boolOperand
  split
  · exact .ok _
  · exact .error rfl

theorem indexOperand_dynamic (op : Opcode) (value : Value) : Dynamic (indexOperand op value) := by
  refine .bind (intOperand_dynamic op value) fun number ↦ ?_
  split
  · exact .ok _
  · exact .error rfl

theorem IntBinary.apply_dynamic (op : IntBinary) (x y : Int32) : Dynamic (op.apply x y) := by
  have hdivisor : Dynamic (divisor y) := by
    unfold divisor
    split
    · exact .error rfl
    · exact .ok _
  have hcount : Dynamic (shiftCount y) := by
    unfold shiftCount
    split
    · exact .error rfl
    · exact .ok _
  cases op with
  | add | sub | mul | and | or | xor | cmp => exact .ok _
  | div | rem | mod => exact hdivisor.bind fun _ ↦ .ok _
  | shl | lsl | shr | lsr => exact hcount.bind fun _ ↦ .ok _
  | pow =>
    simp only [IntBinary.apply]
    split
    · exact .error rfl
    · exact .ok _

theorem Condition.test_dynamic (condition : Condition) (op : Opcode) (x y : Value) :
    Dynamic (condition.test op x y) := by
  unfold Condition.test
  split
  · exact .ok _
  · exact .ok _
  · exact .ok _
  · exact .ok _
  · exact .error rfl

/-! ## Frames -/

namespace Frame

theorem argument_dynamic (frame : Frame) (index : Nat) : Dynamic (frame.argument index) := by
  unfold argument
  split
  · exact .ok _
  · exact .error rfl

theorem setArgument_dynamic (frame : Frame) (index : Nat) (value : Value) :
    Dynamic (frame.setArgument index value) := by
  refine .bind ?_ fun _ ↦ .ok _
  unfold ArgumentBuffer.set
  split
  · exact .error rfl
  · exact .ok _

theorem push_dynamic (frame : Frame) (value : Value) : Dynamic (frame.push value) := by
  unfold push
  split
  · exact .error rfl
  · exact .ok _

theorem peek_dynamic (frame : Frame) : Dynamic frame.peek := by
  unfold peek
  split
  · exact .ok _
  · exact .error rfl

theorem pop_dynamic (frame : Frame) : Dynamic frame.pop :=
  frame.peek_dynamic.bind fun _ ↦ .ok _

theorem storeLocal_dynamic (frame : Frame) (index : Nat) (value : Value) :
    Dynamic (frame.storeLocal index value) := by
  unfold storeLocal
  split
  · exact .error rfl
  · exact .ok _

theorem endTry_dynamic (frame : Frame) : Dynamic frame.endTry := by
  unfold endTry
  split
  · exact .error rfl
  · exact .ok _

theorem addCatch_dynamic (frame : Frame) {register : UInt8} (h : register.toNat < registerCount)
    (target : Nat) : Dynamic (frame.addCatch register target) := by
  unfold addCatch
  rw [if_neg (Nat.not_le.2 h)]
  split
  · exact .error rfl
  · exact .ok _

end Frame

/-! ## Machines -/

namespace Machine

theorem alloc_dynamic (machine : Machine) (object : HeapObject) :
    Dynamic (machine.alloc object) := by
  unfold alloc
  split
  · exact .ok _
  · exact .error rfl

theorem object_dynamic (machine : Machine) (handle : Handle) : Dynamic (machine.object handle) := by
  unfold object
  split
  · exact .ok _
  · exact .error rfl

theorem stringKey_dynamic (machine : Machine) (key : Value) : Dynamic (machine.stringKey key) := by
  unfold stringKey
  split
  · refine .bind (machine.object_dynamic _) fun object ↦ ?_
    split
    · exact .ok _
    · exact .error rfl
  · exact .error rfl

theorem loadField_dynamic (machine : Machine) (target : Value) (key : String) :
    Dynamic (machine.loadField target key) := by
  unfold loadField
  split
  · refine .bind (machine.object_dynamic _) fun object ↦ ?_
    split
    · split
      · exact .ok _
      · exact .error rfl
    · exact .error rfl
  · exact .error rfl

theorem storeField_dynamic (machine : Machine) (target : Value) (key : String) (value : Value) :
    Dynamic (machine.storeField target key value) := by
  unfold storeField
  split
  · refine .bind (machine.object_dynamic _) fun object ↦ ?_
    split
    · exact .ok _
    · exact .error rfl
  · exact .error rfl

theorem extend_dynamic (machine : Machine) (prototype : Value) :
    Dynamic (machine.extend prototype) := by
  unfold extend
  split
  · refine .bind (machine.object_dynamic _) fun object ↦ ?_
    split
    · exact machine.alloc_dynamic _
    · exact .error rfl
  · exact .error rfl

theorem unbox_dynamic (machine : Machine) (value : Value) : Dynamic (machine.unbox value) := by
  unfold unbox
  split
  · refine .bind (machine.object_dynamic _) fun object ↦ ?_
    split
    · exact .ok _
    · split
      · exact .ok _
      · exact .error rfl
    · exact .error rfl
  · exact .error rfl

theorem lockKey_dynamic (machine : Machine) (value : Value) : Dynamic (machine.lockKey value) := by
  unfold lockKey
  split
  · exact .ok _
  · exact .bind (machine.object_dynamic _) fun _ ↦ .ok _
  · exact .error rfl

theorem unlock_dynamic (machine : Machine) (key : LockKey) : Dynamic (machine.unlock key) := by
  unfold unlock
  split
  · exact .ok _
  · exact .error rfl

theorem containerHandle_dynamic (op : Opcode) (value : Value) :
    Dynamic (containerHandle op value) := by
  unfold containerHandle
  split
  · exact .ok _
  · exact .error rfl

theorem callNative_dynamic (machine : Machine) (id : UInt32) (receiver : Value)
    (arguments : List Value) : Dynamic (machine.callNative id receiver arguments).1 := by
  unfold callNative
  split
  · exact .error rfl
  · split
    · exact .error rfl
    · next result _ =>
      cases result.answer with
      | ok value => exact .ok _
      | error cause => exact .error rfl

theorem newArray_dynamic (machine : Machine) (length : Nat) :
    Dynamic (machine.newArray length) := by
  unfold newArray
  split
  · exact .error rfl
  · exact machine.alloc_dynamic _

end Machine

/-! ## Containers -/

theorem Sequence.position_dynamic (key : Value) (length : Nat) :
    Dynamic (Sequence.position key length) := by
  unfold Sequence.position
  split
  · split
    · exact .ok _
    · exact .error rfl
  · exact .error rfl

theorem Sequence.set_dynamic (items : Array Value) (key value : Value) (maxLength : Nat) :
    Dynamic (Sequence.set items key value maxLength) := by
  unfold Sequence.set
  split
  · exact .ok _
  · exact .bind (position_dynamic key _) fun _ ↦ .ok _

namespace Machine

theorem containerGet_dynamic (machine : Machine) (container key : Value) :
    Dynamic (machine.containerGet container key) := by
  refine .bind (containerHandle_dynamic _ container) fun handle ↦ ?_
  refine .bind (machine.object_dynamic handle) fun object ↦ ?_
  split
  · exact .bind (Sequence.position_dynamic key _) fun _ ↦ .ok _
  · exact .bind (Sequence.position_dynamic key _) fun _ ↦ .ok _
  · exact .ok _
  · exact .ok _
  · exact .error rfl

theorem containerSet_dynamic (machine : Machine) (container key value : Value) :
    Dynamic (machine.containerSet container key value) := by
  refine .bind (containerHandle_dynamic _ container) fun handle ↦ ?_
  refine .bind (machine.object_dynamic handle) fun object ↦ ?_
  split
  · exact .bind (Sequence.set_dynamic _ key value _) fun _ ↦ .ok _
  · exact .bind (Sequence.set_dynamic _ key value _) fun _ ↦ .ok _
  · exact .ok _
  · exact .ok _
  · exact .error rfl

theorem containerErase_dynamic (machine : Machine) (container key : Value) :
    Dynamic (machine.containerErase container key) := by
  refine .bind (containerHandle_dynamic _ container) fun handle ↦ ?_
  refine .bind (machine.object_dynamic handle) fun object ↦ ?_
  split
  · exact .bind (.bind (Sequence.position_dynamic key _) fun _ ↦ .ok _) fun _ ↦ .ok _
  · exact .bind (.bind (Sequence.position_dynamic key _) fun _ ↦ .ok _) fun _ ↦ .ok _
  · exact .ok _
  · exact .ok _
  · exact .error rfl

end Machine

end RegisterMachine

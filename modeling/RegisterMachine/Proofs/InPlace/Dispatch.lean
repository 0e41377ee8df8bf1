import RegisterMachine.Proofs.InPlace.Instruction

/-!
# Instructions do all or nothing

What an instruction does in place is what it is described to come to; where the description fails,
machine and frame are left as they were. The parts of instructions are compared first, then each
instruction is put together from looks at the state, which change nothing, and one part at its end.
-/

namespace RegisterMachine

namespace InPlace

open Work

variable {program : Program} {actions : List (String × Action)} {core : Core}

namespace Core

/-- A changed frame. -/
def framed (core : Core) (frame : Frame) : Except Fault Unit × Core :=
  (.ok (), { core with frame })

/-- A changed machine. -/
def changed (core : Core) (machine : Machine) : Except Fault Unit × Core :=
  (.ok (), { core with machine })

/-- A value and a changed machine. -/
def made (core : Core) (result : Value × Machine) : Except Fault Value × Core :=
  (.ok result.1, { core with machine := result.2 })

/-- A result and a changed frame. -/
def taken (core : Core) (result : α × Frame) : Except Fault α × Core :=
  (.ok result.1, { core with frame := result.2 })

/-- What the effect of an instruction stands for. -/
def carry (program : Program) (actions : List (String × Action)) (core : Core) :
    Effect → Except Fault Flow × Core
  | .next machine frame => (.ok .next, ⟨machine, frame⟩)
  | .jump frame target => (.ok (.jump target), { core with frame })
  | .leave value => (.ok (.leave value), core)
  | .throw value => (.error (.uncaught value), core)
  | .call frame destination callee receiver arguments =>
    (callValue program actions destination callee receiver arguments).on { core with frame }
  | .wait => (.ok .wait, core)

end Core

/-! ## Parts that change the frame -/

@[simp] theorem on_alter (update : Frame → Frame) :
    (alter update).on core = (.ok (), { core with frame := update core.frame }) := rfl

theorem setRegister_realizes (index : UInt8) (value : Value) :
    (setRegister index value).Realizes core.framed core (core.frame.setRegister index value) := by
  unfold setRegister Frame.setRegister
  split
  · rfl
  · rfl

theorem reserveArguments_realizes (count : Nat) :
    (reserveArguments count).Realizes core.framed core (core.frame.reserveArguments count) := by
  unfold reserveArguments Frame.reserveArguments ArgumentBuffer.reserve
  by_cases hmany : count > maxArguments
  · simp only [refuse, if_pos hmany]
    rfl
  · simp only [refuse, if_neg hmany]
    rfl

theorem setArgument_realizes (index : Nat) (value : Value) :
    (setArgument index value).Realizes core.framed core (core.frame.setArgument index value) := by
  unfold setArgument Frame.setArgument ArgumentBuffer.set
  refine .get ?_
  by_cases hfree : index ≥ core.frame.outgoing.reserved
  · simp only [refuse, if_pos hfree]
    rfl
  · simp only [refuse, if_neg hfree]
    rfl

theorem pushValue_realizes (value : Value) :
    (pushValue value).Realizes core.framed core (core.frame.push value) := by
  unfold pushValue Frame.push
  refine .get (.get (.refuse ?_))
  rfl

/-- A pop that fails took nothing from the empty stack. -/
theorem popValue_realizes : popValue.Realizes core.taken core core.frame.pop := by
  unfold popValue Frame.pop Frame.peek
  refine .get ?_
  cases htop : core.frame.stack.back? with
  | some value => rfl
  | none =>
    have hempty : core.frame.stack = #[] := Array.back?_eq_none_iff.1 htop
    have hsame : core.frame.stack.pop = core.frame.stack := by rw [hempty, Array.pop_empty]
    simp only [Realizes, on_bind, on_alter, on_fail, hsame]
    rfl

theorem storeLocal_realizes (index : Nat) (value : Value) :
    (storeLocal index value).Realizes core.framed core (core.frame.storeLocal index value) := by
  unfold storeLocal Frame.storeLocal
  refine .get (.refuse ?_)
  rfl

theorem addCatch_realizes (index : UInt8) (target : Nat) :
    (addCatch index target).Realizes core.framed core (core.frame.addCatch index target) := by
  unfold addCatch Frame.addCatch
  refine .refuse (.get ?_)
  cases core.frame.tries with
  | nil => rfl
  | cons innermost outer => rfl

/-- Closing a context that is not there closes none. -/
theorem endTry_realizes : endTry.Realizes core.taken core core.frame.endTry := by
  unfold endTry Frame.endTry
  refine .get ?_
  cases htries : core.frame.tries with
  | nil =>
    have hsame : core.frame.tries.tail = core.frame.tries := by rw [htries, List.tail_nil]
    simp only [Realizes, on_bind, on_alter, on_fail, List.head?_nil, hsame]
    rfl
  | cons innermost outer =>
    simp only [Realizes, on_bind, on_alter, on_pure, List.head?_cons, htries, List.tail_cons]
    rfl

/-! ## Parts that make objects -/

theorem alloc_realizes (object : HeapObject) :
    (alloc object).Realizes core.made core (core.machine.alloc object) := by
  have hallocate : (allocate object).on core.machine.heap = _ :=
    allocate_realizes object core.machine.heap
  unfold Realizes alloc Machine.alloc
  rw [on_bind, on_within, hallocate]
  cases core.machine.heap.alloc object <;> rfl

theorem loadConstant_realizes (index : Nat) :
    (loadConstant program index).Realizes core.made core
      (core.machine.loadConstant program index) := by
  unfold loadConstant Machine.loadConstant
  cases program.constants.get? index with
  | none => rfl
  | some constant =>
    cases constant with
    | int | float => rfl
    | str | big => exact alloc_realizes _
    | native name =>
      dsimp only
      refine .get ?_
      cases core.machine.natives.lookup? name with
      | some id => rfl
      | none => rfl

theorem newArray_realizes (length : Nat) :
    (newArray length).Realizes core.made core (core.machine.newArray length) :=
  .get (.refuse (alloc_realizes _))

theorem extend_realizes (prototype : Value) :
    (extend prototype).Realizes core.made core (core.machine.extend prototype) := by
  cases prototype with
  | object handle =>
    refine .look fun found ↦ ?_
    cases found with
    | plain _ => exact alloc_realizes _
    | _ => rfl
  | _ => rfl

/-! ## Parts that change the machine -/

theorem storeField_realizes (target : Value) (key : String) (value : Value) :
    (storeField target key value).Realizes core.changed core
      (core.machine.storeField target key value) := by
  cases target with
  | object handle =>
    refine .look fun found ↦ ?_
    cases found <;> rfl
  | _ => rfl

theorem containerSet_realizes (container key value : Value) :
    (containerSet container key value).Realizes core.changed core
      (core.machine.containerSet container key value) := by
  refine .look fun handle ↦ .get (.look fun found ↦ ?_)
  cases found with
  | array | list => exact .look fun items ↦ rfl
  | set items =>
    cases value.isTruthy with
    | true => rfl
    | false => rfl
  | _ => rfl

theorem containerErase_realizes (container key : Value) :
    (containerErase container key).Realizes core.changed core
      (core.machine.containerErase container key) := by
  refine .look fun handle ↦ .look fun found ↦ ?_
  cases found with
  | array | list => exact .look fun items ↦ rfl
  | _ => rfl

theorem unlock_realizes (key : LockKey) :
    (unlock key).Realizes core.changed core (core.machine.unlock key) := by
  unfold Realizes unlock Machine.unlock
  rw [on_bind, on_look]
  cases core.machine.locks.unlock key core.machine.id <;> rfl

/-! ## Ends of instructions -/

theorem andNext_onFrame {work : Task Unit} {result : Except Fault Frame}
    (h : work.Realizes core.framed core result) :
    (andNext work).Realizes (core.carry program actions) core
      (Effect.onFrame core.machine result) := by
  unfold Realizes at h
  unfold Realizes andNext
  rw [on_bind, h]
  cases result <;> rfl

theorem andNext_onMachine {work : Task Unit} {result : Except Fault Machine}
    (h : work.Realizes core.changed core result) :
    (andNext work).Realizes (core.carry program actions) core
      (Effect.onMachine core.frame result) := by
  unfold Realizes at h
  unfold Realizes andNext
  rw [on_bind, h]
  cases result <;> rfl

theorem assign_realizes (index : UInt8) (value : Value) :
    (assign index value).Realizes (core.carry program actions) core
      (Effect.assign core.machine core.frame index value) :=
  andNext_onFrame (setRegister_realizes index value)

theorem on_assign_of_lt {index : UInt8} (hindex : index.toNat < registerCount) (value : Value) :
    (assign index value).on core =
      (.ok .next, { core with
        frame.registers := core.frame.registers.setIfInBounds index.toNat value }) := by
  unfold assign andNext setRegister
  rw [if_pos hindex]
  rfl

/-- Setting a register that exists cannot fail, whatever was changed before. -/
theorem on_assign {index : UInt8} (hindex : index.toNat < registerCount) (value : Value)
    (before : Core) :
    (assign index value).on core = settle (before.carry program actions) before
      (Effect.assign core.machine core.frame index value) := by
  unfold Effect.assign Frame.setRegister
  rw [on_assign_of_lt hindex, if_pos hindex]
  rfl

theorem assign_assignFrom {work : Task Value} {result : Except Fault (Value × Machine)}
    {index : UInt8} (hindex : index.toNat < registerCount)
    (h : work.Realizes core.made core result) :
    (work >>= assign index).Realizes (core.carry program actions) core
      (Effect.assignFrom core.frame index result) :=
  .andThen h fun made ↦ on_assign hindex made.1 core

theorem branch_realizes (taken : Except Fault Bool) (target : Except Fault Nat) :
    (branch taken target).Realizes (core.carry program actions) core
      (Effect.branch core.machine core.frame taken target) := by
  refine .look fun truth ↦ ?_
  cases truth with
  | true => exact .look fun place ↦ rfl
  | false => rfl

theorem invoke_realizes (destination : UInt8) (callee receiver : Value) :
    (invoke program actions destination callee receiver).Realizes (core.carry program actions) core
      (.ok (Effect.invoke core.frame destination callee receiver)) := rfl

/-- An instruction whose registers exist does in place what it is described to come to. -/
theorem dispatch_realizes (op : Opcode) {operands : Operands} (inRange : operands.InRange) :
    (dispatch program actions op operands).Realizes (core.carry program actions) core
      (execute program core.machine core.frame op operands) := by
  have ha := inRange.a_lt
  cases op with
  | nop | breakpoint | halt | returnNull | endFunction | returnSelf | newTryNoFinal => rfl
  | loadNull | loadFalse | loadTrue | loadInt | loadLocal | getThis | getModule =>
    exact assign_realizes _ _
  | loadArg | stackPeek | move | declareFunction =>
    exact .look fun value ↦ assign_realizes _ _
  | loadArgIndirect | declareFunctionIndirect =>
    exact .look fun index ↦ .look fun number ↦ .look fun value ↦ assign_realizes _ _
  | loadLocalIndirect =>
    exact .look fun index ↦ .look fun number ↦ assign_realizes _ _
  | loadField => exact .look fun key ↦ .look fun value ↦ assign_realizes _ _
  | loadFieldIndirect =>
    refine .look fun name ↦ .look fun key ↦ .look fun holder ↦ .look fun value ↦ ?_
    exact assign_realizes _ _
  | loadConst => exact assign_assignFrom ha (loadConstant_realizes _)
  | loadConstIndirect =>
    refine .look fun index ↦ .look fun number ↦ ?_
    exact assign_assignFrom ha (loadConstant_realizes _)
  | storeLocal => exact .look fun value ↦ andNext_onFrame (storeLocal_realizes _ _)
  | storeLocalIndirect =>
    refine .look fun index ↦ .look fun number ↦ .look fun value ↦ ?_
    exact andNext_onFrame (storeLocal_realizes _ _)
  | storeField =>
    refine .look fun key ↦ .look fun value ↦ .get ?_
    exact andNext_onMachine (storeField_realizes _ _ _)
  | storeFieldIndirect =>
    refine .look fun name ↦ .look fun key ↦ .look fun target ↦ .look fun value ↦ ?_
    exact andNext_onMachine (storeField_realizes _ _ _)
  | stackPop => exact .andThen popValue_realizes fun popped ↦ on_assign ha popped.1 core
  | stackPush | stackDup => exact .look fun value ↦ andNext_onFrame (pushValue_realizes _)
  | jump => exact .look fun place ↦ rfl
  | jumpIndirect => exact .look fun value ↦ .look fun place ↦ rfl
  | jumpIf condition =>
    exact .look fun x ↦ .look fun y ↦ .look fun value ↦ branch_realizes _ _
  | jumpIfZero condition => exact .look fun x ↦ branch_realizes _ _
  | jumpIfZeroIndirect condition =>
    exact .look fun x ↦ .look fun value ↦ branch_realizes _ _
  | returnValue | throw => exact .look fun value ↦ rfl
  | reserveArgs => exact andNext_onFrame (reserveArguments_realizes _)
  | reserveArgsIndirect =>
    exact .look fun value ↦ .look fun count ↦ andNext_onFrame (reserveArguments_realizes _)
  | setArg => exact .look fun value ↦ andNext_onFrame (setArgument_realizes _ _)
  | setArgIndirect =>
    refine .look fun index ↦ .look fun number ↦ .look fun value ↦ ?_
    exact andNext_onFrame (setArgument_realizes _ _)
  | call =>
    refine .get (.look fun name ↦ .look fun key ↦ .look fun callee ↦ ?_)
    by_cases hnull : callee = .null
    · simp only [refuse, if_pos hnull]
      rfl
    · simp only [refuse, if_neg hnull]
      rfl
  | localCall => exact .look fun callee ↦ invoke_realizes _ _ _
  | dynamicCall => exact .look fun receiver ↦ .look fun callee ↦ invoke_realizes _ _ _
  | setThis | setModule => exact .look fun value ↦ rfl
  | boolBinary operation | floatBinary operation =>
    refine .look fun b ↦ .look fun x ↦ .look fun c ↦ .look fun y ↦ ?_
    exact assign_realizes _ _
  | intBinary operation =>
    refine .look fun b ↦ .look fun x ↦ .look fun c ↦ .look fun y ↦ .look fun z ↦ ?_
    exact assign_realizes _ _
  | boolNot | intNeg | intCpl | intInc | intDec | floatUnary | floatInc | floatDec | boolToInt
  | intToBool | intToFloat | floatToInt =>
    exact .look fun value ↦ .look fun x ↦ assign_realizes _ _
  | newObject => exact assign_assignFrom ha (alloc_realizes _)
  | extend => exact .look fun prototype ↦ assign_assignFrom ha (extend_realizes _)
  | boxBool | boxInt | boxFloat =>
    exact .look fun value ↦ .look fun x ↦ assign_assignFrom ha (alloc_realizes _)
  | unbox => exact .look fun boxed ↦ .look fun value ↦ assign_realizes _ _
  | lock =>
    refine .look fun value ↦ .look fun key ↦ ?_
    unfold Realizes lock
    rw [on_bind, on_look]
    cases core.machine.locks.attempt key core.machine.id core.machine.options.lockTimeout with
    | ok outcome => cases outcome <;> rfl
    | error cause => rfl
  | unlock =>
    exact .look fun value ↦ .look fun key ↦ andNext_onMachine (unlock_realizes _)
  | arrayNew => exact assign_assignFrom ha (newArray_realizes _)
  | arrayNewIndirect =>
    exact .look fun value ↦ .look fun length ↦ assign_assignFrom ha (newArray_realizes _)
  | arrayGet =>
    exact .look fun container ↦ .look fun key ↦ .look fun value ↦ assign_realizes _ _
  | arraySet =>
    refine .look fun container ↦ .look fun key ↦ .look fun value ↦ ?_
    exact andNext_onMachine (containerSet_realizes _ _ _)
  | arrayDelete =>
    exact .look fun container ↦ .look fun key ↦ andNext_onMachine (containerErase_realizes _ _)
  | newTry => exact .look fun finalizer ↦ rfl
  | newTryIndirect => exact .look fun value ↦ .look fun finalizer ↦ rfl
  | addCatch => exact .look fun place ↦ andNext_onFrame (addCatch_realizes _ _)
  | addCatchIndirect =>
    exact .look fun value ↦ .look fun place ↦ andNext_onFrame (addCatch_realizes _ _)
  | endTry =>
    refine .andThen endTry_realizes fun closed ↦ ?_
    obtain ⟨_ | finalizer, frame⟩ := closed
    · rfl
    · rfl

end InPlace

end RegisterMachine

import RegisterMachine.Proofs.Machine.Dynamic

/-!
# What one instruction can do

The instructions of the machine come down to a few actions: a register receives a value, an object
is made or changed, the stack, the scratch slots, the staged arguments or the try contexts change,
or control goes elsewhere. `Acts` lists these actions with where their values come from, and
`Raisable` says which faults about the text of the program are left. The main statement is that an
instruction whose registers exist does nothing else and raises nothing else. Everything that holds
of all instructions is derived from it.
-/

namespace RegisterMachine

/-! ## Actions -/

/-- Where a value that an instruction moves comes from. -/
inductive Source (machine : Machine) (frame : Frame) : Value → Prop
  | scalar {value : Value} : value.handle? = none → Source machine frame value
  | held {value : Value} : value ∈ frame.roots → Source machine frame value
  | field {target value : Value} {key : String} :
      machine.loadField target key = .ok value → Source machine frame value
  | entry {container key value : Value} :
      machine.containerGet container key = .ok value → Source machine frame value
  | unboxed {boxed value : Value} : machine.unbox boxed = .ok value → Source machine frame value

/-- How an instruction makes an object: the result is its value and the machine that has it. -/
inductive Creates (machine : Machine) (frame : Frame) : Value × Machine → Prop
  | text {content : String} {result : Value × Machine} :
      machine.alloc (.str content) = .ok result → Creates machine frame result
  | number {content : Bignum} {result : Value × Machine} :
      machine.alloc (.bignum content) = .ok result → Creates machine frame result
  | box {content : Value} {result : Value × Machine} : content.handle? = none →
      machine.alloc (.boxed content) = .ok result → Creates machine frame result
  | object {result : Value × Machine} :
      machine.alloc (.plain {}) = .ok result → Creates machine frame result
  | extension {prototype : Value} {result : Value × Machine} : prototype ∈ frame.roots →
      machine.extend prototype = .ok result → Creates machine frame result
  | array {length : Nat} {result : Value × Machine} :
      machine.newArray length = .ok result → Creates machine frame result

/-- How an instruction changes an object or a lock. -/
inductive Updates (machine : Machine) (frame : Frame) : Machine → Prop
  | field {target value : Value} {key : String} {result : Machine} :
      target ∈ frame.roots → value ∈ frame.roots →
      machine.storeField target key value = .ok result → Updates machine frame result
  | entry {container key value : Value} {result : Machine} :
      container ∈ frame.roots → key ∈ frame.roots → value ∈ frame.roots →
      machine.containerSet container key value = .ok result → Updates machine frame result
  | removal {container key : Value} {result : Machine} :
      container ∈ frame.roots → key ∈ frame.roots →
      machine.containerErase container key = .ok result → Updates machine frame result
  | acquired {key : LockKey} {locks : LockTable} :
      machine.locks.attempt key machine.id machine.options.lockTimeout = .ok (.acquired locks) →
      Updates machine frame { machine with locks }
  | released {key : LockKey} {result : Machine} :
      machine.unlock key = .ok result → Updates machine frame result

/-- What an instruction of an opcode can do to a machine and the frame that executes it. -/
inductive Acts (program : Program) (machine : Machine) (frame : Frame) (op : Opcode) : Effect → Prop
  | skip : Acts program machine frame op (.next machine frame)
  | assign {index : UInt8} {value : Value} {result : Frame} : Source machine frame value →
      frame.setRegister index value = .ok result →
      Acts program machine frame op (.next machine result)
  | create {index : UInt8} {value : Value} {changed : Machine} {result : Frame} :
      Creates machine frame (value, changed) → frame.setRegister index value = .ok result →
      Acts program machine frame op (.next changed result)
  | update {changed : Machine} : Updates machine frame changed →
      Acts program machine frame op (.next changed frame)
  | receiver {value : Value} : value ∈ frame.roots →
      Acts program machine frame op (.next machine { frame with receiver := value })
  | moduleObject {value : Value} : value ∈ frame.roots →
      Acts program machine frame op (.next machine { frame with moduleObject := value })
  | push {value : Value} {result : Frame} : value ∈ frame.roots → frame.push value = .ok result →
      Acts program machine frame op (.next machine result)
  | pop {index : UInt8} {value : Value} {popped result : Frame} : value ∈ frame.roots →
      frame.pop = .ok (value, popped) → popped.setRegister index value = .ok result →
      Acts program machine frame op (.next machine result)
  | storeLocal {index : Nat} {value : Value} {result : Frame} : value ∈ frame.roots →
      frame.storeLocal index value = .ok result →
      Acts program machine frame op (.next machine result)
  | reserve {count : Nat} {result : Frame} : frame.reserveArguments count = .ok result →
      Acts program machine frame op (.next machine result)
  | stage {index : Nat} {value : Value} {result : Frame} : value ∈ frame.roots →
      frame.setArgument index value = .ok result →
      Acts program machine frame op (.next machine result)
  | openTry {finalizer : Option Nat} : (∀ place ∈ finalizer, place ≤ program.size) →
      Acts program machine frame op (.next machine (frame.openTry finalizer))
  | addCatch {register : UInt8} {target : Nat} {result : Frame} : target ≤ program.size →
      frame.addCatch register target = .ok result →
      Acts program machine frame op (.next machine result)
  | closeTry {result : Frame} : frame.endTry = .ok (none, result) →
      Acts program machine frame op (.next machine result)
  | finalize {place : Nat} {result : Frame} : frame.endTry = .ok (some place, result) →
      Acts program machine frame op (.jump result place)
  | jump {target : Nat} : target ≤ program.size →
      Acts program machine frame op (.jump frame target)
  | leave {value : Value} : Source machine frame value →
      Acts program machine frame op (.leave value)
  | throw {value : Value} : op = .throw → value ∈ frame.roots →
      Acts program machine frame op (.throw value)
  | call {destination : UInt8} {callee receiver : Value} : op.isCall = true →
      destination.toNat < registerCount → Source machine frame callee →
      Source machine frame receiver →
      Acts program machine frame op
        (.call { frame with outgoing := {} } destination callee receiver frame.outgoing.arguments)
  | wait : op = .lock → Acts program machine frame op .wait

variable {program : Program} {machine : Machine} {frame : Frame} {op : Opcode} {immediate : Nat}

theorem Acts.isCall {result : Frame} {destination : UInt8} {callee receiver : Value}
    {arguments : List Value}
    (h : Acts program machine frame op (.call result destination callee receiver arguments)) :
    op.isCall = true := by
  cases h
  assumption

/-- A call has a register for its result, and takes nothing but the staged arguments. -/
theorem Acts.of_call {result : Frame} {destination : UInt8} {callee receiver : Value}
    {arguments : List Value}
    (h : Acts program machine frame op (.call result destination callee receiver arguments)) :
    destination.toNat < registerCount ∧ result = { frame with outgoing := {} } ∧
      arguments = frame.outgoing.arguments := by
  cases h
  exact ⟨by assumption, rfl, rfl⟩

/-! ## Faults about the text -/

/-- Whether an instruction continues, or has a try context continue, at a place in a register. -/
def Opcode.hasTargetRegister : Opcode → Bool
  | .jumpIndirect | .jumpIf _ | .jumpIfZeroIndirect _ | .newTryIndirect | .addCatchIndirect => true
  | _ => false

/-- The faults that an instruction can raise once its registers exist: those about the text are left
only where an immediate names nothing, or where a register takes the place of the immediate. It does
not look at what the run has used up. -/
def Raisable (program : Program) (op : Opcode) (immediate : Nat) : Fault → Prop
  | .invalidOpcode _ _ | .invalidRegister _ | .pcOutOfBounds _ | .invalidModule _
  | .uncaught _ | .stepBudgetExceeded _ | .callDepthExceeded _ => False
  | .invalidJumpTarget _ =>
    op.hasTargetRegister = true ∨ op.hasTargetImmediate = true ∧ program.size < immediate
  | .invalidConstant _ =>
    op = .loadConstIndirect ∨ op = .loadConst ∧ program.constants.get? immediate = none ∨
      (op = .loadField ∨ op = .storeField) ∧ program.constants.getString? immediate = none
  | .invalidFunction _ =>
    op = .declareFunctionIndirect ∨ op = .declareFunction ∧ program.functions.size ≤ immediate
  | .tooManyArguments _ =>
    op = .reserveArgsIndirect ∨ op = .reserveArgs ∧ maxArguments < immediate
  | _ => True

theorem raisable_of_isLocal {cause : Fault} (h : cause.isLocal = true) :
    Raisable program op immediate cause := by
  cases cause with
  | invalidOpcode | invalidRegister | pcOutOfBounds | invalidJumpTarget | invalidConstant
  | invalidFunction | invalidModule | tooManyArguments | uncaught | stepBudgetExceeded
  | callDepthExceeded => cases h
  | _ => trivial

/-! ## Values that a frame holds -/

namespace Frame

theorem mem_roots_of_register {index : UInt8} {value : Value}
    (h : frame.register index = .ok value) : value ∈ frame.roots := by
  unfold register at h
  split at h
  · next found heq =>
    cases h
    have hmem : value ∈ frame.registers := Vector.mem_of_getElem? heq
    simp [roots, hmem]
  · cases h

theorem mem_roots_of_argument {index : Nat} {value : Value} (h : frame.argument index = .ok value) :
    value ∈ frame.roots := by
  unfold argument at h
  split at h
  · next found heq =>
    cases h
    have hmem : value ∈ frame.arguments := List.mem_of_getElem? heq
    simp [roots, hmem]
  · cases h

theorem mem_roots_of_peek {value : Value} (h : frame.peek = .ok value) : value ∈ frame.roots := by
  unfold peek at h
  split at h
  · next found heq =>
    cases h
    have hmem : value ∈ frame.stack := Array.mem_of_back? heq
    simp [roots, hmem]
  · cases h

theorem mem_roots_of_pop {value : Value} {popped : Frame} (h : frame.pop = .ok (value, popped)) :
    value ∈ frame.roots := by
  unfold pop at h
  cases hpeek : frame.peek with
  | ok top =>
    rw [hpeek] at h
    cases h
    exact mem_roots_of_peek hpeek
  | error cause =>
    rw [hpeek] at h
    cases h

theorem receiver_mem_roots : frame.receiver ∈ frame.roots := by
  simp [roots]

theorem moduleObject_mem_roots : frame.moduleObject ∈ frame.roots := by
  simp [roots]

end Frame

/-- A scratch slot that was never written counts as null. -/
theorem Source.ofLocal (index : Nat) : Source machine frame (frame.loadLocal index) := by
  unfold Frame.loadLocal
  cases hslot : frame.scratch[index]? with
  | none => exact .scalar rfl
  | some value =>
    have hmem : value ∈ frame.scratch := Array.mem_of_getElem? hslot
    exact .held (by simp [Frame.roots, hmem])

/-! ## Instructions -/

/-- A computation that does what an instruction can do, and raises what it can raise. -/
def Behaves (program : Program) (machine : Machine) (frame : Frame) (op : Opcode)
    (immediate : Nat) : Except Fault Effect → Prop :=
  Meets (Raisable program op immediate) (Acts program machine frame op)

namespace Behaves

variable {index : UInt8} {value : Value}

/-- A part that does not depend on the text. -/
theorem bind {computation : Except Fault α} {next : α → Except Fault Effect}
    (first : Dynamic computation)
    (rest : ∀ value, computation = .ok value →
      Behaves program machine frame op immediate (next value)) :
    Behaves program machine frame op immediate (computation >>= next) :=
  (Meets.mono first fun _ ↦ raisable_of_isLocal).bind fun value h _ ↦ rest value h

/-- A register that exists is read. -/
theorem register {next : Value → Except Fault Effect} (h : index.toNat < registerCount)
    (rest : ∀ value ∈ frame.roots, Behaves program machine frame op immediate (next value)) :
    Behaves program machine frame op immediate (frame.register index >>= next) := by
  have hread : frame.register index = .ok frame.registers[index.toNat] := by
    unfold Frame.register
    rw [Vector.getElem?_eq_getElem h]
  rw [hread]
  exact rest _ (Frame.mem_roots_of_register hread)

/-- A register that exists is set, in the frame or in a part of it that is left. -/
theorem setRegister {changed : Machine} {rest : Frame} (h : index.toNat < registerCount)
    (acts : ∀ result, rest.setRegister index value = .ok result →
      Acts program machine frame op (.next changed result)) :
    Behaves program machine frame op immediate (Effect.assign changed rest index value) := by
  have hset : rest.setRegister index value = .ok { rest with
      registers := rest.registers.setIfInBounds index.toNat value } := if_pos h
  unfold Effect.assign
  rw [hset]
  exact acts _ hset

theorem assign (h : index.toNat < registerCount) (source : Source machine frame value) :
    Behaves program machine frame op immediate (Effect.assign machine frame index value) :=
  setRegister h fun _ ↦ .assign source

/-- The result of a computation that makes an object goes into a register. -/
theorem assignFrom {result : Except Fault (Value × Machine)} (h : index.toNat < registerCount)
    (dynamic : Dynamic result) (creates : ∀ made, result = .ok made → Creates machine frame made) :
    Behaves program machine frame op immediate (Effect.assignFrom frame index result) := by
  refine bind dynamic fun made hmade ↦ ?_
  exact setRegister h fun _ ↦ .create (creates made hmade)

theorem onFrame {result : Except Fault Frame} (dynamic : Dynamic result)
    (acts : ∀ changed, result = .ok changed →
      Acts program machine frame op (.next machine changed)) :
    Behaves program machine frame op immediate (Effect.onFrame machine result) :=
  bind dynamic acts

theorem onMachine {result : Except Fault Machine} (dynamic : Dynamic result)
    (updates : ∀ changed, result = .ok changed → Updates machine frame changed) :
    Behaves program machine frame op immediate (Effect.onMachine frame result) :=
  bind dynamic fun changed h ↦ Acts.update (updates changed h)

theorem branch {taken : Except Fault Bool} {target : Except Fault Nat} (dynamic : Dynamic taken)
    (place : Meets (Raisable program op immediate) (· ≤ program.size) target) :
    Behaves program machine frame op immediate (Effect.branch machine frame taken target) := by
  refine bind dynamic fun answer _ ↦ ?_
  cases answer with
  | true => exact place.bind fun _ _ h ↦ Acts.jump h
  | false => exact Acts.skip

end Behaves

/-! ### Places, constants and functions by number -/

theorem checkTarget_meets (h : op.hasTargetImmediate = true) :
    Meets (Raisable program op immediate) (· ≤ program.size)
      (Frame.checkTarget program.size immediate) := by
  unfold Frame.checkTarget
  split
  · next hrange => exact Int.toNat_le.2 hrange.2
  · next hrange => exact .inr ⟨h, by omega⟩

theorem targetOperand_meets (h : op.hasTargetRegister = true) (value : Value) :
    Meets (Raisable program op immediate) (· ≤ program.size) (targetOperand program value) := by
  unfold targetOperand
  split
  · unfold Frame.checkTarget
    split
    · next hrange => exact Int.toNat_le.2 hrange.2
    · exact .inl h
  · trivial

theorem fieldName_meets (h : op = .loadField ∨ op = .storeField) :
    Meets (Raisable program op immediate) (fun _ ↦ True) (Machine.fieldName program immediate) := by
  unfold Machine.fieldName
  split
  · trivial
  · next hnone => exact .inr (.inr ⟨h, hnone⟩)

theorem functionValue_meets {index : Nat}
    (h : program.functions.size ≤ index ∨ 2 ^ 16 ≤ index →
      Raisable program op immediate (.invalidFunction index)) :
    Meets (Raisable program op immediate) (fun value ↦ value.handle? = none)
      (Machine.functionValue program index) := by
  unfold Machine.functionValue
  split
  · rfl
  · exact h (by omega)

/-- A constant is loaded from the pool, or made from it. -/
theorem Behaves.loadConstant {register : UInt8} {index : Nat}
    (hregister : register.toNat < registerCount)
    (h : program.constants.get? index = none →
      Raisable program op immediate (.invalidConstant index)) :
    Behaves program machine frame op immediate
      (Effect.assignFrom frame register (machine.loadConstant program index)) := by
  unfold Machine.loadConstant
  split
  · next hnone => exact h hnone
  · exact Behaves.assign hregister (.scalar rfl)
  · exact Behaves.assign hregister (.scalar rfl)
  · exact Behaves.assignFrom hregister (machine.alloc_dynamic _) fun _ ↦ .text
  · exact Behaves.assignFrom hregister (machine.alloc_dynamic _) fun _ ↦ .number
  · split
    · exact Behaves.assign hregister (.scalar rfl)
    · trivial

theorem Behaves.reserve {count : Nat}
    (h : maxArguments < count → Raisable program op immediate (.tooManyArguments count)) :
    Behaves program machine frame op immediate
      (Effect.onFrame machine (frame.reserveArguments count)) := by
  have hreserve : Meets (Raisable program op immediate) (fun _ ↦ True)
      (frame.reserveArguments count) := by
    unfold Frame.reserveArguments ArgumentBuffer.reserve
    split
    · next hmany => exact h hmany
    · trivial
  exact hreserve.bind fun _ hresult _ ↦ Acts.reserve hresult

/-! ### All instructions -/

/-- The registers of an instruction exist. -/
structure Operands.InRange (operands : Operands) : Prop where
  a_lt : operands.a.toNat < registerCount
  b_lt : operands.b.toNat < registerCount
  c_lt : operands.c.toNat < registerCount

/-- An instruction whose registers exist does nothing but its actions, and of the faults about the
text it raises only those that its immediate or a register in its place leaves open. -/
theorem execute_behaves {operands : Operands} (h : operands.InRange) :
    Behaves program machine frame op operands.immediate.toNat
      (execute program machine frame op operands) := by
  obtain ⟨ha, hb, hc⟩ := h
  cases op with
  | nop | breakpoint => exact Acts.skip
  | halt | returnNull | endFunction => exact Acts.leave (.scalar rfl)
  | loadNull | loadFalse | loadTrue | loadInt => exact .assign ha (.scalar rfl)
  | loadArg =>
    refine .bind (frame.argument_dynamic _) fun value hvalue ↦ ?_
    exact .assign ha (.held (Frame.mem_roots_of_argument hvalue))
  | loadArgIndirect =>
    refine .register hb fun index _ ↦ .bind (indexOperand_dynamic _ index) fun number _ ↦ ?_
    refine .bind (frame.argument_dynamic number) fun value hvalue ↦ ?_
    exact .assign ha (.held (Frame.mem_roots_of_argument hvalue))
  | loadLocal => exact .assign ha (.ofLocal _)
  | loadLocalIndirect =>
    refine .register hb fun index _ ↦ .bind (indexOperand_dynamic _ index) fun number _ ↦ ?_
    exact .assign ha (.ofLocal number)
  | loadField =>
    refine (fieldName_meets (.inl rfl)).bind fun key _ _ ↦ ?_
    refine Behaves.bind (machine.loadField_dynamic _ key) fun value hvalue ↦ ?_
    exact .assign ha (.field hvalue)
  | loadFieldIndirect =>
    refine .register hc fun name _ ↦ .bind (machine.stringKey_dynamic name) fun key _ ↦ ?_
    refine .register hb fun target _ ↦ ?_
    refine .bind (machine.loadField_dynamic target key) fun value hvalue ↦ ?_
    exact .assign ha (.field hvalue)
  | loadConst => exact .loadConstant ha fun hnone ↦ .inr (.inl ⟨rfl, hnone⟩)
  | loadConstIndirect =>
    refine .register hb fun index _ ↦ .bind (indexOperand_dynamic _ index) fun number _ ↦ ?_
    exact .loadConstant ha fun _ ↦ .inl rfl
  | storeLocal =>
    exact .register ha fun value hvalue ↦
      .onFrame (frame.storeLocal_dynamic _ value) fun _ ↦ .storeLocal hvalue
  | storeLocalIndirect =>
    refine .register hb fun index _ ↦ .bind (indexOperand_dynamic _ index) fun number _ ↦ ?_
    exact .register ha fun value hvalue ↦
      .onFrame (frame.storeLocal_dynamic number value) fun _ ↦ .storeLocal hvalue
  | storeField =>
    refine (fieldName_meets (.inr rfl)).bind fun key _ _ ↦ ?_
    exact Behaves.register ha fun value hvalue ↦ .onMachine (machine.storeField_dynamic _ key value)
      fun _ ↦ .field Frame.receiver_mem_roots hvalue
  | storeFieldIndirect =>
    refine .register hb fun name _ ↦ .bind (machine.stringKey_dynamic name) fun key _ ↦ ?_
    refine .register ha fun target htarget ↦ .register hc fun value hvalue ↦ ?_
    exact .onMachine (machine.storeField_dynamic target key value) fun _ ↦ .field htarget hvalue
  | move => exact .register hb fun value hvalue ↦ .assign ha (.held hvalue)
  | stackPop =>
    refine .bind frame.pop_dynamic fun popped hpopped ↦ ?_
    exact .setRegister ha fun _ ↦ .pop (Frame.mem_roots_of_pop hpopped) hpopped
  | stackPush =>
    exact .register ha fun value hvalue ↦ .onFrame (frame.push_dynamic value) fun _ ↦ .push hvalue
  | stackPeek =>
    exact .bind frame.peek_dynamic fun value hvalue ↦
      .assign ha (.held (Frame.mem_roots_of_peek hvalue))
  | stackDup =>
    exact .bind frame.peek_dynamic fun value hvalue ↦
      .onFrame (frame.push_dynamic value) fun _ ↦ .push (Frame.mem_roots_of_peek hvalue)
  | jump => exact (checkTarget_meets rfl).bind fun _ _ h ↦ Acts.jump h
  | jumpIndirect =>
    exact .register ha fun value _ ↦ (targetOperand_meets rfl value).bind fun _ _ h ↦ Acts.jump h
  | jumpIf condition =>
    refine .register ha fun x _ ↦ .register hb fun y _ ↦ .register hc fun value _ ↦ ?_
    exact .branch (condition.test_dynamic _ x y) (targetOperand_meets rfl value)
  | jumpIfZero condition =>
    exact .register ha fun x _ ↦ .branch (condition.test_dynamic _ x _) (checkTarget_meets rfl)
  | jumpIfZeroIndirect condition =>
    refine .register ha fun x _ ↦ .register hb fun value _ ↦ ?_
    exact .branch (condition.test_dynamic _ x _) (targetOperand_meets rfl value)
  | returnValue => exact .register ha fun value hvalue ↦ Acts.leave (.held hvalue)
  | returnSelf => exact Acts.leave (.held Frame.receiver_mem_roots)
  | reserveArgs => exact .reserve fun hmany ↦ .inr ⟨rfl, hmany⟩
  | reserveArgsIndirect =>
    refine .register ha fun index _ ↦ .bind (indexOperand_dynamic _ index) fun number _ ↦ ?_
    exact .reserve fun _ ↦ .inl rfl
  | setArg =>
    exact .register ha fun value hvalue ↦
      .onFrame (frame.setArgument_dynamic _ value) fun _ ↦ .stage hvalue
  | setArgIndirect =>
    refine .register hb fun index _ ↦ .bind (indexOperand_dynamic _ index) fun number _ ↦ ?_
    exact .register ha fun value hvalue ↦
      .onFrame (frame.setArgument_dynamic number value) fun _ ↦ .stage hvalue
  | call =>
    refine .register hb fun name _ ↦ .bind (machine.stringKey_dynamic name) fun key _ ↦ ?_
    refine .bind (machine.loadField_dynamic frame.receiver key) fun callee hcallee ↦ ?_
    split
    · trivial
    · exact Acts.call rfl ha (.field hcallee) (.held Frame.receiver_mem_roots)
  | localCall =>
    exact .register hb fun callee hcallee ↦ Acts.call rfl ha (.held hcallee) (.scalar rfl)
  | dynamicCall =>
    refine .register hb fun receiver hreceiver ↦ .register hc fun callee hcallee ↦ ?_
    exact Acts.call rfl ha (.held hcallee) (.held hreceiver)
  | setThis => exact .register ha fun _ hvalue ↦ Acts.receiver hvalue
  | setModule => exact .register ha fun _ hvalue ↦ Acts.moduleObject hvalue
  | getThis => exact .assign ha (.held Frame.receiver_mem_roots)
  | getModule => exact .assign ha (.held Frame.moduleObject_mem_roots)
  | boolBinary operation =>
    refine .register hb fun first _ ↦ .bind (boolOperand_dynamic _ first) fun x _ ↦ ?_
    refine .register hc fun second _ ↦ .bind (boolOperand_dynamic _ second) fun y _ ↦ ?_
    exact .assign ha (.scalar (by cases operation <;> rfl))
  | intBinary operation =>
    refine .register hb fun first _ ↦ .bind (intOperand_dynamic _ first) fun x _ ↦ ?_
    refine .register hc fun second _ ↦ .bind (intOperand_dynamic _ second) fun y _ ↦ ?_
    exact .bind (operation.apply_dynamic x y) fun _ _ ↦ .assign ha (.scalar rfl)
  | floatBinary operation =>
    refine .register hb fun first _ ↦ .bind (floatOperand_dynamic _ first) fun x _ ↦ ?_
    refine .register hc fun second _ ↦ .bind (floatOperand_dynamic _ second) fun y _ ↦ ?_
    exact .assign ha (.scalar (by cases operation <;> rfl))
  | boolNot | boolToInt =>
    exact .register hb fun value _ ↦ .bind (boolOperand_dynamic _ value) fun _ _ ↦
      .assign ha (.scalar rfl)
  | intNeg | intCpl | intToBool | intToFloat =>
    exact .register hb fun value _ ↦ .bind (intOperand_dynamic _ value) fun _ _ ↦
      .assign ha (.scalar rfl)
  | floatUnary | floatToInt =>
    exact .register hb fun value _ ↦ .bind (floatOperand_dynamic _ value) fun _ _ ↦
      .assign ha (.scalar rfl)
  | intInc | intDec =>
    exact .register ha fun value _ ↦ .bind (intOperand_dynamic _ value) fun _ _ ↦
      .assign ha (.scalar rfl)
  | floatInc | floatDec =>
    exact .register ha fun value _ ↦ .bind (floatOperand_dynamic _ value) fun _ _ ↦
      .assign ha (.scalar rfl)
  | newObject => exact .assignFrom ha (machine.alloc_dynamic _) fun _ ↦ .object
  | extend =>
    exact .register hb fun prototype hprototype ↦
      .assignFrom ha (machine.extend_dynamic prototype) fun _ ↦ .extension hprototype
  | boxBool =>
    refine .register hb fun value _ ↦ .bind (boolOperand_dynamic _ value) fun _ _ ↦ ?_
    exact .assignFrom ha (machine.alloc_dynamic _) fun _ ↦ .box rfl
  | boxInt =>
    refine .register hb fun value _ ↦ .bind (intOperand_dynamic _ value) fun _ _ ↦ ?_
    exact .assignFrom ha (machine.alloc_dynamic _) fun _ ↦ .number
  | boxFloat =>
    refine .register hb fun value _ ↦ .bind (floatOperand_dynamic _ value) fun _ _ ↦ ?_
    exact .assignFrom ha (machine.alloc_dynamic _) fun _ ↦ .box rfl
  | unbox =>
    refine .register hb fun boxed _ ↦ .bind (machine.unbox_dynamic boxed) fun value hvalue ↦ ?_
    exact .assign ha (.unboxed hvalue)
  | lock =>
    refine .register ha fun value _ ↦ .bind (machine.lockKey_dynamic value) fun key _ ↦ ?_
    split
    · next hattempt => exact Acts.update (.acquired hattempt)
    · exact Acts.wait rfl
    · trivial
  | unlock =>
    refine .register ha fun value _ ↦ .bind (machine.lockKey_dynamic value) fun key _ ↦ ?_
    exact .onMachine (machine.unlock_dynamic key) fun _ ↦ .released
  | arrayNew => exact .assignFrom ha (machine.newArray_dynamic _) fun _ ↦ .array
  | arrayNewIndirect =>
    refine .register hb fun index _ ↦ .bind (indexOperand_dynamic _ index) fun length _ ↦ ?_
    exact .assignFrom ha (machine.newArray_dynamic length) fun _ ↦ .array
  | arrayGet =>
    refine .register hb fun container _ ↦ .register hc fun key _ ↦ ?_
    exact .bind (machine.containerGet_dynamic container key) fun value hvalue ↦
      .assign ha (.entry hvalue)
  | arraySet =>
    refine .register ha fun container hcontainer ↦ .register hb fun key hkey ↦ ?_
    exact .register hc fun value hvalue ↦
      .onMachine (machine.containerSet_dynamic container key value) fun _ ↦
        .entry hcontainer hkey hvalue
  | arrayDelete =>
    refine .register ha fun container hcontainer ↦ .register hb fun key hkey ↦ ?_
    exact .onMachine (machine.containerErase_dynamic container key) fun _ ↦ .removal hcontainer hkey
  | newTry =>
    exact (checkTarget_meets rfl).bind fun _ _ hplace ↦ Acts.openTry (by simpa using hplace)
  | newTryIndirect =>
    exact .register ha fun value _ ↦ (targetOperand_meets rfl value).bind fun _ _ hplace ↦
      Acts.openTry (by simpa using hplace)
  | newTryNoFinal => exact Acts.openTry (by simp)
  | addCatch =>
    exact (checkTarget_meets rfl).bind fun target _ hplace ↦
      Behaves.onFrame (frame.addCatch_dynamic ha target) fun _ ↦ .addCatch hplace
  | addCatchIndirect =>
    exact .register hb fun value _ ↦ (targetOperand_meets rfl value).bind fun target _ hplace ↦
      Behaves.onFrame (frame.addCatch_dynamic ha target) fun _ ↦ .addCatch hplace
  | throw => exact .register ha fun _ hvalue ↦ Acts.throw rfl hvalue
  | endTry =>
    refine .bind frame.endTry_dynamic fun closed hclosed ↦ ?_
    obtain ⟨finalizer | finalizer, result⟩ := closed
    · exact Acts.closeTry hclosed
    · exact Acts.finalize hclosed
  | declareFunction =>
    refine (functionValue_meets fun hrange ↦ .inr ⟨rfl, ?_⟩).bind fun _ _ hvalue ↦
      Behaves.assign ha (.scalar hvalue)
    have := operands.immediate.toNat_lt
    omega
  | declareFunctionIndirect =>
    refine .register hb fun index _ ↦ .bind (indexOperand_dynamic _ index) fun number _ ↦ ?_
    exact (functionValue_meets fun _ ↦ .inl rfl).bind fun _ _ hvalue ↦
      Behaves.assign ha (.scalar hvalue)

end RegisterMachine

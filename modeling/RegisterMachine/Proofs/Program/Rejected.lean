import RegisterMachine.Proofs.Program.Verified

/-!
# Words that verification rejects

Verification rejects a word only if the machine could not execute it. Both look at the opcode, the
registers and the immediate in the same order, so the run ends with the fault that the reason of the
rejection foretells. A place beyond the end of the code is the only reason with a choice: a
conditional jump that is not taken does not look at its place, and goes on. In no case does the
frame go to a rejected place or remember it.
-/

namespace RegisterMachine

/-! ## Reasons and faults -/

/-- The fault that a reason of rejection foretells. Of a place beyond the end of the code it depends
on the frame whether there is one. -/
inductive VerifyError.Foretells : VerifyError → Fault → Prop
  | opcode (byte : UInt8) (pc : Nat) : Foretells (.invalidOpcode byte pc) (.invalidOpcode byte pc)
  | register (register : UInt8) (pc : Nat) :
      Foretells (.invalidRegister register pc) (.invalidRegister register)
  | constant (index pc : Nat) : Foretells (.invalidConstantRef index pc) (.invalidConstant index)
  | fieldName (index pc : Nat) : Foretells (.invalidFieldName index pc) (.invalidConstant index)
  | function (index pc : Nat) : Foretells (.invalidFunctionRef index pc) (.invalidFunction index)
  /-- More slots are to be reserved than there are. -/
  | count {count : Nat} (pc : Nat) : maxArguments < count →
      Foretells (.argumentIndexOutOfRange count pc) (.tooManyArguments count)
  /-- A slot is to be filled that does not exist. -/
  | slot {index : Nat} (pc : Nat) : maxArguments ≤ index →
      Foretells (.argumentIndexOutOfRange index pc) (.argumentIndexOutOfRange index)

variable {program : Program} {limits : Limits} {machine : Machine} {frame : Frame} {op : Opcode}
  {operands : Operands} {pc : Nat} {reason : VerifyError}

theorem VerifyError.Foretells.ne_uncaught {cause : Fault} (foretells : reason.Foretells cause)
    (value : Value) : cause ≠ .uncaught value := by
  cases foretells <;> exact nofun

/-! ## Opcode and registers -/

/-- The frame when it has fetched a word, of which it remembers the opcode byte. -/
def Frame.fetching (frame : Frame) (word : UInt32) : Frame :=
  { frame with opcode := (Instruction.decode word).code }

/-- Registers that an instruction does not have count as register zero. -/
theorem Operands.exists_zeros (operands : Operands) : ∃ count,
    [operands.a, operands.b, operands.c] = operands.registers ++ List.replicate count 0 := by
  cases operands with
  | none | imm => exact ⟨3, rfl⟩
  | regs1 | immReg => exact ⟨2, rfl⟩
  | regs2 => exact ⟨1, rfl⟩
  | regs3 => exact ⟨0, rfl⟩

/-- Register zero exists, so the first register out of range is one that the instruction has. -/
theorem Operands.find?_registers (operands : Operands) :
    [operands.a, operands.b, operands.c].find? (fun index ↦ index.toNat ≥ registerCount) =
      operands.registers.find? fun index ↦ index.toNat ≥ registerCount := by
  obtain ⟨count, hzeros⟩ := operands.exists_zeros
  have hnone : (List.replicate count (0 : UInt8)).find?
      (fun index ↦ index.toNat ≥ registerCount) = Option.none := by
    rw [List.find?_eq_none]
    intro index hindex
    rw [List.eq_of_mem_replicate hindex]
    decide
  rw [hzeros, List.find?_append, hnone, Option.or_none]

theorem checkRegisters_of_find? {register : UInt8}
    (h : (operands.registers.find? fun index ↦ index.toNat ≥ registerCount) = some register) :
    checkRegisters operands = .error (.invalidRegister register) := by
  rw [checkRegisters, operands.find?_registers, h]

theorem Operands.inRange_of_find?
    (h : (operands.registers.find? fun index ↦ index.toNat ≥ registerCount) = Option.none) :
    operands.InRange := by
  apply Program.inRange_of_registers
  intro register hregister
  simpa using List.find?_eq_none.1 h register hregister

namespace State

theorem fetch_eq_of_opcode?_eq_none {word : UInt32} (hword : program.fetch? frame.pc = some word)
    (hop : (Instruction.decode word).opcode? = none) :
    fetch program frame = (frame.fetching word,
      .error (.invalidOpcode (Instruction.decode word).code frame.pc)) := by
  rw [fetch, hword]
  simp only [hop]
  rfl

theorem fetch_eq_of_opcode?_eq_some {word : UInt32} (hword : program.fetch? frame.pc = some word)
    (hop : (Instruction.decode word).opcode? = some op) :
    fetch program frame = (frame.fetching word,
      (checkRegisters (Instruction.decode word).operands).map fun _ ↦
        (op, (Instruction.decode word).operands)) := by
  rw [fetch, hword]
  simp only [hop]
  rfl

end State

/-! ## Immediates -/

theorem Frame.exists_register {index : UInt8} (h : index.toNat < registerCount) (frame : Frame) :
    ∃ value, frame.register index = .ok value :=
  ⟨frame.registers[index.toNat], by rw [register, Vector.getElem?_eq_getElem h]⟩

/-- A constant that is rejected as a field name is refused as one, for whichever of the two reasons
it was rejected. -/
theorem fieldName_of_verifyImmediate {index : Nat} (hop : op = .loadField ∨ op = .storeField)
    (hreject : program.verifyImmediate pc op index = .error reason) :
    reason.Foretells (.invalidConstant index) ∧
      Machine.fieldName program index = .error (.invalidConstant index) := by
  -- A store is checked as a load is.
  have hload : program.verifyImmediate pc .loadField index = .error reason := by
    rcases hop with rfl | rfl <;> exact hreject
  simp only [Program.verifyImmediate] at hload
  unfold Machine.fieldName ConstantPool.getString?
  split at hload
  · next hnone =>
    cases hload
    rw [hnone]
    exact ⟨.constant index pc, rfl⟩
  · cases hload
  · next constant hstr hget =>
    cases hload
    refine ⟨.fieldName index pc, ?_⟩
    rw [hget]
    cases constant with
    | str value => exact absurd rfl (hstr value)
    | _ => rfl

/-- An instruction whose immediate names nothing raises the fault that is foretold. Of the frame it
matters only that it has no more slots reserved than there are. -/
theorem execute_of_verifyImmediate (hrange : operands.InRange) (valid : frame.Valid program limits)
    (hreject : program.verifyImmediate pc op operands.immediate.toNat = .error reason) :
    ∃ cause, reason.Foretells cause ∧ execute program machine frame op operands = .error cause := by
  cases op with
  | loadConst =>
    simp only [Program.verifyImmediate] at hreject
    split at hreject
    · cases hreject
    · next hnone =>
      cases hreject
      rw [Option.not_isSome_iff_eq_none] at hnone
      refine ⟨_, .constant _ _, ?_⟩
      simp only [execute, Machine.loadConstant, hnone]
      rfl
  | loadField | storeField =>
    obtain ⟨hforetold, hname⟩ := fieldName_of_verifyImmediate (by simp) hreject
    refine ⟨_, hforetold, ?_⟩
    simp only [execute, hname]
    rfl
  | declareFunction =>
    simp only [Program.verifyImmediate] at hreject
    split at hreject
    · cases hreject
    · next hindex =>
      cases hreject
      have hmissing : Machine.functionValue program operands.immediate.toNat =
          .error (.invalidFunction operands.immediate.toNat) :=
        if_neg fun h ↦ hindex h.1
      refine ⟨_, .function _ _, ?_⟩
      simp only [execute, hmissing]
      rfl
  | reserveArgs =>
    simp only [Program.verifyImmediate] at hreject
    split at hreject
    · cases hreject
    · next hcount =>
      cases hreject
      refine ⟨_, .count _ (Nat.not_le.1 hcount), ?_⟩
      simp only [execute, Frame.reserveArguments, ArgumentBuffer.reserve,
        if_pos (Nat.not_le.1 hcount)]
      rfl
  | setArg =>
    simp only [Program.verifyImmediate] at hreject
    split at hreject
    · cases hreject
    · next hindex =>
      cases hreject
      have hslot := Nat.not_lt.1 hindex
      have hreserved := Nat.le_trans valid.outgoing_valid.reserved_le hslot
      obtain ⟨value, hvalue⟩ := frame.exists_register hrange.a_lt
      refine ⟨_, .slot _ hslot, ?_⟩
      simp only [execute, hvalue, Frame.setArgument, ArgumentBuffer.set, if_pos hreserved]
      rfl
  | _ => cases hreject

/-! ## Places -/

theorem checkTarget_of_lt {size place : Nat} (h : size < place) :
    Frame.checkTarget size place = .error (.invalidJumpTarget place) :=
  if_neg (by omega)

/-- An instruction with a place beyond the end of the code fails, unless it is a conditional jump
whose condition does not hold. -/
theorem execute_beyond (hrange : operands.InRange) (hop : op.hasTargetImmediate = true)
    (hbeyond : program.size < operands.immediate.toNat) :
    (∃ cause, (∀ value, cause ≠ .uncaught value) ∧
      execute program machine frame op operands = .error cause) ∨
    ∃ condition value, op = .jumpIfZero condition ∧ frame.register operands.a = .ok value ∧
      condition.test op value (.int 0) = .ok false ∧
      execute program machine frame op operands = .ok (.next machine frame) := by
  have htarget := checkTarget_of_lt hbeyond
  cases op with
  | jump | newTry | addCatch =>
    refine .inl ⟨.invalidJumpTarget operands.immediate.toNat, fun _ ↦ nofun, ?_⟩
    simp only [execute, htarget]
    rfl
  | jumpIfZero condition =>
    obtain ⟨value, hvalue⟩ := frame.exists_register hrange.a_lt
    have hexecute : execute program machine frame (.jumpIfZero condition) operands =
        Effect.branch machine frame (condition.test (.jumpIfZero condition) value (.int 0))
          (.error (.invalidJumpTarget operands.immediate.toNat)) := by
      simp only [execute, hvalue, htarget]
      rfl
    have hdynamic := condition.test_dynamic (.jumpIfZero condition) value (.int 0)
    rw [hexecute]
    cases htest : condition.test (.jumpIfZero condition) value (.int 0) with
    | error cause =>
      rw [htest] at hdynamic
      refine .inl ⟨cause, ?_, rfl⟩
      rintro thrown rfl
      cases hdynamic
    | ok taken =>
      cases taken with
      | true => exact .inl ⟨.invalidJumpTarget operands.immediate.toNat, fun _ ↦ nofun, rfl⟩
      | false => exact .inr ⟨condition, value, rfl, hvalue, htest, rfl⟩
  | _ => cases hop

/-- A frame that neither stands at a place nor remembers it. -/
structure Frame.Avoids (frame : Frame) (place : Nat) : Prop where
  pc_ne : frame.pc ≠ place
  finalizer_ne : ∀ context ∈ frame.tries, context.finalizer ≠ some place
  target_ne : ∀ context ∈ frame.tries, ∀ handler ∈ context.catches, handler.target ≠ place

theorem Frame.Valid.avoids {place : Nat} (valid : frame.Valid program limits)
    (h : program.size < place) : frame.Avoids place where
  pc_ne := Nat.ne_of_lt (Nat.lt_of_le_of_lt valid.pc_le h)
  finalizer_ne context hcontext hplace :=
    Nat.not_le.2 h ((valid.tries_valid context hcontext).finalizer_le place hplace)
  target_ne context hcontext handler hhandler :=
    have hle := ((valid.tries_valid context hcontext).catches_valid handler hhandler).target_le
    Nat.ne_of_lt (Nat.lt_of_le_of_lt hle h)

/-! ## Steps -/

namespace State

variable {state : State} {word : UInt32}

/-- The word that is executed ends the run with a fault, and not with a thrown value. The frame
stays where it is. -/
structure FailsOn (program : Program) (state : State) (word : UInt32) (cause : Fault) : Prop where
  ne_uncaught : ∀ value, cause ≠ .uncaught value
  step_eq : state.step program =
    fault state.counted (state.frame.fetching word) state.callers cause

/-- The word that is executed is a conditional jump that is not taken: the next word follows, and
nothing else changes. -/
structure FallsThrough (program : Program) (state : State) (word : UInt32) : Prop where
  not_taken : ∃ condition value,
    (Instruction.decode word).opcode? = some (.jumpIfZero condition) ∧
      state.frame.register (Instruction.decode word).operands.a = .ok value ∧
      condition.test (.jumpIfZero condition) value (.int 0) = .ok false
  step_eq : state.step program = .running ⟨state.counted,
    { state.frame.fetching word with pc := state.frame.pc + 1 }, state.callers⟩

theorem Dispatches.of_word (hword : program.fetch? state.frame.pc = some word)
    (hop : (Instruction.decode word).opcode? = some op)
    (hrange : (Instruction.decode word).operands.InRange)
    (hallowed : exhausted? state.machine = none) :
    Dispatches program state (state.frame.fetching word) op (Instruction.decode word).operands where
  allowed := hallowed
  fetched := by
    rw [fetch_eq_of_opcode?_eq_some hword hop, checkRegisters_eq_ok_iff.2 hrange]
    rfl

theorem step_of_fetch_error {frame : Frame} {cause : Fault}
    (hallowed : exhausted? state.machine = none)
    (hfetch : fetch program state.frame = (frame, .error cause)) :
    state.step program = fault state.counted frame state.callers cause := by
  rw [step, hallowed, hfetch]
  rfl

/-- A place is rejected only beyond the end of the code, in a word that has its registers. -/
theorem verifyInstruction_cases {ins : Instruction} {reason : VerifyError}
    (h : program.verifyInstruction pc ins = .error reason) :
    (ins.opcode? = none ∧ reason = .invalidOpcode ins.code pc) ∨
    ∃ op, ins.opcode? = some op ∧
      ((∃ register, (ins.operands.registers.find? fun index ↦ index.toNat ≥ registerCount) =
          some register ∧ reason = .invalidRegister register pc) ∨
        ins.operands.InRange ∧
          ((op.hasTargetImmediate = true ∧ program.size < ins.operands.immediate.toNat ∧
              reason = .invalidJumpTarget ins.operands.immediate.toNat pc) ∨
            program.verifyImmediate pc op ins.operands.immediate.toNat = .error reason)) := by
  unfold Program.verifyInstruction at h
  split at h
  · next hop =>
    cases h
    exact .inl ⟨hop, rfl⟩
  · next op hop =>
    refine .inr ⟨op, hop, ?_⟩
    split at h
    · next register hregister =>
      cases h
      exact .inl ⟨register, hregister, rfl⟩
    · next hregisters =>
      refine .inr ⟨Operands.inRange_of_find? hregisters, ?_⟩
      dsimp only at h
      split at h
      · next hbeyond =>
        cases h
        exact .inl ⟨hbeyond.1, hbeyond.2, rfl⟩
      · exact .inr h

theorem FailsOn.avoids {cause : Fault} {place : Nat} (fails : state.FailsOn program word cause)
    (valid : state.frame.Valid program limits) (h : program.size < place) :
    ∀ frame ∈ (state.step program).frames.head?, frame.Avoids place := by
  have hfetching : (state.frame.fetching word).Valid program limits := { valid with }
  rw [fails.step_eq]
  rintro frame ⟨⟩
  exact hfetching.halt.avoids h

theorem FallsThrough.avoids {place : Nat} (falls : state.FallsThrough program word)
    (hword : program.fetch? state.frame.pc = some word)
    (valid : state.frame.Valid program limits) (h : program.size < place) :
    ∀ frame ∈ (state.step program).frames.head?, frame.Avoids place := by
  have hlt : state.frame.pc < program.size := (Array.getElem?_eq_some_iff.1 hword).1
  have hnext : Frame.Valid program limits
      { state.frame.fetching word with pc := state.frame.pc + 1 } :=
    { valid with pc_le := hlt }
  rw [falls.step_eq]
  rintro frame ⟨⟩
  exact hnext.avoids h

/-- **Verification rejects no word that could be executed.** A valid frame that executes a rejected
word ends the run with the fault that the reason foretells: for a register it names the register
that was rejected. If the reason is a place beyond the end of the code, the run ends with a fault
too, or the word is a conditional jump that is not taken and the next word follows; the frame is not
at the rejected place then, and has no try context that continues there. -/
theorem rejected_word_fails (hword : program.fetch? state.frame.pc = some word)
    (hreject : program.verifyInstruction state.frame.pc (Instruction.decode word) = .error reason)
    (valid : state.frame.Valid program limits) (hallowed : exhausted? state.machine = none) :
    ((∀ target pc, reason ≠ .invalidJumpTarget target pc) →
      ∃ cause, reason.Foretells cause ∧ state.FailsOn program word cause) ∧
    ∀ target pc, reason = .invalidJumpTarget target pc →
      ((∃ cause, state.FailsOn program word cause) ∨ state.FallsThrough program word) ∧
        ∀ frame ∈ (state.step program).frames.head?, frame.Avoids target := by
  have hfetching : (state.frame.fetching word).Valid program limits := { valid with }
  rcases verifyInstruction_cases hreject with ⟨hop, rfl⟩ | ⟨op, hop, hreason⟩
  · refine ⟨fun _ ↦ ⟨_, .opcode _ _, fun _ ↦ nofun, ?_⟩, fun _ _ ↦ nofun⟩
    exact step_of_fetch_error hallowed (fetch_eq_of_opcode?_eq_none hword hop)
  rcases hreason with ⟨register, hregister, rfl⟩ | ⟨hrange, hreason⟩
  · refine ⟨fun _ ↦ ⟨_, .register _ _, fun _ ↦ nofun, ?_⟩, fun _ _ ↦ nofun⟩
    refine step_of_fetch_error hallowed ?_
    rw [fetch_eq_of_opcode?_eq_some hword hop, checkRegisters_of_find? hregister]
    rfl
  have hdispatch := Dispatches.of_word hword hop hrange hallowed
  rcases hreason with ⟨htarget, hbeyond, rfl⟩ | himmediate
  · refine ⟨fun h ↦ absurd rfl (h _ _), ?_⟩
    rintro target pc ⟨⟩
    rcases execute_beyond hrange htarget hbeyond with
      ⟨cause, hcause, hexecute⟩ | ⟨condition, value, rfl, hvalue, htest, hexecute⟩
    · have hfails : state.FailsOn program word cause :=
        ⟨hcause, hdispatch.step_of_error hexecute⟩
      exact ⟨.inl ⟨cause, hfails⟩, hfails.avoids valid hbeyond⟩
    · have hfalls : state.FallsThrough program word :=
        ⟨⟨condition, value, hop, hvalue, htest⟩, by rw [hdispatch.step_eq, hexecute]; rfl⟩
      exact ⟨.inr hfalls, hfalls.avoids hword valid hbeyond⟩
  · obtain ⟨cause, hforetold, hexecute⟩ := execute_of_verifyImmediate hrange hfetching himmediate
    refine ⟨fun _ ↦ ⟨cause, hforetold, hforetold.ne_uncaught, hdispatch.step_of_error hexecute⟩, ?_⟩
    rintro target pc rfl
    cases hforetold

/-- A slot behind the last one, and a jump behind the end of the code. -/
def overreaching : Program where
  name := "overreaching"
  code := #[
    Instruction.encode ⟨Opcode.setArg.byte, .immReg 0 3⟩,
    Instruction.encode ⟨(Opcode.jumpIfZero .ne).byte, .immReg 0 3⟩]

/-- A frame with all slots reserved and zeros in its registers. -/
def reserving (pc : Nat) : State where
  machine := Machine.new {} 1
  frame := {
    registers := Vector.replicate registerCount (.int 0)
    outgoing := { reserved := maxArguments }
    maxStack := ({} : Limits).maxStackDepth
    maxScratch := ({} : Limits).maxScratchSlots
    pc }

theorem valid_reserving {pc : Nat} (h : pc ≤ overreaching.size) :
    (reserving pc).frame.Valid overreaching {} where
  pc_le := h
  tries_valid := nofun
  maxStack_eq := rfl
  stack_le := Nat.zero_le _
  maxScratch_eq := rfl
  scratch_le := Nat.zero_le _
  outgoing_valid := ArgumentBuffer.valid_reserved (Nat.le_refl _)
  arguments_le := Nat.zero_le _

/-- Three slots can be reserved, but there is no slot three; and a jump to place three of a code of
two words is not taken. -/
theorem rejected_word_fails_overreaching :
    overreaching.verifyInstruction 0 (Instruction.decode 0x66000003) =
        .error (.argumentIndexOutOfRange 3 0) ∧
      (reserving 0).FailsOn overreaching 0x66000003 (.argumentIndexOutOfRange 3) ∧
      overreaching.verifyInstruction 1 (Instruction.decode 0x44000003) =
        .error (.invalidJumpTarget 3 1) ∧
      ∀ frame ∈ ((reserving 1).step overreaching).frames.head?, frame.Avoids 3 := by
  have hslot : overreaching.verifyInstruction 0 (Instruction.decode 0x66000003) =
      .error (.argumentIndexOutOfRange 3 0) := by rfl
  have hplace : overreaching.verifyInstruction 1 (Instruction.decode 0x44000003) =
      .error (.invalidJumpTarget 3 1) := by rfl
  have hvalid {pc : Nat} (hpc : pc ≤ 2) : (reserving pc).frame.Valid overreaching {} :=
    valid_reserving hpc
  have hfetch : overreaching.fetch? (reserving 0).frame.pc = some 0x66000003 := rfl
  have hfetch' : overreaching.fetch? (reserving 1).frame.pc = some 0x44000003 := rfl
  obtain ⟨cause, hforetold, hfails⟩ :=
    (rejected_word_fails hfetch hslot (hvalid (by decide)) rfl).1 fun _ _ ↦ nofun
  have havoids := ((rejected_word_fails hfetch' hplace (hvalid (by decide)) rfl).2 3 1 rfl).2
  refine ⟨hslot, ?_, hplace, havoids⟩
  cases hforetold with
  | count _ hlt => exact absurd hlt (Nat.lt_irrefl 3)
  | slot => exact hfails

end State

end RegisterMachine

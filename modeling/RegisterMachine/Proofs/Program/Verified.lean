import RegisterMachine.Program.Verify
import RegisterMachine.Proofs.Frame.Invariant

/-!
# Runs of verified programs

The static check and the machine read the same words separately. Here they are brought together: a
word that verifies is fetched without a fault, and the faults about the text that its instruction
could raise are those where a register takes the place of an immediate. With the invariant of frames
this holds at every step of every run, in every nested frame.
-/

namespace RegisterMachine

namespace Program

/-- The opcode of the word at a place. -/
def opcodeAt? (program : Program) (pc : Nat) : Option Opcode :=
  (program.fetch? pc).bind fun word ↦ (Instruction.decode word).opcode?

/-! ## What verification says about a word -/

variable {program : Program} {pc : Nat} {word : UInt32}

theorem defect?_of_verify (h : program.verify = .ok ()) : program.defect? = none := by
  unfold verify at h
  split at h
  · cases h
  · assumption

/-- A check that succeeds on a list has succeeded on every element. -/
theorem of_forM_eq_ok {check : α → Except ε Unit} {items : List α} (h : items.forM check = .ok ()) :
    ∀ item ∈ items, check item = .ok () := by
  induction items with
  | nil => simp
  | cons first rest ih =>
    have hsteps : (check first >>= fun _ ↦ rest.forM check) = .ok () := h
    cases hfirst : check first with
    | error cause =>
      rw [hfirst] at hsteps
      cases hsteps
    | ok value =>
      rw [hfirst] at hsteps
      intro item hitem
      rcases List.mem_cons.1 hitem with rfl | hmem
      · exact hfirst
      · exact ih hsteps item hmem

theorem verifyInstruction_of_verify (h : program.verify = .ok ())
    (hword : program.fetch? pc = some word) :
    program.verifyInstruction pc (Instruction.decode word) = .ok () := by
  have hdefect := defect?_of_verify h
  unfold verify at h
  rw [hdefect] at h
  refine of_forM_eq_ok h (word, pc) ?_
  rw [List.mk_mem_zipIdx_iff_getElem?, Array.getElem?_toList]
  exact hword

/-- What a word that verifies has. -/
structure Verified (program : Program) (ins : Instruction) (op : Opcode) : Prop where
  opcode_eq : ins.opcode? = some op
  operands_inRange : ins.operands.InRange
  target_le : op.hasTargetImmediate = true → ins.operands.immediate.toNat ≤ program.size
  immediate_ok : ∃ pc, program.verifyImmediate pc op ins.operands.immediate.toNat = .ok ()

/-- Registers that an instruction does not have count as register zero. -/
theorem inRange_of_registers {operands : Operands}
    (h : ∀ register ∈ operands.registers, register.toNat < registerCount) : operands.InRange := by
  have hzero : (0 : UInt8).toNat < registerCount := by decide
  cases operands with
  | none | imm => exact ⟨hzero, hzero, hzero⟩
  | regs1 a | immReg a => exact ⟨h a (by simp [Operands.registers]), hzero, hzero⟩
  | regs2 a b =>
    exact ⟨h a (by simp [Operands.registers]), h b (by simp [Operands.registers]), hzero⟩
  | regs3 a b c =>
    exact ⟨h a (by simp [Operands.registers]), h b (by simp [Operands.registers]),
      h c (by simp [Operands.registers])⟩

theorem verified_of_verify (h : program.verify = .ok ()) (hword : program.fetch? pc = some word) :
    ∃ op, Verified program (Instruction.decode word) op := by
  have hins := verifyInstruction_of_verify h hword
  unfold verifyInstruction at hins
  split at hins
  · cases hins
  · next op hop =>
    split at hins
    · cases hins
    · next hregisters =>
      dsimp only at hins
      split at hins
      · cases hins
      · next htarget =>
        refine ⟨op, hop, inRange_of_registers fun register hregister ↦ ?_, ?_, pc, hins⟩
        · simpa using List.find?_eq_none.1 hregisters register hregister
        · intro hhas
          exact Nat.not_lt.1 fun hlt ↦ htarget ⟨hhas, hlt⟩

/-- The constant that names a field is a string. -/
theorem getString?_ne_none {op : Opcode} {immediate : Nat}
    (hop : op = .loadField ∨ op = .storeField)
    (h : program.verifyImmediate pc op immediate = .ok ()) :
    program.constants.getString? immediate ≠ none := by
  unfold ConstantPool.getString?
  cases hget : program.constants.get? immediate with
  | none => rcases hop with rfl | rfl <;> simp [verifyImmediate, hget] at h
  | some constant =>
    cases constant with
    | str name => simp
    | _ => rcases hop with rfl | rfl <;> simp [verifyImmediate, hget] at h

end Program

/-! ## Faults that verification leaves open -/

/-- The faults that a verified program may still raise at a place of its code. Those about its text
come from running off the end, or from instructions that take a place, a constant, a function or a
number of arguments from a register. -/
def Fault.LeftOpen (program : Program) (pc : Nat) : Fault → Prop
  | .invalidOpcode _ _ | .invalidRegister _ | .invalidModule _ => False
  | .pcOutOfBounds place => place = program.size
  | .invalidJumpTarget _ => ∃ op, program.opcodeAt? pc = some op ∧ op.hasTargetRegister = true
  | .invalidConstant _ => program.opcodeAt? pc = some .loadConstIndirect
  | .invalidFunction _ =>
    ∃ op, program.opcodeAt? pc = some op ∧ (op = .declareFunctionIndirect ∨ op.isCall = true)
  | .tooManyArguments _ => program.opcodeAt? pc = some .reserveArgsIndirect
  | _ => True

namespace Fault

variable {program : Program} {pc : Nat} {cause : Fault}

theorem leftOpen_of_dynamic (h : cause.isDynamic = true) : cause.LeftOpen program pc := by
  cases cause with
  | invalidOpcode | invalidRegister | pcOutOfBounds | invalidJumpTarget | invalidConstant
  | invalidFunction | invalidModule | tooManyArguments => cases h
  | _ => trivial

/-- Verification rules out every fault that an immediate could be the reason of. -/
theorem leftOpen_of_raisable {ins : Instruction} {op : Opcode}
    (verified : program.Verified ins op) (hop : program.opcodeAt? pc = some op)
    (h : Raisable program op ins.operands.immediate.toNat cause) : cause.LeftOpen program pc := by
  obtain ⟨place, himmediate⟩ := verified.immediate_ok
  cases cause with
  | invalidOpcode | invalidRegister | pcOutOfBounds | invalidModule => cases h
  | invalidJumpTarget =>
    rcases h with hregister | ⟨htarget, hlt⟩
    · exact ⟨op, hop, hregister⟩
    · exact absurd (verified.target_le htarget) (Nat.not_le.2 hlt)
  | invalidConstant =>
    rcases h with rfl | ⟨rfl, hnone⟩ | ⟨hfield, hnone⟩
    · exact hop
    · simp [Program.verifyImmediate, hnone] at himmediate
    · exact absurd hnone (Program.getString?_ne_none hfield himmediate)
  | invalidFunction =>
    rcases h with rfl | ⟨rfl, hle⟩
    · exact ⟨_, hop, .inl rfl⟩
    · simp [Program.verifyImmediate, Nat.not_lt.2 hle] at himmediate
  | tooManyArguments =>
    rcases h with rfl | ⟨rfl, hlt⟩
    · exact hop
    · simp [Program.verifyImmediate, Nat.not_le.2 hlt] at himmediate
  | _ => trivial

end Fault

/-! ## Runs -/

/-- A run that has not ended with a fault but one of those allowed. -/
def Progress.FailsOnly (allowed : Fault → Prop) : Progress → Prop :=
  Progress.Satisfies (fun _ ↦ True) fun outcome ↦
    ∀ cause, outcome.result = .error cause → allowed cause

theorem Progress.FailsOnly.mono {allowed weaker : Fault → Prop} {progress : Progress}
    (h : progress.FailsOnly allowed) (weaken : ∀ cause, allowed cause → weaker cause) :
    progress.FailsOnly weaker := by
  cases progress with
  | running | waiting => trivial
  | ended outcome => exact fun cause hcause ↦ weaken cause (h cause hcause)

namespace State

variable {program : Program} {known : List Limits} {machine : Machine} {frame : Frame}
  {callers : List Caller} {allowed : Fault → Prop}

theorem failsOnly_fault {cause : Fault} (h : allowed cause) :
    (fault machine frame callers cause).FailsOnly allowed := by
  intro other hother
  cases hother
  exact h

theorem failsOnly_leave (hcallers : ∀ caller ∈ callers, caller.Valid program known)
    (value : Value) :
    (leave machine frame callers value).FailsOnly allowed := by
  cases callers with
  | nil =>
    intro cause hcause
    cases hcause
  | cons caller outer =>
    obtain ⟨resumed, hresume, -⟩ := (hcallers caller (by simp)).resume value
    simp only [leave, hresume]
    trivial

theorem failsOnly_throw {value : Value} (h : allowed (.uncaught value)) :
    (throw machine frame value callers).FailsOnly allowed := by
  induction callers generalizing machine frame with
  | nil =>
    unfold throw
    split
    · trivial
    · intro cause hcause
      cases hcause
      exact h
  | cons caller outer ih =>
    unfold throw
    split
    · trivial
    · exact ih

theorem failsOnly_call {destination : UInt8} {callee receiver : Value} {arguments : List Value}
    (hprogram : program.defect? = none) (hcaller : Caller.Valid program known ⟨frame, destination⟩)
    (hlength : arguments.length ≤ maxArguments)
    (hdynamic : ∀ cause, cause.isDynamic = true → allowed cause)
    (hfunction : ∀ index, allowed (.invalidFunction index)) :
    (call program machine frame callers destination callee receiver arguments).FailsOnly
      allowed := by
  unfold call
  split
  · split
    · trivial
    · next cause hcause =>
      have hentry := (calleeFrame_meets hprogram _ _ _ _).of_error hcause
      refine failsOnly_fault ?_
      cases cause with
      | invalidFunction index => exact hfunction index
      | tooManyArguments count => exact absurd hentry.2 (Nat.not_lt.2 (hentry.1 ▸ hlength))
      | _ => exact hdynamic _ hentry
  · split
    · next value changed hanswer =>
      obtain ⟨resumed, hresume, -⟩ := hcaller.resume value
      rw [hresume]
      trivial
    · next cause changed hcause =>
      have hlocal := (machine.callNative_dynamic _ _ _).of_error (congrArg Prod.fst hcause)
      exact failsOnly_fault (hdynamic _ (Fault.isDynamic_of_isLocal hlocal))
  · exact failsOnly_fault (hdynamic _ rfl)

/-- A word that verifies is fetched, so the only fault is that there is no word. -/
theorem leftOpen_of_fetch {fetched : Frame} {cause : Fault} (hverify : program.verify = .ok ())
    (hpc : frame.pc ≤ program.size) (h : fetch program frame = (fetched, .error cause)) :
    cause.LeftOpen program frame.pc := by
  unfold fetch at h
  split at h
  · next hnone =>
    cases h
    exact Nat.le_antisymm hpc (Array.getElem?_eq_none_iff.1 hnone)
  · next word hword =>
    obtain ⟨op, hverified⟩ := Program.verified_of_verify hverify hword
    have hregisters := checkRegisters_eq_ok_iff.2 hverified.operands_inRange
    simp [hverified.opcode_eq, hregisters, Except.map] at h

theorem Dispatches.opcodeAt?_eq {state : State} {op : Opcode} {operands : Operands}
    (dispatches : Dispatches program state frame op operands) :
    program.opcodeAt? state.frame.pc = some op := by
  obtain ⟨word, hword, hop, -⟩ := of_fetch_eq_ok dispatches.fetched
  simp [Program.opcodeAt?, hword, hop]

theorem Dispatches.leftOpen {state : State} {op : Opcode} {operands : Operands} {cause : Fault}
    (dispatches : Dispatches program state frame op operands) (hverify : program.verify = .ok ())
    (h : execute program state.counted frame op operands = .error cause) :
    cause.LeftOpen program state.frame.pc := by
  obtain ⟨word, hword, hop, hoperands, -⟩ := of_fetch_eq_ok dispatches.fetched
  obtain ⟨found, hverified⟩ := Program.verified_of_verify hverify hword
  obtain rfl : found = op := Option.some.inj (hverified.opcode_eq.symm.trans hop)
  refine Fault.leftOpen_of_raisable hverified dispatches.opcodeAt?_eq ?_
  rw [hoperands]
  exact dispatches.behaves.of_error h

/-- One step of a verified program. -/
theorem failsOnly_step {state : State} (hverify : program.verify = .ok ())
    (valid : state.Valid program known) :
    (state.step program).FailsOnly (Fault.LeftOpen program state.frame.pc) := by
  have hprogram := Program.defect?_of_verify hverify
  have htransition := transition_step program state
  generalize state.step program = progress at htransition
  cases htransition with
  | exhausted _ => exact failsOnly_fault trivial
  | unfetched _ hfetch =>
    obtain ⟨limits, -, hvalid⟩ := valid.frame_valid
    exact failsOnly_fault (leftOpen_of_fetch hverify hvalid.pc_le hfetch)
  | failed hdispatch hexecute => exact failsOnly_fault (hdispatch.leftOpen hverify hexecute)
  | @executed frame op operands effect hdispatch hexecute =>
    cases effect with
    | next | jump | wait => trivial
    | leave value => exact failsOnly_leave valid.callers_valid value
    | throw value => exact failsOnly_throw trivial
    | call result destination callee receiver arguments =>
      obtain ⟨limits, hlimits, hvalid, hpc, hdestination, hlength⟩ :=
        hdispatch.effect_valid hexecute valid.frame_valid
      have hcaller : Caller.Valid program known ⟨result, destination⟩ :=
        ⟨⟨limits, hlimits, hvalid⟩, hpc ▸ hdispatch.pc_lt_size, hdestination⟩
      refine failsOnly_call hprogram hcaller hlength (fun _ ↦ Fault.leftOpen_of_dynamic) fun _ ↦ ?_
      exact ⟨op, hdispatch.opcodeAt?_eq, .inr (hdispatch.behaves.of_ok hexecute).isCall⟩

end State

theorem failsOnly_enter {machine : Machine} {frame : Frame} :
    (machine.enter frame).FailsOnly fun cause ↦ cause.isDynamic = true := by
  unfold Machine.enter
  split
  · intro cause hcause
    cases hcause
    rfl
  · trivial

/-- A function of the program is refused for its arguments, if there are too many, and else for no
reason in the text. -/
theorem failsOnly_callFunction {program : Program} {machine : Machine} {index : Nat}
    (hprogram : program.defect? = none) (hindex : index < program.functions.size) (receiver : Value)
    (arguments : List Value) :
    (machine.callFunction program index receiver arguments).FailsOnly fun cause ↦
      cause.isDynamic = true ∨
        maxArguments < arguments.length ∧ cause = .tooManyArguments arguments.length := by
  unfold Machine.callFunction
  dsimp only
  split
  · next frame hframe =>
    exact failsOnly_enter.mono fun _ hdynamic ↦ .inl hdynamic
  · next cause hcause =>
    have hentry := (State.calleeFrame_meets hprogram _ _ _ _).of_error hcause
    intro other hother
    cases hother
    cases cause with
    | invalidFunction _ => exact absurd hindex (Nat.not_lt.2 hentry)
    | tooManyArguments count =>
      obtain ⟨rfl, hmany⟩ := hentry
      exact .inr ⟨hmany, rfl⟩
    | _ => exact .inl hentry

theorem failsOnly_run {program : Program} {machine : Machine} (hprogram : program.defect? = none) :
    (machine.run program).FailsOnly fun cause ↦ cause.isDynamic = true := by
  unfold Machine.run
  rw [hprogram]
  dsimp only
  split
  · next index hindex =>
    have hlt : index < program.functions.size := (Array.findIdx?_eq_some_iff_getElem.1 hindex).1
    refine (failsOnly_callFunction hprogram hlt _ _).mono fun cause hcause ↦ ?_
    rcases hcause with hdynamic | ⟨hmany, -⟩
    · exact hdynamic
    · simp at hmany
  · split
    · intro cause hcause
      cases hcause
      rfl
    · split
      · exact failsOnly_enter
      · next cause hcause =>
        unfold Frame.new at hcause
        split at hcause
        · cases hcause
          intro other hother
          cases hother
          rfl
        · cases hcause

/-- Verification is sound: a run of a verified program is refused for no reason in its text, and
wherever it has come, in whatever nested frame, the next instruction raises none of the faults about
the text but those that are left open. -/
theorem verified_fails_only_leftOpen {program : Program} (hverify : program.verify = .ok ())
    (machine : Machine) :
    ((machine.run program).FailsOnly fun cause ↦ cause.isDynamic = true) ∧
      (∀ index receiver arguments, index < program.functions.size →
        (machine.callFunction program index receiver arguments).FailsOnly fun cause ↦
          cause.isDynamic = true ∨
            maxArguments < arguments.length ∧ cause = .tooManyArguments arguments.length) ∧
      ∀ options start state, Begins program machine options start →
        Reaches program start (.running state) →
        (state.step program).FailsOnly (Fault.LeftOpen program state.frame.pc) := by
  have hprogram := Program.defect?_of_verify hverify
  refine ⟨failsOnly_run hprogram, fun index receiver arguments hindex ↦ ?_, ?_⟩
  · exact failsOnly_callFunction hprogram hindex receiver arguments
  · intro options start state begins reached
    exact State.failsOnly_step hverify (reached.sound hprogram begins)

/-- The main function calls one that jumps to a place in a register, where there is none. -/
def straying : Program where
  name := "straying"
  code := #[
    Instruction.encode ⟨Opcode.declareFunction.byte, .immReg 0 1⟩,
    Instruction.encode ⟨Opcode.localCall.byte, .regs2 2 0⟩,
    Instruction.encode ⟨Opcode.halt.byte, .none⟩,
    Instruction.encode ⟨Opcode.loadInt.byte, .immReg 0 99⟩,
    Instruction.encode ⟨Opcode.jumpIndirect.byte, .regs1 0⟩]
  functions := #[⟨"main", 0, 0⟩, ⟨"stray", 3, 0⟩]

theorem verified_fails_only_leftOpen_straying :
    straying.verify = .ok () ∧
      ∃ state, Progress.advance straying 3 (Machine.run {} straying) = .running state ∧
        state.callers.length = 1 ∧ state.frame.pc = 4 ∧
        (state.step straying).FailsOnly (Fault.LeftOpen straying 4) := by
  have hverify : straying.verify = .ok () := by rfl
  have hplaces : (Progress.advance straying 3 (Machine.run {} straying)).state?.map
      (fun state ↦ (state.callers.length, state.frame.pc)) = some (1, 4) := by decide +kernel
  have hreached : Reaches straying (Machine.run {} straying) _ := Reaches.refl.advance 3
  obtain ⟨state, hstate, hplace⟩ := Option.map_eq_some_iff.1 hplaces
  obtain ⟨hcallers, hpc⟩ := Prod.mk.inj hplace
  have hrunning := Progress.state?_eq_some_iff.1 hstate
  rw [hrunning] at hreached
  refine ⟨hverify, state, hrunning, hcallers, hpc, ?_⟩
  rw [← hpc]
  exact (verified_fails_only_leftOpen hverify {}).2.2 {} _ _ .program hreached

end RegisterMachine

import RegisterMachine.Machine.Run
import RegisterMachine.Proofs.Machine.Action

/-!
# Steps and runs

`Transition` names the ways in which one step can go, with the checks that lead there. `Reaches`
closes the beginnings of a run under steps. Machines share a table of locks, so between two steps
the table may become any other, and a run that waits for a lock may try again at any time.
-/

namespace RegisterMachine

/-- The frame after an instruction that puts a value in a register. -/
def Frame.assigned (frame : Frame) (index : UInt8) (value : Value) : Frame :=
  { frame with
    registers := frame.registers.setIfInBounds index.toNat value
    pc := frame.pc + 1 }

theorem Frame.register_assigned {frame : Frame} {index : UInt8}
    (hindex : index.toNat < registerCount) (value : Value) :
    (frame.assigned index value).register index = .ok value := by
  rw [Frame.register, Frame.assigned, Vector.getElem?_setIfInBounds_self_of_lt hindex]

namespace State

/-! ## One step -/

/-- The machine of a state, once the next instruction is counted. -/
def counted (state : State) : Machine :=
  { state.machine with steps := state.machine.steps + 1 }

/-- The run may execute an instruction more, and the frame, which remembers the opcode, is about to
execute this one. -/
structure Dispatches (program : Program) (state : State) (frame : Frame) (op : Opcode)
    (operands : Operands) : Prop where
  allowed : exhausted? state.machine = none
  fetched : fetch program state.frame = (frame, .ok (op, operands))

/-- How a run goes on after an instruction of a frame that did not fail. -/
def proceed (program : Program) (state : State) (frame : Frame) : Effect → Progress
  | .next machine result => .running ⟨machine, { result with pc := result.pc + 1 }, state.callers⟩
  | .jump result target => .running ⟨state.counted, { result with pc := target }, state.callers⟩
  | .leave value => leave state.counted frame state.callers value
  | .throw value => throw state.counted frame value state.callers
  | .call result destination callee receiver arguments =>
    call program state.counted result state.callers destination callee receiver arguments
  | .wait => .waiting state

/-- The ways in which a step can go. -/
inductive Transition (program : Program) (state : State) : Progress → Prop
  | exhausted {limit : Nat} : exhausted? state.machine = some limit →
      Transition program state
        (fault state.machine state.frame state.callers (.stepBudgetExceeded limit))
  | unfetched {frame : Frame} {cause : Fault} : exhausted? state.machine = none →
      fetch program state.frame = (frame, .error cause) →
      Transition program state (fault state.counted frame state.callers cause)
  | failed {frame : Frame} {op : Opcode} {operands : Operands} {cause : Fault} :
      Dispatches program state frame op operands →
      execute program state.counted frame op operands = .error cause →
      Transition program state (fault state.counted frame state.callers cause)
  | executed {frame : Frame} {op : Opcode} {operands : Operands} {effect : Effect} :
      Dispatches program state frame op operands →
      execute program state.counted frame op operands = .ok effect →
      Transition program state (proceed program state frame effect)

theorem Dispatches.step_eq {program : Program} {state : State} {frame : Frame} {op : Opcode}
    {operands : Operands} (dispatches : Dispatches program state frame op operands) :
    state.step program =
      match execute program state.counted frame op operands with
      | .error cause => fault state.counted frame state.callers cause
      | .ok effect => proceed program state frame effect := by
  unfold step
  rw [dispatches.allowed, dispatches.fetched, counted]
  dsimp only
  rcases execute program _ frame op operands with cause | effect
  · rfl
  · cases effect <;> rfl

theorem transition_step (program : Program) (state : State) :
    Transition program state (state.step program) := by
  cases hallowed : exhausted? state.machine with
  | some limit =>
    rw [step, hallowed]
    exact .exhausted hallowed
  | none =>
    rcases hfetch : fetch program state.frame with ⟨frame, cause | ⟨op, operands⟩⟩
    · rw [step, hallowed, hfetch]
      exact .unfetched hallowed hfetch
    · have hdispatch : Dispatches program state frame op operands := ⟨hallowed, hfetch⟩
      rw [hdispatch.step_eq]
      cases hexecute : execute program state.counted frame op operands with
      | error cause => exact .failed hdispatch hexecute
      | ok effect => exact .executed hdispatch hexecute

/-! ## Fetching -/

variable {program : Program} {frame result : Frame}

theorem checkRegisters_eq_ok_iff {operands : Operands} :
    checkRegisters operands = .ok () ↔ operands.InRange := by
  have hrange : [operands.a, operands.b, operands.c].find?
      (fun index ↦ index.toNat ≥ registerCount) = none ↔ operands.InRange := by
    simp only [List.find?_eq_none, List.mem_cons, List.not_mem_nil, or_false, forall_eq_or_imp,
      forall_eq, ge_iff_le, decide_eq_true_eq, Nat.not_le]
    exact ⟨fun ⟨ha, hb, hc⟩ ↦ ⟨ha, hb, hc⟩, fun ⟨ha, hb, hc⟩ ↦ ⟨ha, hb, hc⟩⟩
  unfold checkRegisters
  split
  · next index hsome =>
    rw [hsome] at hrange
    simpa using hrange
  · next hnone => simp [hrange.1 hnone]

/-- Fetching changes nothing but the opcode that a frame remembers. -/
theorem fetch_fst (program : Program) (frame : Frame) :
    ∃ opcode, (fetch program frame).1 = { frame with opcode } := by
  unfold fetch
  split
  · exact ⟨frame.opcode, rfl⟩
  · dsimp only
    split
    · exact ⟨_, rfl⟩
    · exact ⟨_, rfl⟩

theorem of_fetch_eq {outcome : Except Fault (Opcode × Operands)}
    (h : fetch program frame = (result, outcome)) : ∃ opcode, result = { frame with opcode } := by
  obtain ⟨opcode, hopcode⟩ := fetch_fst program frame
  rw [h] at hopcode
  exact ⟨opcode, hopcode⟩

/-- An instruction that is fetched is decoded from the word at the program counter, and its
registers exist. -/
theorem of_fetch_eq_ok {op : Opcode} {operands : Operands}
    (h : fetch program frame = (result, .ok (op, operands))) :
    ∃ word, program.fetch? frame.pc = some word ∧ (Instruction.decode word).opcode? = some op ∧
      (Instruction.decode word).operands = operands ∧ operands.InRange := by
  unfold fetch at h
  split at h
  · cases h
  · next word hword =>
    dsimp only at h
    split at h
    · cases h
    · next found hop =>
      cases hcheck : checkRegisters (Instruction.decode word).operands with
      | error cause => simp [hcheck, Except.map] at h
      | ok _ =>
        simp only [hcheck, Except.map, Prod.mk.injEq, Except.ok.injEq] at h
        obtain ⟨-, rfl, rfl⟩ := h
        exact ⟨word, hword, hop, rfl, checkRegisters_eq_ok_iff.1 hcheck⟩

namespace Dispatches

variable {state : State} {op : Opcode} {operands : Operands}
  (dispatches : Dispatches program state frame op operands)

include dispatches

theorem behaves : Behaves program state.counted frame op operands.immediate.toNat
    (execute program state.counted frame op operands) := by
  obtain ⟨word, -, -, -, hrange⟩ := of_fetch_eq_ok dispatches.fetched
  exact execute_behaves hrange

theorem pc_lt_size : state.frame.pc < program.size := by
  obtain ⟨word, hword, -⟩ := of_fetch_eq_ok dispatches.fetched
  exact (Array.getElem?_eq_some_iff.1 hword).1

/-- A fault of an instruction ends the run. -/
theorem step_of_error {cause : Fault}
    (h : execute program state.counted frame op operands = .error cause) :
    state.step program = fault state.counted frame state.callers cause := by
  rw [dispatches.step_eq, h]

/-- An instruction that only puts a value in a register leads to the next. -/
theorem step_of_assign {machine : Machine} {value : Value}
    (h : execute program state.counted frame op operands =
      Effect.assign machine frame operands.a value) :
    state.step program =
      .running ⟨machine, frame.assigned operands.a value, state.callers⟩ := by
  obtain ⟨word, -, -, -, hrange⟩ := of_fetch_eq_ok dispatches.fetched
  rw [dispatches.step_eq, h, Effect.assign, Frame.setRegister, if_pos hrange.a_lt]
  rfl

end Dispatches

end State

/-! ## Runs -/

/-- How far a run that began somewhere can come. -/
inductive Reaches (program : Program) (start : Progress) : Progress → Prop
  | refl : Reaches program start start
  | step {state : State} : Reaches program start (.running state) →
      Reaches program start (state.step program)
  /-- A run that waits tries again. -/
  | retry {state : State} : Reaches program start (.waiting state) →
      Reaches program start (.running state)
  /-- Other machines change the locks. -/
  | locks {state : State} (locks : LockTable) : Reaches program start (.running state) →
      Reaches program start (.running { state with machine := { state.machine with locks } })

/-- The state of a run that goes on. -/
def Progress.state? : Progress → Option State
  | .running state => some state
  | .waiting _ | .ended _ => none

theorem Progress.state?_eq_some_iff {progress : Progress} {state : State} :
    progress.state? = some state ↔ progress = .running state := by
  cases progress <;> simp [Progress.state?]

/-- How a run has ended. -/
def Progress.outcome? : Progress → Option Ended
  | .ended outcome => some outcome
  | .running _ | .waiting _ => none

theorem Progress.outcome?_eq_some_iff {progress : Progress} {outcome : Ended} :
    progress.outcome? = some outcome ↔ progress = .ended outcome := by
  cases progress <;> simp [Progress.outcome?]

/-- What is known of a run: one thing while it goes on or waits, another when it has ended. -/
def Progress.Satisfies (lasting : State → Prop) (final : Ended → Prop) : Progress → Prop
  | .running state | .waiting state => lasting state
  | .ended outcome => final outcome

namespace Reaches

variable {program : Program} {start progress : Progress}

/-- An invariant holds at the beginning, after every step, and under every table of locks; so it
holds throughout. -/
theorem satisfies {lasting : State → Prop} {final : Ended → Prop}
    (reached : Reaches program start progress) (begins : start.Satisfies lasting final)
    (steps : ∀ state, lasting state → (state.step program).Satisfies lasting final)
    (shares : ∀ state locks, lasting state →
      lasting { state with machine := { state.machine with locks } }) :
    progress.Satisfies lasting final := by
  induction reached with
  | refl => exact begins
  | step _ ih => exact steps _ ih
  | retry _ ih => exact ih
  | locks table _ ih => exact shares _ table ih

/-- Executing instructions one after the other stays within what a run reaches. -/
theorem advance (reached : Reaches program start progress) (count : Nat) :
    Reaches program start (progress.advance program count) := by
  induction count generalizing progress with
  | zero => exact reached
  | succ count ih =>
    cases progress with
    | running state => exact ih reached.step
    | waiting state => exact reached
    | ended outcome => exact reached

end Reaches

end RegisterMachine

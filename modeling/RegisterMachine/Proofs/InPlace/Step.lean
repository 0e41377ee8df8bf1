import RegisterMachine.Proofs.InPlace.Dispatch
import RegisterMachine.Proofs.Limits.Monotone
import RegisterMachine.Proofs.Machine.Metered
import RegisterMachine.Proofs.Program.RoundTrip
import RegisterMachine.Proofs.Program.Verified

/-!
# Steps in place

A step in place counts the instruction, remembers its opcode, does what the instruction does, and
moves on. It is the step of the machine, told change by change. When it fails, it leaves what was
there before, apart from the count and the remembered opcode; a call may also have taken the staged
arguments, and one that prints may have written a part of its line.
-/

namespace RegisterMachine

namespace InPlace

open Work

variable {program : Program} {actions : List (String × Action)} {core : Core} {state : State}

/-! ## One step -/

/-- The instruction that the frame is about to execute. -/
def fetch (program : Program) : Task (Opcode × Operands) := do
  let pc ← get (·.frame.pc)
  match program.fetch? pc with
  | none => fail (.pcOutOfBounds pc)
  | some word =>
    let ins := Instruction.decode word
    alter fun frame ↦ { frame with opcode := ins.code }
    match ins.opcode? with
    | none => fail (.invalidOpcode ins.code pc)
    | some op =>
      check (checkRegisters ins.operands)
      return (op, ins.operands)

/-- The frame at the place where an instruction leads. -/
def Flow.move (pc : Nat) : Flow → Frame → Frame
  | .next, frame => { frame with pc := pc + 1 }
  | .jump target, frame => { frame with pc := target }
  | .leave _, frame | .enter _ _, frame | .wait, frame => frame

/-- Moves on from a place. -/
def advance (pc : Nat) (flow : Flow) : Task Flow := do
  alter (flow.move pc)
  return flow

/-- Executes an instruction that is counted already. -/
def proceed (program : Program) (actions : List (String × Action)) : Task Flow := do
  let pc ← get (·.frame.pc)
  let (op, operands) ← fetch program
  let flow ← dispatch program actions op operands
  advance pc flow

/-- Fails when the run has used all instructions it may. -/
def checkBudget : Task Unit := do
  match ← get (·.machine.options.limits.maxSteps) with
  | some limit => refuse ((← get (·.machine.steps)) ≥ limit) (.stepBudgetExceeded limit)
  | none => pure ()

/-- Executes one instruction. -/
def step (program : Program) (actions : List (String × Action)) : Task Flow := do
  checkBudget
  change fun core ↦ { core with machine.steps := core.machine.steps + 1 }
  proceed program actions

/-! ## What a step comes to -/

theorem on_checkBudget (core : Core) :
    checkBudget.on core =
      match State.exhausted? core.machine with
      | some limit => (.error (.stepBudgetExceeded limit), core)
      | none => (.ok (), core) := by
  unfold checkBudget State.exhausted?
  rw [on_bind, on_get]
  cases core.machine.options.limits.maxSteps with
  | none => rfl
  | some limit =>
    by_cases hspent : core.machine.steps ≥ limit
    · simp [on_bind, refuse, Option.filter, hspent]
    · simp [on_bind, refuse, Option.filter, hspent]

theorem on_fetch (program : Program) (core : Core) :
    (fetch program).on core =
      ((State.fetch program core.frame).2,
        { core with frame := (State.fetch program core.frame).1 }) := by
  unfold fetch State.fetch
  rw [on_bind, on_get]
  dsimp only
  cases program.fetch? core.frame.pc with
  | none => rfl
  | some word =>
    dsimp only
    cases (Instruction.decode word).opcode? with
    | none => rfl
    | some op => cases checkRegisters (Instruction.decode word).operands <;> rfl

/-- What is left when a frame has moved on to where an instruction leads. -/
def arrive (pc : Nat) : Except Fault Flow × Core → Except Fault Flow × Core
  | (.ok flow, core) => (.ok flow, { core with frame := flow.move pc core.frame })
  | (.error cause, core) => (.error cause, core)

theorem eq_of_arrive_eq_error {pc : Nat} {result : Except Fault Flow × Core} {cause : Fault}
    {after : Core} (h : arrive pc result = (.error cause, after)) :
    result = (.error cause, after) := by
  obtain ⟨_ | flow, left⟩ := result
  · exact h
  · cases h

section Cases

theorem on_step_of_exhausted {limit : Nat} (h : State.exhausted? state.machine = some limit) :
    (step program actions).on ⟨state.machine, state.frame⟩ =
      (.error (.stepBudgetExceeded limit), ⟨state.machine, state.frame⟩) := by
  unfold step
  rw [on_bind, on_checkBudget, h]

theorem on_step_of_allowed (h : State.exhausted? state.machine = none) :
    (step program actions).on ⟨state.machine, state.frame⟩ =
      (proceed program actions).on ⟨state.counted, state.frame⟩ := by
  unfold step
  rw [on_bind, on_checkBudget, h]
  rfl

theorem on_step_of_unfetched {frame : Frame} {cause : Fault}
    (hallowed : State.exhausted? state.machine = none)
    (hfetch : State.fetch program state.frame = (frame, .error cause)) :
    (step program actions).on ⟨state.machine, state.frame⟩ =
      (.error cause, ⟨state.counted, frame⟩) := by
  rw [on_step_of_allowed hallowed, proceed, on_bind, on_get]
  dsimp only
  rw [on_bind, on_fetch, hfetch]

variable {frame : Frame} {op : Opcode} {operands : Operands}
  (dispatches : state.Dispatches program frame op operands)

include dispatches

theorem on_step_of_dispatches :
    (step program actions).on ⟨state.machine, state.frame⟩ =
      arrive state.frame.pc ((dispatch program actions op operands).on ⟨state.counted, frame⟩) := by
  rw [on_step_of_allowed dispatches.allowed, proceed, on_bind, on_get]
  dsimp only
  rw [on_bind, on_fetch, dispatches.fetched]
  dsimp only
  rw [on_bind]
  rcases (dispatch program actions op operands).on ⟨state.counted, frame⟩ with ⟨_ | _, _⟩
  · rfl
  · rfl

theorem dispatch_settles :
    (dispatch program actions op operands).on ⟨state.counted, frame⟩ =
      settle (Core.carry program actions ⟨state.counted, frame⟩) ⟨state.counted, frame⟩
        (execute program state.counted frame op operands) := by
  obtain ⟨word, -, -, -, hrange⟩ := State.of_fetch_eq_ok dispatches.fetched
  exact dispatch_realizes op hrange

theorem on_step_of_failed {cause : Fault}
    (h : execute program state.counted frame op operands = .error cause) :
    (step program actions).on ⟨state.machine, state.frame⟩ =
      (.error cause, ⟨state.counted, frame⟩) := by
  rw [on_step_of_dispatches dispatches, dispatch_settles dispatches, h]
  rfl

theorem on_step_of_executed {effect : Effect}
    (h : execute program state.counted frame op operands = .ok effect) :
    (step program actions).on ⟨state.machine, state.frame⟩ =
      arrive state.frame.pc (Core.carry program actions ⟨state.counted, frame⟩ effect) := by
  rw [on_step_of_dispatches dispatches, dispatch_settles dispatches, h]
  rfl

end Cases

/-! ## Calls of host functions -/

/-- The result of a host function, and what it leaves. -/
def Core.answered (core : Core) (name : String) (result : NativeResult) :
    Except Fault Value × Core :=
  (result.answer.mapError (.native name), core.restore ⟨result.heap, result.output⟩)

theorem ask_realizes {action : Action} {function : Native}
    (implements : Action.Implements action function) (name : String) (receiver : Value)
    (arguments : List Value) :
    (ask name action receiver arguments).Realizes (core.answered name) core
      ((function (core.site.call receiver arguments)).mapError (.native name)) :=
  .within (implements receiver arguments core.site) rfl

/-- How a run goes on after a step in place. -/
def finish (state : State) : Except Fault Flow × Core → Progress
  | (.ok .next, core) | (.ok (.jump _), core) =>
    .running ⟨core.machine, core.frame, state.callers⟩
  | (.ok (.leave value), core) => State.leave core.machine core.frame state.callers value
  | (.ok (.enter callee destination), core) =>
    let machine := { core.machine with depth := core.machine.depth + 1 }
    .running ⟨machine, callee, ⟨core.frame, destination⟩ :: state.callers⟩
  | (.ok .wait, _) => .waiting state
  | (.error (.uncaught value), core) => State.throw core.machine core.frame value state.callers
  | (.error cause, core) => State.fault core.machine core.frame state.callers cause

theorem finish_error {cause : Fault} (h : ∀ value, cause ≠ .uncaught value) (core : Core) :
    finish state (.error cause, core) =
      State.fault core.machine core.frame state.callers cause := by
  cases cause with
  | uncaught value => exact absurd rfl (h value)
  | _ => rfl

/-- A call in place is a call, if the actions are those of the host functions. -/
theorem call_eq_finish (core : Core) (agree : Agree actions core.machine.natives.entries.toList)
    {destination : UInt8} (hdestination : destination.toNat < registerCount)
    (callee receiver : Value) (arguments : List Value) :
    State.call program core.machine core.frame state.callers destination callee receiver arguments =
      finish state (arrive core.frame.pc
        ((callValue program actions destination callee receiver arguments).on core)) := by
  unfold State.call callValue
  cases hindex : State.functionIndex? callee with
  | some index =>
    dsimp only
    rw [on_bind, on_look]
    cases hentered : State.calleeFrame program core.machine index receiver core.frame.moduleObject
        arguments with
    | ok entered => rfl
    | error cause =>
      have hcause := State.ne_uncaught_of_calleeFrame hentered
      exact (finish_error hcause core).symm
  | none =>
    cases callee with
    | native id =>
      dsimp only
      have hget : core.machine.natives.get? id =
          core.machine.natives.entries.toList[id.toNat]? := by
        simp [NativeTable.get?]
      unfold Machine.callNative
      rw [hget]
      rcases agree.getElem? id.toNat with
        ⟨haction, hfunction⟩ | ⟨name, action, function, haction, hfunction, implements⟩
      · rw [haction, hfunction]
        rfl
      · rw [haction, hfunction]
        dsimp only
        have hask : (ask name action receiver arguments).on core = _ :=
          ask_realizes implements name receiver arguments
        have hsite : core.site.call receiver arguments =
            ⟨core.machine.heap, receiver, arguments, core.machine.output⟩ := rfl
        rw [on_bind, hask, hsite]
        cases function ⟨core.machine.heap, receiver, arguments, core.machine.output⟩ with
        | error cause => rfl
        | ok result =>
          dsimp only [Except.mapError, settle, Core.answered]
          cases result.answer with
          | error cause => rfl
          | ok value =>
            dsimp only
            unfold Caller.resume Frame.setRegister
            rw [if_pos hdestination, on_assign_of_lt hdestination]
            rfl
    | _ => rfl

/-- A step in place is a step. -/
theorem step_eq_finish (agree : Agree actions state.machine.natives.entries.toList) :
    state.step program = finish state ((step program actions).on ⟨state.machine, state.frame⟩) := by
  have htransition := State.transition_step program state
  generalize state.step program = progress at htransition ⊢
  cases htransition with
  | exhausted hspent =>
    rw [on_step_of_exhausted hspent]
    rfl
  | unfetched hallowed hfetch =>
    rw [on_step_of_unfetched hallowed hfetch, finish_error (State.ne_uncaught_of_fetch hfetch)]
  | failed hdispatch hexecute =>
    -- An instruction throws by its effect, so no fault of its own counts as a throw.
    have hraisable := hdispatch.behaves.of_error hexecute
    rw [on_step_of_failed hdispatch hexecute, finish_error]
    rintro value rfl
    exact hraisable
  | @executed frame op operands effect hdispatch hexecute =>
    rw [on_step_of_executed hdispatch hexecute]
    have hacts := hdispatch.behaves.of_ok hexecute
    have hinherits := hacts.frame_inherits
    obtain ⟨opcode, hframe⟩ := State.of_fetch_eq hdispatch.fetched
    have hpc : frame.pc = state.frame.pc := by rw [hframe]
    cases effect with
    | next machine result =>
      have hresult : result.pc = state.frame.pc := hinherits.pc_eq.trans hpc
      simp only [State.proceed, hresult]
      rfl
    | call result destination callee receiver arguments =>
      have hresult : result.pc = state.frame.pc := hinherits.pc_eq.trans hpc
      obtain ⟨hdestination, -⟩ := hacts.of_call
      rw [← hresult]
      exact call_eq_finish ⟨state.counted, result⟩ agree hdestination callee receiver arguments
    | jump | leave | throw | wait => rfl

/-! ## What a failed step leaves -/

/-- A value is no host function, or a standard one. -/
def Standard (actions : List (String × Action)) (callee : Value) : Prop :=
  ∀ id entry, callee = .native id → actions[id.toNat]? = some entry → entry ∈ builtins

/-- A call that fails has changed nothing since the arguments were taken, unless it prints. -/
theorem eq_or_cutShort_of_callValue_eq_error {destination : UInt8} {callee receiver : Value}
    {arguments : List Value} {cause : Fault} {after : Core}
    (hdestination : destination.toNat < registerCount) (standard : Standard actions callee)
    (h : (callValue program actions destination callee receiver arguments).on core =
      (.error cause, after)) :
    after = core ∨ ∃ id action output, callee = .native id ∧
      actions[id.toNat]? = some ("print", action) ∧
      Output.CutShort (Builtin.printed (core.site.call receiver arguments)) core.machine.output
        output ∧
      after = { core with machine.output := output } := by
  unfold callValue at h
  split at h
  · rw [on_bind, on_look] at h
    split at h
    · cases h
    · next hfound =>
      cases h
      exact .inl (Prod.mk.inj hfound).2.symm
  · next id _ =>
    split at h
    · cases h
      exact .inl rfl
    · next name action haction =>
      rw [on_bind, ask, on_within] at h
      rcases hrun : (action receiver arguments).on core.site with ⟨reason | value, later⟩
      · rw [hrun] at h
        obtain rfl : core.restore later = after := (Prod.mk.inj h).2
        rcases eq_or_cutShort_of_error (standard id _ rfl haction) hrun with
          rfl | ⟨hname, hheap, hcut⟩
        · exact .inl rfl
        · obtain rfl : name = "print" := hname
          refine .inr ⟨id, action, later.output, rfl, haction, hcut, ?_⟩
          rw [Core.restore, hheap]
          rfl
      · rw [hrun] at h
        dsimp only [Except.mapError] at h
        rw [on_assign_of_lt hdestination] at h
        cases h
  · cases h
    exact .inl rfl

/-- Nothing but the count of instructions and the remembered opcode differs. -/
def Core.Kept (before after : Core) : Prop :=
  ∃ steps opcode, after = ⟨{ before.machine with steps }, { before.frame with opcode }⟩

/-- The staged arguments have been taken and a part of their line is written. Apart from that,
nothing but the count of instructions and the remembered opcode differs. -/
def Core.PrintedInPart (before after : Core) : Prop :=
  ∃ output,
    Output.CutShort
      (Builtin.printed (before.site.call .null before.frame.outgoing.arguments))
      before.machine.output output ∧
    Core.Kept ⟨{ before.machine with output }, { before.frame with outgoing := {} }⟩ after

/-- A step that fails has kept everything, unless it was a call. -/
theorem kept_of_step_eq_error {cause : Fault} {after : Core}
    (h : (step program actions).on ⟨state.machine, state.frame⟩ = (.error cause, after)) :
    Core.Kept ⟨state.machine, state.frame⟩ after ∨
      ∃ op callee, program.opcodeAt? state.frame.pc = some op ∧ op.isCall = true ∧
        state.Calls program callee ∧ (Standard actions callee →
          Core.Kept ⟨state.machine, { state.frame with outgoing := {} }⟩ after ∨
            ∃ id action, callee = .native id ∧ actions[id.toNat]? = some ("print", action) ∧
              Core.PrintedInPart ⟨state.machine, state.frame⟩ after) := by
  have htransition := State.transition_step program state
  generalize state.step program = progress at htransition
  cases htransition with
  | exhausted hspent =>
    rw [on_step_of_exhausted hspent] at h
    cases h
    exact .inl ⟨state.machine.steps, state.frame.opcode, rfl⟩
  | unfetched hallowed hfetch =>
    rw [on_step_of_unfetched hallowed hfetch] at h
    obtain ⟨opcode, rfl⟩ := State.of_fetch_eq hfetch
    cases h
    exact .inl ⟨_, opcode, rfl⟩
  | failed hdispatch hexecute =>
    rw [on_step_of_failed hdispatch hexecute] at h
    obtain ⟨opcode, rfl⟩ := State.of_fetch_eq hdispatch.fetched
    cases h
    exact .inl ⟨_, opcode, rfl⟩
  | @executed frame op operands effect hdispatch hexecute =>
    rw [on_step_of_executed hdispatch hexecute] at h
    obtain ⟨opcode, rfl⟩ := State.of_fetch_eq hdispatch.fetched
    cases effect with
    -- Of the effects only a throw and a call can fail.
    | next | jump | leave | wait => cases h
    | throw value =>
      cases h
      exact .inl ⟨_, opcode, rfl⟩
    | call result destination callee receiver arguments =>
      have hacts := hdispatch.behaves.of_ok hexecute
      obtain ⟨hdestination, rfl, rfl⟩ := hacts.of_call
      refine .inr ⟨op, callee, hdispatch.opcodeAt?_eq, hacts.isCall, ⟨hdispatch, hexecute⟩, ?_⟩
      intro standard
      have hcall := eq_of_arrive_eq_error h
      rcases eq_or_cutShort_of_callValue_eq_error hdestination standard hcall with
        rfl | ⟨id, action, output, hcallee, haction, hcut, rfl⟩
      · exact .inl ⟨_, opcode, rfl⟩
      · exact .inr ⟨id, action, hcallee, haction, output, hcut, _, opcode, rfl⟩

/-- No instruction is applied in part, but that a sink may fail within a line. The step of the
machine is the step in place, which leaves behind whatever it had changed before it failed; and a
step in place that fails leaves all registers, arguments, stack and scratch slots, receiver, module
object, place, try contexts, heap, locks and output as they were, whatever word it executes. Only a
call may have taken the staged arguments. If the callee is a standard host function or none, that is
all it has changed, unless it prints: then the sink may also have taken a part of the line, and not
all of it, before it failed. -/
theorem failed_step_keeps_state (program : Program) (actions : List (String × Action))
    (state : State) :
    (Agree actions state.machine.natives.entries.toList →
      state.step program =
        finish state ((step program actions).on ⟨state.machine, state.frame⟩)) ∧
      ∀ cause after,
        (step program actions).on ⟨state.machine, state.frame⟩ = (.error cause, after) →
        ((∀ op, program.opcodeAt? state.frame.pc = some op → op.isCall = false) →
          Core.Kept ⟨state.machine, state.frame⟩ after) ∧
        ((∀ callee, state.Calls program callee → Standard actions callee) →
          Core.Kept ⟨state.machine, state.frame⟩ after ∨
            Core.Kept ⟨state.machine, { state.frame with outgoing := {} }⟩ after ∨
            ∃ id action, state.Calls program (.native id) ∧
              actions[id.toNat]? = some ("print", action) ∧
              Core.PrintedInPart ⟨state.machine, state.frame⟩ after) := by
  refine ⟨step_eq_finish, fun cause after h ↦ ?_⟩
  rcases kept_of_step_eq_error h with hkept | ⟨op, callee, hop, hcall, hcalls, hkept⟩
  · exact ⟨fun _ ↦ hkept, fun _ ↦ .inl hkept⟩
  · refine ⟨fun hother ↦ ?_, fun standard ↦ .inr ?_⟩
    · rw [hother op hop] at hcall
      cases hcall
    · rcases hkept (standard callee hcalls) with hkept | ⟨id, action, rfl, haction, hprinted⟩
      · exact .inl hkept
      · exact .inr ⟨id, action, hcalls, haction, hprinted⟩

/-- A program that pops into a register that does not exist, and calls what its first register
holds. -/
def discarding : Program where
  name := "discarding"
  code := #[
    Instruction.encode ⟨Opcode.stackPop.byte, .regs1 9⟩,
    Instruction.encode ⟨Opcode.localCall.byte, .regs2 1 0⟩]

/-- A frame with a value on its stack, a staged argument, and a host function in its first
register. -/
def prepared (pc : Nat) : Frame :=
  { pc, maxStack := 4, maxScratch := 4, stack := #[.int 7], outgoing := { reserved := 1 }
    registers := (Vector.replicate registerCount .null).setIfInBounds 0 (.native 0) }

/-- A machine whose output has room for one byte. -/
def cramped : Machine where
  output.plan := [.take 1, .fail "full"]

theorem standard_builtins (callee : Value) : Standard builtins callee :=
  fun _ _ _ hentry ↦ List.mem_of_getElem? hentry

/-- The call prints a null, and the first of its four letters has room. -/
theorem on_step_cramped :
    (step discarding builtins).on ⟨cramped, prepared 1⟩ =
      (.error (.native "print" (.output "full")),
        ⟨{ output.written := ⟨#[110]⟩, steps := 1 },
          { prepared 1 with outgoing := {}, opcode := Opcode.localCall.byte }⟩) := by
  let core : Core := ⟨{ cramped with steps := 1 },
    { prepared 1 with outgoing := {}, opcode := Opcode.localCall.byte }⟩
  have hbytes : Bytes.ofText "null" = [110, 117, 108, 108] := by
    rw [Bytes.ofText_eq]
    rfl
  have hprint : (print .null [.null]).on core.site =
      (.error (.output "full"), ⟨{}, { written := ⟨#[110]⟩ }⟩) := by
    have hline : Builtin.line (core.site.call .null [.null]) = "null" := by decide +kernel
    rw [on_print, hline, Output.write, hbytes]
    rfl
  have hcall : (callValue discarding builtins 1 (.native 0) .null [.null]).on core =
      (.error (.native "print" (.output "full")),
        ⟨{ output.written := ⟨#[110]⟩, steps := 1 }, core.frame⟩) := by
    change (ask "print" print .null [.null] >>= assign 1).on core = _
    rw [on_bind, ask, on_within, hprint]
    rfl
  have hdispatch : State.Dispatches discarding ⟨cramped, prepared 1, []⟩
      { prepared 1 with opcode := Opcode.localCall.byte } .localCall (.regs2 1 0) := ⟨rfl, rfl⟩
  exact (on_step_of_executed hdispatch rfl).trans (congrArg (arrive 1) hcall)

/-- The pop leaves the value on the stack; printing to an output without room leaves all but the
staged argument, and a part of the line. -/
theorem failed_step_keeps_state_discarding :
    ∃ popping calling,
      (step discarding builtins).on ⟨{}, prepared 0⟩ = (.error (.invalidRegister 9), popping) ∧
      Core.Kept ⟨{}, prepared 0⟩ popping ∧
      State.step discarding ⟨{}, prepared 0, []⟩ =
        State.fault popping.machine popping.frame [] (.invalidRegister 9) ∧
      (step discarding builtins).on ⟨cramped, prepared 1⟩ =
        (.error (.native "print" (.output "full")), calling) ∧
      (Core.Kept ⟨cramped, prepared 1⟩ calling ∨
        Core.Kept ⟨cramped, { prepared 1 with outgoing := {} }⟩ calling ∨
        ∃ id action, State.Calls discarding ⟨cramped, prepared 1, []⟩ (.native id) ∧
          builtins[id.toNat]? = some ("print", action) ∧
          Core.PrintedInPart ⟨cramped, prepared 1⟩ calling) := by
  obtain ⟨heq, hpop⟩ := failed_step_keeps_state discarding builtins ⟨{}, prepared 0, []⟩
  obtain ⟨-, hcall⟩ := failed_step_keeps_state discarding builtins ⟨cramped, prepared 1, []⟩
  have hopcode (op : Opcode) (hop : discarding.opcodeAt? 0 = some op) : op.isCall = false := by
    obtain rfl : Opcode.stackPop = op := Option.some.inj hop
    rfl
  exact ⟨_, _, rfl, (hpop _ _ rfl).1 hopcode, heq builtins_agree, on_step_cramped,
    (hcall _ _ on_step_cramped).2 fun callee _ ↦ standard_builtins callee⟩

/-- A call of a standard host function that fails need not leave the output as it was. -/
theorem failed_print_leaves_part :
    ∃ cause after,
      (step discarding builtins).on ⟨cramped, prepared 1⟩ = (.error cause, after) ∧
      State.step discarding ⟨cramped, prepared 1, []⟩ =
        State.fault after.machine after.frame [] cause ∧
      (∀ callee, State.Calls discarding ⟨cramped, prepared 1, []⟩ callee →
        Standard builtins callee) ∧
      cramped.output.text = "" ∧ after.machine.output.text = "n" ∧
      ¬ (Core.Kept ⟨cramped, prepared 1⟩ after ∨
        Core.Kept ⟨cramped, { prepared 1 with outgoing := {} }⟩ after) := by
  refine ⟨_, _, on_step_cramped, ?_, fun callee _ ↦ standard_builtins callee, ?_, ?_, ?_⟩
  · rw [step_eq_finish builtins_agree, on_step_cramped]
    rfl
  · decide +kernel
  · decide +kernel
  · rintro (⟨_, _, hkept⟩ | ⟨_, _, hkept⟩)
    · have hwritten := congrArg (fun core ↦ core.machine.output.written.data) hkept
      cases hwritten
    · have hwritten := congrArg (fun core ↦ core.machine.output.written.data) hkept
      cases hwritten

end InPlace

end RegisterMachine

import RegisterMachine.Proofs.Program.Verified

/-!
# Faults end every frame

A program catches what it throws, and nothing else. When an instruction fails in a nested frame, no
try context on the way out is asked: the run ends with that very fault, every frame that was active
ends where it stood, the callers at their call instructions, and the machine counts as many frames
as before the run began. The invariant behind this is `State.Nested`: the frames that execute or
wait are those that the machine has counted since the beginning, none of them has ended, and each
one that waits stands at a call.
-/

namespace RegisterMachine

/-- The ways to set a machine to work: to run a program, to call one of its functions by name or by
number, or to execute a frame, which may be any. -/
inductive Starts (program : Program) (machine : Machine) : Progress → Prop
  | run : Starts program machine (machine.run program)
  | call (name : String) (arguments : List Value) :
      Starts program machine (machine.call program name arguments)
  | function (index : Nat) (receiver : Value) (arguments : List Value) :
      Starts program machine (machine.callFunction program index receiver arguments)
  | execute (frame : Frame) : Starts program machine (machine.enter frame)

namespace State

/-! ## Frames end one by one -/

/-- A fault ends the frame that executes. It is then the fault of the call at which the caller of
that frame stands, and so on outwards; `inner` has the frames that have ended before. -/
def faultFrames (cause : Fault) (machine : Machine) (inner : List Frame) (frame : Frame) :
    List Caller → Progress
  | [] =>
    .ended {
      machine := leaveFrames machine 1
      frames := inner ++ [frame.halt]
      result := .error cause }
  | caller :: outer =>
    faultFrames cause (leaveFrames machine 1) (inner ++ [frame.halt]) caller.frame outer

theorem leaveFrames_leaveFrames (machine : Machine) (first second : Nat) :
    leaveFrames (leaveFrames machine first) second = leaveFrames machine (first + second) := by
  simp only [leaveFrames, Nat.sub_sub]

theorem faultFrames_eq (cause : Fault) (machine : Machine) (inner : List Frame) (frame : Frame)
    (callers : List Caller) :
    faultFrames cause machine inner frame callers =
      .ended {
        machine := leaveFrames machine (callers.length + 1)
        frames := inner ++ (frame :: callers.map (·.frame)).map Frame.halt
        result := .error cause } := by
  induction callers generalizing machine inner frame with
  | nil => rfl
  | cons caller outer ih =>
    rw [faultFrames, ih, leaveFrames_leaveFrames, Nat.add_comm 1]
    simp

/-- To end all frames at once is to end one after the other. -/
theorem fault_eq_faultFrames (machine : Machine) (frame : Frame) (callers : List Caller)
    (cause : Fault) :
    fault machine frame callers cause = faultFrames cause machine [] frame callers :=
  (faultFrames_eq cause machine [] frame callers).symm

/-! ## Instructions that fail -/

/-- Why a value cannot be called: the function cannot be entered, the host function fails, or the
value is neither. -/
inductive Refuses (program : Program) (machine : Machine) (frame : Frame) (callee receiver : Value)
    (arguments : List Value) : Fault → Prop
  | entry {index : Nat} {cause : Fault} : functionIndex? callee = some index →
      calleeFrame program machine index receiver frame.moduleObject arguments = .error cause →
      Refuses program machine frame callee receiver arguments cause
  | native {id : UInt32} {cause : Fault} : callee = .native id →
      (machine.callNative id receiver arguments).1 = .error cause →
      Refuses program machine frame callee receiver arguments cause
  | value : functionIndex? callee = none → (∀ id, callee ≠ .native id) →
      Refuses program machine frame callee receiver arguments (.notCallable callee.typeName)

/-- The next instruction of a run fails: no instruction is allowed any more, none can be fetched,
the one fetched fails, or what it calls cannot be called. To throw a value is not to fail. -/
inductive Fails (program : Program) (state : State) : Fault → Prop
  | exhausted {limit : Nat} : exhausted? state.machine = some limit →
      Fails program state (.stepBudgetExceeded limit)
  | unfetched {frame : Frame} {cause : Fault} : exhausted? state.machine = none →
      fetch program state.frame = (frame, .error cause) → Fails program state cause
  | failed {frame : Frame} {op : Opcode} {operands : Operands} {cause : Fault} :
      Dispatches program state frame op operands →
      execute program state.counted frame op operands = .error cause → Fails program state cause
  | uncalled {frame result : Frame} {op : Opcode} {operands : Operands} {destination : UInt8}
      {callee receiver : Value} {arguments : List Value} {cause : Fault} :
      Dispatches program state frame op operands →
      execute program state.counted frame op operands =
        .ok (.call result destination callee receiver arguments) →
      Refuses program state.counted result callee receiver arguments cause →
      Fails program state cause

variable {program : Program} {machine : Machine} {frame : Frame} {callers : List Caller}
  {destination : UInt8} {callee receiver : Value} {arguments : List Value} {cause : Fault}

/-- A call that is refused ends every frame. A host function may have changed heap and output. -/
theorem call_of_refuses (refuses : Refuses program machine frame callee receiver arguments cause) :
    ∃ changed, machine.Inherits changed ∧
      call program machine frame callers destination callee receiver arguments =
        fault changed frame callers cause := by
  cases refuses with
  | entry hindex hentry => exact ⟨machine, rfl, by simp only [call, hindex, hentry]⟩
  | @native id _ hcallee hanswer =>
    have hfailed : machine.callNative id receiver arguments = (.error cause, _) :=
      Prod.ext hanswer rfl
    refine ⟨_, Machine.callNative_inherits hfailed, ?_⟩
    rw [hcallee]
    simp only [call, functionIndex?]
    rw [hfailed]
  | value hindex hnative =>
    refine ⟨machine, rfl, ?_⟩
    unfold call
    split
    · next heq => exact absurd heq (by simp [hindex])
    · next id _ => exact absurd rfl (hnative id)
    · rfl

/-- A step that fails ends every frame, the innermost one with its program counter unchanged. -/
theorem Fails.step_eq {state : State} (fails : state.Fails program cause) :
    ∃ machine frame, state.step program = fault machine frame state.callers cause ∧
      machine.depth = state.machine.depth ∧ frame.pc = state.frame.pc := by
  have hfetched {fetched : Frame} {outcome : Except Fault (Opcode × Operands)}
      (h : fetch program state.frame = (fetched, outcome)) : fetched.pc = state.frame.pc := by
    obtain ⟨opcode, rfl⟩ := of_fetch_eq h
    rfl
  cases fails with
  | exhausted hlimit => exact ⟨state.machine, state.frame, by simp only [step, hlimit], rfl, rfl⟩
  | unfetched hallowed hfetch =>
    exact ⟨state.counted, _, by simp only [step, hallowed, hfetch, counted], rfl, hfetched hfetch⟩
  | failed hdispatch hexecute =>
    refine ⟨state.counted, _, ?_, rfl, hfetched hdispatch.fetched⟩
    rw [hdispatch.step_eq, hexecute]
  | uncalled hdispatch hexecute hrefuses =>
    have hinherits : Frame.Inherits _ _ := (hdispatch.behaves.of_ok hexecute).frame_inherits
    obtain ⟨changed, hchanged, hcall⟩ := call_of_refuses hrefuses
    refine ⟨changed, _, ?_, ?_, hinherits.pc_eq.trans (hfetched hdispatch.fetched)⟩
    · rw [hdispatch.step_eq, hexecute]
      exact hcall
    · rw [hchanged]
      rfl

end State

/-! ## The nesting of frames -/

/-- A frame that waits has not ended, stands at a call, and has a register for the result. -/
structure Caller.Waits (program : Program) (caller : Caller) : Prop where
  active : caller.frame.halted = false
  destination_lt : caller.destination.toNat < registerCount
  calls : ∃ op, program.opcodeAt? caller.frame.pc = some op ∧ op.isCall = true

/-- The invariant of a run that began when the machine counted so many frames. -/
structure State.Nested (program : Program) (depth : Nat) (state : State) : Prop where
  depth_eq : state.machine.depth = depth + state.callers.length + 1
  active : state.frame.halted = false
  callers_wait : ∀ caller ∈ state.callers, caller.Waits program

/-- The end of a run that began when the machine counted so many frames. -/
structure Ended.Balanced (depth : Nat) (outcome : Ended) : Prop where
  depth_eq : outcome.machine.depth = depth
  frames_halted : ∀ frame ∈ outcome.frames, frame.halted = true
  frames_ne_nil : outcome.frames ≠ []

/-- A run is balanced as far as it has come. -/
def Progress.Balanced (program : Program) (depth : Nat) (progress : Progress) : Prop :=
  progress.Satisfies (State.Nested program depth) (Ended.Balanced depth)

/-- A caller that receives its result goes on. -/
theorem Caller.Waits.resume {program : Program} {caller : Caller} (waits : caller.Waits program)
    (value : Value) : ∃ frame, caller.resume value = .ok frame ∧ frame.halted = false := by
  have hset : caller.frame.setRegister caller.destination value = .ok { caller.frame with
      registers := caller.frame.registers.setIfInBounds caller.destination.toNat value } :=
    if_pos waits.destination_lt
  refine ⟨_, by rw [Caller.resume, hset]; rfl, ?_⟩
  exact waits.active

namespace State

variable {program : Program} {machine : Machine} {frame : Frame} {callers : List Caller}
  {depth : Nat} {cause : Fault}

theorem balanced_fault (hdepth : machine.depth = depth + callers.length + 1) :
    (fault machine frame callers cause).Balanced program depth := by
  constructor
  · simp only [leaveFrames]
    omega
  · intro ended hended
    obtain ⟨active, -, rfl⟩ := List.mem_map.1 hended
    rfl
  · simp

theorem balanced_leave (hdepth : machine.depth = depth + callers.length + 1)
    (hcallers : ∀ caller ∈ callers, caller.Waits program) (value : Value) :
    (leave machine frame callers value).Balanced program depth := by
  cases callers with
  | nil =>
    constructor
    · simp only [leaveFrames, hdepth, List.length_nil]
      omega
    · simp [Frame.halt]
    · simp
  | cons caller outer =>
    obtain ⟨resumed, hresume, hactive⟩ := (hcallers caller (by simp)).resume value
    simp only [leave, hresume]
    refine ⟨?_, hactive, fun other hother ↦ hcallers other (by simp [hother])⟩
    simp only [leaveFrames, hdepth, List.length_cons]
    omega

theorem halted_unwind (frame : Frame) (value : Value) :
    (frame.unwind value).2.halted = frame.halted := by
  unfold Frame.unwind
  split <;> rfl

/-- A thrown value leaves frames one by one, and each is counted out. -/
theorem balanced_throw (hdepth : machine.depth = depth + callers.length + 1)
    (hframe : frame.halted = false) (hcallers : ∀ caller ∈ callers, caller.Waits program)
    (value : Value) : (throw machine frame value callers).Balanced program depth := by
  induction callers generalizing machine frame with
  | nil =>
    have hunwound := halted_unwind frame value
    unfold throw
    split
    · next caught hcaught =>
      rw [hcaught] at hunwound
      exact ⟨hdepth, hunwound.trans hframe, by simp⟩
    · constructor
      · simp only [leaveFrames, hdepth, List.length_nil]
        omega
      · simp [Frame.halt]
      · simp
  | cons caller outer ih =>
    have hunwound := halted_unwind frame value
    unfold throw
    split
    · next caught hcaught =>
      rw [hcaught] at hunwound
      exact ⟨hdepth, hunwound.trans hframe, hcallers⟩
    · apply ih
      · simp only [leaveFrames, hdepth, List.length_cons]
        omega
      · exact (hcallers caller (by simp)).active
      · exact fun other hother ↦ hcallers other (by simp [hother])

/-- A new frame is active, and has no open try context. -/
theorem new_begins (entry : Nat) (options : Options) :
    Yields (fun made ↦ made.halted = false ∧ made.tries = []) (Frame.new entry options) := by
  unfold Frame.new
  split
  · trivial
  · exact ⟨rfl, rfl⟩

theorem calleeFrame_begins (index : Nat) (receiver moduleObject : Value) (arguments : List Value) :
    Yields (fun entered ↦ entered.halted = false ∧ entered.tries = [])
      (calleeFrame program machine index receiver moduleObject arguments) := by
  unfold calleeFrame
  split
  · trivial
  · dsimp only
    split
    · trivial
    · apply Meets.bind (new_begins _ _)
      intro made _ hmade
      have hfill : Yields (fun filled ↦ filled.halted = false ∧ filled.tries = [])
          (made.withArguments arguments) := by
        unfold Frame.withArguments
        split
        · trivial
        · exact hmade
      exact Meets.bind hfill fun filled _ hfilled ↦ hfilled

theorem balanced_call {destination : UInt8} {callee receiver : Value} {arguments : List Value}
    (hdepth : machine.depth = depth + callers.length + 1)
    (hcaller : Caller.Waits program ⟨frame, destination⟩)
    (hcallers : ∀ caller ∈ callers, caller.Waits program) :
    (call program machine frame callers destination callee receiver arguments).Balanced
      program depth := by
  unfold call
  split
  · split
    · next entered hentered =>
      refine ⟨?_, ((calleeFrame_begins _ _ _ _).of_ok hentered).1, ?_⟩
      · simp only [hdepth, List.length_cons]
        omega
      · simpa using ⟨hcaller, hcallers⟩
    · exact balanced_fault hdepth
  · split
    · next value changed hanswer =>
      obtain ⟨resumed, hresume, hactive⟩ := hcaller.resume value
      rw [hresume]
      refine ⟨?_, hactive, hcallers⟩
      rw [Machine.callNative_inherits hanswer]
      exact hdepth
    · next cause changed hanswer =>
      apply balanced_fault
      rw [Machine.callNative_inherits hanswer]
      exact hdepth
  · exact balanced_fault hdepth

/-- A frame that calls stands at its call instruction. -/
theorem Dispatches.waits {state : State} {result : Frame} {op : Opcode} {operands : Operands}
    {destination : UInt8} {callee receiver : Value} {arguments : List Value}
    (dispatches : Dispatches program state frame op operands) (hactive : state.frame.halted = false)
    (h : execute program state.counted frame op operands =
      .ok (.call result destination callee receiver arguments)) :
    Caller.Waits program ⟨result, destination⟩ := by
  obtain ⟨opcode, rfl⟩ := of_fetch_eq dispatches.fetched
  have hacts := dispatches.behaves.of_ok h
  have hinherits : Frame.Inherits _ result := hacts.frame_inherits
  constructor
  · exact hinherits.halted_eq.trans hactive
  · cases hacts
    assumption
  · refine ⟨op, ?_, hacts.isCall⟩
    rw [hinherits.pc_eq]
    exact dispatches.opcodeAt?_eq

theorem balanced_step {state : State} (nested : state.Nested program depth) :
    (state.step program).Balanced program depth := by
  obtain ⟨hdepth, hactive, hcallers⟩ := nested
  have hcounted : state.counted.depth = depth + state.callers.length + 1 := hdepth
  have htransition := transition_step program state
  generalize state.step program = progress at htransition
  cases htransition with
  | exhausted _ => exact balanced_fault hdepth
  | unfetched _ _ => exact balanced_fault hcounted
  | failed _ _ => exact balanced_fault hcounted
  | @executed frame op operands effect hdispatch hexecute =>
    have hframe : frame.halted = false := by
      obtain ⟨opcode, rfl⟩ := of_fetch_eq hdispatch.fetched
      exact hactive
    have hacts := hdispatch.behaves.of_ok hexecute
    have hinherits := hacts.frame_inherits
    cases effect with
    | next machine result =>
      refine ⟨?_, (Frame.Inherits.halted_eq hinherits).trans hframe, hcallers⟩
      rw [hacts.inherits]
      exact hcounted
    | jump result target =>
      exact ⟨hcounted, (Frame.Inherits.halted_eq hinherits).trans hframe, hcallers⟩
    | leave value => exact balanced_leave hcounted hcallers value
    | throw value => exact balanced_throw hcounted hframe hcallers value
    | call result destination callee receiver arguments =>
      exact balanced_call hcounted (hdispatch.waits hactive hexecute) hcallers
    | wait => exact ⟨hdepth, hactive, hcallers⟩

/-! ## Where an end without a result comes from -/

theorem result_of_leave (hcallers : ∀ caller ∈ callers, caller.Waits program) {value : Value}
    {outcome : Ended} (h : leave machine frame callers value = .ended outcome) :
    outcome.result = .ok value := by
  cases callers with
  | nil =>
    cases h
    rfl
  | cons caller outer =>
    obtain ⟨resumed, hresume, -⟩ := (hcallers caller (by simp)).resume value
    simp only [leave, hresume] at h
    cases h

theorem result_of_throw {value : Value} {outcome : Ended}
    (h : throw machine frame value callers = .ended outcome) :
    outcome.result = .error (.uncaught value) := by
  induction callers generalizing machine frame with
  | nil =>
    unfold throw at h
    split at h
    · cases h
    · cases h
      rfl
  | cons caller outer ih =>
    unfold throw at h
    split at h
    · cases h
    · exact ih h

theorem refuses_of_call {destination : UInt8} {callee receiver : Value} {arguments : List Value}
    {outcome : Ended} (hcaller : Caller.Waits program ⟨frame, destination⟩)
    (h : call program machine frame callers destination callee receiver arguments = .ended outcome)
    (hcause : outcome.result = .error cause) :
    Refuses program machine frame callee receiver arguments cause := by
  unfold call at h
  split at h
  · next index _ hindex =>
    split at h
    · cases h
    · next raised hentry =>
      cases h
      cases hcause
      exact .entry hindex hentry
  · next id _ =>
    split at h
    · next value changed _ =>
      obtain ⟨resumed, hresume, -⟩ := hcaller.resume value
      rw [hresume] at h
      cases h
    · next raised hanswer =>
      cases h
      cases hcause
      exact .native rfl (congrArg Prod.fst hanswer)
  · next hnative hindex =>
    cases h
    cases hcause
    exact .value hindex hnative

/-- A run that ends without a result ends by a throw or because its next instruction fails. -/
theorem fails_of_step {state : State} (nested : state.Nested program depth) {outcome : Ended}
    (h : state.step program = .ended outcome) (hcause : outcome.result = .error cause) :
    (∃ value, cause = .uncaught value) ∨ state.Fails program cause := by
  have hfault {machine : Machine} {frame : Frame} {callers : List Caller} {raised : Fault}
      (hended : .ended outcome = fault machine frame callers raised) : raised = cause := by
    cases hended
    exact Except.error.inj hcause
  have htransition := transition_step program state
  rw [h] at htransition
  generalize hprogress : Progress.ended outcome = progress at htransition
  cases htransition with
  | exhausted hlimit =>
    rw [← hfault hprogress]
    exact .inr (.exhausted hlimit)
  | unfetched hallowed hfetch =>
    rw [← hfault hprogress]
    exact .inr (.unfetched hallowed hfetch)
  | failed hdispatch hexecute =>
    rw [← hfault hprogress]
    exact .inr (.failed hdispatch hexecute)
  | @executed frame op operands effect hdispatch hexecute =>
    cases effect with
    | next | jump | wait => cases hprogress
    | leave value =>
      rw [result_of_leave nested.callers_wait hprogress.symm] at hcause
      cases hcause
    | throw value =>
      rw [result_of_throw hprogress.symm] at hcause
      exact .inl ⟨value, (Except.error.inj hcause).symm⟩
    | call result destination callee receiver arguments =>
      have hwaits := hdispatch.waits nested.active hexecute
      exact .inr (.uncalled hdispatch hexecute (refuses_of_call hwaits hprogress.symm hcause))

end State

/-! ## Runs -/

section Runs

variable {program : Program} {machine : Machine} {start progress : Progress}

theorem Reaches.balanced {depth : Nat} (reached : Reaches program start progress)
    (begins : start.Balanced program depth) : progress.Balanced program depth := by
  apply reached.satisfies begins
  · exact fun state nested ↦ State.balanced_step nested
  · exact fun state locks nested ↦ ⟨nested.depth_eq, nested.active, nested.callers_wait⟩

/-- A run that is refused has ended, and stays so. -/
theorem Reaches.eq_of_ended {outcome : Ended}
    (reached : Reaches program (.ended outcome) progress) : progress = .ended outcome := by
  induction reached with
  | refl => rfl
  | step _ ih | retry _ ih | locks _ _ ih => cases ih

theorem enter_balanced (machine : Machine) (frame : Frame) :
    (machine.enter frame).Balanced program machine.depth := by
  unfold Machine.enter
  split
  · next hhalted => exact ⟨rfl, by simpa using hhalted, by simp⟩
  · next hactive => exact ⟨rfl, by simpa using hactive, by simp⟩

theorem enter_of_halted {frame : Frame} (h : frame.halted = true) :
    machine.enter frame = .ended { machine, frames := [frame], result := .error .frameHalted } := by
  rw [Machine.enter, if_pos h]

/-- A run begins with a frame of its own, or is refused without one. -/
theorem Starts.balanced (starts : Starts program machine start) :
    start.Balanced program machine.depth ∨
      ∃ outcome, start = .ended outcome ∧ outcome.machine.depth = machine.depth ∧
        outcome.frames = [] := by
  have hrefuse {changed : Machine} (cause : Fault) (h : changed.depth = machine.depth) :
      ∃ outcome, changed.refuse cause = .ended outcome ∧ outcome.machine.depth = machine.depth ∧
        outcome.frames = [] := ⟨_, rfl, h, rfl⟩
  have hcall (index : Nat) (receiver : Value) (arguments : List Value) :
      (machine.callFunction program index receiver arguments).Balanced program machine.depth ∨
        ∃ outcome, machine.callFunction program index receiver arguments = .ended outcome ∧
          outcome.machine.depth = machine.depth ∧ outcome.frames = [] := by
    unfold Machine.callFunction
    generalize hcounted :
      (if machine.depth = 0 then { machine with steps := 0 } else machine) = counted
    have hdepth : counted.depth = machine.depth := by
      rw [← hcounted]
      split <;> rfl
    dsimp only
    split
    · rw [← hdepth]
      exact .inl (enter_balanced counted _)
    · exact .inr (hrefuse _ hdepth)
  cases starts with
  | run =>
    unfold Machine.run
    split
    · exact .inr (hrefuse _ rfl)
    · split
      · exact hcall _ _ _
      · split
        · exact .inr (hrefuse _ rfl)
        · dsimp only
          split
          · exact .inl (enter_balanced { machine with steps := 0 } _)
          · exact .inr (hrefuse _ rfl)
  | call name arguments =>
    unfold Machine.call
    split
    · exact hcall _ _ _
    · exact .inr (hrefuse _ rfl)
  | function index receiver arguments => exact hcall index receiver arguments
  | execute frame => exact .inl (enter_balanced machine frame)

theorem Starts.nested {state : State} (starts : Starts program machine start)
    (reached : Reaches program start (.running state)) : state.Nested program machine.depth := by
  rcases starts.balanced with hbalanced | ⟨refused, rfl, -⟩
  · exact reached.balanced hbalanced
  · cases reached.eq_of_ended

theorem Starts.depth_eq {outcome : Ended} (starts : Starts program machine start)
    (reached : Reaches program start (.ended outcome)) :
    outcome.machine.depth = machine.depth := by
  rcases starts.balanced with hbalanced | ⟨refused, rfl, hdepth, -⟩
  · have houtcome : outcome.Balanced machine.depth := reached.balanced hbalanced
    exact houtcome.depth_eq
  · cases reached.eq_of_ended
    exact hdepth

/-- How a fault ends a run: with that fault and no other result, the count of frames back to what it
was, and every frame ended where it stood, each caller at its call instruction. -/
structure Ended.HaltedBy (program : Program) (depth : Nat) (state : State) (cause : Fault)
    (outcome : Ended) : Prop where
  result_eq : outcome.result = .error cause
  depth_eq : outcome.machine.depth = depth
  pcs_eq : outcome.frames.map (·.pc) = (Progress.running state).frames.map (·.pc)
  frames_halted : ∀ frame ∈ outcome.frames, frame.halted = true
  callers_call : ∀ caller ∈ state.callers,
    ∃ op, program.opcodeAt? caller.frame.pc = some op ∧ op.isCall = true

theorem State.Nested.haltedBy {depth : Nat} {state : State} {cause : Fault}
    (nested : state.Nested program depth) (fails : state.Fails program cause) :
    ∃ outcome, state.step program = .ended outcome ∧
      outcome.HaltedBy program depth state cause := by
  obtain ⟨changed, frame, hstep, hdepth, hpc⟩ := fails.step_eq
  have hbalanced := balanced_step nested
  rw [hstep] at hbalanced
  refine ⟨_, hstep, ?_⟩
  constructor
  · rfl
  · exact hbalanced.depth_eq
  · simp [Progress.frames, Frame.halt, hpc]
  · exact hbalanced.frames_halted
  · exact fun caller hcaller ↦ (nested.callers_wait caller hcaller).calls

/-- Faults are never intercepted. However deep calls nest and whatever try contexts are open, the
fault of an instruction ends the run with that fault, every active frame where it stands, and the
count of frames as before. However a run ends, its frames have ended, and an error that is not a
throw is the fault of an instruction or the refusal to begin. A frame that has ended is not executed
again. -/
theorem faults_halt_every_frame (starts : Starts program machine start) :
    (∀ state cause, Reaches program start (.running state) → state.Fails program cause →
      ∃ outcome, state.step program = .ended outcome ∧
        outcome.HaltedBy program machine.depth state cause) ∧
      (∀ outcome, Reaches program start (.ended outcome) →
        outcome.machine.depth = machine.depth ∧
          (∀ frame ∈ outcome.frames, frame.halted = true) ∧
          ∀ cause, outcome.result = .error cause →
            start = .ended outcome ∨ (∃ value, cause = .uncaught value) ∨
              ∃ state, Reaches program start (.running state) ∧ state.Fails program cause) ∧
      (∀ frame outcome, Reaches program (machine.enter frame) (.ended outcome) →
        outcome.frames ≠ []) ∧
      ∀ frame, frame.halted = true → machine.enter frame =
        .ended { machine, frames := [frame], result := .error .frameHalted } := by
  have hbegins := starts.balanced
  refine ⟨?_, ?_, ?_, fun frame hhalted ↦ enter_of_halted hhalted⟩
  · intro state cause reached fails
    rcases hbegins with hbalanced | ⟨outcome, rfl, -⟩
    · exact State.Nested.haltedBy (reached.balanced hbalanced) fails
    · cases reached.eq_of_ended
  · intro outcome reached
    rcases hbegins with hbalanced | ⟨refused, rfl, hdepth, hframes⟩
    · have houtcome : outcome.Balanced machine.depth := reached.balanced hbalanced
      refine ⟨houtcome.depth_eq, houtcome.frames_halted, fun cause hcause ↦ ?_⟩
      generalize hended : Progress.ended outcome = progress at reached
      cases reached with
      | refl => exact .inl rfl
      | @step state before =>
        rcases State.fails_of_step (before.balanced hbalanced) hended.symm hcause with
          hthrown | hfails
        · exact .inr (.inl hthrown)
        · exact .inr (.inr ⟨state, before, hfails⟩)
      | retry | locks => cases hended
    · cases reached.eq_of_ended
      exact ⟨hdepth, by simp [hframes], fun _ _ ↦ .inl rfl⟩
  · intro frame outcome reached
    have houtcome : outcome.Balanced machine.depth :=
      reached.balanced (enter_balanced machine frame)
    exact houtcome.frames_ne_nil

end Runs

/-- The main function opens a try context with a catch and calls a function that pops an empty
stack. -/
def underflowing : Program where
  name := "underflowing"
  code := #[
    Instruction.encode ⟨Opcode.newTryNoFinal.byte, .none⟩,
    Instruction.encode ⟨Opcode.addCatch.byte, .immReg 1 4⟩,
    Instruction.encode ⟨Opcode.declareFunction.byte, .immReg 0 1⟩,
    Instruction.encode ⟨Opcode.localCall.byte, .regs2 2 0⟩,
    Instruction.encode ⟨Opcode.returnValue.byte, .regs1 1⟩,
    Instruction.encode ⟨Opcode.stackPop.byte, .regs1 3⟩]
  functions := #[⟨"main", 0, 0⟩, ⟨"drain", 5, 0⟩]

/-- The fault of the function is not caught, and both frames end where they stand. -/
theorem faults_halt_every_frame_underflowing :
    ∃ state outcome, (Machine.run {} underflowing).advance underflowing 4 = .running state ∧
      (Progress.running state).frames.map (·.pc) = [5, 3] ∧
      state.step underflowing = .ended outcome ∧
      outcome.HaltedBy underflowing 0 state .stackUnderflow := by
  have hreached : Reaches underflowing (Machine.run {} underflowing) _ := Reaches.refl.advance 4
  have hplaces : ((Machine.run {} underflowing).advance underflowing 4).state?.map
      (fun state ↦ ((Progress.running state).frames.map (·.pc),
        (state.step underflowing).outcome?.any (·.result matches .error .stackUnderflow))) =
      some ([5, 3], true) := by decide +kernel
  obtain ⟨state, hstate, hplace⟩ := Option.map_eq_some_iff.1 hplaces
  obtain ⟨hpcs, hresult⟩ := Prod.mk.inj hplace
  obtain ⟨ended, hended, hmatches⟩ := (Option.any_eq_true _ _).1 hresult
  have hcause : ended.result = .error .stackUnderflow := by
    split at hmatches
    · assumption
    · cases hmatches
  have hrunning := Progress.state?_eq_some_iff.1 hstate
  rw [hrunning] at hreached
  have hnested : state.Nested underflowing 0 := by
    rcases (Starts.run : Starts underflowing {} _).balanced with hbalanced | ⟨refused, hrefused, -⟩
    · exact hreached.balanced hbalanced
    · rw [hrefused] at hreached
      cases hreached.eq_of_ended
  have hfails : state.Fails underflowing .stackUnderflow := by
    rcases State.fails_of_step hnested (Progress.outcome?_eq_some_iff.1 hended) hcause with
      ⟨value, hthrown⟩ | hfails
    · cases hthrown
    · exact hfails
  obtain ⟨outcome, hstep, hhalted⟩ :=
    (faults_halt_every_frame .run).1 state .stackUnderflow hreached hfails
  exact ⟨state, outcome, hrunning, hpcs, hstep, hhalted⟩

end RegisterMachine

import RegisterMachine.Proofs.Limits.Relaxed
import RegisterMachine.Proofs.Machine.Step

/-!
# Limits are monotone

A run that comes to a result, or throws a value that nothing catches, comes to the same end under
limits that are at least as large, with the same heap, the same output and as many instructions. The
two runs go side by side: after every instruction the second is where the first is, put under its
own options. Only a fault can part them, and no program catches a fault.
-/

namespace RegisterMachine

variable {program : Program} {options strict loose : Options}

/-! ## Instructions -/

/-- What an instruction comes to under options. -/
def Effect.under (options : Options) : Effect → Effect
  | .next machine frame => .next (machine.under options) (frame.under options)
  | .jump frame target => .jump (frame.under options) target
  | .leave value => .leave value
  | .throw value => .throw value
  | .call frame destination callee receiver arguments =>
    .call (frame.under options) destination callee receiver arguments
  | .wait => .wait

namespace Effect

variable {machine : Machine} {frame : Frame}

theorem assign_follows (options : Options) (index : UInt8) (value : Value) :
    Follows (under options) (assign machine frame index value)
      (assign (machine.under options) (frame.under options) index value) :=
  .bind (frame.setRegister_follows options index value) fun _ _ ↦ .ok _ _

theorem assignFrom_follows {index : UInt8} {made made' : Except Fault (Value × Machine)}
    (h : Follows (fun made ↦ (made.1, made.2.under options)) made made') :
    Follows (under options) (assignFrom frame index made)
      (assignFrom (frame.under options) index made') :=
  .bind h fun _ _ ↦ assign_follows options index _

theorem onFrame_follows {result result' : Except Fault Frame}
    (h : Follows (Frame.under options) result result') :
    Follows (under options) (onFrame machine result) (onFrame (machine.under options) result') :=
  .bind h fun _ _ ↦ .ok _ _

theorem onMachine_follows {result result' : Except Fault Machine}
    (h : Follows (Machine.under options) result result') :
    Follows (under options) (onMachine frame result) (onMachine (frame.under options) result') :=
  .bind h fun _ _ ↦ .ok _ _

theorem branch_follows (options : Options) (taken : Except Fault Bool)
    (target : Except Fault Nat) :
    Follows (under options) (branch machine frame taken target)
      (branch (machine.under options) (frame.under options) taken target) := by
  refine .after fun truth ↦ ?_
  split
  · exact .after fun place ↦ .ok _ _
  · exact .ok _ _

end Effect

open Effect in
/-- An instruction that does not fail does the same under relaxed limits. -/
theorem execute_follows (relaxed : strict.Relaxed loose)
    (hlength : loose.limits.maxArrayLength ≤ 2 ^ 31) (machine : Machine) (frame : Frame)
    (op : Opcode) (operands : Operands) :
    Follows (Effect.under loose)
      (execute program (machine.under strict) (frame.under strict) op operands)
      (execute program (machine.under loose) (frame.under loose) op operands) := by
  have hassign := @Effect.assign_follows (machine.under strict) (frame.under strict) loose
  have halloc := machine.alloc_follows relaxed
  have hfield (options : Options) := @Machine.loadField_under options machine
  cases op with
  | nop | breakpoint => exact .ok _ _
  | halt | returnNull | endFunction => exact .ok _ _
  | loadNull | loadFalse | loadTrue | loadInt | loadLocal | getThis | getModule =>
    exact hassign _ _
  | loadArg | move | stackPeek => exact .after fun value ↦ hassign _ value
  | loadArgIndirect =>
    exact .after fun _ ↦ .after fun index ↦ .after fun value ↦ hassign _ value
  | loadLocalIndirect => exact .after fun _ ↦ .after fun index ↦ hassign _ _
  | loadField =>
    refine .after fun key ↦ ?_
    rw [hfield, hfield]
    exact .after fun value ↦ hassign _ value
  | loadFieldIndirect =>
    refine .after fun name ↦ .after fun key ↦ .after fun target ↦ ?_
    rw [hfield, hfield]
    exact .after fun value ↦ hassign _ value
  | loadConst => exact assignFrom_follows (machine.loadConstant_follows relaxed program _)
  | loadConstIndirect =>
    refine .after fun _ ↦ .after fun index ↦ ?_
    exact assignFrom_follows (machine.loadConstant_follows relaxed program index)
  | storeLocal =>
    exact .after fun value ↦ onFrame_follows (frame.storeLocal_follows relaxed _ value)
  | storeLocalIndirect =>
    refine .after fun _ ↦ .after fun index ↦ .after fun value ↦ ?_
    exact onFrame_follows (frame.storeLocal_follows relaxed index value)
  | storeField =>
    refine .after fun key ↦ .after fun value ↦ ?_
    exact onMachine_follows ((machine.under strict).storeField_follows loose _ key value)
  | storeFieldIndirect =>
    refine .after fun name ↦ .after fun key ↦ .after fun target ↦ .after fun value ↦ ?_
    exact onMachine_follows ((machine.under strict).storeField_follows loose target key value)
  | stackPop =>
    exact .bind ((frame.under strict).pop_follows loose) fun _ _ ↦ assign_follows loose _ _
  | stackPush | stackDup =>
    exact .after fun value ↦ onFrame_follows (frame.push_follows relaxed value)
  | jump | newTry => exact .after fun place ↦ .ok _ _
  | jumpIndirect | newTryIndirect => exact .after fun _ ↦ .after fun place ↦ .ok _ _
  | jumpIf condition =>
    exact .after fun x ↦ .after fun y ↦ .after fun place ↦ branch_follows loose _ _
  | jumpIfZero condition => exact .after fun x ↦ branch_follows loose _ _
  | jumpIfZeroIndirect condition =>
    exact .after fun x ↦ .after fun place ↦ branch_follows loose _ _
  | returnValue | throw | localCall | setThis | setModule => exact .after fun value ↦ .ok _ _
  | returnSelf | newTryNoFinal => exact .ok _ _
  | reserveArgs => exact onFrame_follows ((frame.under strict).reserveArguments_follows loose _)
  | reserveArgsIndirect =>
    refine .after fun _ ↦ .after fun count ↦ ?_
    exact onFrame_follows ((frame.under strict).reserveArguments_follows loose count)
  | setArg =>
    refine .after fun value ↦ ?_
    exact onFrame_follows ((frame.under strict).setArgument_follows loose _ value)
  | setArgIndirect =>
    refine .after fun _ ↦ .after fun index ↦ .after fun value ↦ ?_
    exact onFrame_follows ((frame.under strict).setArgument_follows loose index value)
  | call =>
    refine .after fun name ↦ .after fun key ↦ ?_
    rw [hfield, hfield]
    refine .after fun callee ↦ ?_
    split
    · exact .error _ _ _
    · exact .ok _ _
  | dynamicCall => exact .after fun receiver ↦ .after fun callee ↦ .ok _ _
  | boolBinary operation | floatBinary operation =>
    exact .after fun _ ↦ .after fun x ↦ .after fun _ ↦ .after fun y ↦ hassign _ _
  | intBinary operation =>
    refine .after fun _ ↦ .after fun x ↦ .after fun _ ↦ .after fun y ↦ ?_
    exact .after fun result ↦ hassign _ _
  | boolNot | boolToInt | intNeg | intCpl | intToBool | intToFloat | intInc | intDec | floatUnary
  | floatToInt | floatInc | floatDec =>
    exact .after fun _ ↦ .after fun x ↦ hassign _ _
  | newObject => exact assignFrom_follows (halloc _)
  | extend => exact .after fun prototype ↦ assignFrom_follows (machine.extend_follows relaxed _)
  | boxBool | boxInt | boxFloat =>
    exact .after fun _ ↦ .after fun x ↦ assignFrom_follows (halloc _)
  | unbox => exact .after fun boxed ↦ .after fun value ↦ hassign _ value
  | lock =>
    refine .after fun value ↦ .after fun key ↦ ?_
    have hattempt : (machine.under loose).locks.attempt key (machine.under loose).id
        (machine.under loose).options.lockTimeout =
        (machine.under strict).locks.attempt key (machine.under strict).id
          (machine.under strict).options.lockTimeout := by
      rw [show (machine.under loose).options = loose from rfl, relaxed.rest_eq]
      rfl
    rw [hattempt]
    split
    · exact .ok _ _
    · exact .ok _ _
    · exact .error _ _ _
  | unlock =>
    refine .after fun value ↦ .after fun key ↦ ?_
    exact onMachine_follows ((machine.under strict).unlock_follows loose key)
  | arrayNew => exact assignFrom_follows (machine.newArray_follows relaxed _)
  | arrayNewIndirect =>
    refine .after fun _ ↦ .after fun length ↦ ?_
    exact assignFrom_follows (machine.newArray_follows relaxed length)
  | arrayGet =>
    exact .after fun container ↦ .after fun key ↦ .after fun value ↦ hassign _ value
  | arraySet =>
    refine .after fun container ↦ .after fun key ↦ .after fun value ↦ ?_
    exact onMachine_follows (machine.containerSet_follows relaxed hlength container key value)
  | arrayDelete =>
    refine .after fun container ↦ .after fun key ↦ ?_
    exact onMachine_follows ((machine.under strict).containerErase_follows loose container key)
  | addCatch =>
    exact .after fun place ↦ onFrame_follows ((frame.under strict).addCatch_follows loose _ place)
  | addCatchIndirect =>
    refine .after fun _ ↦ .after fun place ↦ ?_
    exact onFrame_follows ((frame.under strict).addCatch_follows loose _ place)
  | endTry =>
    refine .bind ((frame.under strict).endTry_follows loose) fun closed _ ↦ ?_
    obtain ⟨finalizer | finalizer, closed⟩ := closed
    · exact .ok _ _
    · exact .ok _ _
  | declareFunction => exact .after fun value ↦ hassign _ value
  | declareFunctionIndirect =>
    exact .after fun _ ↦ .after fun index ↦ .after fun value ↦ hassign _ value

/-! ## Steps -/

/-- A caller under options. -/
def Caller.under (options : Options) (caller : Caller) : Caller :=
  { caller with frame := caller.frame.under options }

/-- A run in progress under options. -/
def State.under (options : Options) (state : State) : State :=
  ⟨state.machine.under options, state.frame.under options, state.callers.map (·.under options)⟩

/-- A run that has ended under options. -/
def Ended.under (options : Options) (outcome : Ended) : Ended :=
  ⟨outcome.machine.under options, outcome.frames.map (·.under options), outcome.result⟩

/-- How far a run has come under options. -/
def Progress.under (options : Options) : Progress → Progress
  | .running state => .running (state.under options)
  | .waiting state => .waiting (state.under options)
  | .ended outcome => .ended (outcome.under options)

/-- A run that has ended with a value, returned or thrown. -/
def Ended.Settled (outcome : Ended) : Prop :=
  (∃ value, outcome.result = .ok value) ∨ ∃ value, outcome.result = .error (.uncaught value)

/-- Unless the first run has ended with a fault, the second is where the first is, under its own
options. -/
def Progress.Mirrors (options : Options) (first second : Progress) : Prop :=
  first.Satisfies (fun _ ↦ True) Ended.Settled → second = first.under options

/-- Nothing is asked of the second run when the first ends with a fault. -/
theorem mirrors_fault {outcome : Ended} {cause : Fault} {second : Progress}
    (hresult : outcome.result = .error cause) (hcause : ∀ value, cause ≠ .uncaught value) :
    (Progress.ended outcome).Mirrors options second := by
  intro settled
  rcases settled with ⟨value, hvalue⟩ | ⟨value, hvalue⟩
  · rw [hresult] at hvalue
    cases hvalue
  · rw [hresult] at hvalue
    exact absurd (Except.error.inj hvalue) (hcause value)

/-! ### Ends of frames -/

theorem Caller.resume_follows (options : Options) (caller : Caller) (value : Value) :
    Follows (Frame.under options) (caller.resume value) ((caller.under options).resume value) :=
  .bind (caller.frame.setRegister_follows options _ value) fun _ _ ↦ .ok _ _

theorem Caller.ne_uncaught_of_resume {caller : Caller} {value : Value} {cause : Fault}
    (h : caller.resume value = .error cause) (thrown : Value) : cause ≠ .uncaught thrown := by
  unfold Caller.resume Frame.setRegister at h
  split at h
  · cases h
  · cases h
    simp

namespace State

variable {machine : Machine} {frame : Frame} {callers : List Caller}

theorem leave_mirrors (options : Options) (value : Value) :
    (leave machine frame callers value).Mirrors options
      (leave (machine.under options) (frame.under options) (callers.map (·.under options))
        value) := by
  cases callers with
  | nil => exact fun _ ↦ rfl
  | cons caller outer =>
    cases hresume : caller.resume value with
    | error cause =>
      simp only [leave, hresume]
      exact mirrors_fault rfl (Caller.ne_uncaught_of_resume hresume)
    | ok resumed =>
      have hloose := Caller.resume_follows options caller value resumed hresume
      simp only [leave, List.map_cons, hresume, hloose]
      exact fun _ ↦ rfl

theorem throw_mirrors (options : Options) (value : Value) :
    (throw machine frame value callers).Mirrors options
      (throw (machine.under options) (frame.under options) value
        (callers.map (·.under options))) := by
  induction callers generalizing machine frame with
  | nil =>
    unfold throw
    rw [List.map_nil, Frame.unwind_under]
    rcases frame.unwind value with ⟨_ | _, unwound⟩
    · exact fun _ ↦ rfl
    · exact fun _ ↦ rfl
  | cons caller outer ih =>
    unfold throw
    rw [List.map_cons, Frame.unwind_under]
    rcases frame.unwind value with ⟨_ | _, unwound⟩
    · exact ih
    · exact fun _ ↦ rfl

/-! ### Calls -/

/-- A function that can be entered can be entered under relaxed limits. -/
theorem calleeFrame_follows (relaxed : strict.Relaxed loose) (program : Program)
    (machine : Machine) (index : Nat) (receiver moduleObject : Value) (arguments : List Value) :
    Follows (Frame.under loose)
      (calleeFrame program (machine.under strict) index receiver moduleObject arguments)
      (calleeFrame program (machine.under loose) index receiver moduleObject arguments) := by
  unfold calleeFrame
  cases program.functions[index]? with
  | none => exact .error _ _ _
  | some function =>
    refine .refuse (Nat.le_trans relaxed.maxCallDepth_le) ?_
    refine .bind (Frame.new_follows relaxed _) fun made _ ↦ ?_
    exact .bind (made.withArguments_follows loose arguments) fun filled _ ↦ .ok _ _

theorem ne_uncaught_of_calleeFrame {index : Nat} {receiver moduleObject : Value}
    {arguments : List Value} {cause : Fault}
    (h : calleeFrame program machine index receiver moduleObject arguments = .error cause)
    (thrown : Value) : cause ≠ .uncaught thrown := by
  rintro rfl
  unfold calleeFrame at h
  split at h
  · cases h
  · dsimp only at h
    split at h
    · cases h
    · unfold Frame.new at h
      split at h
      · cases h
      · change (Frame.withArguments _ arguments >>= _) = _ at h
        unfold Frame.withArguments at h
        split at h
        · cases h
        · cases h

theorem call_mirrors (relaxed : strict.Relaxed loose) (program : Program) (machine : Machine)
    (destination : UInt8) (callee receiver : Value) (arguments : List Value) :
    (call program (machine.under strict) frame callers destination callee receiver
      arguments).Mirrors loose
      (call program (machine.under loose) (frame.under loose) (callers.map (·.under loose))
        destination callee receiver arguments) := by
  unfold call
  split
  · next index _ =>
    have hmoduleObject : (frame.under loose).moduleObject = frame.moduleObject := rfl
    rw [hmoduleObject]
    cases hentered : calleeFrame program (machine.under strict) index receiver frame.moduleObject
        arguments with
    | error cause => exact mirrors_fault rfl (ne_uncaught_of_calleeFrame hentered)
    | ok entered =>
      rw [calleeFrame_follows relaxed program machine index receiver _ arguments entered hentered]
      exact fun _ ↦ rfl
  · next id _ =>
    rcases hanswer : (machine.under strict).callNative id receiver arguments with
      ⟨cause | value, changed⟩
    · have hdynamic := ((machine.under strict).callNative_dynamic _ _ _).of_error
        (congrArg Prod.fst hanswer)
      refine mirrors_fault rfl fun value hvalue ↦ ?_
      rw [hvalue] at hdynamic
      cases hdynamic
    · rw [machine.callNative_eq_of_ok relaxed hanswer]
      dsimp only
      cases hresume : Caller.resume ⟨frame, destination⟩ value with
      | error cause => exact mirrors_fault rfl (Caller.ne_uncaught_of_resume hresume)
      | ok resumed =>
        have hloose : Caller.resume ⟨frame.under loose, destination⟩ value =
            .ok (resumed.under loose) := Caller.resume_follows loose _ value resumed hresume
        rw [hloose]
        exact fun _ ↦ rfl
  · exact mirrors_fault rfl (by simp)

/-! ### One step -/

theorem under_under (state : State) (strict loose : Options) :
    (state.under strict).under loose = state.under loose := by
  simp only [State.under, List.map_map]
  rfl

theorem fetch_under (program : Program) (frame : Frame) (options : Options) :
    fetch program (frame.under options) =
      ((fetch program frame).1.under options, (fetch program frame).2) := by
  have hpc : (frame.under options).pc = frame.pc := rfl
  unfold fetch
  rw [hpc]
  split
  · rfl
  · dsimp only
    split
    · rfl
    · rfl

theorem ne_uncaught_of_fetch {fetched : Frame} {cause : Fault}
    (h : fetch program frame = (fetched, .error cause)) (thrown : Value) :
    cause ≠ .uncaught thrown := by
  unfold fetch at h
  split at h
  · cases h
    simp
  · dsimp only at h
    split at h
    · cases h
      simp
    · unfold checkRegisters at h
      split at h
      · cases h
        simp
      · cases h

theorem exhausted?_under (relaxed : strict.Relaxed loose)
    (h : exhausted? (machine.under strict) = none) : exhausted? (machine.under loose) = none := by
  have hsteps (options : Options) : exhausted? (machine.under options) =
      options.limits.maxSteps.filter (machine.steps ≥ ·) := rfl
  rw [hsteps, Option.filter_eq_none_iff] at h ⊢
  intro limit hlimit
  obtain ⟨smaller, hsmaller, hle⟩ := relaxed.maxSteps_le.exists_le hlimit
  have hallowed := h smaller hsmaller
  simp only [ge_iff_le, decide_eq_true_eq, Nat.not_le] at hallowed ⊢
  omega

/-- What an instruction is fetched for under limits is fetched under relaxed limits. -/
theorem dispatches_under (relaxed : strict.Relaxed loose) {state : State} {op : Opcode}
    {operands : Operands} (h : Dispatches program (state.under strict) frame op operands) :
    ∃ fetched : Frame, frame = fetched.under strict ∧
      Dispatches program ((state.under strict).under loose) (fetched.under loose) op operands := by
  have hfetched : fetch program (state.frame.under strict) = (frame, .ok (op, operands)) :=
    h.fetched
  rw [fetch_under, Prod.mk.injEq] at hfetched
  refine ⟨(fetch program state.frame).1, hfetched.1.symm, exhausted?_under relaxed h.allowed, ?_⟩
  rw [← hfetched.2]
  exact fetch_under program state.frame loose

/-- One step under limits and one under relaxed limits. -/
theorem step_mirrors (relaxed : strict.Relaxed loose)
    (hlength : loose.limits.maxArrayLength ≤ 2 ^ 31) (program : Program) (state : State) :
    ((state.under strict).step program).Mirrors loose ((state.under loose).step program) := by
  rw [← state.under_under strict loose]
  have htransition := transition_step program (state.under strict)
  generalize (state.under strict).step program = progress at htransition
  cases htransition with
  | exhausted _ => exact mirrors_fault rfl (by simp)
  | unfetched _ hfetch => exact mirrors_fault rfl (ne_uncaught_of_fetch hfetch)
  | failed hdispatch hexecute =>
    have hraisable := hdispatch.behaves.of_error hexecute
    refine mirrors_fault rfl fun value hvalue ↦ ?_
    rw [hvalue] at hraisable
    exact hraisable
  | @executed frame op operands effect hdispatch hexecute =>
    obtain ⟨fetched, rfl, hloose⟩ := dispatches_under relaxed hdispatch
    have heffect : execute program ((state.under strict).under loose).counted
        (fetched.under loose) op operands = .ok (effect.under loose) :=
      execute_follows relaxed hlength state.counted fetched op operands effect hexecute
    rw [hloose.step_eq, heffect]
    cases effect with
    | next | jump | wait => exact fun _ ↦ rfl
    | leave value => exact leave_mirrors loose value
    | throw value => exact throw_mirrors loose value
    | call result destination callee receiver arguments =>
      exact call_mirrors relaxed program state.counted destination callee receiver arguments

end State

/-! ## Runs -/

/-- Two runs that begin side by side stay so. -/
theorem Progress.advance_mirrors (relaxed : strict.Relaxed loose)
    (hlength : loose.limits.maxArrayLength ≤ 2 ^ 31) (program : Program)
    {first second : Progress} (hown : first.Mirrors strict first)
    (hmirrors : first.Mirrors loose second) (count : Nat) :
    (first.advance program count).Mirrors loose (second.advance program count) := by
  have hstrict : strict.limits.maxArrayLength ≤ 2 ^ 31 :=
    Nat.le_trans relaxed.maxArrayLength_le hlength
  induction count generalizing first second with
  | zero => exact hmirrors
  | succ count ih =>
    cases first with
    | running state =>
      obtain rfl : second = .running (state.under loose) := hmirrors trivial
      have hstate : state = state.under strict := Progress.running.inj (hown trivial)
      -- Compared with itself, a step shows that the first run stays under its own options.
      have hself := State.step_mirrors (.refl strict) hstrict program state
      have hstep := State.step_mirrors relaxed hlength program state
      rw [← hstate] at hself hstep
      exact ih hself hstep
    | waiting state =>
      obtain rfl : second = .waiting (state.under loose) := hmirrors trivial
      exact hmirrors
    | ended outcome =>
      intro settled
      rw [hmirrors settled]
      rfl

theorem enter_mirrors (options : Options) (machine : Machine) (frame : Frame) :
    (machine.enter frame).Mirrors options
      ((machine.under options).enter (frame.under options)) := by
  have hhalted : (frame.under options).halted = frame.halted := rfl
  unfold Machine.enter
  rw [hhalted]
  split
  · exact fun _ ↦ rfl
  · exact fun _ ↦ rfl

theorem callFunction_mirrors (relaxed : strict.Relaxed loose) (program : Program)
    (machine : Machine) (index : Nat) (receiver : Value) (arguments : List Value) :
    ((machine.under strict).callFunction program index receiver arguments).Mirrors loose
      ((machine.under loose).callFunction program index receiver arguments) := by
  let begun : Machine := if machine.depth = 0 then { machine with steps := 0 } else machine
  have hbegun (options : Options) : (if (machine.under options).depth = 0 then
      { machine.under options with steps := 0 } else machine.under options) =
      begun.under options := by
    have hdepth : (machine.under options).depth = machine.depth := rfl
    simp only [hdepth, begun]
    split <;> rfl
  unfold Machine.callFunction
  simp only [hbegun]
  cases hframe : State.calleeFrame program (begun.under strict) index receiver .null arguments with
  | error cause => exact mirrors_fault rfl (State.ne_uncaught_of_calleeFrame hframe)
  | ok frame =>
    rw [State.calleeFrame_follows relaxed program begun index receiver _ arguments frame hframe]
    exact enter_mirrors loose (begun.under strict) frame

/-- A run begins alike under relaxed limits. -/
theorem run_mirrors (relaxed : strict.Relaxed loose) (program : Program) (machine : Machine) :
    ((machine.under strict).run program).Mirrors loose ((machine.under loose).run program) := by
  unfold Machine.run
  cases program.defect? with
  | some defect => exact mirrors_fault rfl (by simp)
  | none =>
    dsimp only
    split
    · exact callFunction_mirrors relaxed program machine _ _ _
    · split
      · exact mirrors_fault rfl (by simp)
      · have hoptions (options : Options) : (machine.under options).options = options := rfl
        rw [hoptions, hoptions]
        cases hframe : Frame.new 0 strict with
        | error cause =>
          obtain rfl : cause = .allocationFailed := by
            unfold Frame.new at hframe
            split at hframe
            · cases hframe
              rfl
            · cases hframe
          exact mirrors_fault rfl (by simp)
        | ok frame =>
          rw [Frame.new_follows relaxed 0 frame hframe]
          exact enter_mirrors loose { machine.under strict with steps := 0 } frame

/-- If a program comes to a result on a new machine, or throws a value that nothing catches, then it
does so under relaxed limits, in as many instructions, with the same heap and the same output. -/
theorem run_same_of_relaxed (relaxed : strict.Relaxed loose)
    (hlength : loose.limits.maxArrayLength ≤ 2 ^ 31) (program : Program) (id : MachineId)
    (locks : LockTable) (output : Output) {count : Nat} {outcome : Ended}
    (hended : Progress.advance program count
      (Machine.run { Machine.new strict id with locks, output } program) = .ended outcome)
    (settled : outcome.Settled) :
    ∃ same : Ended, Progress.advance program count
        (Machine.run { Machine.new loose id with locks, output } program) = .ended same ∧
      same.result = outcome.result ∧ same.machine.heap.slots = outcome.machine.heap.slots ∧
      same.machine.output = outcome.machine.output ∧
      same.machine.steps = outcome.machine.steps := by
  let machine : Machine := { id, locks, output }
  have hself := run_mirrors (.refl strict) program machine
  have hrun := run_mirrors relaxed program machine
  have hadvance := Progress.advance_mirrors relaxed hlength program hself hrun count
  have hstrict : Progress.advance program count ((machine.under strict).run program) =
      .ended outcome := hended
  rw [hstrict] at hadvance
  exact ⟨outcome.under loose, hadvance settled, rfl, rfl, rfl, rfl⟩

/-- The main function makes an array, appends to it, and returns a value by way of the stack. -/
def appending : Program where
  name := "appending"
  code := #[
    Instruction.encode ⟨Opcode.arrayNew.byte, .immReg 0 1⟩,
    Instruction.encode ⟨Opcode.loadInt.byte, .immReg 1 1⟩,
    Instruction.encode ⟨Opcode.arraySet.byte, .regs3 0 1 1⟩,
    Instruction.encode ⟨Opcode.stackPush.byte, .regs1 1⟩,
    Instruction.encode ⟨Opcode.stackPop.byte, .regs1 2⟩,
    Instruction.encode ⟨Opcode.returnValue.byte, .regs1 2⟩]
  functions := #[⟨"main", 0, 0⟩]

/-- Just what that takes. -/
def sufficient : Options where
  limits := {
    maxCallDepth := 1
    maxStackDepth := 1
    maxScratchSlots := 0
    maxArrayLength := 2
    maxHeapObjects := some 1
    maxSteps := some 6 }

theorem run_same_of_relaxed_appending : sufficient.Relaxed {} ∧
    ∃ outcome same : Ended,
      Progress.advance appending 6
        (Machine.run { Machine.new sufficient 0 with locks := {}, output := {} } appending) =
          .ended outcome ∧
      outcome.result = .ok (.int 1) ∧
      Progress.advance appending 6
        (Machine.run { Machine.new {} 0 with locks := {}, output := {} } appending) = .ended same ∧
      same.result = outcome.result ∧ same.machine.heap.slots = outcome.machine.heap.slots ∧
      same.machine.output = outcome.machine.output ∧
      same.machine.steps = outcome.machine.steps := by
  have relaxed : sufficient.Relaxed {} := by
    constructor <;> decide
  have hresult : (Progress.advance appending 6 (Machine.run
      { Machine.new sufficient 0 with locks := {}, output := {} } appending)).outcome?.bind
        (·.result.toOption) = some (.int 1) := by decide +kernel
  obtain ⟨outcome, houtcome, hoption⟩ := Option.bind_eq_some_iff.1 hresult
  have hended := Progress.outcome?_eq_some_iff.1 houtcome
  have hvalue : outcome.result = .ok (.int 1) := by
    obtain ⟨machine, frames, cause | value⟩ := outcome
    · cases hoption
    · cases hoption
      rfl
  obtain ⟨same, hsame⟩ := run_same_of_relaxed relaxed (by decide) appending 0 {} {} hended
    (.inl ⟨.int 1, hvalue⟩)
  exact ⟨relaxed, outcome, same, hended, hvalue, hsame⟩

end RegisterMachine

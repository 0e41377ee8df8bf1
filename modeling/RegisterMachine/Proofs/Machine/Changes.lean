import RegisterMachine.Proofs.Machine.Metered

/-!
# What a step makes of the machine

But for its counters, a machine changes in two ways only: by an instruction that goes on to the next
one, or by what a host function leaves. What both of them keep is therefore kept by every step.
-/

namespace RegisterMachine

/-- A run has come to a machine, but for the count of frames. -/
def Progress.At (machine : Machine) (progress : Progress) : Prop :=
  ∃ depth, progress.machine = { machine with depth }

namespace State

variable {program : Program} {machine : Machine} {frame : Frame} {callers : List Caller}

/-- What a step makes of the machine, but for the count of frames: nothing, or what an instruction
or a host function leaves. -/
inductive Changes (program : Program) (state : State) : Machine → Prop
  | kept : Changes program state state.machine
  | counted : Changes program state state.counted
  | acted {frame result : Frame} {op : Opcode} {changed : Machine} :
      Acts program state.counted frame op (.next changed result) → Changes program state changed
  | answered {id : UInt32} {receiver : Value} {arguments : List Value} {changed : Machine}
      {answer : Except Fault Value} : state.Calls program (.native id) →
      state.counted.callNative id receiver arguments = (answer, changed) →
      Changes program state changed

theorem at_fault (cause : Fault) : (fault machine frame callers cause).At machine :=
  ⟨_, rfl⟩

theorem at_leave (value : Value) : (leave machine frame callers value).At machine := by
  unfold leave
  split
  · exact ⟨_, rfl⟩
  · split
    · exact ⟨_, rfl⟩
    · exact ⟨_, rfl⟩

theorem at_throw (value : Value) : (throw machine frame value callers).At machine := by
  induction callers generalizing machine frame with
  | nil =>
    unfold throw
    split
    · exact ⟨_, rfl⟩
    · exact ⟨_, rfl⟩
  | cons caller outer ih =>
    unfold throw
    split
    · exact ⟨_, rfl⟩
    · obtain ⟨depth, hmachine⟩ := @ih (leaveFrames machine 1) caller.frame
      exact ⟨depth, hmachine⟩

/-- A call leaves the machine as it is, unless a host function answers. -/
theorem at_call (program : Program) (machine : Machine) (frame : Frame) (callers : List Caller)
    (destination : UInt8) (callee receiver : Value) (arguments : List Value) :
    (call program machine frame callers destination callee receiver arguments).At machine ∨
      ∃ id answer changed, callee = .native id ∧
        machine.callNative id receiver arguments = (answer, changed) ∧
        (call program machine frame callers destination callee receiver arguments).At changed := by
  unfold call
  split
  · left
    split
    · exact ⟨_, rfl⟩
    · exact at_fault _
  · split
    · next value changed hanswer =>
      refine .inr ⟨_, _, changed, rfl, hanswer, ?_⟩
      split
      · exact ⟨_, rfl⟩
      · exact at_fault _
    · next cause changed hanswer => exact .inr ⟨_, _, changed, rfl, hanswer, at_fault cause⟩
  · exact .inl (at_fault _)

/-- Nothing changes in a step that is not allowed or waits; any other counts one instruction. -/
theorem changes_step (program : Program) (state : State) :
    ∃ changed, state.Changes program changed ∧ (state.step program).At changed := by
  have htransition := transition_step program state
  generalize state.step program = progress at htransition
  cases htransition with
  | exhausted => exact ⟨_, .kept, at_fault _⟩
  | unfetched => exact ⟨_, .counted, at_fault _⟩
  | failed => exact ⟨_, .counted, at_fault _⟩
  | @executed frame op operands effect hdispatch hexecute =>
    cases effect with
    | next machine result => exact ⟨_, .acted (hdispatch.behaves.of_ok hexecute), _, rfl⟩
    | jump => exact ⟨_, .counted, _, rfl⟩
    | leave => exact ⟨_, .counted, at_leave _⟩
    | throw => exact ⟨_, .counted, at_throw _⟩
    | call result destination callee receiver arguments =>
      rcases at_call program state.counted result state.callers destination callee receiver
        arguments with harrived | ⟨id, _, changed, rfl, hanswer, harrived⟩
      · exact ⟨_, .counted, harrived⟩
      · exact ⟨changed, .answered ⟨hdispatch, hexecute⟩ hanswer, harrived⟩
    | wait => exact ⟨_, .kept, _, rfl⟩

end State

end RegisterMachine

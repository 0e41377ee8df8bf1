import RegisterMachine.Proofs.Machine.Halting

/-!
# What a run uses up

A machine counts two things: the instructions that a run executes, and the frames that nest. Here it
is said once what the beginning of a run and each of its steps do to the two counters, and when one
of the two faults about them is raised. A step that does not wait counts one instruction; only the
call of a function counts one frame more, and only below the limit.
-/

namespace RegisterMachine

/-- The machine of a run. -/
def Progress.machine : Progress → Machine
  | .running state | .waiting state => state.machine
  | .ended outcome => outcome.machine

/-- Every lock that is held belongs to one machine. -/
def LockTable.OwnedBy (table : LockTable) (machine : MachineId) : Prop :=
  ∀ entry ∈ table.held, entry.2 = machine

theorem LockTable.OwnedBy.eq_of_owner? {table : LockTable} {machine owner : MachineId}
    {key : LockKey} (owned : table.OwnedBy machine) (h : table.owner? key = some owner) :
    owner = machine := by
  obtain ⟨before, after, heq, -⟩ := List.lookup_eq_some_iff.1 h
  exact owned (key, owner) (by simp [heq])

/-! ## What the machine of a run keeps -/

/-- One machine has come from another within an instruction that was counted before: it counts as
many instructions, and no more frames than either the other or the limit, and has acquired no lock
for others. -/
structure Machine.Continues (before after : Machine) : Prop where
  id_eq : after.id = before.id
  options_eq : after.options = before.options
  steps_eq : after.steps = before.steps
  depth_le : after.depth ≤ max before.depth before.options.limits.maxCallDepth
  owned : before.locks.OwnedBy before.id → after.locks.OwnedBy before.id

namespace Machine

variable {before machine changed : Machine}

theorem Continues.refl (machine : Machine) : machine.Continues machine :=
  ⟨rfl, rfl, rfl, Nat.le_max_left _ _, fun h ↦ h⟩

theorem Continues.trans (first : before.Continues machine) (second : machine.Continues changed) :
    before.Continues changed where
  id_eq := second.id_eq.trans first.id_eq
  options_eq := second.options_eq.trans first.options_eq
  steps_eq := second.steps_eq.trans first.steps_eq
  depth_le := by
    have hfirst := first.depth_le
    have hsecond := second.depth_le
    rw [first.options_eq] at hsecond
    omega
  owned h := by
    have hlater := second.owned (first.id_eq.symm ▸ first.owned h)
    rwa [first.id_eq] at hlater

theorem Continues.leaveFrames (continues : before.Continues machine) (count : Nat) :
    before.Continues (State.leaveFrames machine count) :=
  { continues with depth_le := Nat.le_trans (Nat.sub_le _ _) continues.depth_le }

theorem Reworks.continues (h : machine.Reworks changed) : machine.Continues changed := by
  rw [h]
  exact ⟨rfl, rfl, rfl, Nat.le_max_left _ _, fun h ↦ h⟩

theorem continues_of_locks {locks : LockTable}
    (owned : machine.locks.OwnedBy machine.id → locks.OwnedBy machine.id) :
    machine.Continues { machine with locks } :=
  ⟨rfl, rfl, rfl, Nat.le_max_left _ _, owned⟩

theorem callNative_continues {id : UInt32} {receiver : Value} {arguments : List Value}
    {answer : Except Fault Value}
    (h : machine.callNative id receiver arguments = (answer, changed)) :
    machine.Continues changed := by
  rw [eq_of_callNative h]
  exact ⟨rfl, rfl, rfl, Nat.le_max_left _ _, fun h ↦ h⟩

end Machine

/-- A lock is acquired for the machine that asks, if nobody owns it. -/
theorem LockTable.eq_of_attempt {table locks : LockTable} {key : LockKey} {machine : MachineId}
    {timeout : Option Nat} (h : table.attempt key machine timeout = .ok (.acquired locks)) :
    locks = ⟨(key, machine) :: table.held⟩ := by
  unfold attempt tryLock at h
  cases howner : table.owner? key with
  | none =>
    simp only [howner] at h
    cases h
    rfl
  | some owner =>
    simp only [howner] at h
    split at h
    · cases h
    · cases timeout <;> cases h

/-- A lock is waited for if another machine owns it, and nothing limits the wait. -/
theorem LockTable.of_attempt_eq_waiting {table : LockTable} {key : LockKey} {machine : MachineId}
    {timeout : Option Nat} (h : table.attempt key machine timeout = .ok .waiting) :
    timeout = none ∧ ∃ owner, table.owner? key = some owner ∧ owner ≠ machine := by
  unfold attempt tryLock at h
  cases howner : table.owner? key with
  | none =>
    simp only [howner] at h
    cases h
  | some owner =>
    simp only [howner] at h
    split at h
    · cases h
    · next hother =>
      cases timeout with
      | none => exact ⟨rfl, owner, rfl, hother⟩
      | some limit => cases h

theorem Acts.continues {program : Program} {machine changed : Machine} {frame result : Frame}
    {op : Opcode} (acts : Acts program machine frame op (.next changed result)) :
    machine.Continues changed := by
  cases acts with
  | create h _ => exact h.reworks.continues
  | update h =>
    rcases h.reworks_or with hreworks | ⟨key, locks, hattempt, rfl⟩ | ⟨key, hunlock⟩
    · exact hreworks.continues
    · rw [LockTable.eq_of_attempt hattempt]
      exact Machine.continues_of_locks fun h ↦ by simpa [LockTable.OwnedBy] using h
    · unfold Machine.unlock LockTable.unlock at hunlock
      split at hunlock
      · next locks heq =>
        split at heq
        · cases heq
          cases hunlock
          exact Machine.continues_of_locks fun h entry hentry ↦ h entry (List.mem_filter.1 hentry).1
        · cases heq
      · cases hunlock
  | skip | assign | receiver | moduleObject | push | pop | storeLocal | reserve | stage | openTry
  | addCatch | closeTry => exact .refl machine

/-- A run that has gone on from a machine, and does not wait. -/
def Progress.Continues (before : Machine) : Progress → Prop
  | .running state => before.Continues state.machine
  | .waiting _ => False
  | .ended outcome => before.Continues outcome.machine

theorem Progress.Continues.machine {before : Machine} {progress : Progress}
    (continues : progress.Continues before) : before.Continues progress.machine := by
  cases progress with
  | running | ended => exact continues
  | waiting => exact continues.elim

namespace State

/-! ## Calls of functions -/

/-- The next instruction of a run calls a value. -/
inductive Calls (program : Program) (state : State) (callee : Value) : Prop
  | intro {frame result : Frame} {op : Opcode} {operands : Operands} {destination : UInt8}
      {receiver : Value} {arguments : List Value} : Dispatches program state frame op operands →
      execute program state.counted frame op operands =
        .ok (.call result destination callee receiver arguments) →
      Calls program state callee

variable {program : Program} {machine : Machine} {frame : Frame} {callers : List Caller}

theorem new_unmetered (entry : Nat) (options : Options) :
    Meets (fun cause ↦ cause.isMetered = false) (fun _ ↦ True) (Frame.new entry options) := by
  unfold Frame.new
  split
  · rfl
  · trivial

/-- A function that exists cannot be entered at the limit; below it, the depth of calls is not the
reason to refuse. -/
theorem calleeFrame_metered (program : Program) (machine : Machine) (index : Nat)
    (receiver moduleObject : Value) (arguments : List Value) :
    Meets
      (fun cause ↦ cause.isMetered = true → index < program.functions.size ∧
        machine.options.limits.maxCallDepth ≤ machine.depth ∧
        cause = .callDepthExceeded machine.options.limits.maxCallDepth)
      (fun _ ↦ machine.depth < machine.options.limits.maxCallDepth)
      (calleeFrame program machine index receiver moduleObject arguments) := by
  unfold calleeFrame
  split
  · nofun
  · next function hfunction =>
    dsimp only
    split
    · next hdeep => exact fun _ ↦ ⟨(Array.getElem?_eq_some_iff.1 hfunction).1, hdeep, rfl⟩
    · next hdeep =>
      refine Meets.bind ((new_unmetered _ machine.options).mono fun cause hcause h ↦ ?_)
        fun made _ _ ↦ ?_
      · simp [hcause] at h
      unfold Frame.withArguments
      split
      · nofun
      · exact Nat.lt_of_not_le hdeep

theorem calleeFrame_of_le {index : Nat} (hindex : index < program.functions.size)
    (hdeep : machine.options.limits.maxCallDepth ≤ machine.depth) (receiver moduleObject : Value)
    (arguments : List Value) :
    calleeFrame program machine index receiver moduleObject arguments =
      .error (.callDepthExceeded machine.options.limits.maxCallDepth) := by
  unfold calleeFrame
  rw [Array.getElem?_eq_getElem hindex]
  exact if_pos hdeep

/-! ## Faults about the counters -/

theorem isMetered_of_raisable {op : Opcode} {immediate : Nat} {cause : Fault}
    (h : Raisable program op immediate cause) : cause.isMetered = false := by
  cases cause with
  | stepBudgetExceeded | callDepthExceeded => cases h
  | _ => rfl

theorem isMetered_of_fetch {result : Frame} {cause : Fault}
    (h : fetch program frame = (result, .error cause)) : cause.isMetered = false := by
  unfold fetch at h
  split at h
  · cases h
    rfl
  · dsimp only at h
    split at h
    · cases h
      rfl
    · unfold checkRegisters at h
      split at h
      · cases h
        rfl
      · cases h

/-- An instruction fails for a counter only if the budget is used up, or if it calls a function at
the limit. -/
theorem Fails.of_isMetered {state : State} {cause : Fault} (fails : state.Fails program cause)
    (h : cause.isMetered = true) :
    (∃ limit, exhausted? state.machine = some limit ∧ cause = .stepBudgetExceeded limit) ∨
      ∃ callee index, state.Calls program callee ∧ functionIndex? callee = some index ∧
        index < program.functions.size ∧
        state.machine.options.limits.maxCallDepth ≤ state.machine.depth ∧
        cause = .callDepthExceeded state.machine.options.limits.maxCallDepth := by
  cases fails with
  | exhausted hlimit => exact .inl ⟨_, hlimit, rfl⟩
  | unfetched _ hfetch => simp [isMetered_of_fetch hfetch] at h
  | failed hdispatch hexecute =>
    simp [isMetered_of_raisable (hdispatch.behaves.of_error hexecute)] at h
  | uncalled hdispatch hexecute hrefuses =>
    cases hrefuses with
    | entry hindex hentry =>
      have hdeep := (calleeFrame_metered _ _ _ _ _ _).of_error hentry h
      exact .inr ⟨_, _, ⟨hdispatch, hexecute⟩, hindex, hdeep⟩
    | native _ hanswer =>
      have hlocal := (state.counted.callNative_dynamic _ _ _).of_error hanswer
      simp [Fault.isLocal, h] at hlocal
    | value => cases h

/-! ## Steps -/

/-- The next instruction of a run asks for a lock that another machine owns, and nothing limits the
wait for it. -/
inductive Blocked (program : Program) (state : State) : Prop
  | intro {frame : Frame} {operands : Operands} {value : Value} {key : LockKey}
      {owner : MachineId} : Dispatches program state frame .lock operands →
      frame.register operands.a = .ok value → state.machine.lockKey value = .ok key →
      state.machine.locks.owner? key = some owner → owner ≠ state.machine.id →
      state.machine.options.lockTimeout = none → Blocked program state

theorem Dispatches.blocked {state : State} {op : Opcode} {operands : Operands}
    (dispatches : Dispatches program state frame op operands)
    (h : execute program state.counted frame op operands = .ok .wait) : state.Blocked program := by
  have hacts := dispatches.behaves.of_ok h
  obtain rfl : op = .lock := by
    cases hacts
    assumption
  have hlock : Yields (fun effect ↦ effect = .wait → state.Blocked program)
      (execute program state.counted frame .lock operands) := by
    refine Meets.bind (Yields.unconditional _) fun value hvalue _ ↦ ?_
    refine Meets.bind (Yields.unconditional _) fun key hkey _ ↦ ?_
    split
    · nofun
    · next hattempt =>
      obtain ⟨hunlimited, owner, howner, hother⟩ := LockTable.of_attempt_eq_waiting hattempt
      exact fun _ ↦ ⟨dispatches, hvalue, hkey, howner, hother, hunlimited⟩
    · trivial
  exact hlock.of_ok h rfl

section Counters

variable {before : Machine} (continues : before.Continues machine)

include continues

theorem continues_fault (cause : Fault) : (fault machine frame callers cause).Continues before :=
  continues.leaveFrames _

theorem continues_leave (value : Value) : (leave machine frame callers value).Continues before := by
  unfold leave
  split
  · exact continues.leaveFrames 1
  · split
    · exact continues.leaveFrames 1
    · exact continues_fault (continues.leaveFrames 1) _

theorem continues_throw (value : Value) : (throw machine frame value callers).Continues before := by
  induction callers generalizing machine frame with
  | nil =>
    unfold throw
    split
    · exact continues
    · exact continues.leaveFrames 1
  | cons caller outer ih =>
    unfold throw
    split
    · exact continues
    · exact ih (continues.leaveFrames 1)

theorem continues_call {destination : UInt8} {callee receiver : Value} {arguments : List Value} :
    (call program machine frame callers destination callee receiver arguments).Continues
      before := by
  unfold call
  split
  · split
    · next entered hentered =>
      have hbelow := (calleeFrame_metered _ _ _ _ _ _).of_ok hentered
      rw [continues.options_eq] at hbelow
      exact { continues with depth_le := Nat.le_trans hbelow (Nat.le_max_right _ _) }
    · exact continues_fault continues _
  · split
    · next value changed hanswer =>
      have hchanged := continues.trans (Machine.callNative_continues hanswer)
      split
      · exact hchanged
      · exact continues_fault hchanged _
    · next cause changed hanswer =>
      exact continues_fault (continues.trans (Machine.callNative_continues hanswer)) _
  · exact continues_fault continues _

end Counters

theorem step_of_exhausted {state : State} {limit : Nat}
    (h : exhausted? state.machine = some limit) :
    state.step program =
      fault state.machine state.frame state.callers (.stepBudgetExceeded limit) := by
  simp only [step, h]

/-- A step that is allowed counts one instruction, or waits and changes nothing. -/
theorem continues_step {state : State} (hallowed : exhausted? state.machine = none) :
    (state.step program).Continues state.counted ∨
      state.step program = .waiting state ∧ state.Blocked program := by
  have hcounted := Machine.Continues.refl state.counted
  have htransition := transition_step program state
  generalize state.step program = progress at htransition
  cases htransition with
  | exhausted hexhausted =>
    rw [hallowed] at hexhausted
    cases hexhausted
  | unfetched => exact .inl (continues_fault hcounted _)
  | failed => exact .inl (continues_fault hcounted _)
  | @executed frame op operands effect hdispatch hexecute =>
    have hacts := hdispatch.behaves.of_ok hexecute
    cases effect with
    | next machine result => exact .inl hacts.continues
    | jump => exact .inl hcounted
    | leave => exact .inl (continues_leave hcounted _)
    | throw => exact .inl (continues_throw hcounted _)
    | call => exact .inl (continues_call hcounted)
    | wait => exact .inr ⟨rfl, hdispatch.blocked hexecute⟩

theorem eq_of_step_eq_waiting {state next : State} (h : state.step program = .waiting next) :
    next = state := by
  cases hallowed : exhausted? state.machine with
  | some limit =>
    rw [step_of_exhausted hallowed] at h
    cases h
  | none =>
    rcases continues_step hallowed with continues | ⟨hwaiting, -⟩
    · rw [h] at continues
      exact continues.elim
    · exact Progress.waiting.inj (h.symm.trans hwaiting)

/-- What any step does to the machine: it counts one instruction if one is allowed, or none. -/
theorem machine_step (program : Program) (state : State) :
    state.machine.Continues (state.step program).machine ∨
      exhausted? state.machine = none ∧ state.counted.Continues (state.step program).machine := by
  cases hallowed : exhausted? state.machine with
  | some limit =>
    rw [step_of_exhausted hallowed]
    exact .inl ((Machine.Continues.refl state.machine).leaveFrames _)
  | none =>
    rcases continues_step hallowed with continues | ⟨hwaiting, -⟩
    · exact .inr ⟨rfl, continues.machine⟩
    · rw [hwaiting]
      exact .inl (.refl state.machine)

end State

/-! ## Beginnings -/

/-- How a run can begin: with one frame more, or not at all, and then not for want of instructions.
The count of instructions begins anew or goes on. -/
inductive Opens (machine : Machine) : Progress → Prop
  | entered {steps : Nat} {frame : Frame} : steps = 0 ∨ steps = machine.steps →
      Opens machine (.running ⟨{ machine with steps, depth := machine.depth + 1 }, frame, []⟩)
  | refused {steps : Nat} {frames : List Frame} {cause : Fault} :
      steps = 0 ∨ steps = machine.steps →
      (cause.isMetered = true → machine.options.limits.maxCallDepth ≤ machine.depth ∧
        cause = .callDepthExceeded machine.options.limits.maxCallDepth) →
      Opens machine (.ended { machine := { machine with steps }, frames, result := .error cause })

section Beginnings

variable {program : Program} {machine : Machine} {start : Progress} {steps : Nat}

theorem opens_refuse (hsteps : steps = 0 ∨ steps = machine.steps) {cause : Fault}
    (hcause : cause.isMetered = true → machine.options.limits.maxCallDepth ≤ machine.depth ∧
      cause = .callDepthExceeded machine.options.limits.maxCallDepth) :
    Opens machine (Machine.refuse { machine with steps } cause) :=
  .refused hsteps hcause

theorem opens_enter (hsteps : steps = 0 ∨ steps = machine.steps) (frame : Frame) :
    Opens machine (Machine.enter { machine with steps } frame) := by
  unfold Machine.enter
  split
  · exact .refused hsteps nofun
  · exact .entered hsteps

theorem opens_callFunction (program : Program) (index : Nat) (receiver : Value)
    (arguments : List Value) :
    Opens machine (machine.callFunction program index receiver arguments) := by
  obtain ⟨steps, hsteps, hcounted⟩ : ∃ steps, (steps = 0 ∨ steps = machine.steps) ∧
      (if machine.depth = 0 then { machine with steps := 0 } else machine) =
        { machine with steps } := by
    split
    · exact ⟨0, .inl rfl, rfl⟩
    · exact ⟨machine.steps, .inr rfl, rfl⟩
  unfold Machine.callFunction
  rw [hcounted]
  dsimp only
  split
  · exact opens_enter hsteps _
  · next hentry =>
    refine opens_refuse hsteps fun h ↦ ?_
    exact ((State.calleeFrame_metered _ _ _ _ _ _).of_error hentry h).2

theorem Starts.opens (starts : Starts program machine start) : Opens machine start := by
  cases starts with
  | run =>
    unfold Machine.run
    split
    · exact opens_refuse (.inr rfl) nofun
    · split
      · exact opens_callFunction _ _ _ _
      · split
        · exact opens_refuse (.inr rfl) nofun
        · dsimp only
          split
          · exact opens_enter (.inl rfl) _
          · next hnew =>
            have hcause := (State.new_unmetered _ _).of_error hnew
            exact opens_refuse (.inl rfl) fun h ↦ absurd h (by simp [hcause])
  | call name arguments =>
    unfold Machine.call
    split
    · exact opens_callFunction _ _ _ _
    · exact opens_refuse (.inr rfl) nofun
  | function => exact opens_callFunction _ _ _ _
  | execute frame => exact opens_enter (.inr rfl) frame

end Beginnings

/-! ## Runs -/

section Runs

variable {program : Program} {machine : Machine} {start progress : Progress} {outcome : Ended}

/-- What a machine keeps under steps and under every table of locks, it keeps throughout a run. -/
theorem Reaches.carries {kept : Machine → Prop} (reached : Reaches program start progress)
    (begins : kept start.machine)
    (steps : ∀ state : State, kept state.machine → kept (state.step program).machine)
    (shares : ∀ machine locks, kept machine → kept { machine with locks }) :
    kept progress.machine := by
  induction reached with
  | refl => exact begins
  | step _ ih => exact steps _ ih
  | retry _ ih => exact ih
  | locks table _ ih => exact shares _ table ih

/-- Where a run that ends for one of the counters comes from: it was refused, or an instruction
failed. -/
theorem Starts.of_isMetered (starts : Starts program machine start)
    (reached : Reaches program start (.ended outcome)) {cause : Fault}
    (hcause : outcome.result = .error cause) (h : cause.isMetered = true) :
    (machine.options.limits.maxCallDepth ≤ machine.depth ∧
        cause = .callDepthExceeded machine.options.limits.maxCallDepth) ∨
      ∃ state, Reaches program start (.running state) ∧ state.step program = .ended outcome ∧
        state.Fails program cause := by
  generalize hended : Progress.ended outcome = progress at reached
  cases reached with
  | refl =>
    have hopens := starts.opens
    rw [← hended] at hopens
    cases hopens with
    | refused _ hrefused =>
      cases hcause
      exact .inl (hrefused h)
  | @step state before =>
    rcases starts.balanced with hbalanced | ⟨refused, rfl, -⟩
    · rcases State.fails_of_step (before.balanced hbalanced) hended.symm hcause with
        ⟨value, rfl⟩ | hfails
      · cases h
      · exact .inr ⟨state, before, rfl, hfails⟩
    · cases before.eq_of_ended
  | retry | locks => cases hended

end Runs

end RegisterMachine

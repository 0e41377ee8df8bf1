import RegisterMachine.Proofs.Machine.Metered

/-!
# A budget of instructions bounds every run

Options can limit the instructions of a run. All frames of a run share one count. Each step counts
an instruction, ends the run, or waits for a lock that another machine owns, so what is left of the
budget decreases along the run, whatever jumps, calls and caught throws it consists of. A machine
on its own, or one that waits for a limited time, therefore always comes to an end.
-/

namespace RegisterMachine

/-- A machine between two requests of its host. The host may change the heap and the locks, register
functions and redirect the output; what counts frames and instructions is left to the machine. -/
inductive Idle (options : Options) : Machine → Prop
  | new (id : MachineId) : Idle options (Machine.new options id)
  | arrange {machine : Machine} (heap : Heap) (natives : NativeTable) (locks : LockTable)
      (output : Output) : Idle options machine →
      Idle options { machine with heap, natives, locks, output }
  | finish {machine : Machine} {program : Program} {start : Progress} {outcome : Ended} :
      Idle options machine → Starts program machine start →
      Reaches program start (.ended outcome) → Idle options outcome.machine

/-- A machine with these options that has not executed more instructions than allowed. -/
structure Machine.Within (options : Options) (limit : Nat) (machine : Machine) : Prop where
  options_eq : machine.options = options
  steps_le : machine.steps ≤ limit

namespace Progress

theorem advance_ended (program : Program) (count : Nat) (outcome : Ended) :
    (Progress.ended outcome).advance program count = .ended outcome := by
  cases count <;> rfl

theorem advance_waiting (program : Program) (count : Nat) (state : State) :
    (Progress.waiting state).advance program count = .waiting state := by
  cases count <;> rfl

end Progress

namespace State

variable {program : Program} {options : Options} {limit : Nat} {state : State}

/-! ## Steps -/

theorem exhausted?_eq {machine : Machine} (limited : machine.options.limits.maxSteps = some limit) :
    exhausted? machine = if limit ≤ machine.steps then some limit else none := by
  simp [exhausted?, limited, Option.filter]

section Limited

variable (limited : options.limits.maxSteps = some limit)
  (within : state.machine.Within options limit)

include limited within

theorem exhausted?_of_within :
    exhausted? state.machine = if limit ≤ state.machine.steps then some limit else none :=
  exhausted?_eq (within.options_eq ▸ limited)

theorem within_of_continues (hallowed : exhausted? state.machine = none) {machine : Machine}
    (continues : state.counted.Continues machine) : machine.Within options limit := by
  rw [exhausted?_of_within limited within] at hallowed
  constructor
  · exact continues.options_eq.trans within.options_eq
  · rw [continues.steps_eq]
    exact Nat.lt_of_not_le fun hle ↦ by simp [hle] at hallowed

theorem within_step : (state.step program).machine.Within options limit := by
  rcases machine_step program state with continues | ⟨hallowed, continues⟩
  · exact ⟨continues.options_eq.trans within.options_eq, continues.steps_eq ▸ within.steps_le⟩
  · exact within_of_continues limited within hallowed continues

/-- With as many steps ahead as are left of the budget and one more, a run comes to its end, unless
it is blocked. -/
theorem ended_or_blocked {count : Nat} (henough : limit < state.machine.steps + count) :
    (∃ outcome, (Progress.running state).advance program count = .ended outcome) ∨
      ∃ next, (Progress.running state).advance program count = .waiting next ∧
        next.Blocked program := by
  -- What is left of the budget decreases with every step that neither ends nor waits.
  induction count generalizing state with
  | zero => exact absurd within.steps_le (Nat.not_le.2 henough)
  | succ count ih =>
    rw [Progress.advance]
    cases hallowed : exhausted? state.machine with
    | some found =>
      rw [step_of_exhausted hallowed]
      exact .inl ⟨_, Progress.advance_ended program count _⟩
    | none =>
      rcases continues_step hallowed with continues | ⟨hwaiting, hblocked⟩
      · cases hstep : state.step program with
        | running next =>
          rw [hstep] at continues
          have hsteps : next.machine.steps = state.machine.steps + 1 :=
            (Progress.Continues.machine continues).steps_eq
          apply ih (within_of_continues limited within hallowed continues.machine)
          omega
        | waiting next =>
          rw [hstep] at continues
          exact continues.elim
        | ended outcome => exact .inl ⟨outcome, Progress.advance_ended program count _⟩
      · rw [hwaiting]
        exact .inr ⟨state, Progress.advance_waiting program count _, hblocked⟩

end Limited

end State

/-! ## Machines on their own -/

/-- A step acquires locks for no other machine. -/
theorem State.owned_step {program : Program} {state : State}
    (owned : state.machine.locks.OwnedBy state.machine.id) :
    (state.step program).machine.locks.OwnedBy (state.step program).machine.id := by
  rcases machine_step program state with continues | ⟨-, continues⟩
  · rw [continues.id_eq]
    exact continues.owned owned
  · rw [continues.id_eq]
    exact continues.owned owned

theorem Progress.owned_advance (progress : Progress) (program : Program) (count : Nat)
    (owned : progress.machine.locks.OwnedBy progress.machine.id) :
    (progress.advance program count).machine.locks.OwnedBy
      (progress.advance program count).machine.id := by
  induction count generalizing progress with
  | zero => exact owned
  | succ count ih =>
    cases progress with
    | running state => exact ih _ (State.owned_step owned)
    | waiting state => exact owned
    | ended outcome => exact owned

/-- A machine on its own is not blocked. -/
theorem State.Blocked.not_owned {program : Program} {state : State}
    (blocked : state.Blocked program) : ¬ state.machine.locks.OwnedBy state.machine.id := by
  obtain ⟨-, -, -, howner, hother, -⟩ := blocked
  exact fun owned ↦ hother (owned.eq_of_owner? howner)

/-! ## Runs -/

section Runs

variable {program : Program} {options : Options} {limit : Nat} {machine : Machine}
  {start progress : Progress} (limited : options.limits.maxSteps = some limit)

include limited

theorem Reaches.within (reached : Reaches program start progress)
    (begins : start.machine.Within options limit) : progress.machine.Within options limit := by
  apply reached.carries begins
  · exact fun state within ↦ State.within_step limited within
  · exact fun machine locks within ↦ ⟨within.options_eq, within.steps_le⟩

omit limited in
theorem Opens.within (opens : Opens machine start) (within : machine.Within options limit) :
    start.machine.Within options limit := by
  cases opens with
  | entered hsteps | refused hsteps =>
    refine ⟨within.options_eq, ?_⟩
    rcases hsteps with rfl | rfl
    · exact Nat.zero_le limit
    · exact within.steps_le

theorem Idle.within (idle : Idle options machine) : machine.Within options limit := by
  induction idle with
  | new id => exact ⟨rfl, Nat.zero_le limit⟩
  | arrange heap natives locks output _ ih => exact ⟨ih.options_eq, ih.steps_le⟩
  | finish _ starts reached ih => exact reached.within limited (starts.opens.within ih)

/-- A machine that waits for a limited time, or has the locks for itself, comes to an end. -/
theorem State.exists_ended {state : State} (within : state.machine.Within options limit)
    (unblocked : options.lockTimeout.isSome ∨ state.machine.locks.OwnedBy state.machine.id) :
    ∃ outcome, (Progress.running state).advance program (limit + 1) = .ended outcome := by
  have henough : limit < state.machine.steps + (limit + 1) := by omega
  rcases State.ended_or_blocked limited within henough with hended | ⟨next, hwaiting, hblocked⟩
  · exact hended
  · have hreached : Reaches program (.running state) (.waiting next) :=
      hwaiting ▸ Reaches.refl.advance (limit + 1)
    rcases unblocked with htimeout | howned
    · have hnext : next.machine.Within options limit := hreached.within limited within
      obtain ⟨-, -, -, -, -, hunlimited⟩ := hblocked
      rw [hnext.options_eq] at hunlimited
      simp [hunlimited] at htimeout
    · have hnext : (Progress.waiting next).machine.locks.OwnedBy _ :=
        hwaiting ▸ Progress.owned_advance (.running state) program (limit + 1) howned
      exact absurd hnext hblocked.not_owned

theorem Opens.exists_ended (opens : Opens machine start)
    (within : start.machine.Within options limit)
    (unblocked : options.lockTimeout.isSome ∨ machine.locks.OwnedBy machine.id) :
    ∃ outcome, start.advance program (limit + 1) = .ended outcome := by
  cases opens with
  | entered => exact State.exists_ended limited within unblocked
  | refused => exact ⟨_, Progress.advance_ended program _ _⟩

/-- A budget bounds every run. The count of instructions never exceeds it; from wherever a run has
come to, it ends within as many instructions and one attempt more, unless it waits for a lock of
another machine; and the fault about the budget is raised exactly when the run would go on to its
next instruction with the budget used up, which is then what the machine has counted. -/
theorem budget_bounds_run (idle : Idle options machine) (starts : Starts program machine start) :
    (∀ progress, Reaches program start progress → progress.machine.steps ≤ limit) ∧
      (options.lockTimeout.isSome ∨ machine.locks.OwnedBy machine.id →
        ∃ outcome, start.advance program (limit + 1) = .ended outcome) ∧
      (∀ state, Reaches program start (.running state) →
        (∃ outcome, (Progress.running state).advance program (limit + 1) = .ended outcome) ∨
          ∃ next, (Progress.running state).advance program (limit + 1) = .waiting next ∧
            next.Blocked program) ∧
      (∀ state, Reaches program start (.running state) → state.machine.steps = limit →
        ∃ outcome, state.step program = .ended outcome ∧
          outcome.result = .error (.stepBudgetExceeded limit) ∧ outcome.machine.steps = limit) ∧
      ∀ outcome count, Reaches program start (.ended outcome) →
        outcome.result = .error (.stepBudgetExceeded count) →
        count = limit ∧ outcome.machine.steps = limit ∧
          ∃ state, Reaches program start (.running state) ∧ state.machine.steps = limit ∧
            state.step program = .ended outcome := by
  have hstart := starts.opens.within (idle.within limited)
  have hwithin {progress : Progress} (reached : Reaches program start progress) :=
    reached.within limited hstart
  refine ⟨fun _ reached ↦ (hwithin reached).steps_le, starts.opens.exists_ended limited hstart,
    fun state reached ↦ ?_, fun state reached hsteps ↦ ?_, fun outcome count reached hresult ↦ ?_⟩
  · exact State.ended_or_blocked limited (hwithin reached) (by omega)
  · have hexhausted := State.exhausted?_of_within limited (hwithin reached)
    rw [if_pos (Nat.le_of_eq hsteps.symm)] at hexhausted
    exact ⟨_, State.step_of_exhausted hexhausted, rfl, hsteps⟩
  · rcases starts.of_isMetered reached hresult rfl with ⟨-, hcause⟩ | ⟨state, before, hstep, hfails⟩
    · cases hcause
    · have hbefore := hwithin before
      rcases hfails.of_isMetered rfl with ⟨found, hfound, hcause⟩ | ⟨_, _, _, _, _, _, hcause⟩
      · cases hcause
        have hexhausted := State.exhausted?_of_within limited hbefore
        rw [hfound] at hexhausted
        split at hexhausted
        · next hle =>
          cases hexhausted
          have hsteps := Nat.le_antisymm hbefore.steps_le hle
          rw [State.step_of_exhausted hfound] at hstep
          cases hstep
          exact ⟨rfl, hsteps, state, before, hsteps, State.step_of_exhausted hfound⟩
        · cases hexhausted
      · cases hcause

end Runs

/-- The main function catches what the function that it calls throws, and begins again. -/
def restarting : Program where
  name := "restarting"
  code := #[
    Instruction.encode ⟨Opcode.newTryNoFinal.byte, .none⟩,
    Instruction.encode ⟨Opcode.addCatch.byte, .immReg 1 0⟩,
    Instruction.encode ⟨Opcode.declareFunction.byte, .immReg 0 1⟩,
    Instruction.encode ⟨Opcode.localCall.byte, .regs2 2 0⟩,
    Instruction.encode ⟨Opcode.throw.byte, .regs1 0⟩]
  functions := #[⟨"main", 0, 0⟩, ⟨"toss", 4, 0⟩]

/-- The options of a machine that may execute twelve instructions. -/
def frugal : Options where
  limits := .withStepBudget 12

/-- Two rounds and a part of the third are all that the budget allows. -/
theorem budget_bounds_run_restarting :
    ∃ outcome, (Machine.run (Machine.new frugal 1) restarting).advance restarting 13 =
        .ended outcome ∧
      outcome.result = .error (.stepBudgetExceeded 12) ∧ outcome.machine.steps = 12 := by
  have hmatches : ((Machine.run (Machine.new frugal 1) restarting).advance restarting
      13).outcome?.any (·.result matches .error (.stepBudgetExceeded 12)) = true := by
    decide +kernel
  have limited : frugal.limits.maxSteps = some 12 := rfl
  have starts : Starts restarting (Machine.new frugal 1) _ := .run
  obtain ⟨-, hends, -, -, hexact⟩ := budget_bounds_run limited (.new 1) starts
  obtain ⟨outcome, hended⟩ := hends (.inr (by simp [LockTable.OwnedBy, Machine.new]))
  have hreached : Reaches restarting _ (.ended outcome) := hended ▸ Reaches.refl.advance 13
  rw [hended] at hmatches
  have hresult : outcome.result = .error (.stepBudgetExceeded 12) := by
    simp only [Progress.outcome?, Option.any_some] at hmatches
    split at hmatches
    · assumption
    · cases hmatches
  exact ⟨outcome, hended, hresult, (hexact outcome 12 hreached hresult).2.1⟩

/-- The main function locks the key zero. -/
def locking : Program where
  name := "locking"
  code := #[
    Instruction.encode ⟨Opcode.loadInt.byte, .immReg 0 0⟩,
    Instruction.encode ⟨Opcode.lock.byte, .regs1 0⟩]
  functions := #[⟨"main", 0, 0⟩]

/-- A machine with a budget while another machine owns the key zero. -/
def lockedOut : Machine :=
  { Machine.new frugal 1 with locks := ⟨[(.number 0, 2)]⟩ }

/-- The run that asks for the key. -/
def asking : State where
  machine := { lockedOut with depth := 1, steps := 1 }
  frame := {
    registers := (Vector.replicate registerCount .null).setIfInBounds 0 (.int 0)
    maxStack := frugal.limits.maxStackDepth
    maxScratch := frugal.limits.maxScratchSlots
    pc := 1
    opcode := Opcode.loadInt.byte }

/-- The main function is a single instruction. -/
def stopping : Program where
  name := "stopping"
  code := #[Instruction.encode ⟨Opcode.nop.byte, .none⟩]
  functions := #[⟨"main", 0, 0⟩]

/-- A machine with a budget of one instruction. -/
def single : Machine :=
  .new { limits := .withStepBudget 1 } 1

/-- A budget does not end a run that waits for a lock of another machine, however often it tries
again; and it can be used up just where the code ends, with no instruction to be executed. -/
theorem budget_leaves_waiting :
    (Idle frugal lockedOut ∧ frugal.limits.maxSteps = some 12 ∧ asking.Blocked locking ∧
        (∀ count, (lockedOut.run locking).advance locking (count + 2) = .waiting asking) ∧
        ∀ count, (Progress.running asking).advance locking (count + 1) = .waiting asking) ∧
      ∃ outcome, (single.run stopping).advance stopping 2 = .ended outcome ∧
        outcome.result = .error (.stepBudgetExceeded 1) ∧
        ∀ frame ∈ outcome.frames, stopping.fetch? frame.pc = none := by
  have hwaits (count : Nat) :
      (Progress.running asking).advance locking (count + 1) = .waiting asking := by
    have hstep : asking.step locking = .waiting asking := rfl
    rw [Progress.advance, hstep, Progress.advance_waiting]
  obtain ⟨first, hbegins, hasks⟩ : ∃ first, lockedOut.run locking = .running first ∧
      first.step locking = .running asking := by
    with_unfolding_all exact ⟨_, rfl, rfl⟩
  let last : Frame := {
    maxStack := single.options.limits.maxStackDepth
    maxScratch := single.options.limits.maxScratchSlots
    pc := 1
    opcode := Opcode.nop.byte }
  have hends : (single.run stopping).advance stopping 2 =
      State.fault { single with depth := 1, steps := 1 } last [] (.stepBudgetExceeded 1) := by
    with_unfolding_all rfl
  refine ⟨⟨.arrange _ _ _ _ (.new 1), rfl, ?_, fun count ↦ ?_, hwaits⟩, _, hends, rfl, ?_⟩
  · exact ⟨⟨rfl, rfl⟩, rfl, rfl, rfl, by decide, rfl⟩
  · rw [hbegins, Progress.advance, hasks, hwaits]
  · decide

end RegisterMachine

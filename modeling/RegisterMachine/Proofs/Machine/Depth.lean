import RegisterMachine.Proofs.Machine.Metered

/-!
# The depth of calls is bounded and balanced

A machine counts the frames that nest, by hand: one more where a frame is entered, one or more fewer
wherever frames are left, by a value, a throw or a fault. The count is the number of frames at every
step of a run that began with none, it stays within the limit, and it is none again at the end. The
call of a function is refused for its depth exactly at the limit; host functions nest nothing.
-/

namespace RegisterMachine

namespace State

variable {program : Program} {state : State} {callee : Value} {limit : Nat}

/-! ## Calls -/

/-- A function that is called at the limit is not entered. -/
theorem Calls.step_of_le (calls : state.Calls program callee) {index : Nat}
    (hcallee : functionIndex? callee = some index) (hindex : index < program.functions.size)
    (hdeep : state.machine.options.limits.maxCallDepth ≤ state.machine.depth) :
    ∃ frame, state.step program = fault state.counted frame state.callers
      (.callDepthExceeded state.machine.options.limits.maxCallDepth) := by
  obtain ⟨hdispatch, hexecute⟩ := calls
  have hdeep : state.counted.options.limits.maxCallDepth ≤ state.counted.depth := hdeep
  rw [hdispatch.step_eq, hexecute]
  simp only [proceed, call, hcallee, calleeFrame_of_le hindex hdeep]
  exact ⟨_, rfl⟩

/-- A host function answers in the frame that calls it, or its fault ends the run from there. -/
theorem Calls.native {id : UInt32} (calls : state.Calls program (.native id)) :
    (∃ next, state.step program = .running next ∧ next.machine.depth = state.machine.depth ∧
        next.callers = state.callers) ∨
      ∃ machine frame cause, state.step program = fault machine frame state.callers cause ∧
        machine.depth = state.machine.depth := by
  obtain ⟨hdispatch, hexecute⟩ := calls
  rw [hdispatch.step_eq, hexecute]
  simp only [proceed, call, functionIndex?]
  split
  · next value changed hanswer =>
    have hdepth : changed.depth = state.machine.depth := by
      rw [Machine.callNative_inherits hanswer]
      rfl
    split
    · exact .inl ⟨_, rfl, hdepth, rfl⟩
    · exact .inr ⟨_, _, _, rfl, hdepth⟩
  · next cause changed hanswer =>
    refine .inr ⟨_, _, _, rfl, ?_⟩
    rw [Machine.callNative_inherits hanswer]
    rfl

end State

/-! ## Runs -/

/-- A machine that counts at most as many frames as it may. -/
structure Machine.Shallow (limit : Nat) (machine : Machine) : Prop where
  limit_eq : machine.options.limits.maxCallDepth = limit
  depth_le : machine.depth ≤ limit

theorem Machine.Continues.shallow {limit : Nat} {machine changed : Machine}
    (continues : machine.Continues changed) (shallow : machine.Shallow limit) :
    changed.Shallow limit := by
  constructor
  · rw [continues.options_eq]
    exact shallow.limit_eq
  · have hdepth := continues.depth_le
    rw [shallow.limit_eq] at hdepth
    exact Nat.le_trans hdepth (Nat.max_le.2 ⟨shallow.depth_le, Nat.le_refl limit⟩)

section Runs

variable {program : Program} {machine : Machine} {limit : Nat} {start progress : Progress}
  {state : State} {outcome : Ended}

theorem Reaches.shallow (reached : Reaches program start progress)
    (begins : start.machine.Shallow limit) : progress.machine.Shallow limit := by
  apply reached.carries begins
  · intro state shallow
    rcases state.machine_step program with continues | ⟨-, continues⟩
    · exact continues.shallow shallow
    · exact continues.shallow ⟨shallow.limit_eq, shallow.depth_le⟩
  · exact fun machine locks shallow ↦ ⟨shallow.limit_eq, shallow.depth_le⟩

theorem Opens.shallow (opens : Opens machine start)
    (hlimit : machine.options.limits.maxCallDepth = limit) (hdepth : machine.depth < limit) :
    start.machine.Shallow limit := by
  cases opens with
  | entered => exact ⟨hlimit, hdepth⟩
  | refused => exact ⟨hlimit, Nat.le_of_lt hdepth⟩

/-- A step is refused for its depth if and only if it calls a function at the limit. -/
theorem State.tooDeep_iff (nested : state.Nested program 0)
    (shallow : state.machine.Shallow limit) :
    (∃ outcome, state.step program = .ended outcome ∧
        outcome.result = .error (.callDepthExceeded limit)) ↔
      ∃ callee index, state.Calls program callee ∧ functionIndex? callee = some index ∧
        index < program.functions.size ∧ state.machine.depth = limit := by
  constructor
  · rintro ⟨outcome, hstep, hresult⟩
    rcases fails_of_step nested hstep hresult with ⟨value, hthrown⟩ | hfails
    · cases hthrown
    · rcases hfails.of_isMetered rfl with
        ⟨_, _, hcause⟩ | ⟨callee, index, hcalls, hcallee, hindex, hdeep, -⟩
      · cases hcause
      · rw [shallow.limit_eq] at hdeep
        exact ⟨callee, index, hcalls, hcallee, hindex, Nat.le_antisymm shallow.depth_le hdeep⟩
  · rintro ⟨callee, index, hcalls, hcallee, hindex, hdepth⟩
    have hdeep : state.machine.options.limits.maxCallDepth ≤ state.machine.depth :=
      Nat.le_of_eq (shallow.limit_eq.trans hdepth.symm)
    obtain ⟨frame, hstep⟩ := hcalls.step_of_le hcallee hindex hdeep
    rw [shallow.limit_eq] at hstep
    exact ⟨_, hstep, rfl⟩

/-- The call of a function at the limit ends the run: no frame was entered for the function, and
nothing was executed after the call. -/
structure Ended.TooDeep (limit : Nat) (state : State) (outcome : Ended) : Prop where
  result_eq : outcome.result = .error (.callDepthExceeded limit)
  steps_eq : outcome.machine.steps = state.machine.steps + 1
  length_frames : outcome.frames.length = (Progress.running state).frames.length

/-- The depth of calls is bounded and balanced. At each step of a run that began with no frame, the
count is the number of frames, and lies between one and the limit. A run ends because calls nest too
deep exactly where a function that exists is called at the limit, and before the function executes
anything. Host functions do not change the count, and at the end of a run it is none. -/
theorem depth_bounded_and_balanced (hdepth : machine.depth = 0)
    (hlimit : machine.options.limits.maxCallDepth = limit) (hpos : 1 ≤ limit)
    (starts : Starts program machine start) :
    (∀ state, Reaches program start (.running state) →
      state.machine.depth = (Progress.running state).frames.length ∧
        1 ≤ state.machine.depth ∧ state.machine.depth ≤ limit) ∧
      (∀ state, Reaches program start (.running state) →
        ((∃ outcome, state.step program = .ended outcome ∧
            outcome.result = .error (.callDepthExceeded limit)) ↔
          ∃ callee index, state.Calls program callee ∧
            State.functionIndex? callee = some index ∧ index < program.functions.size ∧
            state.machine.depth = limit)) ∧
      (∀ outcome count, Reaches program start (.ended outcome) →
        outcome.result = .error (.callDepthExceeded count) →
        count = limit ∧ ∃ state, Reaches program start (.running state) ∧
          state.step program = .ended outcome ∧ outcome.TooDeep limit state) ∧
      (∀ state id, Reaches program start (.running state) → state.Calls program (.native id) →
        (∃ next, state.step program = .running next ∧
            next.machine.depth = state.machine.depth ∧ next.callers = state.callers) ∨
          ∃ stopped frame cause,
            state.step program = State.fault stopped frame state.callers cause ∧
              stopped.depth = state.machine.depth) ∧
      ∀ outcome, Reaches program start (.ended outcome) → outcome.machine.depth = 0 := by
  have hbelow : machine.depth < limit := hdepth.symm ▸ hpos
  have hbegins := starts.opens.shallow hlimit hbelow
  have hnested {state : State} (reached : Reaches program start (.running state)) :
      state.Nested program 0 := hdepth ▸ starts.nested reached
  have hshallow {state : State} (reached : Reaches program start (.running state)) :
      state.machine.Shallow limit := reached.shallow hbegins
  refine ⟨fun state reached ↦ ?_, fun state reached ↦ ?_, fun outcome count reached hresult ↦ ?_,
    fun state id _ calls ↦ calls.native, fun outcome reached ↦ ?_⟩
  · have hcount := (hnested reached).depth_eq
    refine ⟨?_, by omega, (hshallow reached).depth_le⟩
    simp only [Progress.frames, List.length_cons, List.length_map]
    omega
  · exact State.tooDeep_iff (hnested reached) (hshallow reached)
  · rcases starts.of_isMetered reached hresult rfl with ⟨hdeep, -⟩ | ⟨state, before, hstep, hfails⟩
    · omega
    · rcases hfails.of_isMetered rfl with
        ⟨_, _, hcause⟩ | ⟨callee, index, hcalls, hcallee, hindex, hdeep, hcause⟩
      · cases hcause
      · obtain ⟨frame, hfault⟩ := hcalls.step_of_le hcallee hindex hdeep
        rw [(hshallow before).limit_eq] at hcause hfault
        cases hcause
        refine ⟨rfl, state, before, hstep, ?_⟩
        rw [hfault] at hstep
        cases hstep
        exact ⟨rfl, rfl, by simp [Progress.frames]⟩
  · exact (starts.depth_eq reached).trans hdepth

end Runs

/-- The main function calls itself. -/
def descending : Program where
  name := "descending"
  code := #[
    Instruction.encode ⟨Opcode.declareFunction.byte, .immReg 0 0⟩,
    Instruction.encode ⟨Opcode.localCall.byte, .regs2 1 0⟩]
  functions := #[⟨"main", 0, 0⟩]

/-- A machine on which at most three frames nest. -/
def threeDeep : Machine :=
  .new { limits := .withCallDepth 3 } 1

/-- Three frames nest, and the next call is refused. -/
theorem depth_bounded_and_balanced_descending :
    ∃ outcome, (threeDeep.run descending).advance descending 6 = .ended outcome ∧
      outcome.result = .error (.callDepthExceeded 3) ∧ outcome.frames.length = 3 ∧
      outcome.machine.depth = 0 := by
  have starts : Starts descending threeDeep _ := .run
  have hlimit : threeDeep.options.limits.maxCallDepth = 3 := rfl
  obtain ⟨hcount, hraised, hexact, -, hends⟩ :=
    depth_bounded_and_balanced rfl hlimit (by decide) starts
  have hmatches : ((threeDeep.run descending).advance descending 6).outcome?.any
      (·.result matches .error (.callDepthExceeded 3)) = true := by decide +kernel
  obtain ⟨outcome, hended, hresult⟩ := (Option.any_eq_true _ _).1 hmatches
  rw [Progress.outcome?_eq_some_iff] at hended
  have hreached : Reaches descending _ (.ended outcome) := hended ▸ Reaches.refl.advance 6
  have hcause : outcome.result = .error (.callDepthExceeded 3) := by
    split at hresult
    · assumption
    · cases hresult
  obtain ⟨-, state, before, hstep, htooDeep⟩ := hexact outcome 3 hreached hcause
  obtain ⟨_, _, _, _, _, hdepth⟩ := (hraised state before).1 ⟨outcome, hstep, hcause⟩
  have hframes : outcome.frames.length = 3 := by
    rw [htooDeep.length_frames, ← (hcount state before).1, hdepth]
  exact ⟨outcome, hended, hcause, hframes, hends outcome hreached⟩

end RegisterMachine

import RegisterMachine.Proofs.Frame.Valid
import RegisterMachine.Proofs.Machine.Settings
import RegisterMachine.Proofs.Machine.Step

/-!
# Frames stay valid throughout a run

The frame that executes is valid, and so is every frame that waits for a call; such a frame stands
at its call instruction, inside of the code, with a register for the result. One step preserves
this, whether it executes an instruction, hands a thrown value to a caller, enters a function or
leaves one; so it holds of every state that a run reaches. The code itself need not verify: the
program has only to be well formed, so that functions start inside of it.
-/

namespace RegisterMachine

/-- The frames of a run: those that execute or wait, or those that ended with it. -/
def Progress.frames : Progress → List Frame
  | .running state | .waiting state => state.frame :: state.callers.map (·.frame)
  | .ended outcome => outcome.frames

/-- The ways to begin a run: of a program, of one of its functions, or of a frame made beforehand
for a place of its code. -/
inductive Begins (program : Program) (machine : Machine) (options : Options) : Progress → Prop
  | program : Begins program machine options (machine.run program)
  | function (index : Nat) (receiver : Value) (arguments : List Value) :
      Begins program machine options (machine.callFunction program index receiver arguments)
  | frame {entry : Nat} {arguments : List Value} {made frame : Frame}
      (receiver moduleObject : Value) : entry ≤ program.size →
      Frame.new entry options = .ok made → made.withArguments arguments = .ok frame →
      Begins program machine options (machine.enter { frame with receiver, moduleObject })

/-! ## States -/

variable {program : Program} {known : List Limits}

/-- A frame is valid under limits that are known. -/
def Frame.ValidUnder (program : Program) (known : List Limits) (frame : Frame) : Prop :=
  ∃ limits ∈ known, frame.Valid program limits

/-- A caller stands at its call instruction and has a register for the result. -/
structure Caller.Valid (program : Program) (known : List Limits) (caller : Caller) : Prop where
  frame_valid : caller.frame.ValidUnder program known
  pc_lt : caller.frame.pc < program.size
  destination_lt : caller.destination.toNat < registerCount

/-- The invariant of a run. -/
structure State.Valid (program : Program) (known : List Limits) (state : State) : Prop where
  limits_mem : state.machine.options.limits ∈ known
  frame_valid : state.frame.ValidUnder program known
  callers_valid : ∀ caller ∈ state.callers, caller.Valid program known

/-- What is left of the invariant when a run has ended. -/
def Ended.Valid (program : Program) (known : List Limits) (outcome : Ended) : Prop :=
  ∀ frame ∈ outcome.frames, frame.ValidUnder program known

/-- A caller that receives its result continues after its call. -/
theorem Caller.Valid.resume {caller : Caller} (valid : caller.Valid program known) (value : Value) :
    ∃ frame, caller.resume value = .ok frame ∧ frame.ValidUnder program known := by
  obtain ⟨limits, hlimits, hframe⟩ := valid.frame_valid
  have hset : caller.frame.setRegister caller.destination value = .ok { caller.frame with
      registers := caller.frame.registers.setIfInBounds caller.destination.toNat value } :=
    if_pos valid.destination_lt
  refine ⟨_, by rw [Caller.resume, hset]; rfl, limits, hlimits, ?_⟩
  exact { (hframe.setRegister hset).1 with pc_le := valid.pc_lt }

namespace State

variable {machine : Machine} {frame : Frame} {callers : List Caller}

/-- A run that is valid as far as it has come. -/
def Sound (program : Program) (known : List Limits) (progress : Progress) : Prop :=
  progress.Satisfies (State.Valid program known) (Ended.Valid program known)

theorem sound_fault (hframe : frame.ValidUnder program known)
    (hcallers : ∀ caller ∈ callers, caller.Valid program known) (cause : Fault) :
    Sound program known (fault machine frame callers cause) := by
  intro ended hended
  obtain ⟨active, hactive, rfl⟩ := List.mem_map.1 hended
  have hvalid : active.ValidUnder program known := by
    rcases List.mem_cons.1 hactive with rfl | hcaller
    · exact hframe
    · obtain ⟨caller, hmem, rfl⟩ := List.mem_map.1 hcaller
      exact (hcallers caller hmem).frame_valid
  obtain ⟨limits, hlimits, hactive⟩ := hvalid
  exact ⟨limits, hlimits, hactive.halt⟩

theorem sound_leave (hmachine : machine.options.limits ∈ known)
    (hframe : frame.ValidUnder program known)
    (hcallers : ∀ caller ∈ callers, caller.Valid program known) (value : Value) :
    Sound program known (leave machine frame callers value) := by
  cases callers with
  | nil =>
    intro ended hended
    obtain ⟨limits, hlimits, hvalid⟩ := hframe
    rw [List.mem_singleton.1 hended]
    exact ⟨limits, hlimits, hvalid.halt⟩
  | cons caller outer =>
    obtain ⟨resumed, hresume, hvalid⟩ := (hcallers caller (by simp)).resume value
    simp only [leave, hresume]
    exact ⟨hmachine, hvalid, fun other hother ↦ hcallers other (by simp [hother])⟩

theorem validUnder_unwind (hframe : frame.ValidUnder program known) (value : Value) :
    (frame.unwind value).2.ValidUnder program known := by
  obtain ⟨limits, hlimits, hvalid⟩ := hframe
  exact ⟨limits, hlimits, hvalid.unwind value⟩

/-- A thrown value passes through frames that do not catch it, from the inside out. -/
theorem sound_throw (hmachine : machine.options.limits ∈ known)
    (hframe : frame.ValidUnder program known)
    (hcallers : ∀ caller ∈ callers, caller.Valid program known) (value : Value) :
    Sound program known (throw machine frame value callers) := by
  have hunwound := validUnder_unwind hframe value
  induction callers generalizing machine frame with
  | nil =>
    unfold throw
    split
    · next caught hcaught =>
      rw [hcaught] at hunwound
      exact ⟨hmachine, hunwound, by simp⟩
    · next rest hrest =>
      rw [hrest] at hunwound
      obtain ⟨limits, hlimits, hvalid⟩ := hunwound
      intro ended hended
      rw [List.mem_singleton.1 hended]
      exact ⟨limits, hlimits, hvalid.halt⟩
  | cons caller outer ih =>
    unfold throw
    split
    · next caught hcaught =>
      rw [hcaught] at hunwound
      exact ⟨hmachine, hunwound, hcallers⟩
    · have hcaller := (hcallers caller (by simp)).frame_valid
      exact ih hmachine hcaller (fun other hother ↦ hcallers other (by simp [hother]))
        (validUnder_unwind hcaller value)

/-! ## Calls -/

theorem entry_lt_size {index : Nat} {function : Function} (hprogram : program.defect? = none)
    (h : program.functions[index]? = some function) : function.entry.toNat < program.size := by
  unfold Program.defect? at hprogram
  split at hprogram
  · cases hprogram
  · next hnone =>
    have hinside := Array.find?_eq_none.1 hnone function (Array.mem_of_getElem? h)
    simpa using hinside

/-- Why a function cannot be entered: of the faults about the text, there is no such function, or
there are more arguments than a frame can receive. -/
def EntryFault (program : Program) (index : Nat) (arguments : List Value) : Fault → Prop
  | .invalidFunction _ => program.functions.size ≤ index
  | .tooManyArguments count => count = arguments.length ∧ maxArguments < count
  | cause => cause.isDynamic = true

theorem calleeFrame_meets (hprogram : program.defect? = none) (index : Nat)
    (receiver moduleObject : Value) (arguments : List Value) :
    Meets (EntryFault program index arguments) (Frame.Valid program machine.options.limits)
      (calleeFrame program machine index receiver moduleObject arguments) := by
  unfold calleeFrame
  split
  · next hnone => exact Array.getElem?_eq_none_iff.1 hnone
  · next function hfunction =>
    dsimp only
    split
    · exact rfl
    · have hnew : Meets (EntryFault program index arguments) (fun _ ↦ True)
          (Frame.new function.entry.toNat machine.options) := by
        unfold Frame.new
        split
        · exact rfl
        · trivial
      refine hnew.bind fun made hmade _ ↦ ?_
      have hfill : Meets (EntryFault program index arguments) (fun _ ↦ True)
          (made.withArguments arguments) := by
        unfold Frame.withArguments
        split
        · next hmany => exact ⟨rfl, hmany⟩
        · trivial
      refine hfill.bind fun filled hfilled _ ↦ ?_
      have hentry := Nat.le_of_lt (entry_lt_size hprogram hfunction)
      exact { (Frame.Valid.of_new hentry hmade).withArguments hfilled with }

theorem sound_call {destination : UInt8} {callee receiver : Value} {arguments : List Value}
    (hprogram : program.defect? = none) (hmachine : machine.options.limits ∈ known)
    (hcaller : Caller.Valid program known ⟨frame, destination⟩)
    (hcallers : ∀ caller ∈ callers, caller.Valid program known) :
    Sound program known
      (call program machine frame callers destination callee receiver arguments) := by
  unfold call
  split
  · split
    · next entered hentered =>
      refine ⟨hmachine, ⟨_, hmachine, ?_⟩, ?_⟩
      · exact (calleeFrame_meets hprogram _ _ _ _).of_ok hentered
      · simpa using ⟨hcaller, hcallers⟩
    · exact sound_fault hcaller.frame_valid hcallers _
  · split
    · next value changed hanswer =>
      obtain ⟨resumed, hresume, hvalid⟩ := hcaller.resume value
      rw [hresume]
      refine ⟨?_, hvalid, hcallers⟩
      rw [(Machine.callNative_inherits hanswer).options_eq]
      exact hmachine
    · exact sound_fault hcaller.frame_valid hcallers _
  · exact sound_fault hcaller.frame_valid hcallers _

/-! ## One step -/

theorem validUnder_of_fetch {fetched : Frame} {outcome : Except Fault (Opcode × Operands)}
    (h : fetch program frame = (fetched, outcome)) (hframe : frame.ValidUnder program known) :
    fetched.ValidUnder program known ∧ fetched.pc = frame.pc := by
  obtain ⟨opcode, hopcode⟩ := fetch_fst program frame
  obtain ⟨limits, hlimits, hvalid⟩ := hframe
  rw [h] at hopcode
  dsimp only at hopcode
  rw [hopcode]
  exact ⟨⟨limits, hlimits, { hvalid with }⟩, rfl⟩

/-- What an instruction that is dispatched leaves of its frame. -/
theorem Dispatches.effect_valid {state : State} {op : Opcode} {operands : Operands}
    {effect : Effect} (dispatches : Dispatches program state frame op operands)
    (h : execute program state.counted frame op operands = .ok effect)
    (hframe : state.frame.ValidUnder program known) :
    ∃ limits ∈ known, effect.Valid program limits state.frame.pc := by
  obtain ⟨⟨limits, hlimits, hvalid⟩, hpc⟩ := validUnder_of_fetch dispatches.fetched hframe
  rw [← hpc]
  exact ⟨limits, hlimits, (dispatches.behaves.of_ok h).valid hvalid⟩

theorem sound_step {state : State} (hprogram : program.defect? = none)
    (valid : state.Valid program known) : Sound program known (state.step program) := by
  have hmachine : state.counted.options.limits ∈ known := valid.limits_mem
  have htransition := transition_step program state
  generalize state.step program = progress at htransition
  cases htransition with
  | exhausted _ => exact sound_fault valid.frame_valid valid.callers_valid _
  | unfetched _ hfetch =>
    exact sound_fault (validUnder_of_fetch hfetch valid.frame_valid).1 valid.callers_valid _
  | failed hdispatch _ =>
    exact sound_fault (validUnder_of_fetch hdispatch.fetched valid.frame_valid).1
      valid.callers_valid _
  | @executed frame op operands effect hdispatch hexecute =>
    have hfetched := (validUnder_of_fetch hdispatch.fetched valid.frame_valid).1
    obtain ⟨limits, hlimits, hvalid⟩ := hdispatch.effect_valid hexecute valid.frame_valid
    cases effect with
    | next machine result =>
      obtain ⟨hresult, hpc⟩ := hvalid
      refine ⟨?_, ⟨limits, hlimits, { hresult with pc_le := ?_ }⟩, valid.callers_valid⟩
      · rw [(hdispatch.behaves.of_ok hexecute).inherits.options_eq]
        exact hmachine
      · have hlt := hdispatch.pc_lt_size
        dsimp only
        omega
    | jump result target =>
      obtain ⟨hresult, htarget⟩ := hvalid
      exact ⟨hmachine, ⟨limits, hlimits, { hresult with pc_le := htarget }⟩, valid.callers_valid⟩
    | leave value => exact sound_leave hmachine hfetched valid.callers_valid _
    | throw value => exact sound_throw hmachine hfetched valid.callers_valid _
    | call result destination callee receiver arguments =>
      obtain ⟨hresult, hpc, hdestination, -⟩ := hvalid
      refine sound_call hprogram hmachine ⟨⟨limits, hlimits, hresult⟩, ?_, hdestination⟩
        valid.callers_valid
      exact hpc ▸ hdispatch.pc_lt_size
    | wait => exact valid

end State

/-! ## Runs -/

theorem sound_enter {machine : Machine} {frame : Frame} (hmachine : machine.options.limits ∈ known)
    (hframe : frame.ValidUnder program known) :
    State.Sound program known (machine.enter frame) := by
  unfold Machine.enter
  split
  · intro ended hended
    rw [List.mem_singleton.1 hended]
    exact hframe
  · exact ⟨hmachine, hframe, by simp⟩

theorem sound_callFunction {machine : Machine} (hprogram : program.defect? = none)
    (hmachine : machine.options.limits ∈ known) (index : Nat) (receiver : Value)
    (arguments : List Value) :
    State.Sound program known (machine.callFunction program index receiver arguments) := by
  unfold Machine.callFunction
  have hcounted : (if machine.depth = 0 then { machine with steps := 0 } else machine).options =
      machine.options := by
    split <;> rfl
  dsimp only
  split
  · next frame hframe =>
    refine sound_enter (by rwa [hcounted]) ⟨machine.options.limits, hmachine, ?_⟩
    rw [← hcounted]
    exact (State.calleeFrame_meets hprogram _ _ _ _).of_ok hframe
  · simp [Machine.refuse, State.Sound, Progress.Satisfies, Ended.Valid]

theorem Begins.sound {machine : Machine} {options : Options} {start : Progress}
    (hprogram : program.defect? = none) (begins : Begins program machine options start) :
    State.Sound program [options.limits, machine.options.limits] start := by
  cases begins with
  | program =>
    unfold Machine.run
    rw [hprogram]
    dsimp only
    split
    · exact sound_callFunction hprogram (by simp) _ _ _
    · split
      · simp [Machine.refuse, State.Sound, Progress.Satisfies, Ended.Valid]
      · split
        · next frame hframe =>
          refine sound_enter (by simp) ⟨machine.options.limits, by simp, ?_⟩
          exact Frame.Valid.of_new (Nat.zero_le _) hframe
        · simp [Machine.refuse, State.Sound, Progress.Satisfies, Ended.Valid]
  | function index receiver arguments => exact sound_callFunction hprogram (by simp) _ _ _
  | frame receiver moduleObject hentry hmade hfilled =>
    refine sound_enter (by simp) ⟨options.limits, by simp, ?_⟩
    exact { (Frame.Valid.of_new hentry hmade).withArguments hfilled with }

theorem Reaches.sound {machine : Machine} {options : Options} {start progress : Progress}
    (hprogram : program.defect? = none) (begins : Begins program machine options start)
    (reached : Reaches program start progress) :
    State.Sound program [options.limits, machine.options.limits] progress :=
  reached.satisfies (begins.sound hprogram) (fun _ valid ↦ State.sound_step hprogram valid)
    fun _ _ valid ↦ ⟨valid.limits_mem, valid.frame_valid, valid.callers_valid⟩

/-- Throughout a run of a well-formed program every frame is valid under the limits it was made
with, and so nothing it reads or writes without looking is out of range. -/
theorem reached_frames_valid {machine : Machine} {options : Options} {start progress : Progress}
    (hprogram : program.defect? = none) (begins : Begins program machine options start)
    (reached : Reaches program start progress) :
    ∀ frame ∈ progress.frames,
      frame.ValidUnder program [options.limits, machine.options.limits] ∧ frame.InBounds := by
  have hsound := reached.sound hprogram begins
  intro frame hframe
  have hvalid : frame.ValidUnder program [options.limits, machine.options.limits] := by
    cases progress with
    | running state | waiting state =>
      rcases List.mem_cons.1 hframe with rfl | hcaller
      · exact hsound.frame_valid
      · obtain ⟨caller, hmem, rfl⟩ := List.mem_map.1 hcaller
        exact (hsound.callers_valid caller hmem).frame_valid
    | ended outcome => exact hsound frame hframe
  obtain ⟨limits, hlimits, hframe⟩ := hvalid
  exact ⟨⟨limits, hlimits, hframe⟩, hframe.inBounds⟩

/-- The main function catches what a function that it calls throws. -/
def catching : Program where
  name := "catching"
  code := #[
    Instruction.encode ⟨Opcode.newTryNoFinal.byte, .none⟩,
    Instruction.encode ⟨Opcode.addCatch.byte, .immReg 1 5⟩,
    Instruction.encode ⟨Opcode.declareFunction.byte, .immReg 0 1⟩,
    Instruction.encode ⟨Opcode.localCall.byte, .regs2 2 0⟩,
    Instruction.encode ⟨Opcode.halt.byte, .none⟩,
    Instruction.encode ⟨Opcode.returnValue.byte, .regs1 1⟩,
    Instruction.encode ⟨Opcode.loadInt.byte, .immReg 3 7⟩,
    Instruction.encode ⟨Opcode.throw.byte, .regs1 3⟩]
  functions := #[⟨"main", 0, 0⟩, ⟨"raise", 6, 0⟩]

theorem reached_frames_valid_catching :
    catching.defect? = none ∧
      (Progress.advance catching 4 (Machine.run {} catching)).frames.map (·.pc) = [6, 3] ∧
      ∀ frame ∈ (Progress.advance catching 4 (Machine.run {} catching)).frames,
        frame.ValidUnder catching [({} : Limits), {}] ∧ frame.InBounds :=
  have begins : Begins catching {} {} (Machine.run {} catching) := .program
  ⟨by decide, by decide +kernel,
    reached_frames_valid (by decide) begins (Reaches.refl.advance 4)⟩

end RegisterMachine

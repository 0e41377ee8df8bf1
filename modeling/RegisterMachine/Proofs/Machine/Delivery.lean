import RegisterMachine.Proofs.Frame.Staging
import RegisterMachine.Proofs.Machine.Catching
import RegisterMachine.Proofs.Machine.Trace

/-!
# Calls deliver what was staged

What a frame passes to a call follows from the instructions that this frame has executed before, no
matter what the frames that it called did in between, whether they returned or threw, and how many
slots were set twice. A function begins with these arguments and nothing else; when it returns, its
caller goes on as it was.

The proof carries `Recorded` along a trace: the active frame has staged what its history says, and
each frame that waits is the frame of the step that called, with nothing staged.
-/

namespace RegisterMachine

/-! ## Histories of frames -/

/-- What the next instruction of a run does about the arguments of a call. -/
def State.staging? (program : Program) (state : State) : Option Staging :=
  match fetch program state.frame with
  | (frame, .ok (op, operands)) => frame.staging? op operands
  | (_, .error _) => none

/-- What the frame that has so many callers has done about arguments, the last thing first. The host
may have prepared the frame that a run begins with. -/
def staged (program : Program) (prepared : List Staging) (trace : List State) (depth : Nat) :
    List Staging :=
  (activation depth trace).filterMap (State.staging? program) ++
    if depth = 0 then prepared else []

section Histories

variable {program : Program} {prepared : List Staging} {trace : List State} {state : State}
  {depth : Nat}

theorem staged_cons_of_lt (h : depth < state.callers.length) :
    staged program prepared (state :: trace) depth = staged program prepared trace depth := by
  rw [staged, activation_cons_of_lt h, staged]

theorem staged_cons_self :
    staged program prepared (state :: trace) state.callers.length =
      (state.staging? program).toList ++ staged program prepared trace state.callers.length := by
  rw [staged, activation_cons_self, staged, ← List.append_assoc]
  cases hstaging : state.staging? program with
  | none => rw [List.filterMap_cons_none hstaging, Option.toList_none, List.nil_append]
  | some staging =>
    rw [List.filterMap_cons_some hstaging, Option.toList_some, List.singleton_append]

theorem staged_cons_of_gt (h : state.callers.length < depth) :
    staged program prepared (state :: trace) depth = [] := by
  rw [staged, activation_cons_of_gt h, if_neg (Nat.ne_zero_of_lt h), List.filterMap_nil,
    List.append_nil]

end Histories

/-! ## Calls -/

namespace State

/-- The next instruction of a run calls a value with a receiver, for a register. -/
inductive Invokes (program : Program) (state : State) : UInt8 → Value → Value → Prop
  /-- The callee is a field of the receiver of the frame, which receives the call. -/
  | method {frame : Frame} {operands : Operands} {name callee : Value} {key : String} :
      Dispatches program state frame .call operands → frame.register operands.b = .ok name →
      state.machine.stringKey name = .ok key →
      state.machine.loadField frame.receiver key = .ok callee → callee ≠ .null →
      Invokes program state operands.a callee frame.receiver
  /-- Nothing receives the call of a function. -/
  | function {frame : Frame} {operands : Operands} {callee : Value} :
      Dispatches program state frame .localCall operands →
      frame.register operands.b = .ok callee → Invokes program state operands.a callee .null
  /-- A register has the receiver. -/
  | dynamic {frame : Frame} {operands : Operands} {receiver callee : Value} :
      Dispatches program state frame .dynamicCall operands →
      frame.register operands.b = .ok receiver → frame.register operands.c = .ok callee →
      Invokes program state operands.a callee receiver

/-- The next instruction of a run ends its frame with a value. -/
inductive Returns (program : Program) (state : State) (value : Value) : Prop
  | intro {frame : Frame} {op : Opcode} {operands : Operands} :
      Dispatches program state frame op operands →
      execute program state.counted frame op operands = .ok (.leave value) →
      Returns program state value

variable {program : Program} {state : State} {frame : Frame} {op : Opcode} {operands : Operands}
  {destination : UInt8} {callee receiver value : Value}

theorem Dispatches.staging?_eq (dispatches : Dispatches program state frame op operands) :
    state.staging? program = frame.staging? op operands := by
  rw [staging?, dispatches.fetched]

/-- The frame of a state while its call goes on. -/
def calling (state : State) (opcode : UInt8) : Frame :=
  { state.frame with outgoing := {}, opcode }

theorem Invokes.exists_execute (invokes : state.Invokes program destination callee receiver) :
    ∃ frame op operands, Dispatches program state frame op operands ∧
      frame.staging? op operands = some .call ∧
      execute program state.counted frame op operands =
        .ok (.call { frame with outgoing := {} } destination callee receiver
          frame.outgoing.arguments) := by
  cases invokes with
  | method hdispatch hname hkey hcallee hnull =>
    refine ⟨_, _, _, hdispatch, rfl, ?_⟩
    have hkey : state.counted.stringKey _ = _ := hkey
    have hcallee : state.counted.loadField _ _ = _ := hcallee
    simp only [execute, hname, bind, Except.bind, hkey, hcallee]
    rw [if_neg hnull]
    rfl
  | function hdispatch hcallee =>
    refine ⟨_, _, _, hdispatch, rfl, ?_⟩
    simp only [execute, hcallee, bind, Except.bind]
    rfl
  | dynamic hdispatch hreceiver hcallee =>
    refine ⟨_, _, _, hdispatch, rfl, ?_⟩
    simp only [execute, hreceiver, hcallee, bind, Except.bind]
    rfl

/-- An instruction that calls has a register for the result, and passes what is staged. -/
theorem Invokes.step_eq (invokes : state.Invokes program destination callee receiver) :
    destination.toNat < registerCount ∧ state.staging? program = some .call ∧
      ∃ opcode, state.step program =
        call program state.counted (state.calling opcode) state.callers destination callee receiver
          state.frame.outgoing.arguments := by
  obtain ⟨frame, op, operands, hdispatch, hstaging, hexecute⟩ := invokes.exists_execute
  obtain ⟨opcode, rfl⟩ := of_fetch_eq hdispatch.fetched
  refine ⟨(hdispatch.behaves.of_ok hexecute).of_call.1, hdispatch.staging?_eq.trans hstaging,
    opcode, ?_⟩
  rw [hdispatch.step_eq, hexecute]
  rfl

/-- Only the three instructions that call come to a call. -/
theorem Dispatches.invokes {result : Frame} {arguments : List Value}
    (dispatches : Dispatches program state frame op operands)
    (h : execute program state.counted frame op operands =
      .ok (.call result destination callee receiver arguments)) :
    state.Invokes program destination callee receiver := by
  have hop := (dispatches.behaves.of_ok h).isCall
  cases op with
  | call =>
    obtain ⟨name, hname, hrest⟩ := bind_eq_ok_iff.1 h
    obtain ⟨key, hkey, hrest⟩ := bind_eq_ok_iff.1 hrest
    obtain ⟨found, hfound, hrest⟩ := bind_eq_ok_iff.1 hrest
    split at hrest
    · cases hrest
    · next hnull =>
      cases hrest
      exact .method dispatches hname hkey hfound hnull
  | localCall =>
    obtain ⟨found, hfound, hrest⟩ := bind_eq_ok_iff.1 h
    cases hrest
    exact .function dispatches hfound
  | dynamicCall =>
    obtain ⟨held, hheld, hrest⟩ := bind_eq_ok_iff.1 h
    obtain ⟨found, hfound, hrest⟩ := bind_eq_ok_iff.1 hrest
    cases hrest
    exact .dynamic dispatches hheld hfound
  | _ => cases hop

/-- A caller waits in the frame of this state, which has called a function. -/
structure Suspends (program : Program) (site : State) (caller : Caller) : Prop where
  invokes : ∃ callee receiver index, site.Invokes program caller.destination callee receiver ∧
    functionIndex? callee = some index
  frame_eq : ∃ opcode, caller.frame = site.calling opcode

end State

/-! ## The record of a run -/

/-- The frames that wait have nothing staged since they called, and a trace shows where they did. -/
inductive Called (program : Program) (prepared : List Staging) (trace : List State) :
    List Caller → Prop
  | nil : Called program prepared trace []
  | cons {caller : Caller} {site : State} :
      caller.frame.outgoing.Holds (staged program prepared trace site.callers.length) →
      entrance? (site.callers.length + 1) trace = some site → site.Suspends program caller →
      Called program prepared trace site.callers →
      Called program prepared trace (caller :: site.callers)

/-- What is staged in each frame of a run is what its history says. -/
structure Recorded (program : Program) (prepared : List Staging) (trace : List State)
    (state : State) : Prop where
  holds : state.frame.outgoing.Holds (staged program prepared trace state.callers.length)
  called : Called program prepared trace state.callers

section Records

variable {program : Program} {prepared : List Staging} {trace : List State} {state : State}
  {machine : Machine} {frame : Frame} {callers : List Caller} {value : Value}

/-- A step does not concern the frames that wait. -/
theorem Called.step (called : Called program prepared trace callers)
    (h : callers.length ≤ state.callers.length) :
    Called program prepared (state :: trace) callers := by
  induction called with
  | nil => exact .nil
  | @cons caller site holds hentry suspends _ ih =>
    rw [List.length_cons] at h
    refine .cons ?_ ?_ suspends (ih (Nat.le_of_succ_le h))
    · rwa [staged_cons_of_lt h]
    · rwa [entrance?_cons_of_le h]

theorem Frame.outgoing_of_unwind {caught : Bool} {result : Frame}
    (h : frame.unwind value = (caught, result)) : result.outgoing = frame.outgoing := by
  unfold unwind at h
  split at h
  · cases h
    rfl
  · cases h
    rfl

/-- A value that is thrown may pass frames, and changes nothing that is staged. -/
theorem recorded_throw (holds : frame.outgoing.Holds (staged program prepared trace callers.length))
    (called : Called program prepared trace callers) (machine : Machine) (value : Value) :
    (State.throw machine frame value callers).Satisfies (Recorded program prepared trace)
      fun _ ↦ True := by
  induction called generalizing machine frame with
  | nil =>
    unfold State.throw
    split
    · next result hunwind => exact ⟨Frame.outgoing_of_unwind hunwind ▸ holds, .nil⟩
    · trivial
  | cons hcaller hentry suspends houter ih =>
    unfold State.throw
    split
    · next result hunwind =>
      exact ⟨Frame.outgoing_of_unwind hunwind ▸ holds, .cons hcaller hentry suspends houter⟩
    · exact ih hcaller _

/-- A value that is returned goes to a frame with nothing staged. -/
theorem recorded_leave (called : Called program prepared trace callers) (machine : Machine)
    (frame : Frame) (value : Value) :
    (State.leave machine frame callers value).Satisfies (Recorded program prepared trace)
      fun _ ↦ True := by
  cases called with
  | nil => trivial
  | @cons caller site hcaller hentry suspends houter =>
    unfold State.leave
    dsimp only
    split
    · next resumed hresume =>
      obtain ⟨registers, rfl⟩ := (caller.resume_eq value).of_ok hresume
      exact ⟨hcaller, houter⟩
    · trivial

end Records

/-! ## Frames of callees -/

namespace State

variable {program : Program} {state site next : State} {destination : UInt8}
  {callee receiver value : Value} {index : Nat} {arguments : List Value}

/-- A function has been entered from a call: its frame has what the call gives it, and nothing else.
-/
structure Enters (program : Program) (state : State) (destination : UInt8) (index : Nat)
    (receiver : Value) (arguments : List Value) (next : State) : Prop where
  entry_eq : ∃ function, program.functions[index]? = some function ∧
    next.frame.pc = function.entry.toNat
  arguments_eq : next.frame.arguments = arguments
  receiver_eq : next.frame.receiver = receiver
  moduleObject_eq : next.frame.moduleObject = state.frame.moduleObject
  registers_eq : next.frame.registers = Vector.replicate registerCount .null
  stack_eq : next.frame.stack = #[]
  scratch_eq : next.frame.scratch = #[]
  outgoing_eq : next.frame.outgoing = {}
  tries_eq : next.frame.tries = []
  callers_eq : ∃ opcode, next.callers = ⟨state.calling opcode, destination⟩ :: state.callers

/-- A frame goes on after its call, as it was before but for the result: nothing is staged, and the
place and the opcode have changed. -/
structure Resumes (site : State) (destination : UInt8) (value : Value) (next : State) : Prop where
  register_eq : next.frame.register destination = .ok value
  frame_eq : ∃ opcode, next.frame =
    { site.frame.assigned destination value with outgoing := {}, opcode }
  callers_eq : next.callers = site.callers

/-- A host function has answered a call, or has failed and ended the run, which has what it left. -/
def Answers (program : Program) (state : State) (destination : UInt8) (name : String) :
    Except NativeError NativeResult → Prop
  | .ok ⟨.ok value, heap, output⟩ => ∃ next, state.step program = .running next ∧
      state.Resumes destination value next ∧ next.machine = { state.counted with heap, output }
  | .ok ⟨.error cause, heap, output⟩ => ∃ outcome, state.step program = .ended outcome ∧
      outcome.result = .error (.native name cause) ∧ outcome.machine.heap = heap ∧
      outcome.machine.output = output
  | .error cause => ∃ outcome, state.step program = .ended outcome ∧
      outcome.result = .error (.native name cause)

/-- The frame that a function begins with. -/
def entryFrame (options : Options) (function : Function) (receiver moduleObject : Value)
    (arguments : List Value) : Frame where
  arguments
  maxStack := options.limits.maxStackDepth
  maxScratch := options.limits.maxScratchSlots
  receiver
  moduleObject
  pc := function.entry.toNat

theorem calleeFrame_eq (machine : Machine) {function : Function} {moduleObject : Value}
    (hfunction : program.functions[index]? = some function)
    (hdepth : machine.depth < machine.options.limits.maxCallDepth)
    (hscratch : machine.options.scratchInitialCapacity * Frame.slotSize ≤ 2 ^ 63 - 1)
    (harguments : arguments.length ≤ maxArguments) :
    calleeFrame program machine index receiver moduleObject arguments =
      .ok (entryFrame machine.options function receiver moduleObject arguments) := by
  unfold calleeFrame Frame.new Frame.withArguments
  rw [hfunction]
  dsimp only
  rw [if_neg (Nat.not_le_of_lt hdepth), if_neg (Nat.not_lt.2 hscratch)]
  dsimp only [bind, Except.bind]
  rw [if_neg (Nat.not_lt.2 harguments)]
  rfl

theorem of_calleeFrame_eq_ok {machine : Machine} {moduleObject : Value} {entered : Frame}
    (h : calleeFrame program machine index receiver moduleObject arguments = .ok entered) :
    ∃ function, program.functions[index]? = some function ∧
      entered = entryFrame machine.options function receiver moduleObject arguments := by
  unfold calleeFrame at h
  split at h
  · cases h
  · next function hfunction =>
    dsimp only at h
    split at h
    · cases h
    · obtain ⟨made, hmade, h⟩ := bind_eq_ok_iff.1 h
      obtain ⟨filled, hfilled, h⟩ := bind_eq_ok_iff.1 h
      unfold Frame.new at hmade
      unfold Frame.withArguments at hfilled
      split at hmade
      · cases hmade
      · split at hfilled
        · cases hfilled
        · cases hmade
          cases hfilled
          cases h
          exact ⟨function, hfunction, rfl⟩

/-! ## Calls that reach their callee -/

theorem resume_calling (state : State) (h : destination.toNat < registerCount) (opcode : UInt8)
    (value : Value) :
    Caller.resume ⟨state.calling opcode, destination⟩ value =
      .ok { state.frame.assigned destination value with outgoing := {}, opcode } := by
  unfold Caller.resume Frame.setRegister
  rw [if_pos h]
  rfl

theorem resumes_assigned (h : destination.toNat < registerCount) (opcode : UInt8) (value : Value)
    (machine : Machine) :
    site.Resumes destination value
      ⟨machine, { site.frame.assigned destination value with outgoing := {}, opcode },
        site.callers⟩ :=
  ⟨Frame.register_assigned h value, ⟨opcode, rfl⟩, rfl⟩

/-- A function that is entered has what was staged. -/
theorem Invokes.enters (invokes : state.Invokes program destination callee receiver)
    (hindex : functionIndex? callee = some index) (hstep : state.step program = .running next) :
    state.Enters program destination index receiver state.frame.outgoing.arguments next := by
  obtain ⟨-, -, opcode, hcall⟩ := invokes.step_eq
  simp only [hcall, call, hindex] at hstep
  split at hstep
  · next entered hentered =>
    obtain ⟨function, hfunction, rfl⟩ := of_calleeFrame_eq_ok hentered
    cases hstep
    exact ⟨⟨function, hfunction, rfl⟩, rfl, rfl, rfl, rfl, rfl, rfl, rfl, rfl, opcode, rfl⟩
  · cases hstep

/-- A function that exists is entered, unless calls nest too deep or scratch slots take too much. -/
theorem Invokes.exists_step (invokes : state.Invokes program destination callee receiver)
    (hindex : functionIndex? callee = some index) (hsize : index < program.functions.size)
    (hdepth : state.machine.depth < state.machine.options.limits.maxCallDepth)
    (hscratch : state.machine.options.scratchInitialCapacity * Frame.slotSize ≤ 2 ^ 63 - 1)
    (harguments : state.frame.outgoing.arguments.length ≤ maxArguments) :
    ∃ next, state.step program = .running next := by
  obtain ⟨-, -, opcode, hcall⟩ := invokes.step_eq
  have hfunction := Array.getElem?_eq_getElem hsize
  simp only [hcall, call, hindex,
    calleeFrame_eq state.counted hfunction hdepth hscratch harguments]
  exact ⟨_, rfl⟩

/-- A host function has what was staged. -/
theorem Invokes.answers {id : UInt32} {name : String} {function : Native}
    (invokes : state.Invokes program destination (.native id) receiver)
    (hnative : state.machine.natives.get? id = some (name, function)) :
    state.Answers program destination name (function
      ⟨state.machine.heap, receiver, state.frame.outgoing.arguments, state.machine.output⟩) := by
  obtain ⟨hdestination, -, opcode, hcall⟩ := invokes.step_eq
  have hnative : state.counted.natives.get? id = _ := hnative
  simp only [call, functionIndex?, Machine.callNative, hnative] at hcall
  cases hanswer : function
      ⟨state.machine.heap, receiver, state.frame.outgoing.arguments, state.machine.output⟩ with
  | ok result =>
    obtain ⟨answer, heap, output⟩ := result
    have hanswer : function ⟨state.counted.heap, _, _, state.counted.output⟩ = _ := hanswer
    cases answer with
    | ok value =>
      simp only [hanswer, Except.mapError, resume_calling state hdestination] at hcall
      exact ⟨_, hcall, resumes_assigned hdestination _ _ _, rfl⟩
    | error cause =>
      simp only [hanswer, Except.mapError] at hcall
      exact ⟨_, hcall, rfl, rfl, rfl⟩
  | error cause =>
    have hanswer : function ⟨state.counted.heap, _, _, state.counted.output⟩ = _ := hanswer
    simp only [hanswer] at hcall
    exact ⟨_, hcall, rfl⟩

end State

/-! ## Runs -/

/-- The ways to set a machine to work, which are those of `Starts`, with what the host has prepared
about arguments in the frame that it begins with. -/
inductive Prepares (program : Program) (machine : Machine) : List Staging → Progress → Prop
  | run : Prepares program machine [] (machine.run program)
  | call (name : String) (arguments : List Value) :
      Prepares program machine [] (machine.call program name arguments)
  | function (index : Nat) (receiver : Value) (arguments : List Value) :
      Prepares program machine [] (machine.callFunction program index receiver arguments)
  | execute {frame : Frame} {prepared : List Staging} : frame.outgoing.Holds prepared →
      Prepares program machine prepared (machine.enter frame)

section Runs

variable {program : Program} {machine : Machine} {prepared : List Staging} {trace : List State}
  {start progress : Progress} {state : State}

theorem recorded_enter (machine : Machine) {frame : Frame} (holds : frame.outgoing.Holds prepared) :
    (machine.enter frame).Satisfies (Recorded program prepared []) fun _ ↦ True := by
  unfold Machine.enter
  split
  · trivial
  · exact ⟨holds, .nil⟩

/-- A frame that is made for a run has nothing staged. -/
theorem recorded_enter_of_eq (machine : Machine) {frame : Frame} (h : frame.outgoing = {}) :
    (machine.enter frame).Satisfies (Recorded program [] []) fun _ ↦ True :=
  recorded_enter machine (h ▸ ArgumentBuffer.holds_nil)

theorem recorded_callFunction (program : Program) (machine : Machine) (index : Nat)
    (receiver : Value) (arguments : List Value) :
    (machine.callFunction program index receiver arguments).Satisfies (Recorded program [] [])
      fun _ ↦ True := by
  unfold Machine.callFunction
  dsimp only
  split
  · next frame hframe =>
    obtain ⟨function, -, rfl⟩ := State.of_calleeFrame_eq_ok hframe
    exact recorded_enter_of_eq _ rfl
  · trivial

theorem Prepares.recorded (prepares : Prepares program machine prepared start) :
    start.Satisfies (Recorded program prepared []) fun _ ↦ True := by
  cases prepares with
  | run =>
    unfold Machine.run
    split
    · trivial
    · split
      · exact recorded_callFunction _ _ _ _ _
      · split
        · trivial
        · dsimp only [Frame.new]
          split
          · next frame hframe =>
            split at hframe
            · cases hframe
            · cases hframe
              exact recorded_enter_of_eq _ rfl
          · trivial
  | call name arguments =>
    unfold Machine.call
    split
    · exact recorded_callFunction _ _ _ _ _
    · trivial
  | function index receiver arguments => exact recorded_callFunction _ _ _ _ _
  | execute holds => exact recorded_enter machine holds

namespace Recorded

variable (recorded : Recorded program prepared trace state)

include recorded

/-- The frame that calls has nothing staged in the end, and it is the last frame that waits if a
function has been entered. -/
theorem call {destination : UInt8} {callee receiver : Value}
    (invokes : state.Invokes program destination callee receiver) :
    (state.step program).Satisfies (Recorded program prepared (state :: trace)) fun _ ↦ True := by
  obtain ⟨hdestination, hstaging, opcode, hcall⟩ := invokes.step_eq
  have hcalled : Called program prepared (state :: trace) state.callers :=
    recorded.called.step (Nat.le_refl _)
  have hemptied : ({} : ArgumentBuffer).Holds
      (staged program prepared (state :: trace) state.callers.length) := by
    rw [staged_cons_self, hstaging]
    exact ArgumentBuffer.holds_call _
  rw [hcall]
  unfold State.call
  split
  · next index hindex =>
    split
    · next entered hentered =>
      obtain ⟨function, -, rfl⟩ := State.of_calleeFrame_eq_ok hentered
      refine ⟨?_, .cons hemptied (entrance?_cons_of_lt (Nat.lt_succ_self _)) ?_ hcalled⟩
      · rw [List.length_cons, staged_cons_of_gt (Nat.lt_succ_self _)]
        exact ArgumentBuffer.holds_nil
      · exact ⟨⟨_, receiver, index, invokes, hindex⟩, opcode, rfl⟩
    · trivial
  · split
    · rw [State.resume_calling state hdestination]
      exact ⟨hemptied, hcalled⟩
    · trivial
  · trivial

/-- A step adds to the history of the frame that takes it what the step does about arguments. -/
theorem step :
    (state.step program).Satisfies (Recorded program prepared (state :: trace)) fun _ ↦ True := by
  have hcalled : Called program prepared (state :: trace) state.callers :=
    recorded.called.step (Nat.le_refl _)
  have htransition := state.transition_step program
  generalize hstep : state.step program = progress at htransition
  cases htransition with
  | exhausted | unfetched | failed => trivial
  | @executed frame op operands effect hdispatch hexecute =>
    have houtgoing : frame.outgoing = state.frame.outgoing := by
      obtain ⟨opcode, rfl⟩ := State.of_fetch_eq hdispatch.fetched
      rfl
    have holds := recorded.holds
    rw [← houtgoing] at holds
    have hstages := (execute_stages holds op operands).of_ok hexecute
    rw [← hdispatch.staging?_eq, ← staged_cons_self] at hstages
    -- An instruction that says nothing about arguments leaves the history as it is.
    have hkept (h : frame.staging? op operands = none) :
        frame.outgoing.Holds (staged program prepared (state :: trace) state.callers.length) := by
      rwa [staged_cons_self, hdispatch.staging?_eq, h]
    have hacts := hdispatch.behaves.of_ok hexecute
    cases effect with
    | next machine result => exact ⟨hstages, hcalled⟩
    | jump result target => exact ⟨hstages, hcalled⟩
    | leave value => exact recorded_leave hcalled _ frame value
    | throw value =>
      obtain rfl : op = .throw := by
        cases hacts
        assumption
      exact recorded_throw (hkept rfl) hcalled _ value
    | call result destination callee receiver arguments =>
      exact hstep ▸ recorded.call (hdispatch.invokes hexecute)
    | wait =>
      obtain rfl : op = .lock := by
        cases hacts
        assumption
      exact ⟨houtgoing ▸ hkept rfl, hcalled⟩

/-- A frame that returns goes back to the frame that entered it. -/
theorem returns {value : Value} (returns : state.Returns program value) (h : state.callers ≠ []) :
    ∃ site destination callee receiver index, entrance? state.callers.length trace = some site ∧
      site.Invokes program destination callee receiver ∧
      State.functionIndex? callee = some index ∧
      ∃ next, state.step program = .running next ∧ site.Resumes destination value next := by
  obtain ⟨hdispatch, hexecute⟩ := returns
  have hcalled := recorded.called
  rw [hdispatch.step_eq, hexecute]
  dsimp only [State.proceed]
  generalize state.callers = callers at hcalled h ⊢
  cases hcalled with
  | nil => exact absurd rfl h
  | @cons caller site _ hentry suspends _ =>
    obtain ⟨⟨callee, receiver, index, invokes, hindex⟩, opcode, hframe⟩ := suspends
    obtain ⟨hdestination, -⟩ := invokes.step_eq
    have hresume := State.resume_calling site hdestination opcode value
    rw [← hframe] at hresume
    refine ⟨site, caller.destination, callee, receiver, index, hentry, invokes, hindex, ?_⟩
    simp only [State.leave, hresume]
    exact ⟨_, rfl, State.resumes_assigned hdestination opcode value _⟩

end Recorded

theorem Traces.recorded (traces : Traces program start trace progress)
    (prepares : Prepares program machine prepared start) :
    progress.Satisfies (Recorded program prepared trace) fun _ ↦ True :=
  traces.satisfies prepares.recorded (fun _ _ recorded ↦ recorded.step)
    fun _ _ _ recorded ↦ ⟨recorded.holds, recorded.called⟩

/-- Calls deliver what was staged. A function that the next instruction of a run enters begins with
nothing but the arguments that follow from the history of the frame that calls, the receiver of the
call and the module object of that frame; it is entered if it exists, calls nest no deeper than they
may, and the scratch slots set aside for it can be. A host function receives the same arguments. And
when a call returns, the frame that called goes on as it was before, but for the register that has
the result, the opcode, the next place, and that nothing is staged. -/
theorem staged_arguments_delivered (prepares : Prepares program machine prepared start)
    (traces : Traces program start trace (.running state)) :
    (∀ destination callee receiver, state.Invokes program destination callee receiver →
      (∀ index, State.functionIndex? callee = some index →
        (∀ next, state.step program = .running next →
          state.Enters program destination index receiver
            (Staging.arguments (staged program prepared trace state.callers.length)) next) ∧
          (index < program.functions.size →
            state.machine.depth < state.machine.options.limits.maxCallDepth →
            state.machine.options.scratchInitialCapacity * Frame.slotSize ≤ 2 ^ 63 - 1 →
            ∃ next, state.step program = .running next)) ∧
        ∀ id name function, callee = .native id →
          state.machine.natives.get? id = some (name, function) →
          state.Answers program destination name
            (function ⟨state.machine.heap, receiver,
              Staging.arguments (staged program prepared trace state.callers.length),
              state.machine.output⟩)) ∧
      ∀ value, state.Returns program value → state.callers ≠ [] →
        ∃ site destination callee receiver index, entrance? state.callers.length trace = some site ∧
          site.Invokes program destination callee receiver ∧
          State.functionIndex? callee = some index ∧
          ∃ next, state.step program = .running next ∧ site.Resumes destination value next := by
  have recorded : Recorded program prepared trace state := traces.recorded prepares
  have harguments := recorded.holds.arguments_eq
  refine ⟨fun destination callee receiver invokes ↦ ?_, fun value ↦ recorded.returns⟩
  rw [← harguments]
  refine ⟨fun index hindex ↦ ⟨fun next ↦ invokes.enters hindex, fun hsize hdepth hscratch ↦ ?_⟩, ?_⟩
  · refine invokes.exists_step hindex hsize hdepth hscratch ?_
    rw [harguments, Staging.length_arguments, ← recorded.holds.reserved_eq]
    exact recorded.holds.reserved_le
  · rintro id name function rfl hnative
    exact invokes.answers hnative

end Runs

/-- The main function stages an argument, reserves anew, sets a slot twice, and calls a function,
which returns what that slot had. -/
def restaging : Program where
  name := "restaging"
  code := #[
    Instruction.encode ⟨Opcode.declareFunction.byte, .immReg 0 1⟩,
    Instruction.encode ⟨Opcode.reserveArgs.byte, .imm 3⟩,
    Instruction.encode ⟨Opcode.setArg.byte, .immReg 0 0⟩,
    Instruction.encode ⟨Opcode.reserveArgs.byte, .imm 2⟩,
    Instruction.encode ⟨Opcode.setArg.byte, .immReg 0 1⟩,
    Instruction.encode ⟨Opcode.loadInt.byte, .immReg 1 9⟩,
    Instruction.encode ⟨Opcode.setArg.byte, .immReg 1 1⟩,
    Instruction.encode ⟨Opcode.localCall.byte, .regs2 2 0⟩,
    Instruction.encode ⟨Opcode.returnValue.byte, .regs1 2⟩,
    Instruction.encode ⟨Opcode.loadArg.byte, .immReg 3 1⟩,
    Instruction.encode ⟨Opcode.returnValue.byte, .regs1 3⟩]
  functions := #[⟨"main", 0, 0⟩, ⟨"second", 9, 2⟩]

/-- The first slot is null again, the second has what was set last, and the caller gets it back. -/
theorem staged_arguments_delivered_restaging :
    (∃ state next, ((Machine.run {} restaging).follow restaging 7 []).2 = .running state ∧
        state.step restaging = .running next ∧ next.frame.arguments = [.null, .int 9]) ∧
      ∃ state site destination next,
        ((Machine.run {} restaging).follow restaging 9 []).2 = .running state ∧
          state.step restaging = .running next ∧ State.Resumes site destination (.int 9) next ∧
          next.frame.pc = 8 := by
  have prepares : Prepares restaging {} [] (Machine.run {} restaging) := .run
  have traces (count : Nat) : Traces restaging (Machine.run {} restaging) _ _ :=
    Traces.refl.follow count
  have hcalls : ((Machine.run {} restaging).follow restaging 7 []).2.state?.any (fun state ↦
      State.exhausted? state.machine = none ∧
        (State.fetch restaging state.frame).2.toOption = some (.localCall, .regs2 2 0) ∧
        ((State.fetch restaging state.frame).1.register 0).toOption = some (.function 1) ∧
        state.machine.depth < state.machine.options.limits.maxCallDepth ∧
        state.machine.options.scratchInitialCapacity * Frame.slotSize ≤ 2 ^ 63 - 1 ∧
        Staging.arguments (staged restaging [] ((Machine.run {} restaging).follow restaging 7 []).1
          state.callers.length) = [.null, .int 9]) = true := by
    decide +kernel
  have hreturns : ((Machine.run {} restaging).follow restaging 9 []).2.state?.any (fun state ↦
      State.exhausted? state.machine = none ∧ state.callers ≠ [] ∧
        (State.fetch restaging state.frame).2.toOption = some (.returnValue, .regs1 3) ∧
        ((State.fetch restaging state.frame).1.register 3).toOption = some (.int 9) ∧
        (entrance? state.callers.length ((Machine.run {} restaging).follow restaging 9 []).1).map
          (·.frame.pc) = some 7) = true := by
    decide +kernel
  constructor
  · obtain ⟨state, hstate, hplace⟩ := (Option.any_eq_true _ _).1 hcalls
    rw [Progress.state?_eq_some_iff] at hstate
    simp only [decide_eq_true_eq] at hplace
    obtain ⟨hallowed, hfetched, hregister, hdepth, hscratch, harguments⟩ := hplace
    have hdispatch : State.Dispatches restaging state _ .localCall (.regs2 2 0) :=
      ⟨hallowed, Prod.ext rfl (eq_ok_of_toOption hfetched)⟩
    have invokes : state.Invokes restaging 2 (.function 1) .null :=
      .function hdispatch (eq_ok_of_toOption hregister)
    have htraces := hstate ▸ traces 7
    obtain ⟨henters, hreaches⟩ :=
      ((staged_arguments_delivered prepares htraces).1 _ _ _ invokes).1 1 rfl
    obtain ⟨next, hstep⟩ := hreaches (by decide) hdepth hscratch
    exact ⟨state, next, hstate, hstep, (henters next hstep).arguments_eq.trans harguments⟩
  · obtain ⟨state, hstate, hplace⟩ := (Option.any_eq_true _ _).1 hreturns
    rw [Progress.state?_eq_some_iff] at hstate
    simp only [decide_eq_true_eq] at hplace
    obtain ⟨hallowed, hcallers, hfetched, hregister, hsite⟩ := hplace
    have hvalue := eq_ok_of_toOption hregister
    have returns : state.Returns restaging (.int 9) := by
      refine ⟨⟨hallowed, Prod.ext rfl (eq_ok_of_toOption hfetched)⟩, ?_⟩
      exact bind_eq_ok_iff.2 ⟨_, hvalue, rfl⟩
    have htraces := hstate ▸ traces 9
    obtain ⟨site, destination, _, _, _, hentry, _, _, next, hstep, hresumes⟩ :=
      (staged_arguments_delivered prepares htraces).2 _ returns hcallers
    obtain ⟨opcode, hframe⟩ := hresumes.frame_eq
    rw [hentry] at hsite
    have hpc : next.frame.pc = 8 := by
      rw [hframe]
      exact congrArg (· + 1) (Option.some.inj hsite)
    exact ⟨state, site, destination, next, hstate, hstep, hresumes, hpc⟩

end RegisterMachine

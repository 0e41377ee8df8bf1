import RegisterMachine.Proofs.Machine.Metered

/-!
# Thrown values reach the right handler

A thrown value goes to the innermost active frame that has an open try context with a catch, there
to the innermost such context, and of that to the catch registered first. Contexts without a catch,
whether they have a finalizer or not, are passed over, and so are frames without such a context,
which end. `Route` describes the way without reference to how it is found. What the contexts record
is said by `TryContext.Change`: which of them were open, at which depth of the stack they were
opened, and in which order their catches were added.
-/

namespace RegisterMachine

/-! ## Routes -/

/-- Some open context of a frame has a catch. -/
def Frame.Catches (frame : Frame) : Prop :=
  ∃ context ∈ frame.tries, context.catches ≠ []

/-- The way of a thrown value through active frames, the innermost first. It passes the frames above
the one that catches it and does not come to those below. In that frame it passes the inner
contexts, opened later than the one that catches it, and does not come to the outer ones. -/
structure Route where
  above : List Frame
  catcher : Frame
  below : List Frame
  inner : List TryContext
  context : TryContext
  outer : List TryContext
  handler : CatchHandler
  above_passed : ∀ frame ∈ above, ¬ frame.Catches
  tries_eq : catcher.tries = inner ++ context :: outer
  inner_passed : ∀ other ∈ inner, other.catches = []
  handler_first : context.catches.head? = some handler

/-- The active frames, the innermost first. -/
def Route.frames (route : Route) : List Frame :=
  route.above ++ route.catcher :: route.below

namespace Frame

variable {frame : Frame} {value : Value}

/-! ## One frame -/

theorem not_catches_iff : ¬ frame.Catches ↔ ∀ context ∈ frame.tries, context.catches = [] := by
  simp [Catches]

theorem handler?_of_passed {tries : List TryContext}
    (h : ∀ context ∈ tries, context.catches = []) : handler? tries = none := by
  induction tries with
  | nil => rfl
  | cons context outer ih =>
    rw [handler?, h context List.mem_cons_self]
    exact ih fun other hother ↦ h other (List.mem_cons_of_mem context hother)

theorem handler?_append {inner outer : List TryContext} {context : TryContext}
    {handler : CatchHandler} (hinner : ∀ other ∈ inner, other.catches = [])
    (hfirst : context.catches.head? = some handler) :
    handler? (inner ++ context :: outer) = some (handler, context.stackDepth, outer) := by
  induction inner with
  | nil =>
    obtain ⟨rest, hcatches⟩ := List.head?_eq_some_iff.1 hfirst
    rw [List.nil_append, handler?, hcatches]
  | cons other rest ih =>
    rw [List.cons_append, handler?, hinner other List.mem_cons_self]
    exact ih fun further hfurther ↦ hinner further (List.mem_cons_of_mem other hfurther)

theorem unwind_of_not_catches (h : ¬ frame.Catches) :
    frame.unwind value = (false, { frame with tries := [] }) := by
  rw [unwind, handler?_of_passed (not_catches_iff.1 h)]

end Frame

namespace Route

theorem catcher_mem (route : Route) : route.catcher ∈ route.frames := by
  simp [frames]

/-- The frame that has caught a value. -/
def landing (route : Route) (value : Value) : Frame :=
  { route.catcher with
    tries := route.outer
    stack := route.catcher.stack.take route.context.stackDepth
    registers := route.catcher.registers.setIfInBounds route.handler.register.toNat value
    pc := route.handler.target }

theorem unwind_catcher (route : Route) (value : Value) :
    route.catcher.unwind value = (true, route.landing value) := by
  rw [Frame.unwind, route.tries_eq, Frame.handler?_append route.inner_passed route.handler_first]
  rfl

end Route

/-- The innermost context with a catch, if there is any. -/
theorem TryContext.exists_first (tries : List TryContext) :
    (∀ context ∈ tries, context.catches = []) ∨
      ∃ inner context outer handler, tries = inner ++ context :: outer ∧
        (∀ other ∈ inner, other.catches = []) ∧ context.catches.head? = some handler := by
  induction tries with
  | nil => exact .inl (List.forall_mem_nil _)
  | cons context outer ih =>
    cases hcatches : context.catches with
    | cons handler rest =>
      have hfirst : context.catches.head? = some handler := by rw [hcatches, List.head?_cons]
      exact .inr ⟨[], context, outer, handler, rfl, List.forall_mem_nil _, hfirst⟩
    | nil =>
      rcases ih with hnone | ⟨inner, found, rest, handler, rfl, hinner, hfirst⟩
      · exact .inl (List.forall_mem_cons.2 ⟨hcatches, hnone⟩)
      · exact .inr ⟨context :: inner, found, rest, handler, rfl,
          List.forall_mem_cons.2 ⟨hcatches, hinner⟩, hfirst⟩

/-- Either nothing catches a value, or there is a way to what does. -/
theorem Route.exists_or (frames : List Frame) :
    (∀ frame ∈ frames, ¬ frame.Catches) ∨ ∃ route : Route, route.frames = frames := by
  induction frames with
  | nil => exact .inl (List.forall_mem_nil _)
  | cons frame below ih =>
    rcases TryContext.exists_first frame.tries with
      hnone | ⟨inner, context, outer, handler, htries, hinner, hfirst⟩
    · have hframe : ¬ frame.Catches := Frame.not_catches_iff.2 hnone
      rcases ih with hbelow | ⟨route, hroute⟩
      · exact .inl (List.forall_mem_cons.2 ⟨hframe, hbelow⟩)
      · let further : Route := { route with
          above := frame :: route.above
          above_passed := List.forall_mem_cons.2 ⟨hframe, route.above_passed⟩ }
        exact .inr ⟨further, congrArg (frame :: ·) hroute⟩
    · let route : Route := {
        above := [], catcher := frame, below, inner, context, outer, handler
        above_passed := List.forall_mem_nil _
        tries_eq := htries
        inner_passed := hinner
        handler_first := hfirst }
      exact .inr ⟨route, rfl⟩

namespace State

variable {program : Program} {machine : Machine} {frame : Frame} {callers : List Caller}
  {value : Value}

/-! ## All frames -/

/-- A value that no frame catches ends them all. -/
theorem throw_of_passed (machine : Machine) (value : Value)
    (h : ∀ active ∈ frame :: callers.map (·.frame), ¬ active.Catches) :
    ∃ last, (frame :: callers.map (·.frame)).getLast? = some last ∧
      throw machine frame value callers = .ended {
        machine := leaveFrames machine (callers.length + 1)
        frames := [Frame.halt { last with tries := [] }]
        result := .error (.uncaught value) } := by
  induction callers generalizing machine frame with
  | nil =>
    have hframe := h frame List.mem_cons_self
    exact ⟨frame, rfl, by rw [throw, Frame.unwind_of_not_catches hframe]; rfl⟩
  | cons caller outer ih =>
    obtain ⟨hframe, houter⟩ := List.forall_mem_cons.1 h
    obtain ⟨last, hlast, hthrow⟩ := ih (leaveFrames machine 1) houter
    refine ⟨last, hlast, ?_⟩
    rw [throw, Frame.unwind_of_not_catches hframe]
    rw [hthrow, leaveFrames_leaveFrames]
    simp only [List.length_cons, Nat.add_comm]

/-- A value that is caught leaves the frames above the one that catches it. -/
theorem throw_of_route (route : Route)
    (h : route.frames = frame :: callers.map (·.frame)) :
    throw machine frame value callers =
      .running ⟨leaveFrames machine route.above.length, route.landing value,
        callers.drop route.above.length⟩ := by
  have hcaught := route.unwind_catcher value
  have hpassed := route.above_passed
  unfold Route.frames at h
  generalize route.above = above at h hpassed
  induction above generalizing machine frame callers with
  | nil =>
    obtain ⟨rfl, -⟩ := List.cons.inj h
    cases callers with
    | nil | cons =>
      rw [throw, hcaught]
      rfl
  | cons passed above ih =>
    obtain ⟨rfl, hcallers⟩ := List.cons.inj h
    obtain ⟨hframe, habove⟩ := List.forall_mem_cons.1 hpassed
    cases callers with
    | nil => simp at hcallers
    | cons caller outer =>
      rw [throw, Frame.unwind_of_not_catches hframe]
      rw [ih hcallers habove, leaveFrames_leaveFrames]
      simp only [List.length_cons, List.drop_succ_cons, Nat.add_comm]

/-! ## Steps that throw -/

/-- The next instruction of a run throws a value. -/
inductive Throws (program : Program) (state : State) (value : Value) : Prop
  | intro {frame : Frame} {operands : Operands} : Dispatches program state frame .throw operands →
      frame.register operands.a = .ok value → Throws program state value

/-- The active frames of a run, the innermost first, which has fetched its next instruction. -/
def active (program : Program) (state : State) : List Frame :=
  (fetch program state.frame).1 :: state.callers.map (·.frame)

/-- A thrown value passes a frame, which has so many frames above it: with nothing below that frame,
the run ends, the frame has ended, and the value is not caught. -/
def Passes (program : Program) (state : State) (value : Value) (count : Nat) (frame : Frame) :
    Prop :=
  ∃ outcome, State.step program { state with callers := state.callers.take count } =
      .ended outcome ∧
    outcome.frames = [Frame.halt { frame with tries := [] }] ∧
    outcome.result = .error (.uncaught value)

variable {state : State}

theorem Dispatches.throws {op : Opcode} {operands : Operands}
    (dispatches : Dispatches program state frame op operands)
    (h : execute program state.counted frame op operands = .ok (.throw value)) :
    state.Throws program value := by
  have hacts := dispatches.behaves.of_ok h
  obtain rfl : op = .throw := by
    cases hacts
    assumption
  have hthrow : Yields (fun effect ↦ effect = .throw value → state.Throws program value)
      (execute program state.counted frame .throw operands) := by
    refine Meets.bind (Yields.unconditional _) fun found hfound _ heffect ↦ ?_
    cases heffect
    exact ⟨dispatches, hfound⟩
  exact hthrow.of_ok h rfl

theorem Throws.step_eq (throws : state.Throws program value) :
    state.step program =
      throw state.counted (fetch program state.frame).1 value state.callers := by
  obtain @⟨frame, operands, hdispatch, hvalue⟩ := throws
  have hexecute : execute program state.counted frame .throw operands = .ok (.throw value) := by
    change (frame.register operands.a >>= fun found ↦ .ok (Effect.throw found)) = _
    rw [hvalue]
    rfl
  rw [hdispatch.step_eq, hdispatch.fetched, hexecute]
  rfl

/-- What an instruction does depends on no frame below. -/
theorem Throws.withCallers (throws : state.Throws program value) (callers : List Caller) :
    Throws program { state with callers } value := by
  obtain ⟨hdispatch, hvalue⟩ := throws
  exact ⟨⟨hdispatch.allowed, hdispatch.fetched⟩, hvalue⟩

theorem Throws.passes (throws : state.Throws program value) {count : Nat}
    (hpassed : ∀ active ∈ (state.active program).take (count + 1), ¬ active.Catches)
    (hframe : (state.active program)[count]? = some frame) :
    state.Passes program value count frame := by
  have hactive : (state.active program).take (count + 1) =
      (fetch program state.frame).1 :: (state.callers.take count).map (·.frame) := by
    rw [active, List.take_succ_cons, List.map_take]
  have hlast : ((state.active program).take (count + 1)).getLast? = some frame := by
    rw [List.getLast?_take, if_neg (Nat.succ_ne_zero count), Nat.add_sub_cancel, hframe]
    rfl
  rw [hactive] at hpassed hlast
  obtain ⟨last, hfound, hthrow⟩ := throw_of_passed state.counted value hpassed
  obtain rfl : last = frame := Option.some.inj (hfound.symm.trans hlast)
  refine ⟨_, (throws.withCallers (state.callers.take count)).step_eq.trans hthrow, rfl, rfl⟩

end State

/-! ## What open contexts record -/

/-- What an instruction that does not throw does to the open contexts of its frame, the innermost
first, when its stack has this depth: nothing; it opens one, which records the depth; it adds a
catch after those of the innermost one; or it closes that one. -/
inductive TryContext.Change (depth : Nat) : List TryContext → List TryContext → Prop
  | kept {tries : List TryContext} : Change depth tries tries
  | opened {tries : List TryContext} (finalizer : Option Nat) :
      Change depth tries ({ finalizer, stackDepth := depth } :: tries)
  | caught {innermost : TryContext} {outer : List TryContext} {handler : CatchHandler} :
      handler.register.toNat < registerCount →
      Change depth (innermost :: outer)
        ({ innermost with catches := innermost.catches ++ [handler] } :: outer)
  | closed {innermost : TryContext} {outer : List TryContext} :
      Change depth (innermost :: outer) outer

/-- Every catch of some contexts names a register that exists. -/
def TryContext.Armed (tries : List TryContext) : Prop :=
  ∀ context ∈ tries, ∀ handler ∈ context.catches, handler.register.toNat < registerCount

theorem Route.armed_outer {route : Route} (h : TryContext.Armed route.catcher.tries) :
    TryContext.Armed route.outer := by
  rw [route.tries_eq] at h
  exact fun context hcontext ↦ h context (List.mem_append_right _ (List.mem_cons_of_mem _ hcontext))

theorem Route.armed_handler {route : Route} (h : TryContext.Armed route.catcher.tries) :
    route.handler.register.toNat < registerCount := by
  rw [route.tries_eq] at h
  exact h route.context (by simp) route.handler (List.mem_of_head? route.handler_first)

theorem TryContext.Change.armed {depth : Nat} {tries after : List TryContext}
    (change : Change depth tries after) (armed : Armed tries) : Armed after := by
  cases change with
  | kept => exact armed
  | opened finalizer => exact List.forall_mem_cons.2 ⟨List.forall_mem_nil _, armed⟩
  | caught hregister =>
    obtain ⟨hinnermost, houter⟩ := List.forall_mem_cons.1 armed
    refine List.forall_mem_cons.2 ⟨fun handler hhandler ↦ ?_, houter⟩
    rcases List.mem_append.1 hhandler with hold | hnew
    · exact hinnermost handler hold
    · rwa [List.mem_singleton.1 hnew]
  | closed => exact (List.forall_mem_cons.1 armed).2

theorem Frame.change_of_endTry {frame result : Frame} {finalizer : Option Nat}
    (h : frame.endTry = .ok (finalizer, result)) :
    TryContext.Change frame.stack.size frame.tries result.tries := by
  unfold Frame.endTry at h
  split at h
  · cases h
  · next innermost outer htries =>
    cases h
    rw [htries]
    exact .closed

theorem Frame.change_of_addCatch {frame result : Frame} {register : UInt8} {target : Nat}
    (h : frame.addCatch register target = .ok result) :
    TryContext.Change frame.stack.size frame.tries result.tries := by
  unfold Frame.addCatch at h
  split at h
  · cases h
  · next hregister =>
    split at h
    · cases h
    · next innermost outer htries =>
      cases h
      rw [htries]
      exact .caught (Nat.lt_of_not_le hregister)

section Acts

variable {program : Program} {machine changed : Machine} {frame result : Frame} {op : Opcode}

theorem Acts.change_next (acts : Acts program machine frame op (.next changed result)) :
    TryContext.Change frame.stack.size frame.tries result.tries := by
  rcases acts.frame_reworks with hreworks | ⟨finalizer, rfl⟩ | ⟨register, target, hcatch⟩ | hclose
  · rw [hreworks.tries_eq]
    exact .kept
  · exact .opened finalizer
  · exact Frame.change_of_addCatch hcatch
  · exact Frame.change_of_endTry hclose

theorem Acts.change_jump {target : Nat}
    (acts : Acts program machine frame op (.jump result target)) :
    TryContext.Change frame.stack.size frame.tries result.tries := by
  cases acts with
  | jump => exact .kept
  | finalize h => exact Frame.change_of_endTry h

end Acts

/-- A caller that receives a value changes nothing but a register and its place. -/
theorem Caller.resume_eq (caller : Caller) (value : Value) :
    Yields (fun frame ↦ ∃ registers, frame =
      { caller.frame with registers, pc := caller.frame.pc + 1 }) (caller.resume value) := by
  unfold Caller.resume Frame.setRegister
  split
  · exact ⟨_, rfl⟩
  · trivial

namespace State

variable {program : Program} {machine : Machine} {frame : Frame} {callers : List Caller}
  {value : Value} {state next : State}

/-- What a step does to the open contexts of all frames, unless it throws. A function that is called
begins with none, and the frames that wait keep theirs, with their stacks. -/
inductive Onward (program : Program) (state next : State) : Prop
  | stays : next.callers = state.callers →
      TryContext.Change state.frame.stack.size state.frame.tries next.frame.tries →
      Onward program state next
  | enters {caller : Caller} : next.callers = caller :: state.callers →
      caller.frame.tries = state.frame.tries → caller.frame.stack = state.frame.stack →
      next.frame.tries = [] → Onward program state next
  | returns {caller : Caller} : state.callers = caller :: next.callers →
      next.frame.tries = caller.frame.tries → next.frame.stack = caller.frame.stack →
      Onward program state next
  | throws {value : Value} : state.Throws program value → Onward program state next

theorem onward_of_leave (h : leave machine frame state.callers value = .running next) :
    state.Onward program next := by
  unfold leave at h
  split at h
  · cases h
  · next caller outer hcallers =>
    split at h
    · next resumed hresume =>
      cases h
      obtain ⟨registers, rfl⟩ := (caller.resume_eq value).of_ok hresume
      exact .returns hcallers rfl rfl
    · cases h

theorem onward_of_call {destination : UInt8} {callee receiver : Value} {arguments : List Value}
    (htries : frame.tries = state.frame.tries) (hstack : frame.stack = state.frame.stack)
    (h : call program machine frame state.callers destination callee receiver arguments =
      .running next) : state.Onward program next := by
  unfold call at h
  split at h
  · split at h
    · next entered hentered =>
      cases h
      exact .enters rfl htries hstack ((calleeFrame_begins _ _ _ _).of_ok hentered).2
    · cases h
  · split at h
    · split at h
      · next resumed hresume =>
        cases h
        obtain ⟨registers, rfl⟩ := (Caller.resume_eq _ _).of_ok hresume
        refine .stays rfl ?_
        rw [← htries]
        exact .kept
      · cases h
    · cases h
  · cases h

theorem onward_of_step (h : state.step program = .running next) : state.Onward program next := by
  have htransition := transition_step program state
  rw [h] at htransition
  generalize hprogress : Progress.running next = progress at htransition
  cases htransition with
  | exhausted | unfetched | failed => cases hprogress
  | @executed frame op operands effect hdispatch hexecute =>
    have hacts := hdispatch.behaves.of_ok hexecute
    obtain ⟨opcode, hframe⟩ := of_fetch_eq hdispatch.fetched
    have htries : frame.tries = state.frame.tries := by rw [hframe]
    have hstack : frame.stack = state.frame.stack := by rw [hframe]
    cases effect with
    | next machine result =>
      cases hprogress
      have hchange := hacts.change_next
      rw [htries, hstack] at hchange
      exact .stays rfl hchange
    | jump result target =>
      cases hprogress
      have hchange := hacts.change_jump
      rw [htries, hstack] at hchange
      exact .stays rfl hchange
    | leave value => exact onward_of_leave hprogress.symm
    | throw value => exact .throws (hdispatch.throws hexecute)
    | call result destination callee receiver arguments =>
      obtain ⟨-, hresult, -⟩ := hacts.of_call
      refine onward_of_call ?_ ?_ hprogress.symm
      · rw [hresult]
        exact htries
      · rw [hresult]
        exact hstack
    | wait => cases hprogress

/-! ## Registers of catches -/

/-- Every catch of every frame of a run names a register that exists. -/
structure Armed (state : State) : Prop where
  frame_armed : TryContext.Armed state.frame.tries
  callers_armed : ∀ caller ∈ state.callers, TryContext.Armed caller.frame.tries

theorem Armed.active (armed : state.Armed) :
    ∀ frame ∈ state.active program, TryContext.Armed frame.tries := by
  obtain ⟨opcode, hfetched⟩ := fetch_fst program state.frame
  refine List.forall_mem_cons.2 ⟨?_, ?_⟩
  · rw [hfetched]
    exact armed.frame_armed
  · exact List.forall_mem_map.2 armed.callers_armed

theorem Throws.step_of_route (throws : state.Throws program value) {route : Route}
    (hroute : route.frames = state.active program) :
    state.step program = .running ⟨leaveFrames state.counted route.above.length,
      route.landing value, state.callers.drop route.above.length⟩ :=
  throws.step_eq.trans (throw_of_route route hroute)

theorem Throws.step_of_passed (throws : state.Throws program value)
    (h : ∀ frame ∈ state.active program, ¬ frame.Catches) :
    ∃ outcome, state.step program = .ended outcome ∧
      outcome.result = .error (.uncaught value) ∧
      ∀ frame ∈ outcome.frames, frame.halted = true := by
  obtain ⟨last, -, hthrow⟩ := throw_of_passed state.counted value h
  refine ⟨_, throws.step_eq.trans hthrow, rfl, fun frame hframe ↦ ?_⟩
  rw [List.mem_singleton.1 hframe]
  rfl

theorem Armed.step_running (armed : state.Armed) (h : state.step program = .running next) :
    next.Armed := by
  cases onward_of_step h with
  | stays hcallers hchange =>
    exact ⟨hchange.armed armed.frame_armed, hcallers ▸ armed.callers_armed⟩
  | enters hcallers htries hstack hnone =>
    constructor
    · rw [hnone]
      exact List.forall_mem_nil _
    · rw [hcallers]
      exact List.forall_mem_cons.2 ⟨htries ▸ armed.frame_armed, armed.callers_armed⟩
  | returns hcallers htries hstack =>
    have hbefore := armed.callers_armed
    rw [hcallers] at hbefore
    obtain ⟨hcaller, houter⟩ := List.forall_mem_cons.1 hbefore
    exact ⟨htries ▸ hcaller, houter⟩
  | throws hthrows =>
    rcases Route.exists_or (state.active program) with hpassed | ⟨route, hroute⟩
    · obtain ⟨outcome, hstep, -⟩ := hthrows.step_of_passed hpassed
      rw [hstep] at h
      cases h
    · rw [hthrows.step_of_route hroute] at h
      cases h
      have hcatcher := armed.active route.catcher (hroute ▸ route.catcher_mem)
      exact ⟨Route.armed_outer hcatcher, fun caller hcaller ↦
        armed.callers_armed caller (List.mem_of_mem_drop hcaller)⟩

end State

theorem Reaches.armed {program : Program} {start progress : Progress}
    (reached : Reaches program start progress)
    (begins : start.Satisfies State.Armed fun _ ↦ True) :
    progress.Satisfies State.Armed fun _ ↦ True := by
  apply reached.satisfies begins
  · intro state armed
    cases hstep : state.step program with
    | running next => exact armed.step_running hstep
    | waiting next => exact State.eq_of_step_eq_waiting hstep ▸ armed
    | ended outcome => trivial
  · exact fun state locks armed ↦ ⟨armed.frame_armed, armed.callers_armed⟩

/-! ## Beginnings -/

/-- The ways to set a machine to work, which are those of `Starts`: a frame to execute may come with
open contexts, but their catches are for registers that exist, since no other can be added. -/
inductive Launches (program : Program) (machine : Machine) : Progress → Prop
  | run : Launches program machine (machine.run program)
  | call (name : String) (arguments : List Value) :
      Launches program machine (machine.call program name arguments)
  | function (index : Nat) (receiver : Value) (arguments : List Value) :
      Launches program machine (machine.callFunction program index receiver arguments)
  | execute {frame : Frame} : TryContext.Armed frame.tries →
      Launches program machine (machine.enter frame)

section Beginnings

variable {program : Program} {machine : Machine} {start : Progress}

theorem Launches.starts (launches : Launches program machine start) :
    Starts program machine start := by
  cases launches with
  | run => exact .run
  | call name arguments => exact .call name arguments
  | function index receiver arguments => exact .function index receiver arguments
  | execute => exact .execute _

theorem armed_enter (machine : Machine) {frame : Frame} (h : TryContext.Armed frame.tries) :
    (machine.enter frame).Satisfies State.Armed fun _ ↦ True := by
  unfold Machine.enter
  split
  · trivial
  · exact ⟨h, List.forall_mem_nil _⟩

/-- A frame that is made for a run has no open context. -/
theorem armed_enter_of_eq_nil (machine : Machine) {frame : Frame} (h : frame.tries = []) :
    (machine.enter frame).Satisfies State.Armed fun _ ↦ True := by
  apply armed_enter
  rw [h]
  exact List.forall_mem_nil _

theorem armed_callFunction (program : Program) (machine : Machine) (index : Nat) (receiver : Value)
    (arguments : List Value) :
    (machine.callFunction program index receiver arguments).Satisfies State.Armed fun _ ↦ True := by
  unfold Machine.callFunction
  dsimp only
  split
  · next frame hframe =>
    exact armed_enter_of_eq_nil _ ((State.calleeFrame_begins _ _ _ _).of_ok hframe).2
  · trivial

theorem Launches.armed (launches : Launches program machine start) :
    start.Satisfies State.Armed fun _ ↦ True := by
  cases launches with
  | run =>
    unfold Machine.run
    split
    · trivial
    · split
      · exact armed_callFunction _ _ _ _ _
      · split
        · trivial
        · dsimp only
          split
          · next frame hframe =>
            exact armed_enter_of_eq_nil _ ((State.new_begins _ _).of_ok hframe).2
          · trivial
  | call name arguments =>
    unfold Machine.call
    split
    · exact armed_callFunction _ _ _ _ _
    · trivial
  | function index receiver arguments => exact armed_callFunction _ _ _ _ _
  | execute h => exact armed_enter machine h

end Beginnings

/-! ## Runs -/

/-- A thrown value has been delivered along a route: to its register and place, in the frame that
catches it, with the contexts and the part of the stack that are older than the one that has the
catch. The frames above have ended, those below still wait. -/
structure State.Delivers (program : Program) (state : State) (value : Value) (route : Route)
    (next : State) : Prop where
  register_eq : next.frame.register route.handler.register = .ok value
  register_ne : ∀ index, index ≠ route.handler.register →
    next.frame.register index = route.catcher.register index
  pc_eq : next.frame.pc = route.handler.target
  tries_eq : next.frame.tries = route.outer
  stack_prefix : next.frame.stack.toList <+: route.catcher.stack.toList
  stack_size : next.frame.stack.size = min route.catcher.stack.size route.context.stackDepth
  scratch_eq : next.frame.scratch = route.catcher.scratch
  arguments_eq : next.frame.arguments = route.catcher.arguments
  receiver_eq : next.frame.receiver = route.catcher.receiver
  moduleObject_eq : next.frame.moduleObject = route.catcher.moduleObject
  active : next.frame.halted = false
  machine_eq : next.machine = State.leaveFrames state.counted route.above.length
  callers_suffix : next.callers <:+ state.callers
  below_eq : next.callers.map (·.frame) = route.below
  above_halted : ∀ count frame, route.above[count]? = some frame →
    state.Passes program value count frame

section Runs

variable {program : Program} {machine : Machine} {start : Progress} {state : State} {value : Value}
  {route : Route}

theorem Route.landing_register (h : route.handler.register.toNat < registerCount) :
    (route.landing value).register route.handler.register = .ok value := by
  simp [Frame.register, landing, h]

theorem Route.landing_register_ne {index : UInt8} (h : index ≠ route.handler.register) :
    (route.landing value).register index = route.catcher.register index := by
  have hne : route.handler.register.toNat ≠ index.toNat := fun heq ↦ h (UInt8.toNat_inj.1 heq.symm)
  simp [Frame.register, landing, hne]

theorem State.Nested.active_frames {depth : Nat} (nested : state.Nested program depth) :
    ∀ frame ∈ state.active program, frame.halted = false := by
  obtain ⟨opcode, hfetched⟩ := State.fetch_fst program state.frame
  refine List.forall_mem_cons.2 ⟨?_, ?_⟩
  · rw [hfetched]
    exact nested.active
  · exact List.forall_mem_map.2 fun caller hcaller ↦ (nested.callers_wait caller hcaller).active

/-- A value that can be caught is delivered where it should be. -/
theorem State.Throws.delivers {depth : Nat} (throws : state.Throws program value)
    (nested : state.Nested program depth) (armed : state.Armed)
    (hroute : route.frames = state.active program) :
    ∃ next, state.step program = .running next ∧ state.Delivers program value route next := by
  have hcatcher : route.catcher ∈ state.active program := hroute ▸ route.catcher_mem
  have hregister := Route.armed_handler (armed.active route.catcher hcatcher)
  refine ⟨_, throws.step_of_route hroute, ?_⟩
  constructor
  case register_eq => exact Route.landing_register hregister
  case register_ne => exact fun index ↦ Route.landing_register_ne
  case stack_prefix =>
    have hstack : (route.landing value).stack.toList =
        route.catcher.stack.toList.take route.context.stackDepth := by simp [Route.landing]
    rw [hstack]
    exact List.take_prefix _ _
  case stack_size => simp [Route.landing, Nat.min_comm]
  case active => exact nested.active_frames route.catcher hcatcher
  case callers_suffix => exact List.drop_suffix _ _
  case below_eq =>
    have hdrop := congrArg (List.drop (route.above.length + 1)) hroute
    simpa [Route.frames, State.active, List.map_drop] using hdrop.symm
  case above_halted =>
    intro count frame hframe
    obtain ⟨hlt, -⟩ := List.getElem?_eq_some_iff.1 hframe
    apply throws.passes
    · rw [← hroute, Route.frames, List.take_append_of_le_length hlt]
      exact fun passed hpassed ↦ route.above_passed passed (List.mem_of_mem_take hpassed)
    · rw [← hroute, Route.frames, List.getElem?_append_left hlt, hframe]
  all_goals rfl

/-- Thrown values reach the right handler. A value that the next instruction of a run throws is
delivered to the first catch of the innermost context with a catch, in the innermost active frame
that has such a context; the frames above have ended, and nothing else changes. If there is no such
frame, the run ends with that value. Any other step opens, extends or closes at most the innermost
context of the frame that executes. -/
theorem thrown_reaches_handler (launches : Launches program machine start)
    (reached : Reaches program start (.running state)) :
    (∀ value, state.Throws program value →
      (∃ route : Route, route.frames = state.active program ∧
          ∃ next, state.step program = .running next ∧
            state.Delivers program value route next) ∨
        (∀ frame ∈ state.active program, ¬ frame.Catches) ∧
          ∃ outcome, state.step program = .ended outcome ∧
            outcome.result = .error (.uncaught value) ∧
            ∀ frame ∈ outcome.frames, frame.halted = true) ∧
      ∀ next, state.step program = .running next → state.Onward program next := by
  have harmed : state.Armed := reached.armed launches.armed
  refine ⟨fun value throws ↦ ?_, fun next hstep ↦ State.onward_of_step hstep⟩
  rcases Route.exists_or (state.active program) with hpassed | ⟨route, hroute⟩
  · exact .inr ⟨hpassed, throws.step_of_passed hpassed⟩
  · exact .inl ⟨route, hroute, throws.delivers (launches.starts.nested reached) harmed hroute⟩

end Runs

/-- The main function opens a context with a catch, pushes a value, opens a context with a finalizer
only, and calls a function, which opens a context without either and calls another, which throws. -/
def relaying : Program where
  name := "relaying"
  code := #[
    Instruction.encode ⟨Opcode.newTryNoFinal.byte, .none⟩,
    Instruction.encode ⟨Opcode.addCatch.byte, .immReg 1 9⟩,
    Instruction.encode ⟨Opcode.stackPush.byte, .regs1 0⟩,
    Instruction.encode ⟨Opcode.newTry.byte, .imm 9⟩,
    Instruction.encode ⟨Opcode.declareFunction.byte, .immReg 0 1⟩,
    Instruction.encode ⟨Opcode.localCall.byte, .regs2 2 0⟩,
    Instruction.encode ⟨Opcode.newTryNoFinal.byte, .none⟩,
    Instruction.encode ⟨Opcode.declareFunction.byte, .immReg 0 2⟩,
    Instruction.encode ⟨Opcode.localCall.byte, .regs2 2 0⟩,
    Instruction.encode ⟨Opcode.returnValue.byte, .regs1 1⟩,
    Instruction.encode ⟨Opcode.loadInt.byte, .immReg 3 7⟩,
    Instruction.encode ⟨Opcode.throw.byte, .regs1 3⟩]
  functions := #[⟨"main", 0, 0⟩, ⟨"relay", 6, 0⟩, ⟨"toss", 10, 0⟩]

/-- The value passes two frames and a context, and the stack is cut. -/
theorem thrown_reaches_handler_relaying :
    ∃ state route next, (Machine.run {} relaying).advance relaying 10 = .running state ∧
      state.Throws relaying (.int 7) ∧ route.frames = state.active relaying ∧
      state.step relaying = .running next ∧ state.Delivers relaying (.int 7) route next ∧
      route.above.length = 2 ∧ route.inner.length = 1 ∧ next.frame.stack.size = 0 := by
  have hruns : ((Machine.run {} relaying).advance relaying 10).state?.any (fun state ↦
      State.exhausted? state.machine = none ∧
        (State.fetch relaying state.frame).2.toOption = some (.throw, .regs1 3) ∧
        ((State.fetch relaying state.frame).1.register 3).toOption = some (.int 7) ∧
        (state.active relaying).map (·.tries.length) = [0, 1, 2] ∧
        (state.step relaying).state?.any fun next ↦ next.callers.length = 0 ∧
          next.frame.tries.length = 0 ∧ next.frame.stack.size = 0) = true := by
    decide +kernel
  obtain ⟨state, hstate, hplace⟩ := (Option.any_eq_true _ _).1 hruns
  rw [Progress.state?_eq_some_iff] at hstate
  simp only [decide_eq_true_eq] at hplace
  obtain ⟨hallowed, hfetched, hregister, htries, hnext⟩ := hplace
  have throws : state.Throws relaying (.int 7) :=
    ⟨⟨hallowed, Prod.ext rfl (eq_ok_of_toOption hfetched)⟩, eq_ok_of_toOption hregister⟩
  have hreached : Reaches relaying _ (.running state) := hstate ▸ Reaches.refl.advance 10
  rcases (thrown_reaches_handler .run hreached).1 _ throws with
    ⟨route, hroute, next, hstep, hdelivers⟩ | ⟨-, outcome, hended, -⟩
  · rw [hstep] at hnext
    obtain ⟨hcallers, houter, hstack⟩ : next.callers.length = 0 ∧ next.frame.tries.length = 0 ∧
        next.frame.stack.size = 0 := by simpa [Progress.state?] using hnext
    have hbelow : route.below = [] := by
      rw [← hdelivers.below_eq, List.length_eq_zero_iff.1 hcallers, List.map_nil]
    rw [← hroute, Route.frames, hbelow] at htries
    have habove : route.above.length = 2 := by simpa using congrArg List.length htries
    have hcatcher : route.catcher.tries.length = 2 := by
      have hlast := congrArg (·.getLast?) htries
      simpa using hlast
    rw [route.tries_eq, ← hdelivers.tries_eq] at hcatcher
    have hinner : route.inner.length = 1 := by simpa [houter] using hcatcher
    exact ⟨state, route, next, hstate, throws, hroute, hstep, hdelivers, habove, hinner, hstack⟩
  · rw [hended] at hnext
    cases hnext

end RegisterMachine

import RegisterMachine.Proofs.Machine.Careful
import RegisterMachine.Proofs.Machine.Settings
import RegisterMachine.Proofs.Machine.Step

/-!
# Runs without stale references

An instruction that is executed on a grounded heap, by a frame whose values the heap holds, leaves
such a heap and such a frame, and does not fail for a stale reference. So does a step: a call hands
values to a new frame, a return or a throw hands one back, and the standard host functions are safe.
By induction nothing becomes stale in a run.
-/

namespace RegisterMachine

/-! ## Faults of instructions -/

section Effects

variable {machine : Machine} {frame : Frame}

@[simp] theorem assign_fresh (index : UInt8) (value : Value) :
    Fresh (Effect.assign machine frame index value) := by
  simp [Effect.assign]

@[simp] theorem assignFrom_fresh_iff {index : UInt8} {result : Except Fault (Value × Machine)} :
    Fresh (Effect.assignFrom frame index result) ↔ Fresh result := by
  simp [Effect.assignFrom]

@[simp] theorem onFrame_fresh_iff {result : Except Fault Frame} :
    Fresh (Effect.onFrame machine result) ↔ Fresh result := by
  simp [Effect.onFrame]

@[simp] theorem onMachine_fresh_iff {result : Except Fault Machine} :
    Fresh (Effect.onMachine frame result) ↔ Fresh result := by
  simp [Effect.onMachine]

@[simp] theorem branch_fresh {taken : Except Fault Bool} {target : Except Fault Nat}
    (htaken : Fresh taken) (htarget : Fresh target) :
    Fresh (Effect.branch machine frame taken target) := by
  rw [Effect.branch, fresh_bind_iff]
  refine ⟨htaken, fun answer _ ↦ ?_⟩
  split <;> simp [htarget]

end Effects

/-- No instruction fails for a stale reference, or by a throw of its own. -/
theorem execute_fresh {program : Program} {machine : Machine} {frame : Frame} (op : Opcode)
    (operands : Operands) (grounded : machine.heap.Grounded) (held : frame.Held machine.heap) :
    Fresh (execute program machine frame op operands) := by
  have hload {target : Value} (htarget : machine.heap.Holds target) (key : String) :
      Fresh (machine.loadField target key) :=
    (loadField_careful grounded target key).fresh htarget
  have hreceiver := hload held.receiver
  have harray (length : Nat) : Fresh (machine.newArray length) :=
    (newArray_careful grounded length).fresh trivial
  cases op with
  | loadField => simp [execute, hreceiver]
  | loadFieldIndirect =>
    refine .register held fun name hname ↦ .bind (stringKey_fresh hname) fun key ↦ ?_
    refine .register held fun target htarget ↦ .bind (hload htarget key) ?_
    exact assign_fresh _
  | storeField =>
    refine .bind (fieldName_fresh _ _) fun key ↦ .register held fun value hvalue ↦ ?_
    exact onMachine_fresh_iff.2 ((storeField_careful grounded hvalue _ key).fresh held.receiver)
  | storeFieldIndirect =>
    refine .register held fun name hname ↦ .bind (stringKey_fresh hname) fun key ↦ ?_
    refine .register held fun target htarget ↦ .register held fun value hvalue ↦ ?_
    exact onMachine_fresh_iff.2 ((storeField_careful grounded hvalue target key).fresh htarget)
  | loadConst | loadConstIndirect => simp [execute, loadConstant_fresh grounded]
  | call =>
    refine .register held fun name hname ↦ .bind (stringKey_fresh hname) fun key ↦ ?_
    refine .bind (hreceiver key) fun callee ↦ ?_
    split <;> simp
  | newObject | boxBool | boxInt | boxFloat => simp [execute, alloc_fresh grounded]
  | extend =>
    refine .register held fun prototype hprototype ↦ ?_
    exact assignFrom_fresh_iff.2 ((extend_careful grounded prototype).fresh hprototype)
  | unbox =>
    refine .register held fun boxed hboxed ↦ ?_
    exact .bind ((unbox_careful grounded boxed).fresh hboxed) (assign_fresh _)
  | lock =>
    refine .register held fun value hvalue ↦ .bind (lockKey_fresh hvalue) fun key ↦ ?_
    split <;> simp
  | unlock =>
    refine .register held fun value hvalue ↦ .bind (lockKey_fresh hvalue) fun key ↦ ?_
    simp
  | arrayNew | arrayNewIndirect => simp [execute, harray]
  | arrayGet =>
    refine .register held fun container hcontainer ↦ .register held fun key _ ↦ ?_
    exact .bind ((containerGet_careful grounded container key).fresh hcontainer) (assign_fresh _)
  | arraySet =>
    refine .register held fun container hcontainer ↦ .register held fun key hkey ↦ ?_
    refine .register held fun value hvalue ↦ onMachine_fresh_iff.2 ?_
    exact (containerSet_careful grounded hkey hvalue container).fresh hcontainer
  | arrayDelete =>
    refine .register held fun container hcontainer ↦ .register held fun key _ ↦ ?_
    exact onMachine_fresh_iff.2 ((containerErase_careful grounded container key).fresh hcontainer)
  | endTry =>
    refine .bind frame.endTry_fresh fun closed ↦ ?_
    split <;> simp
  -- No other instruction looks into the heap.
  | _ => simp [execute]

/-! ## What an instruction leaves -/

/-- An effect keeps a heap grounded, and moves no value that the heap does not hold. -/
def Effect.Grounded (heap : Heap) : Effect → Prop
  | .next machine result => heap.Develops machine.heap ∧ result.Held machine.heap
  | .jump result _ => result.Held heap
  | .leave value | .throw value => heap.Holds value
  | .call result _ _ receiver arguments =>
    result.Held heap ∧ heap.Holds receiver ∧ ∀ value ∈ arguments, heap.Holds value
  | .wait => True

section Actions

variable {program : Program} {machine changed : Machine} {frame : Frame} {op : Opcode}

theorem Source.holds {value : Value} (source : Source machine frame value)
    (grounded : machine.heap.Grounded) (held : frame.Held machine.heap) :
    machine.heap.Holds value := by
  cases source with
  | scalar h => exact .of_scalar h
  | held h => exact held.root h
  | field h => exact (loadField_careful grounded _ _).of_ok h
  | entry h => exact (containerGet_careful grounded _ _).of_ok h
  | unboxed h => exact (unbox_careful grounded _).of_ok h

theorem Creates.yielded {made : Value × Machine} (creates : Creates machine frame made)
    (grounded : machine.heap.Grounded) : Yielded machine made := by
  have hclosed {object : HeapObject} (h : machine.alloc object = .ok made)
      (hchildren : ∀ value ∈ object.children, value.handle? = none)
      (hdescent : ∀ prototype, object.descent? ≠ some (some prototype)) : Yielded machine made :=
    (alloc_careful_of_closed grounded hchildren hdescent).of_ok h
  cases creates with
  | text h | number h | object h =>
    exact hclosed h (by simp [HeapObject.children]) (by simp [HeapObject.descent?])
  | box hscalar h =>
    exact hclosed h (by simpa [HeapObject.children] using hscalar) (by simp [HeapObject.descent?])
  | extension _ h => exact (extend_careful grounded _).of_ok h
  | array h => exact (newArray_careful grounded _).of_ok h

theorem Updates.develops (updates : Updates machine frame changed)
    (grounded : machine.heap.Grounded) (held : frame.Held machine.heap) :
    machine.heap.Develops changed.heap := by
  cases updates with
  | field _ hvalue h => exact (storeField_careful grounded (held.root hvalue) _ _).of_ok h
  | entry _ hkey hvalue h =>
    exact (containerSet_careful grounded (held.root hkey) (held.root hvalue) _).of_ok h
  | removal _ _ h => exact (containerErase_careful grounded _ _).of_ok h
  | acquired _ => exact grounded.refl
  | released h =>
    unfold Machine.unlock at h
    split at h
    · cases h
      exact grounded.refl
    · cases h

/-- What an instruction leaves is grounded again. -/
theorem Acts.grounded {effect : Effect} (acts : Acts program machine frame op effect)
    (grounded : machine.heap.Grounded) (held : frame.Held machine.heap) :
    effect.Grounded machine.heap := by
  cases acts with
  | skip => exact ⟨grounded.refl, held⟩
  | assign source h => exact ⟨grounded.refl, held.setRegister (source.holds grounded held) h⟩
  | create creates h =>
    obtain ⟨hdevelops, hvalue⟩ := creates.yielded grounded
    exact ⟨hdevelops, (held.mono hdevelops.extend).setRegister hvalue h⟩
  | update updates =>
    have hdevelops := updates.develops grounded held
    exact ⟨hdevelops, held.mono hdevelops.extend⟩
  | receiver hvalue => exact ⟨grounded.refl, { held with receiver := held.root hvalue }⟩
  | moduleObject hvalue => exact ⟨grounded.refl, { held with moduleObject := held.root hvalue }⟩
  | push hvalue h => exact ⟨grounded.refl, held.push (held.root hvalue) h⟩
  | pop hvalue hpop h =>
    exact ⟨grounded.refl, (held.pop hpop).setRegister (held.root hvalue) h⟩
  | storeLocal hvalue h => exact ⟨grounded.refl, held.storeLocal (held.root hvalue) h⟩
  | reserve h => exact ⟨grounded.refl, held.reserveArguments h⟩
  | stage hvalue h => exact ⟨grounded.refl, held.setArgument (held.root hvalue) h⟩
  | openTry _ => exact ⟨grounded.refl, { held with }⟩
  | addCatch _ h => exact ⟨grounded.refl, held.addCatch h⟩
  | closeTry h => exact ⟨grounded.refl, held.endTry h⟩
  | finalize h => exact held.endTry h
  | jump _ => exact held
  | leave source => exact source.holds grounded held
  | throw _ hvalue => exact held.root hvalue
  | call _ _ _ hreceiver =>
    exact ⟨held.clearArguments, hreceiver.holds grounded held, fun _ ↦ held.outgoing_arguments⟩
  | wait => trivial

end Actions

/-! ## Host functions -/

theorem callNative_careful {machine : Machine} (grounded : machine.heap.Grounded)
    (hnatives : machine.natives = Builtin.table) (id : UInt32) (receiver : Value)
    {arguments : List Value} (harguments : ∀ value ∈ arguments, machine.heap.Holds value) :
    Careful True (machine.callNative id receiver arguments).2.heap.Holds
        (machine.callNative id receiver arguments).1 ∧
      machine.heap.Develops (machine.callNative id receiver arguments).2.heap := by
  unfold Machine.callNative
  split
  · exact ⟨fun _ ↦ rfl, grounded.refl⟩
  · next name function hfound =>
    rw [hnatives] at hfound
    have hsafe := Builtin.safe_of_get? hfound
      ⟨machine.heap, receiver, arguments, machine.output⟩ ⟨grounded, harguments⟩
    split
    · next cause hcause =>
      refine ⟨fun _ ↦ ?_, grounded.refl⟩
      simp [hsafe.of_error hcause]
    · next result hresult =>
      obtain ⟨hdevelops, hheld, hfresh⟩ := hsafe.of_ok hresult
      refine ⟨?_, hdevelops⟩
      unfold NativeResult.value at hheld
      cases hanswer : result.answer with
      | ok value => rwa [hanswer] at hheld
      | error cause =>
        intro _
        simp [hfresh cause hanswer]

/-! ## States -/

/-- A machine with the standard host functions, whose heap is grounded and holds the values that
were given away. -/
structure Machine.Grounded (given : List Value) (machine : Machine) : Prop where
  natives_eq : machine.natives = Builtin.table
  heap_grounded : machine.heap.Grounded
  given_held : ∀ value ∈ given, machine.heap.Holds value

theorem Machine.Grounded.develop {given : List Value} {machine changed : Machine}
    (grounded : machine.Grounded given) (inherits : machine.Inherits changed)
    (develops : machine.heap.Develops changed.heap) : changed.Grounded given where
  natives_eq := by
    rw [inherits]
    exact grounded.natives_eq
  heap_grounded := develops.grounded
  given_held value hvalue := develops.extend.holds (grounded.given_held value hvalue)

/-- The invariant of a run: nothing that it can come to is stale. -/
structure State.Grounded (given : List Value) (state : State) : Prop where
  machine_grounded : state.machine.Grounded given
  frame_held : state.frame.Held state.machine.heap
  callers_held : ∀ caller ∈ state.callers, caller.frame.Held state.machine.heap

/-- A fault that is not about a stale reference, and throws no value that is not held. -/
def Fault.Harmless (heap : Heap) (cause : Fault) : Prop :=
  cause.isStale = false ∧ ∀ value, cause = .uncaught value → heap.Holds value

/-- What is left of the invariant when a run has ended. -/
structure Ended.Grounded (given : List Value) (outcome : Ended) : Prop where
  machine_grounded : outcome.machine.Grounded given
  frames_held : ∀ frame ∈ outcome.frames, frame.Held outcome.machine.heap
  result_held :
    Meets (Fault.Harmless outcome.machine.heap) outcome.machine.heap.Holds outcome.result

/-- A run that has come to nothing stale. -/
def Progress.Grounded (given : List Value) (progress : Progress) : Prop :=
  progress.Satisfies (State.Grounded given) (Ended.Grounded given)

theorem Fault.harmless_of_isBare {heap : Heap} {cause : Fault} (h : cause.isBare = true) :
    cause.Harmless heap := by
  refine ⟨Fault.isStale_of_isBare h, ?_⟩
  rintro value rfl
  cases h

namespace State

variable {program : Program} {machine : Machine} {frame : Frame} {callers : List Caller}
  {value : Value} {given : List Value}

theorem grounded_fault (hmachine : machine.Grounded given) (hframe : frame.Held machine.heap)
    (hcallers : ∀ caller ∈ callers, caller.frame.Held machine.heap) {cause : Fault}
    (hcause : cause.isBare = true) : (fault machine frame callers cause).Grounded given := by
  constructor
  · exact { hmachine with }
  · intro ended hended
    obtain ⟨active, hactive, rfl⟩ := List.mem_map.1 hended
    rcases List.mem_cons.1 hactive with rfl | hcaller
    · exact hframe.halt
    · obtain ⟨caller, hmem, rfl⟩ := List.mem_map.1 hcaller
      exact (hcallers caller hmem).halt
  · exact Fault.harmless_of_isBare hcause

theorem resume_careful {heap : Heap} {caller : Caller} (held : caller.frame.Held heap)
    (hvalue : heap.Holds value) : Careful True (Frame.Held heap) (caller.resume value) := by
  apply (Frame.setRegister_fresh caller.frame value caller.destination).careful.bind
  intro result hresult _
  exact { held.setRegister hvalue hresult with }

theorem grounded_leave (hmachine : machine.Grounded given) (hframe : frame.Held machine.heap)
    (hcallers : ∀ caller ∈ callers, caller.frame.Held machine.heap)
    (hvalue : machine.heap.Holds value) : (leave machine frame callers value).Grounded given := by
  cases callers with
  | nil =>
    refine ⟨{ hmachine with }, ?_, hvalue⟩
    intro ended hended
    rw [List.mem_singleton.1 hended]
    exact hframe.halt
  | cons caller outer =>
    have hcaller := hcallers caller (by simp)
    have houter : ∀ other ∈ outer, other.frame.Held machine.heap :=
      fun other hother ↦ hcallers other (by simp [hother])
    have hresume := resume_careful hcaller hvalue
    have hleft : (leaveFrames machine 1).Grounded given := { hmachine with }
    simp only [leave]
    split
    · next resumed heq => exact ⟨hleft, hresume.of_ok heq, houter⟩
    · next cause heq =>
      exact grounded_fault hleft hcaller houter (hresume.of_error heq trivial)

/-- A thrown value passes through frames that do not catch it, from the inside out. -/
theorem grounded_throw (hmachine : machine.Grounded given) (hframe : frame.Held machine.heap)
    (hcallers : ∀ caller ∈ callers, caller.frame.Held machine.heap)
    (hvalue : machine.heap.Holds value) : (throw machine frame value callers).Grounded given := by
  induction callers generalizing machine frame with
  | nil =>
    have hunwound := hframe.unwind hvalue
    unfold throw
    split
    · next caught hcaught =>
      rw [hcaught] at hunwound
      exact ⟨hmachine, hunwound, by simp⟩
    · next rest hrest =>
      rw [hrest] at hunwound
      refine ⟨{ hmachine with }, ?_, rfl, ?_⟩
      · intro ended hended
        rw [List.mem_singleton.1 hended]
        exact hunwound.halt
      · intro thrown hthrown
        cases hthrown
        exact hvalue
  | cons caller outer ih =>
    have hunwound := hframe.unwind hvalue
    unfold throw
    split
    · next caught hcaught =>
      rw [hcaught] at hunwound
      exact ⟨hmachine, hunwound, hcallers⟩
    · exact ih { hmachine with } (hcallers caller (by simp))
        (fun other hother ↦ hcallers other (by simp [hother])) hvalue

/-! ## Calls -/

theorem calleeFrame_careful {heap : Heap} (index : Nat) {receiver moduleObject : Value}
    {arguments : List Value} (hreceiver : heap.Holds receiver)
    (hmodule : heap.Holds moduleObject) (harguments : ∀ value ∈ arguments, heap.Holds value) :
    Careful True (Frame.Held heap)
      (calleeFrame program machine index receiver moduleObject arguments) := by
  unfold calleeFrame
  split
  · exact fun _ ↦ rfl
  · next function _ =>
    dsimp only
    split
    · exact fun _ ↦ rfl
    · have hnew : Fresh (Frame.new function.entry.toNat machine.options) := by
        unfold Frame.new
        split <;> simp
      apply hnew.careful.bind
      intro made hmade _
      have hfill : Fresh (made.withArguments arguments) := by
        unfold Frame.withArguments
        split <;> simp
      apply hfill.careful.bind
      intro filled hfilled _
      have hheld : filled.Held heap := (Frame.Held.of_new hmade).withArguments harguments hfilled
      exact { hheld with receiver := hreceiver, moduleObject := hmodule }

theorem grounded_call {destination : UInt8} {callee receiver : Value} {arguments : List Value}
    (hmachine : machine.Grounded given)
    (hframe : frame.Held machine.heap)
    (hcallers : ∀ caller ∈ callers, caller.frame.Held machine.heap)
    (hreceiver : machine.heap.Holds receiver)
    (harguments : ∀ value ∈ arguments, machine.heap.Holds value) :
    (call program machine frame callers destination callee receiver arguments).Grounded given := by
  unfold call
  split
  · next index _ =>
    have hcallee : Careful True (Frame.Held machine.heap)
        (calleeFrame program machine index receiver frame.moduleObject arguments) :=
      calleeFrame_careful index hreceiver hframe.moduleObject harguments
    split
    · next entered heq =>
      refine ⟨{ hmachine with }, hcallee.of_ok heq, ?_⟩
      simpa using ⟨hframe, hcallers⟩
    · next cause heq =>
      exact grounded_fault hmachine hframe hcallers (hcallee.of_error heq trivial)
  · next id _ =>
    obtain ⟨hcareful, hdevelops⟩ := callNative_careful hmachine.heap_grounded hmachine.natives_eq id
      receiver harguments
    rcases hcall : machine.callNative id receiver arguments with ⟨answer, changed⟩
    rw [hcall] at hcareful hdevelops
    have hchanged : changed.Grounded given :=
      hmachine.develop (Machine.callNative_inherits hcall) hdevelops
    have hframe' := hframe.mono hdevelops.extend
    have hcallers' : ∀ caller ∈ callers, caller.frame.Held changed.heap :=
      fun caller hcaller ↦ (hcallers caller hcaller).mono hdevelops.extend
    cases answer with
    | ok value =>
      have hvalue : changed.heap.Holds value := hcareful
      have hresume : Careful True (Frame.Held changed.heap)
          (Caller.resume ⟨frame, destination⟩ value) := resume_careful hframe' hvalue
      dsimp only
      split
      · next resumed hresumed =>
        exact ⟨hchanged, hresume.of_ok hresumed, hcallers'⟩
      · next cause hcause =>
        exact grounded_fault hchanged hframe' hcallers'
          (hresume.of_error hcause trivial)
    | error cause => exact grounded_fault hchanged hframe' hcallers' (hcareful trivial)
  · exact grounded_fault hmachine hframe hcallers rfl

/-! ## One step -/

theorem held_of_fetch {heap : Heap} {fetched : Frame} {outcome : Except Fault (Opcode × Operands)}
    (h : fetch program frame = (fetched, outcome)) (held : frame.Held heap) :
    fetched.Held heap := by
  obtain ⟨opcode, rfl⟩ := of_fetch_eq h
  exact { held with }

/-- An instruction that cannot be fetched is a fault about the text. -/
theorem fetch_fresh (program : Program) (frame : Frame) : Fresh (fetch program frame).2 := by
  have hcheck (operands : Operands) : Fresh (checkRegisters operands) := by
    unfold checkRegisters
    split <;> simp
  unfold fetch
  split
  · simp
  · dsimp only
    split
    · simp
    · exact fresh_map_iff.2 (hcheck _)

theorem grounded_step {state : State} (grounded : state.Grounded given) :
    (state.step program).Grounded given := by
  obtain ⟨hmachine, hframe, hcallers⟩ := grounded
  have hcounted : state.counted.Grounded given := { hmachine with }
  have htransition := transition_step program state
  generalize state.step program = progress at htransition
  cases htransition with
  | exhausted _ => exact grounded_fault hmachine hframe hcallers rfl
  | @unfetched frame cause _ hfetch =>
    have hfresh := fetch_fresh program state.frame
    rw [hfetch] at hfresh
    exact grounded_fault hcounted (held_of_fetch hfetch hframe) hcallers hfresh
  | @failed frame op operands cause hdispatch hexecute =>
    have hfetched := held_of_fetch hdispatch.fetched hframe
    have hfresh : Fresh (execute program state.counted frame op operands) :=
      execute_fresh op operands hcounted.heap_grounded hfetched
    rw [hexecute] at hfresh
    exact grounded_fault hcounted hfetched hcallers hfresh
  | @executed frame op operands effect hdispatch hexecute =>
    have hfetched := held_of_fetch hdispatch.fetched hframe
    have hacts := hdispatch.behaves.of_ok hexecute
    have heffect := hacts.grounded hcounted.heap_grounded hfetched
    cases effect with
    | next machine result =>
      obtain ⟨hdevelops, hresult⟩ := heffect
      refine ⟨hcounted.develop hacts.inherits hdevelops, { hresult with }, ?_⟩
      exact fun caller hcaller ↦ (hcallers caller hcaller).mono hdevelops.extend
    | jump result target => exact ⟨hcounted, { (heffect : result.Held _) with }, hcallers⟩
    | leave value => exact grounded_leave hcounted hfetched hcallers heffect
    | throw value => exact grounded_throw hcounted hfetched hcallers heffect
    | call result destination callee receiver arguments =>
      obtain ⟨hresult, hreceiver, harguments⟩ := heffect
      exact grounded_call hcounted hresult hcallers hreceiver harguments
    | wait => exact ⟨hmachine, hframe, hcallers⟩

end State

end RegisterMachine

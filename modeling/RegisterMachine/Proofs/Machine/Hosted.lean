import RegisterMachine.Proofs.Frame.Invariant
import RegisterMachine.Proofs.Machine.Grounded

/-!
# Programs cannot make a reference stale

A host makes a machine and has it run programs and call their functions, one after the other. It
passes no references but those that the machine gave it, as a result or as a thrown value, and frees
nothing. Then, however long it goes on and whatever the programs are, no reference that a frame, an
object or an answer contains is ever stale, no instruction and no host function fails for one, and
prototypes form no cycle.
-/

namespace RegisterMachine

/-- The value that a run returned or threw. -/
def Ended.answer? (outcome : Ended) : Option Value :=
  match outcome.result with
  | .ok value => some value
  | .error (.uncaught value) => some value
  | .error _ => none

/-- What a host can ask of a machine, when these values were given to it before: to run a program,
or to call one of its functions. -/
inductive Request (machine : Machine) (given : List Value) (program : Program) : Progress → Prop
  | run : Request machine given program (machine.run program)
  | call (name : String) {arguments : List Value} :
      (∀ value ∈ arguments, value.handle? = none ∨ value ∈ given) →
      Request machine given program (machine.call program name arguments)

/-- A machine with the standard host functions after some requests, and the values that it has
given to its host. -/
inductive Hosted (options : Options) (id : MachineId) : Machine → List Value → Prop
  | new : Hosted options id (Machine.new options id) []
  /-- The locks are shared with other machines, and the output can be redirected. -/
  | share {machine : Machine} {given : List Value} (locks : LockTable) (output : Output) :
      Hosted options id machine given → Hosted options id { machine with locks, output } given
  /-- A request is answered. -/
  | answer {machine : Machine} {given : List Value} {program : Program} {start : Progress}
      {outcome : Ended} : Hosted options id machine given → Request machine given program start →
      Reaches program start (.ended outcome) →
      Hosted options id outcome.machine (outcome.answer?.toList ++ given)

/-- The heap of a run. -/
def Progress.heap : Progress → Heap
  | .running state | .waiting state => state.machine.heap
  | .ended outcome => outcome.machine.heap

/-- Nothing that a run has come to is stale. -/
structure Progress.Closed (progress : Progress) : Prop where
  /-- A reference in an active frame: in a register, a staged or received argument, a stack or
  scratch slot, the receiver or the module object. -/
  frame_live : ∀ frame ∈ progress.frames, ∀ handle, .object handle ∈ frame.roots →
    progress.heap.contains handle
  /-- A reference that was returned or thrown. -/
  answer_live : ∀ outcome handle, progress = .ended outcome →
    outcome.answer? = some (.object handle) → progress.heap.contains handle
  /-- A reference inside of an object, in whatever slot. -/
  object_live : ∀ index object handle, progress.heap.objectAt? index = some object →
    object.RefersTo handle → progress.heap.contains handle
  /-- A prototype is a living object with fields, in a lower slot. -/
  prototype_below : ∀ index object prototype,
    progress.heap.objectAt? index = some (.plain object) → object.prototype = some prototype →
    progress.heap.IsPlain prototype ∧ prototype.index.toNat < index
  acyclic : ∀ handle, ¬ Relation.TransGen progress.heap.Descends handle handle
  /-- The fault of an instruction or of a host function ends the run. -/
  fault_fresh : ∀ outcome cause, progress = .ended outcome → outcome.result = .error cause →
    cause.isStale = false

variable {options : Options} {id : MachineId} {machine : Machine} {given : List Value}
  {program : Program} {start progress : Progress}

theorem Ended.Grounded.answer_held {outcome : Ended} (grounded : outcome.Grounded given) :
    ∀ value ∈ outcome.answer?, outcome.machine.heap.Holds value := by
  have hresult := grounded.result_held
  intro value hanswer
  unfold Ended.answer? at hanswer
  split at hanswer
  · next result heq =>
    cases hanswer
    exact hresult.of_ok heq
  · next thrown heq =>
    cases hanswer
    exact (hresult.of_error heq).2 value rfl
  · cases hanswer

/-! ## From the invariant to its consequences -/

namespace Progress.Grounded

variable (grounded : progress.Grounded given)

include grounded

theorem heap_grounded : progress.heap.Grounded := by
  cases progress with
  | running state | waiting state =>
    exact (State.Grounded.machine_grounded grounded).heap_grounded
  | ended outcome => exact (Ended.Grounded.machine_grounded grounded).heap_grounded

theorem frame_held {frame : Frame} (hframe : frame ∈ progress.frames) :
    frame.Held progress.heap := by
  cases progress with
  | running state | waiting state =>
    obtain ⟨-, hactive, hcallers⟩ := grounded
    rcases List.mem_cons.1 hframe with rfl | hwaiting
    · exact hactive
    · obtain ⟨caller, hcaller, rfl⟩ := List.mem_map.1 hwaiting
      exact hcallers caller hcaller
  | ended outcome => exact Ended.Grounded.frames_held grounded frame hframe

theorem outcome_grounded {outcome : Ended} (h : progress = .ended outcome) :
    outcome.Grounded given := by
  rw [h] at grounded
  exact grounded

theorem closed : progress.Closed where
  frame_live frame hframe handle hroot := ((grounded.frame_held hframe).root hroot).contains
  answer_live outcome handle hprogress hanswer := by
    have hheld := (grounded.outcome_grounded hprogress).answer_held _ hanswer
    rw [hprogress]
    exact hheld.contains
  object_live index object handle hobject hrefers := by
    have hchild : .object handle ∈ object.children :=
      Value.mem_filterMap_handle?.1 (HeapObject.mem_references_iff.2 hrefers)
    exact (grounded.heap_grounded.child_held hobject _ hchild).contains
  prototype_below index object prototype hobject hprototype := by
    have hheap := grounded.heap_grounded
    have hdescent : (HeapObject.plain object).descent? = some (some prototype) :=
      congrArg some hprototype
    exact ⟨hheap.prototype_plain hobject hdescent, hheap.prototype_lt hobject hdescent⟩
  acyclic := grounded.heap_grounded.acyclic
  fault_fresh outcome cause hprogress hcause :=
    ((grounded.outcome_grounded hprogress).result_held.of_error hcause).1

end Progress.Grounded

/-! ## Beginnings -/

theorem grounded_refuse (hmachine : machine.Grounded given) {cause : Fault}
    (hcause : cause.isBare = true) : (machine.refuse cause).Grounded given :=
  ⟨hmachine, by simp, Fault.harmless_of_isBare hcause⟩

theorem grounded_enter (hmachine : machine.Grounded given) {frame : Frame}
    (held : frame.Held machine.heap) : (machine.enter frame).Grounded given := by
  unfold Machine.enter
  split
  · exact ⟨hmachine, by simpa using held, Fault.harmless_of_isBare rfl⟩
  · exact ⟨{ hmachine with }, held, by simp⟩

theorem grounded_callFunction (hmachine : machine.Grounded given) (program : Program)
    (index : Nat) {arguments : List Value}
    (harguments : ∀ value ∈ arguments, machine.heap.Holds value) :
    (machine.callFunction program index .null arguments).Grounded given := by
  unfold Machine.callFunction
  generalize hcounted :
    (if machine.depth = 0 then { machine with steps := 0 } else machine) = counted
  have hheap : counted.heap = machine.heap := by
    rw [← hcounted]
    split <;> rfl
  have hmachine : counted.Grounded given := by
    rw [← hcounted]
    split
    · exact { hmachine with }
    · exact hmachine
  rw [← hheap] at harguments
  have hcallee : Careful True (Frame.Held counted.heap)
      (State.calleeFrame program counted index .null .null arguments) :=
    State.calleeFrame_careful index Heap.holds_null Heap.holds_null harguments
  dsimp only
  split
  · next frame heq => exact grounded_enter hmachine (hcallee.of_ok heq)
  · next cause heq => exact grounded_refuse hmachine (hcallee.of_error heq trivial)

theorem Request.grounded (request : Request machine given program start)
    (hmachine : machine.Grounded given) : start.Grounded given := by
  cases request with
  | run =>
    unfold Machine.run
    split
    · exact grounded_refuse hmachine rfl
    · split
      · exact grounded_callFunction hmachine program _ (by simp)
      · split
        · exact grounded_refuse hmachine rfl
        · have hreset : { machine with steps := 0 }.Grounded given := { hmachine with }
          have hnew : Fresh (Frame.new 0 machine.options) := by
            unfold Frame.new
            split <;> simp
          dsimp only
          split
          · next frame heq => exact grounded_enter hreset (.of_new heq)
          · next cause heq =>
            rw [heq] at hnew
            exact grounded_refuse hreset hnew
  | call name harguments =>
    unfold Machine.call
    split
    · apply grounded_callFunction hmachine
      intro value hvalue
      rcases harguments value hvalue with hscalar | hmem
      · exact .of_scalar hscalar
      · exact hmachine.given_held value hmem
    · exact grounded_refuse hmachine rfl

/-! ## Sequences of requests -/

theorem Reaches.grounded (reached : Reaches program start progress)
    (begins : start.Grounded given) : progress.Grounded given := by
  apply reached.satisfies begins
  · exact fun state grounded ↦ State.grounded_step grounded
  · exact fun state locks grounded ↦
      ⟨{ grounded.machine_grounded with }, grounded.frame_held, grounded.callers_held⟩

/-- Between two requests the heap is grounded and holds everything that the host was given. -/
theorem Hosted.grounded (hosted : Hosted options id machine given) : machine.Grounded given := by
  induction hosted with
  | new => exact ⟨rfl, Heap.grounded_empty _, by simp⟩
  | share locks output _ ih => exact { ih with }
  | answer _ request reached ih =>
    have houtcome : Ended.Grounded _ _ := reached.grounded (request.grounded ih)
    refine { houtcome.machine_grounded with given_held := fun value hvalue ↦ ?_ }
    rcases List.mem_append.1 hvalue with hanswer | hbefore
    · exact houtcome.answer_held value (by simpa using hanswer)
    · exact houtcome.machine_grounded.given_held value hbefore

/-- Whatever a host has asked of a machine, and however far its next request has come, nothing is
stale. -/
theorem hosted_closed (hosted : Hosted options id machine given)
    (request : Request machine given program start) (reached : Reaches program start progress) :
    progress.Closed :=
  (reached.grounded (request.grounded hosted.grounded)).closed

/-- The main function returns an array that holds an object with a prototype; another function
takes the first element of an array and throws it. -/
def handing : Program where
  name := "handing"
  code := #[
    Instruction.encode ⟨Opcode.newObject.byte, .regs1 0⟩,
    Instruction.encode ⟨Opcode.extend.byte, .regs2 1 0⟩,
    Instruction.encode ⟨Opcode.arrayNew.byte, .immReg 2 1⟩,
    Instruction.encode ⟨Opcode.loadInt.byte, .immReg 3 0⟩,
    Instruction.encode ⟨Opcode.arraySet.byte, .regs3 2 3 1⟩,
    Instruction.encode ⟨Opcode.returnValue.byte, .regs1 2⟩,
    Instruction.encode ⟨Opcode.loadArg.byte, .immReg 0 0⟩,
    Instruction.encode ⟨Opcode.loadInt.byte, .immReg 1 0⟩,
    Instruction.encode ⟨Opcode.arrayGet.byte, .regs3 2 0 1⟩,
    Instruction.encode ⟨Opcode.throw.byte, .regs1 2⟩]
  functions := #[⟨"main", 0, 0⟩, ⟨"first", 6, 1⟩]

/-- What the main function returns, the other one may be called with. -/
theorem hosted_closed_handing :
    ∃ outcome, (Machine.run (Machine.new {} 1) handing).advance handing 6 = .ended outcome ∧
      outcome.answer? = some (.object ⟨2, 0⟩) ∧
      ((outcome.machine.call handing "first" [.object ⟨2, 0⟩]).advance handing 4).Closed := by
  have hstart : Reaches handing (Machine.run (Machine.new {} 1) handing)
      ((Machine.run (Machine.new {} 1) handing).advance handing 6) := Reaches.refl.advance 6
  have hanswer : ((Machine.run (Machine.new {} 1) handing).advance handing 6).outcome?.bind
      Ended.answer? = some (.object ⟨2, 0⟩) := by decide +kernel
  obtain ⟨outcome, houtcome, hvalue⟩ := Option.bind_eq_some_iff.1 hanswer
  rw [Progress.outcome?_eq_some_iff] at houtcome
  rw [houtcome] at hstart
  have hosted : Hosted {} 1 outcome.machine (outcome.answer?.toList ++ []) :=
    .answer .new .run hstart
  have request : Request outcome.machine (outcome.answer?.toList ++ []) handing
      (outcome.machine.call handing "first" [.object ⟨2, 0⟩]) :=
    .call "first" (by simp [hvalue])
  exact ⟨outcome, houtcome, hvalue, hosted_closed hosted request (Reaches.refl.advance 4)⟩

end RegisterMachine

import RegisterMachine.Proofs.Machine.Action

/-!
# What instructions leave alone

An instruction changes the heap and the locks of its machine and nothing else of it; a host function
changes the heap and the output. Of its frame an instruction leaves alone the arguments received,
the limits, the program counter, and whether the frame has ended.
-/

namespace RegisterMachine

namespace Machine

/-- One machine has come from another by changes to its heap, its locks and its output. -/
def Inherits (machine changed : Machine) : Prop :=
  changed = { machine with heap := changed.heap, locks := changed.locks, output := changed.output }

/-- One machine has come from another by changes to its heap. -/
def Reworks (machine changed : Machine) : Prop :=
  changed = { machine with heap := changed.heap }

variable {machine changed : Machine}

theorem Inherits.options_eq (h : Inherits machine changed) : changed.options = machine.options := by
  rw [h]

theorem Reworks.inherits (h : Reworks machine changed) : Inherits machine changed := by
  unfold Reworks at h
  rw [h]
  exact rfl

theorem alloc_reworks (machine : Machine) (object : HeapObject) :
    Yields (fun made ↦ Reworks machine made.2) (machine.alloc object) := by
  unfold alloc
  split
  · rfl
  · trivial

theorem extend_reworks (machine : Machine) (prototype : Value) :
    Yields (fun made ↦ Reworks machine made.2) (machine.extend prototype) := by
  unfold extend
  split
  · refine .bind fun object ↦ ?_
    split
    · exact machine.alloc_reworks _
    · trivial
  · trivial

theorem newArray_reworks (machine : Machine) (length : Nat) :
    Yields (fun made ↦ Reworks machine made.2) (machine.newArray length) := by
  unfold newArray
  split
  · trivial
  · exact machine.alloc_reworks _

/-! ## Objects that change -/

theorem reworks_put (machine : Machine) (handle : Handle) (object : HeapObject) :
    Reworks machine (machine.put handle object) := rfl

theorem storeField_reworks (machine : Machine) (target : Value) (key : String) (value : Value) :
    Yields (Reworks machine) (machine.storeField target key value) := by
  unfold storeField
  split
  · refine .bind fun object ↦ ?_
    split
    · exact machine.reworks_put _ _
    · trivial
  · trivial

theorem containerSet_reworks (machine : Machine) (container key value : Value) :
    Yields (Reworks machine) (machine.containerSet container key value) := by
  refine .bind fun handle ↦ .bind fun object ↦ ?_
  split
  · exact .bind fun items ↦ machine.reworks_put _ _
  · exact .bind fun items ↦ machine.reworks_put _ _
  · exact machine.reworks_put _ _
  · exact machine.reworks_put _ _
  · trivial

theorem containerErase_reworks (machine : Machine) (container key : Value) :
    Yields (Reworks machine) (machine.containerErase container key) := by
  refine .bind fun handle ↦ .bind fun object ↦ ?_
  split
  · exact .bind fun items ↦ machine.reworks_put _ _
  · exact .bind fun items ↦ machine.reworks_put _ _
  · exact machine.reworks_put _ _
  · exact machine.reworks_put _ _
  · trivial

theorem unlock_inherits (machine : Machine) (key : LockKey) :
    Yields (Inherits machine) (machine.unlock key) := by
  unfold unlock
  split
  · rfl
  · trivial

section Natives

variable {id : UInt32} {receiver : Value} {arguments : List Value} {answer : Except Fault Value}

/-- No host function changes more of its machine than the heap and the output, failing or not. -/
theorem eq_of_callNative (h : machine.callNative id receiver arguments = (answer, changed)) :
    changed = { machine with heap := changed.heap, output := changed.output } := by
  unfold callNative at h
  split at h
  · cases h
    rfl
  · split at h
    · cases h
      rfl
    · cases h
      rfl

theorem callNative_inherits (h : machine.callNative id receiver arguments = (answer, changed)) :
    machine.Inherits changed := by
  rw [eq_of_callNative h]
  exact rfl

end Natives

end Machine

/-! ## Frames that change -/

namespace Frame

/-- One frame has come from another by changes to its values and its try contexts. -/
def Inherits (frame changed : Frame) : Prop :=
  changed = { frame with
    registers := changed.registers, outgoing := changed.outgoing, stack := changed.stack,
    scratch := changed.scratch, receiver := changed.receiver,
    moduleObject := changed.moduleObject, tries := changed.tries }

/-- One frame has come from another by changes to its values. -/
def Reworks (frame changed : Frame) : Prop :=
  changed = { frame with
    registers := changed.registers, outgoing := changed.outgoing, stack := changed.stack,
    scratch := changed.scratch, receiver := changed.receiver,
    moduleObject := changed.moduleObject }

namespace Inherits

variable {frame changed last : Frame}

theorem pc_eq (h : Inherits frame changed) : changed.pc = frame.pc := by
  rw [h]

theorem halted_eq (h : Inherits frame changed) : changed.halted = frame.halted := by
  rw [h]

end Inherits

namespace Reworks

variable {frame changed last : Frame}

theorem inherits (h : Reworks frame changed) : Inherits frame changed := by
  unfold Reworks at h
  rw [h]
  exact rfl

theorem tries_eq (h : Reworks frame changed) : changed.tries = frame.tries := by
  rw [h]

theorem trans (first : Reworks frame changed) (second : Reworks changed last) :
    Reworks frame last := by
  unfold Reworks at first second ⊢
  rw [second, first]

end Reworks

variable (frame : Frame) (value : Value)

theorem setRegister_reworks (index : UInt8) :
    Yields (Reworks frame) (frame.setRegister index value) := by
  unfold setRegister
  split
  · rfl
  · trivial

theorem push_reworks : Yields (Reworks frame) (frame.push value) := by
  unfold push
  split
  · trivial
  · rfl

theorem pop_reworks : Yields (fun popped ↦ Reworks frame popped.2) frame.pop :=
  .bind fun _ ↦ rfl

theorem storeLocal_reworks (index : Nat) :
    Yields (Reworks frame) (frame.storeLocal index value) := by
  unfold storeLocal
  split
  · trivial
  · rfl

theorem reserveArguments_reworks (count : Nat) :
    Yields (Reworks frame) (frame.reserveArguments count) :=
  .bind fun _ ↦ rfl

theorem setArgument_reworks (index : Nat) :
    Yields (Reworks frame) (frame.setArgument index value) :=
  .bind fun _ ↦ rfl

theorem addCatch_inherits (register : UInt8) (target : Nat) :
    Yields (Inherits frame) (frame.addCatch register target) := by
  unfold addCatch
  split
  · trivial
  · split
    · trivial
    · rfl

theorem endTry_inherits : Yields (fun closed ↦ Inherits frame closed.2) frame.endTry := by
  unfold endTry
  split
  · trivial
  · rfl

end Frame

/-! ## Actions -/

variable {machine changed : Machine} {frame : Frame}

theorem Creates.reworks {value : Value} (h : Creates machine frame (value, changed)) :
    machine.Reworks changed := by
  cases h with
  | text h | number h | box _ h | object h => exact (machine.alloc_reworks _).of_ok h
  | extension _ h => exact (machine.extend_reworks _).of_ok h
  | array h => exact (machine.newArray_reworks _).of_ok h

/-- An object changes, or a lock changes its owner. -/
theorem Updates.reworks_or (h : Updates machine frame changed) : machine.Reworks changed ∨
    (∃ key locks, machine.locks.attempt key machine.id machine.options.lockTimeout =
      .ok (.acquired locks) ∧ changed = { machine with locks }) ∨
    ∃ key, machine.unlock key = .ok changed := by
  cases h with
  | field _ _ h => exact .inl ((machine.storeField_reworks _ _ _).of_ok h)
  | entry _ _ _ h => exact .inl ((machine.containerSet_reworks _ _ _).of_ok h)
  | removal _ _ h => exact .inl ((machine.containerErase_reworks _ _).of_ok h)
  | acquired h => exact .inr (.inl ⟨_, _, h, rfl⟩)
  | released h => exact .inr (.inr ⟨_, h⟩)

theorem Updates.inherits (h : Updates machine frame changed) : machine.Inherits changed := by
  rcases h.reworks_or with hreworks | ⟨_, _, _, rfl⟩ | ⟨key, hunlock⟩
  · exact hreworks.inherits
  · exact rfl
  · exact (machine.unlock_inherits key).of_ok hunlock

/-- No instruction changes more of its machine than the heap and the locks. -/
theorem Acts.inherits {program : Program} {op : Opcode} {result : Frame}
    (h : Acts program machine frame op (.next changed result)) : machine.Inherits changed := by
  cases h with
  | create h _ => exact h.reworks.inherits
  | update h => exact h.inherits
  | skip | assign | receiver | moduleObject | push | pop | storeLocal | reserve | stage | openTry
  | addCatch | closeTry => exact rfl

/-- What an effect leaves of the frame, if the frame goes on. -/
def Effect.Inherits (frame : Frame) : Effect → Prop
  | .next _ result | .jump result _ | .call result _ _ _ _ => frame.Inherits result
  | .leave _ | .throw _ | .wait => True

/-- An instruction whose frame continues changes nothing but values, or the innermost try context.
-/
theorem Acts.frame_reworks {program : Program} {op : Opcode} {result : Frame}
    (acts : Acts program machine frame op (.next changed result)) : frame.Reworks result ∨
    (∃ finalizer, result = frame.openTry finalizer) ∨
    (∃ register target, frame.addCatch register target = .ok result) ∨
    frame.endTry = .ok (none, result) := by
  cases acts with
  | skip | update | receiver | moduleObject => exact .inl rfl
  | assign _ h | create _ h => exact .inl ((frame.setRegister_reworks _ _).of_ok h)
  | push _ h => exact .inl ((frame.push_reworks _).of_ok h)
  | pop _ hpop h =>
    have hpopped : frame.Reworks _ := frame.pop_reworks.of_ok hpop
    exact .inl (hpopped.trans ((Frame.setRegister_reworks _ _ _).of_ok h))
  | storeLocal _ h => exact .inl ((frame.storeLocal_reworks _ _).of_ok h)
  | reserve h => exact .inl ((frame.reserveArguments_reworks _).of_ok h)
  | stage _ h => exact .inl ((frame.setArgument_reworks _ _).of_ok h)
  | openTry => exact .inr (.inl ⟨_, rfl⟩)
  | addCatch _ h => exact .inr (.inr (.inl ⟨_, _, h⟩))
  | closeTry h => exact .inr (.inr (.inr h))

theorem Acts.frame_inherits {program : Program} {op : Opcode} {effect : Effect}
    (acts : Acts program machine frame op effect) : effect.Inherits frame := by
  cases effect with
  | next changed result =>
    rcases acts.frame_reworks with hreworks | ⟨_, rfl⟩ | ⟨_, _, hcatch⟩ | hclose
    · exact hreworks.inherits
    · exact rfl
    · exact (frame.addCatch_inherits _ _).of_ok hcatch
    · exact frame.endTry_inherits.of_ok hclose
  | jump result target =>
    cases acts with
    | jump => exact rfl
    | finalize h => exact frame.endTry_inherits.of_ok h
  | call =>
    cases acts
    exact rfl
  | leave | throw | wait => trivial

end RegisterMachine

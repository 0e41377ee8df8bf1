import RegisterMachine.Proofs.Machine.Settings

/-!
# Staged arguments

What the arguments of a call are can be told from the instructions that its frame has executed, with
no look at the frame: there are as many as were reserved last since the previous call, and each is
the value set last in its slot since then. An instruction that reserves, sets or calls leaves in the
frame just what this history says, and no other instruction touches it.
-/

namespace RegisterMachine

/-- What an instruction does about the arguments of a call. -/
inductive Staging where
  | reserve (count : Nat)
  | set (slot : Nat) (value : Value)
  | call
  deriving DecidableEq, Repr

/-! ## Histories -/

namespace Staging

/-- The number of slots reserved last since the previous call, in a history that begins with what
was done last. -/
def count : List Staging → Nat
  | [] | .call :: _ => 0
  | .reserve count :: _ => count
  | .set _ _ :: earlier => count earlier

/-- The value set last in a slot since the last reservation or call, or null. -/
def argument (slot : Nat) : List Staging → Value
  | [] | .call :: _ | .reserve _ :: _ => .null
  | .set other value :: earlier => if other = slot then value else argument slot earlier

/-- The arguments that a call after this history has to pass. -/
def arguments (past : List Staging) : List Value :=
  (List.range (count past)).map (argument · past)

variable {past : List Staging}

@[simp] theorem length_arguments : (arguments past).length = count past := by
  simp [arguments]

@[simp] theorem getElem_arguments {slot : Nat} (h : slot < (arguments past).length) :
    (arguments past)[slot] = argument slot past := by
  simp [arguments]

end Staging

/-- What an instruction that a frame executes does about the arguments of a call. -/
def Frame.staging? (frame : Frame) (op : Opcode) (operands : Operands) : Option Staging :=
  let held (index : UInt8) : Option Value := (frame.register index).toOption
  let position (index : UInt8) : Option Nat := do return (← (← held index).int?).toInt.toNat
  match op with
  | .reserveArgs => some (.reserve operands.immediate.toNat)
  | .reserveArgsIndirect => do return .reserve (← position operands.a)
  | .setArg => do return .set operands.immediate.toNat (← held operands.a)
  | .setArgIndirect => do return .set (← position operands.b) (← held operands.a)
  | .call | .localCall | .dynamicCall => some .call
  | _ => none

/-! ## Buffers -/

namespace ArgumentBuffer

/-- A buffer holds what a history says, with room for as many arguments as there can be. -/
structure Holds (buffer : ArgumentBuffer) (past : List Staging) : Prop where
  reserved_eq : buffer.reserved = Staging.count past
  reserved_le : buffer.reserved ≤ maxArguments
  slot_eq : ∀ slot (h : slot < maxArguments), buffer.slots[slot] = Staging.argument slot past

variable {buffer changed : ArgumentBuffer} {past : List Staging}

theorem holds_nil : Holds {} [] :=
  ⟨rfl, Nat.zero_le _, fun _ _ ↦ Vector.getElem_replicate _⟩

theorem holds_call (past : List Staging) : Holds {} (.call :: past) :=
  ⟨rfl, Nat.zero_le _, fun _ _ ↦ Vector.getElem_replicate _⟩

theorem holds_of_reserve {count : Nat} (h : reserve count = .ok changed) (past : List Staging) :
    changed.Holds (.reserve count :: past) := by
  unfold reserve at h
  split at h
  · cases h
  · next hcount =>
    cases h
    exact ⟨rfl, Nat.not_lt.1 hcount, fun _ _ ↦ Vector.getElem_replicate _⟩

theorem Holds.set (holds : buffer.Holds past) {slot : Nat} {value : Value}
    (h : buffer.set slot value = .ok changed) : changed.Holds (.set slot value :: past) := by
  unfold ArgumentBuffer.set at h
  split at h
  · cases h
  · cases h
    refine ⟨holds.reserved_eq, holds.reserved_le, fun other hother ↦ ?_⟩
    rw [Vector.getElem_setIfInBounds, Staging.argument, holds.slot_eq other hother]

/-- What is taken from the buffer is what the history says. -/
theorem Holds.arguments_eq (holds : buffer.Holds past) :
    buffer.arguments = Staging.arguments past := by
  have hlength : buffer.arguments.length = buffer.reserved := by
    simp [arguments, Nat.min_eq_left holds.reserved_le]
  refine List.ext_getElem ?_ fun slot hslot _ ↦ ?_
  · rw [hlength, Staging.length_arguments, holds.reserved_eq]
  · have hroom : slot < maxArguments := Nat.lt_of_lt_of_le (hlength ▸ hslot) holds.reserved_le
    rw [Staging.getElem_arguments, ← holds.slot_eq slot hroom]
    simp [arguments]

end ArgumentBuffer

/-! ## Instructions -/

/-- Whether an instruction changes the staged arguments of a frame that goes on. -/
def Opcode.stages : Opcode → Bool
  | .reserveArgs | .reserveArgsIndirect | .setArg | .setArgIndirect => true
  | _ => false

namespace Effect

/-- A frame that goes on in itself has these staged arguments. -/
def Keeps (buffer : ArgumentBuffer) : Effect → Prop
  | .next _ result | .jump result _ => result.outgoing = buffer
  | .leave _ | .throw _ | .call _ _ _ _ _ | .wait => True

variable {machine : Machine} {frame : Frame} {buffer : ArgumentBuffer}

/-- Whatever an instruction looks at before, the rest of it decides. -/
@[simp] theorem bind_keeps_iff {computation : Except Fault α} {next : α → Except Fault Effect} :
    Yields (Keeps buffer) (computation >>= next) ↔
      ∀ value, computation = .ok value → Yields (Keeps buffer) (next value) := by
  cases computation with
  | ok value => exact ⟨fun h _ heq ↦ Except.ok.inj heq ▸ h, fun h ↦ h value rfl⟩
  | error cause => exact ⟨nofun, fun _ ↦ trivial⟩

@[simp] theorem map_keeps_iff {computation : Except Fault α} {effect : α → Effect} :
    Yields (Keeps buffer) (effect <$> computation) ↔
      ∀ value, computation = .ok value → (effect value).Keeps buffer := by
  cases computation with
  | ok value => exact ⟨fun h _ heq ↦ Except.ok.inj heq ▸ h, fun h ↦ h value rfl⟩
  | error cause => exact ⟨nofun, fun _ ↦ trivial⟩

@[simp] theorem ok_keeps_iff {effect : Effect} :
    Yields (Keeps buffer) (.ok effect : Except Fault Effect) ↔ effect.Keeps buffer :=
  Iff.rfl

@[simp] theorem error_keeps (cause : Fault) :
    Yields (Keeps buffer) (.error cause : Except Fault Effect) :=
  trivial

@[simp] theorem assign_keeps (index : UInt8) (value : Value) :
    Yields (Keeps frame.outgoing) (assign machine frame index value) := by
  unfold assign Frame.setRegister
  split
  · exact rfl
  · trivial

@[simp] theorem assignFrom_keeps (index : UInt8) (result : Except Fault (Value × Machine)) :
    Yields (Keeps frame.outgoing) (assignFrom frame index result) :=
  .bind fun _ ↦ assign_keeps _ _

@[simp] theorem onMachine_keeps (result : Except Fault Machine) :
    Yields (Keeps frame.outgoing) (onMachine frame result) :=
  .bind fun _ ↦ rfl

@[simp] theorem branch_keeps (taken : Except Fault Bool) (target : Except Fault Nat) :
    Yields (Keeps frame.outgoing) (branch machine frame taken target) := by
  refine .bind fun answer ↦ ?_
  cases answer with
  | true => exact .bind fun _ ↦ rfl
  | false => exact rfl

@[simp] theorem push_keeps (value : Value) :
    Yields (Keeps frame.outgoing) (onFrame machine (frame.push value)) := by
  unfold onFrame Frame.push
  split
  · trivial
  · exact rfl

@[simp] theorem storeLocal_keeps (index : Nat) (value : Value) :
    Yields (Keeps frame.outgoing) (onFrame machine (frame.storeLocal index value)) := by
  unfold onFrame Frame.storeLocal
  split
  · trivial
  · exact rfl

@[simp] theorem addCatch_keeps (register : UInt8) (target : Nat) :
    Yields (Keeps frame.outgoing) (onFrame machine (frame.addCatch register target)) := by
  unfold onFrame Frame.addCatch
  split
  · trivial
  · split
    · trivial
    · exact rfl

end Effect

/-- Only the instructions that reserve and set change what is staged in a frame that goes on. -/
theorem execute_keeps {program : Program} {machine : Machine} {frame : Frame} {op : Opcode}
    (operands : Operands) (h : op.stages = false) :
    Yields (Effect.Keeps frame.outgoing) (execute program machine frame op operands) := by
  cases op with
  | reserveArgs | reserveArgsIndirect | setArg | setArgIndirect => cases h
  | stackPop =>
    have hpop : Yields (fun popped ↦ popped.2.outgoing = frame.outgoing) frame.pop :=
      .bind fun _ ↦ rfl
    refine Meets.bind hpop fun popped _ hpopped ↦ ?_
    rw [← hpopped]
    exact Effect.assign_keeps _ _
  | endTry =>
    have hclose : Yields (fun closed ↦ closed.2.outgoing = frame.outgoing) frame.endTry := by
      unfold Frame.endTry
      split
      · trivial
      · exact rfl
    refine Meets.bind hclose fun closed _ hclosed ↦ ?_
    split <;> exact hclosed
  | call =>
    refine .bind fun _ ↦ .bind fun _ ↦ .bind fun callee ↦ ?_
    split <;> trivial
  | lock =>
    refine .bind fun _ ↦ .bind fun key ↦ ?_
    split
    · exact rfl
    · trivial
    · trivial
  | _ => simp [execute, Effect.Keeps, Effect.invoke, Frame.openTry]

/-- A frame that goes on in itself holds what a history says. -/
def Effect.Stages (past : List Staging) : Effect → Prop
  | .next _ result | .jump result _ => result.outgoing.Holds past
  | .leave _ | .throw _ | .call _ _ _ _ _ | .wait => True

/-- Where nothing is staged, the history stays as it is. -/
theorem ArgumentBuffer.Holds.stages_of_keeps {buffer : ArgumentBuffer} {past : List Staging}
    (holds : buffer.Holds past) {effect : Effect} (h : effect.Keeps buffer) :
    effect.Stages past := by
  cases effect with
  | next machine result | jump result target => exact (congrArg (Holds · past) h).mpr holds
  | leave | throw | call | wait => trivial

section Stages

variable {machine : Machine} {frame : Frame} {past : List Staging}

theorem reserve_stages (machine : Machine) (frame : Frame) (count : Nat) (past : List Staging) :
    Yields (Effect.Stages (.reserve count :: past))
      (Effect.onFrame machine (frame.reserveArguments count)) := by
  unfold Effect.onFrame Frame.reserveArguments
  cases hreserve : ArgumentBuffer.reserve count with
  | ok buffer => exact ArgumentBuffer.holds_of_reserve hreserve past
  | error cause => trivial

theorem set_stages (machine : Machine) (holds : frame.outgoing.Holds past) (slot : Nat)
    (value : Value) :
    Yields (Effect.Stages (.set slot value :: past))
      (Effect.onFrame machine (frame.setArgument slot value)) := by
  unfold Effect.onFrame Frame.setArgument
  cases hset : frame.outgoing.set slot value with
  | ok buffer => exact holds.set hset
  | error cause => trivial

/-- An index that an instruction reads from a value is that value. -/
theorem int?_of_indexOperand {op : Opcode} {value : Value} {index : Nat}
    (h : indexOperand op value = .ok index) :
    ∃ number, value.int? = some number ∧ number.toInt.toNat = index := by
  unfold indexOperand intOperand at h
  cases hnumber : value.int? with
  | none => simp [hnumber, bind, Except.bind] at h
  | some number =>
    simp only [hnumber, bind, Except.bind] at h
    split at h
    · exact ⟨number, rfl, Except.ok.inj h⟩
    · cases h

/-- What is staged after an instruction is what was staged before, and what the instruction says. -/
theorem execute_stages {program : Program} (holds : frame.outgoing.Holds past) (op : Opcode)
    (operands : Operands) :
    Yields (Effect.Stages ((frame.staging? op operands).toList ++ past))
      (execute program machine frame op operands) := by
  have hheld {index : UInt8} {value : Value} (h : frame.register index = .ok value) :
      (frame.register index).toOption = some value := by rw [h]; rfl
  have hkeeps {op : Opcode} (hop : op.stages = false) (hnone : frame.staging? op operands = none) :
      Yields (Effect.Stages ((frame.staging? op operands).toList ++ past))
        (execute program machine frame op operands) := by
    rw [hnone]
    cases heffect : execute program machine frame op operands with
    | ok effect => exact holds.stages_of_keeps ((execute_keeps operands hop).of_ok heffect)
    | error cause => trivial
  cases op with
  | reserveArgs => exact reserve_stages machine frame _ past
  | reserveArgsIndirect =>
    refine Meets.bind (Yields.unconditional _) fun value hvalue _ ↦ ?_
    refine Meets.bind (Yields.unconditional _) fun count hcount _ ↦ ?_
    obtain ⟨number, hnumber, rfl⟩ := int?_of_indexOperand hcount
    simp only [Frame.staging?, hheld hvalue, Option.bind_eq_bind, Option.bind_some, hnumber]
    exact reserve_stages machine frame _ past
  | setArg =>
    refine Meets.bind (Yields.unconditional _) fun value hvalue _ ↦ ?_
    simp only [Frame.staging?, hheld hvalue, Option.bind_eq_bind, Option.bind_some]
    exact set_stages machine holds _ value
  | setArgIndirect =>
    refine Meets.bind (Yields.unconditional _) fun place hplace _ ↦ ?_
    refine Meets.bind (Yields.unconditional _) fun slot hslot _ ↦ ?_
    refine Meets.bind (Yields.unconditional _) fun value hvalue _ ↦ ?_
    obtain ⟨number, hnumber, rfl⟩ := int?_of_indexOperand hslot
    simp only [Frame.staging?, hheld hplace, hheld hvalue, Option.bind_eq_bind, Option.bind_some,
      hnumber]
    exact set_stages machine holds _ value
  | call =>
    refine .bind fun _ ↦ .bind fun _ ↦ .bind fun callee ↦ ?_
    split <;> trivial
  | localCall => exact .bind fun _ ↦ trivial
  | dynamicCall => exact .bind fun _ ↦ .bind fun _ ↦ trivial
  | _ => exact hkeeps rfl rfl

end Stages

end RegisterMachine

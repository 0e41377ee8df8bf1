import RegisterMachine.Proofs.Machine.Action

/-!
# Valid frames

A valid frame stands at a place of its program, remembers only places of it and registers that
exist, and keeps within its limits. Every action of an instruction keeps its frame valid, and so
does the handling of a thrown value, which sets the program counter, cuts the stack and writes a
register at once. A valid frame never looks beyond its registers, argument slots and scratch slots.
-/

namespace RegisterMachine

/-! ## Validity -/

/-- A catch writes a register that exists and continues at a place of the program. -/
structure CatchHandler.Valid (program : Program) (handler : CatchHandler) : Prop where
  register_lt : handler.register.toNat < registerCount
  target_le : handler.target ≤ program.size

/-- A try context continues at places of the program. -/
structure TryContext.Valid (program : Program) (context : TryContext) : Prop where
  finalizer_le : ∀ place ∈ context.finalizer, place ≤ program.size
  catches_valid : ∀ handler ∈ context.catches, handler.Valid program

/-- Only slots that exist are reserved, and all others are null. -/
structure ArgumentBuffer.Valid (buffer : ArgumentBuffer) : Prop where
  reserved_le : buffer.reserved ≤ maxArguments
  null_of_reserved_le : ∀ index (h : index < maxArguments), buffer.reserved ≤ index →
    buffer.slots[index] = .null

/-- What holds of a frame whenever it runs. -/
structure Frame.Valid (program : Program) (limits : Limits) (frame : Frame) : Prop where
  pc_le : frame.pc ≤ program.size
  tries_valid : ∀ context ∈ frame.tries, context.Valid program
  maxStack_eq : frame.maxStack = limits.maxStackDepth
  stack_le : frame.stack.size ≤ limits.maxStackDepth
  maxScratch_eq : frame.maxScratch = limits.maxScratchSlots
  scratch_le : frame.scratch.size ≤ limits.maxScratchSlots
  outgoing_valid : frame.outgoing.Valid
  arguments_le : frame.arguments.length ≤ maxArguments

variable {program : Program} {limits : Limits} {frame result : Frame}

/-! ## Staged arguments -/

namespace ArgumentBuffer

theorem valid_reserved {count : Nat} (h : count ≤ maxArguments) :
    Valid { reserved := count } where
  reserved_le := h
  null_of_reserved_le index hindex _ := by simp

theorem Valid.set {buffer changed : ArgumentBuffer} {index : Nat} {value : Value}
    (valid : buffer.Valid) (h : buffer.set index value = .ok changed) : changed.Valid := by
  unfold ArgumentBuffer.set at h
  split at h
  · cases h
  · next hindex =>
    cases h
    refine ⟨valid.reserved_le, fun other hother hreserved ↦ ?_⟩
    have hne : index ≠ other := Nat.ne_of_lt (Nat.lt_of_lt_of_le (Nat.not_le.1 hindex) hreserved)
    rw [Vector.getElem_setIfInBounds_ne _ hne]
    exact valid.null_of_reserved_le other hother hreserved

theorem Valid.length_arguments_le {buffer : ArgumentBuffer} (valid : buffer.Valid) :
    buffer.arguments.length ≤ maxArguments := by
  unfold arguments
  rw [List.length_take]
  exact Nat.le_trans (Nat.min_le_left _ _) valid.reserved_le

end ArgumentBuffer

/-! ## Operations on frames -/

namespace Frame

theorem Valid.of_new {entry : Nat} {options : Options} (hentry : entry ≤ program.size)
    (h : Frame.new entry options = .ok frame) : frame.Valid program options.limits := by
  unfold new at h
  split at h
  · cases h
  · cases h
    exact {
      pc_le := hentry
      tries_valid := by simp
      maxStack_eq := rfl
      stack_le := Nat.zero_le _
      maxScratch_eq := rfl
      scratch_le := Nat.zero_le _
      outgoing_valid := ArgumentBuffer.valid_reserved (Nat.zero_le _)
      arguments_le := Nat.zero_le _ }

namespace Valid

variable (valid : frame.Valid program limits)

include valid

theorem withArguments {arguments : List Value} (h : frame.withArguments arguments = .ok result) :
    result.Valid program limits := by
  unfold Frame.withArguments at h
  split at h
  · cases h
  · next hlength =>
    cases h
    exact { valid with arguments_le := Nat.not_lt.1 hlength }

theorem setRegister {index : UInt8} {value : Value}
    (h : frame.setRegister index value = .ok result) :
    result.Valid program limits ∧ result.pc = frame.pc := by
  unfold Frame.setRegister at h
  split at h
  · cases h
    exact ⟨{ valid with }, rfl⟩
  · cases h

theorem push {value : Value} (h : frame.push value = .ok result) :
    result.Valid program limits ∧ result.pc = frame.pc := by
  unfold Frame.push at h
  split at h
  · cases h
  · next hroom =>
    cases h
    refine ⟨{ valid with stack_le := ?_ }, rfl⟩
    have hmax := valid.maxStack_eq
    simp only [Array.size_push]
    omega

theorem pop {value : Value} (h : frame.pop = .ok (value, result)) :
    result.Valid program limits ∧ result.pc = frame.pc := by
  unfold Frame.pop at h
  cases hpeek : frame.peek with
  | error cause =>
    rw [hpeek] at h
    cases h
  | ok top =>
    rw [hpeek] at h
    cases h
    refine ⟨{ valid with stack_le := ?_ }, rfl⟩
    have hstack := valid.stack_le
    simp only [Array.size_pop]
    omega

theorem storeLocal {index : Nat} {value : Value} (h : frame.storeLocal index value = .ok result) :
    result.Valid program limits ∧ result.pc = frame.pc := by
  unfold Frame.storeLocal at h
  split at h
  · cases h
  · next hindex =>
    cases h
    refine ⟨{ valid with scratch_le := ?_ }, rfl⟩
    have hmax := valid.maxScratch_eq
    have hscratch := valid.scratch_le
    simp only [Array.size_setIfInBounds, Array.size_append, Array.size_replicate]
    omega

theorem reserveArguments {count : Nat} (h : frame.reserveArguments count = .ok result) :
    result.Valid program limits ∧ result.pc = frame.pc := by
  unfold Frame.reserveArguments ArgumentBuffer.reserve at h
  split at h
  · cases h
  · next hcount =>
    cases h
    exact ⟨{ valid with
      outgoing_valid := ArgumentBuffer.valid_reserved (Nat.not_lt.1 hcount) }, rfl⟩

theorem setArgument {index : Nat} {value : Value} (h : frame.setArgument index value = .ok result) :
    result.Valid program limits ∧ result.pc = frame.pc := by
  unfold Frame.setArgument at h
  cases hset : frame.outgoing.set index value with
  | error cause =>
    rw [hset] at h
    cases h
  | ok buffer =>
    rw [hset] at h
    cases h
    exact ⟨{ valid with outgoing_valid := valid.outgoing_valid.set hset }, rfl⟩

theorem openTry {finalizer : Option Nat} (h : ∀ place ∈ finalizer, place ≤ program.size) :
    (frame.openTry finalizer).Valid program limits := by
  refine { valid with tries_valid := fun context hcontext ↦ ?_ }
  rcases List.mem_cons.1 hcontext with rfl | houter
  · exact ⟨h, by simp⟩
  · exact valid.tries_valid context houter

theorem addCatch {register : UInt8} {target : Nat} (htarget : target ≤ program.size)
    (h : frame.addCatch register target = .ok result) :
    result.Valid program limits ∧ result.pc = frame.pc := by
  unfold Frame.addCatch at h
  split at h
  · cases h
  · next hregister =>
    split at h
    · cases h
    · next innermost outer htries =>
      cases h
      have hinnermost := valid.tries_valid innermost (by simp [htries])
      refine ⟨{ valid with tries_valid := fun context hcontext ↦ ?_ }, rfl⟩
      rcases List.mem_cons.1 hcontext with rfl | houter
      · refine ⟨hinnermost.finalizer_le, fun handler hhandler ↦ ?_⟩
        rcases List.mem_append.1 hhandler with hold | hnew
        · exact hinnermost.catches_valid handler hold
        · rw [List.mem_singleton.1 hnew]
          exact ⟨Nat.not_le.1 hregister, htarget⟩
      · exact valid.tries_valid context (by simp [htries, houter])

theorem endTry {finalizer : Option Nat} (h : frame.endTry = .ok (finalizer, result)) :
    result.Valid program limits ∧ result.pc = frame.pc ∧
      ∀ place ∈ finalizer, place ≤ program.size := by
  unfold Frame.endTry at h
  split at h
  · cases h
  · next innermost outer htries =>
    cases h
    refine ⟨{ valid with tries_valid := fun context houter ↦ ?_ }, rfl, ?_⟩
    · exact valid.tries_valid context (by simp [htries, houter])
    · exact (valid.tries_valid innermost (by simp [htries])).finalizer_le

end Valid

/-! ## Thrown values -/

/-- A catch that is found belongs to an open try context, and the contexts outside of that one stay
as they are. -/
theorem of_handler?_eq_some {tries outer : List TryContext} {handler : CatchHandler} {depth : Nat}
    (h : handler? tries = some (handler, depth, outer)) :
    (∃ context ∈ tries, handler ∈ context.catches) ∧ ∀ context ∈ outer, context ∈ tries := by
  induction tries with
  | nil => cases h
  | cons context rest ih =>
    unfold handler? at h
    split at h
    · next first others hcatches =>
      cases h
      exact ⟨⟨context, by simp, by simp [hcatches]⟩, fun _ hmem ↦ List.mem_cons_of_mem _ hmem⟩
    · obtain ⟨⟨found, hfound, hhandler⟩, houter⟩ := ih h
      exact ⟨⟨found, List.mem_cons_of_mem _ hfound, hhandler⟩,
        fun _ hmem ↦ List.mem_cons_of_mem _ (houter _ hmem)⟩

theorem Valid.handler {handler : CatchHandler} {depth : Nat} {outer : List TryContext}
    (valid : frame.Valid program limits)
    (h : handler? frame.tries = some (handler, depth, outer)) : handler.Valid program := by
  obtain ⟨⟨context, hcontext, hhandler⟩, -⟩ := of_handler?_eq_some h
  exact (valid.tries_valid context hcontext).catches_valid handler hhandler

/-- A frame stays valid whether it catches a value or not. -/
theorem Valid.unwind (valid : frame.Valid program limits) (value : Value) :
    (frame.unwind value).2.Valid program limits := by
  unfold Frame.unwind
  split
  · exact { valid with tries_valid := by simp }
  · next handler depth outer hhandler =>
    have hstack := valid.stack_le
    exact { valid with
      pc_le := (valid.handler hhandler).target_le
      tries_valid := fun context hmem ↦
        valid.tries_valid context ((of_handler?_eq_some hhandler).2 context hmem)
      stack_le := by
        simp only [Array.take_eq_extract, Array.size_extract]
        omega }

theorem Valid.halt (valid : frame.Valid program limits) : frame.halt.Valid program limits :=
  { valid with }

end Frame

/-! ## Places in storage -/

namespace Frame

/-- For how many scratch slots storage is set aside when a slot beyond the present storage is
written: up to that slot or twice the storage and one more, as far as the limit allows. Doubling
stops at the largest number of 64 bits. -/
def storageFor (frame : Frame) (storage index : Nat) : Nat :=
  let doubled := min (2 * storage) (2 ^ 64 - 1)
  min (max (index + 1) (min (doubled + 1) (2 ^ 64 - 1))) frame.maxScratch

/-- What a frame reads and writes without looking is there. -/
structure InBounds (frame : Frame) : Prop where
  /-- The register of the catch that a thrown value goes to. -/
  handler_lt : ∀ handler depth outer, handler? frame.tries = some (handler, depth, outer) →
    handler.register.toNat < frame.registers.size
  /-- The reserved argument slots. -/
  reserved_le : frame.outgoing.reserved ≤ frame.outgoing.slots.size
  /-- A scratch slot that is written, once the slots on the way to it are filled up. -/
  slot_lt : ∀ index value result, frame.storeLocal index value = .ok result →
    index < result.scratch.size
  /-- The scratch slots in use do not exceed the storage for one more. -/
  scratch_le : ∀ storage index, frame.scratch.size ≤ index → index < frame.maxScratch →
    frame.scratch.size ≤ frame.storageFor storage index

theorem lt_scratch_of_storeLocal {index : Nat} {value : Value}
    (h : frame.storeLocal index value = .ok result) : index < result.scratch.size := by
  unfold storeLocal at h
  split at h
  · cases h
  · cases h
    simp only [Array.size_setIfInBounds, Array.size_append, Array.size_replicate]
    omega

theorem Valid.inBounds (valid : frame.Valid program limits) : frame.InBounds where
  handler_lt _ _ _ h := (valid.handler h).register_lt
  reserved_le := valid.outgoing_valid.reserved_le
  slot_lt _ _ _ h := lt_scratch_of_storeLocal h
  scratch_le storage index hindex hlimit := by
    have hslot : frame.scratch.size ≤ index + 1 := Nat.le_succ_of_le hindex
    exact Nat.le_min.2 ⟨Nat.le_trans hslot (Nat.le_max_left _ _),
      Nat.le_trans hindex (Nat.le_of_lt hlimit)⟩

end Frame

/-! ## Actions -/

/-- What an instruction leaves of a valid frame: it continues with the next instruction or at a
place of the program, or hands over arguments that fit a call and a register that exists. -/
def Effect.Valid (program : Program) (limits : Limits) (pc : Nat) : Effect → Prop
  | .next _ frame => frame.Valid program limits ∧ frame.pc = pc
  | .jump frame target => frame.Valid program limits ∧ target ≤ program.size
  | .call frame destination _ _ arguments =>
    frame.Valid program limits ∧ frame.pc = pc ∧ destination.toNat < registerCount ∧
      arguments.length ≤ maxArguments
  | .leave _ | .throw _ | .wait => True

theorem Acts.valid {machine : Machine} {op : Opcode} {effect : Effect}
    (acts : Acts program machine frame op effect) (valid : frame.Valid program limits) :
    effect.Valid program limits frame.pc := by
  cases acts with
  | skip | update => exact ⟨valid, rfl⟩
  | receiver | moduleObject => exact ⟨{ valid with }, rfl⟩
  | assign _ h | create _ h => exact valid.setRegister h
  | push _ h => exact valid.push h
  | pop _ hpop hset =>
    obtain ⟨hpopped, hpc⟩ := valid.pop hpop
    obtain ⟨hresult, hsame⟩ := hpopped.setRegister hset
    exact ⟨hresult, hsame.trans hpc⟩
  | storeLocal _ h => exact valid.storeLocal h
  | reserve h => exact valid.reserveArguments h
  | stage _ h => exact valid.setArgument h
  | openTry h => exact ⟨valid.openTry h, rfl⟩
  | addCatch htarget h => exact valid.addCatch htarget h
  | closeTry h =>
    obtain ⟨hresult, hpc, -⟩ := valid.endTry h
    exact ⟨hresult, hpc⟩
  | finalize h =>
    obtain ⟨hresult, -, hplace⟩ := valid.endTry h
    exact ⟨hresult, hplace _ rfl⟩
  | jump h => exact ⟨valid, h⟩
  | call _ hdestination =>
    exact ⟨{ valid with outgoing_valid := ArgumentBuffer.valid_reserved (Nat.zero_le _) }, rfl,
      hdestination, valid.outgoing_valid.length_arguments_le⟩
  | leave | throw | wait => trivial

end RegisterMachine

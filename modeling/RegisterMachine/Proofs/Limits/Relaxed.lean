import RegisterMachine.Machine.Execute
import RegisterMachine.Proofs.Outcome

/-!
# Operations under relaxed limits

A limit is a reason to fail and nothing else. `under` puts a heap, a machine or a frame under other
options, with all else as it was. Here every operation is compared with itself under options whose
limits are at least as large: whenever it has a result, it has the same result, put under those
options. Since the options may also be the same ones, the results stay under the options they came
from.
-/

namespace RegisterMachine

/-! ## Options -/

/-- One bound is at most another; a bound that is absent is larger than all others. -/
def boundLe : Option Nat → Option Nat → Prop
  | _, none => True
  | none, some _ => False
  | some strict, some loose => strict ≤ loose

instance (strict loose : Option Nat) : Decidable (boundLe strict loose) :=
  match strict, loose with
  | _, none => .isTrue trivial
  | none, some _ => .isFalse id
  | some strict, some loose => inferInstanceAs (Decidable (strict ≤ loose))

theorem boundLe_refl (bound : Option Nat) : boundLe bound bound := by
  cases bound with
  | none => trivial
  | some limit => exact Nat.le_refl limit

/-- What is at most a bound that is present is present itself. -/
theorem boundLe.exists_le {strict loose : Option Nat} (h : boundLe strict loose) {limit : Nat}
    (hlimit : loose = some limit) : ∃ smaller, strict = some smaller ∧ smaller ≤ limit := by
  subst hlimit
  cases strict with
  | none => cases h
  | some smaller => exact ⟨smaller, rfl, h⟩

/-- Two options differ in their limits only, and each limit of the second is at least that of the
first. -/
structure Options.Relaxed (strict loose : Options) : Prop where
  rest_eq : loose = { strict with limits := loose.limits }
  maxCallDepth_le : strict.limits.maxCallDepth ≤ loose.limits.maxCallDepth
  maxStackDepth_le : strict.limits.maxStackDepth ≤ loose.limits.maxStackDepth
  maxScratchSlots_le : strict.limits.maxScratchSlots ≤ loose.limits.maxScratchSlots
  maxArrayLength_le : strict.limits.maxArrayLength ≤ loose.limits.maxArrayLength
  maxHeapObjects_le : boundLe strict.limits.maxHeapObjects loose.limits.maxHeapObjects
  maxSteps_le : boundLe strict.limits.maxSteps loose.limits.maxSteps

theorem Options.Relaxed.refl (options : Options) : options.Relaxed options where
  rest_eq := rfl
  maxCallDepth_le := Nat.le_refl _
  maxStackDepth_le := Nat.le_refl _
  maxScratchSlots_le := Nat.le_refl _
  maxArrayLength_le := Nat.le_refl _
  maxHeapObjects_le := boundLe_refl _
  maxSteps_le := boundLe_refl _

variable {options strict loose : Options}

/-! ## Heaps -/

namespace Heap

/-- The heap with the limit of options. -/
def under (options : Options) (heap : Heap) : Heap :=
  { heap with limit := options.limits.maxHeapObjects }

variable (heap : Heap)

theorem get_under (handle : Handle) : (heap.under options).get handle = heap.get handle := rfl

theorem findField_under (key : String) (remaining : Nat) (handle : Handle) :
    (heap.under options).findField key remaining handle = heap.findField key remaining handle := by
  induction remaining generalizing handle with
  | zero => rfl
  | succ remaining ih => simp only [findField, get_under, ih]

theorem getField_under (handle : Handle) (key : String) :
    (heap.under options).getField handle key = heap.getField handle key :=
  heap.findField_under key heap.live handle

theorem renderWith_under (depth : Nat) (value : Value) :
    (heap.under options).renderWith depth value = heap.renderWith depth value := by
  induction depth generalizing value with
  | zero => cases value <;> rfl
  | succ depth ih =>
    have hdepth : (heap.under options).renderWith depth = heap.renderWith depth := funext ih
    cases value with
    | object handle => simp only [renderWith, get_under, hdepth]
    | _ => rfl

theorem render_under : (heap.under options).render = heap.render :=
  funext (heap.renderWith_under 9)

theorem store_follows (options : Options) (object : HeapObject) :
    Follows (fun made ↦ (made.1, made.2.under options)) (heap.store object)
      ((heap.under options).store object) := by
  have hfree : (heap.under options).free = heap.free := rfl
  have hslots : (heap.under options).slots = heap.slots := rfl
  unfold store
  rw [hfree, hslots]
  split
  · exact .ok _ (_, _)
  · split
    · exact .ok _ (_, _)
    · exact .error _ _ _

theorem alloc_eq_ok_iff {heap : Heap} {object : HeapObject} {made : Handle × Heap} :
    heap.alloc object = .ok made ↔
      (∀ limit, heap.limit = some limit → heap.live < limit) ∧ heap.store object = .ok made := by
  unfold alloc
  cases heap.limit with
  | none => simp
  | some limit =>
    by_cases hroom : heap.live < limit
    · simp [hroom, Nat.not_le.2 hroom]
    · simp [hroom, Nat.not_lt.1 hroom]

/-- An object that is allocated is allocated in the same slot. -/
theorem alloc_follows (relaxed : strict.Relaxed loose) (object : HeapObject) :
    Follows (fun made ↦ (made.1, made.2.under loose)) ((heap.under strict).alloc object)
      ((heap.under loose).alloc object) := by
  intro made hmade
  obtain ⟨hroom, hstored⟩ := alloc_eq_ok_iff.1 hmade
  have hloose := (heap.under strict).store_follows loose object made hstored
  refine alloc_eq_ok_iff.2 ⟨fun limit hlimit ↦ ?_, hloose⟩
  obtain ⟨smaller, hsmaller, hle⟩ := relaxed.maxHeapObjects_le.exists_le hlimit
  exact Nat.lt_of_lt_of_le (hroom smaller hsmaller) hle

end Heap

/-! ## Host functions -/

/-- The call of a host function with its heap under options. -/
def NativeCall.under (options : Options) (call : NativeCall) : NativeCall :=
  { call with heap := call.heap.under options }

/-- The result of a host function with its heap under options. -/
def NativeResult.under (options : Options) (result : NativeResult) : NativeResult :=
  { result with heap := result.heap.under options }

/-- A host function that does the same under relaxed limits, if it does not fail. -/
def Native.Monotone (strict loose : Options) (native : Native) : Prop :=
  ∀ call : NativeCall,
    Follows (NativeResult.under loose) (native (call.under strict)) (native (call.under loose))

namespace NativeCall

variable (call : NativeCall)

theorem alloc_follows (relaxed : strict.Relaxed loose) (object : HeapObject) :
    Follows (NativeResult.under loose) ((call.under strict).alloc object)
      ((call.under loose).alloc object) := by
  intro result hresult
  unfold alloc at hresult ⊢
  split at hresult
  · next handle heap hheap =>
    cases hresult
    have hloose : (call.under loose).heap.alloc object = .ok (handle, heap.under loose) :=
      call.heap.alloc_follows relaxed object _ hheap
    rw [hloose]
    rfl
  · cases hresult

theorem allocBignum_follows (relaxed : strict.Relaxed loose) (number : Except BignumError Bignum) :
    Follows (NativeResult.under loose) ((call.under strict).allocBignum number)
      ((call.under loose).allocBignum number) := by
  cases number with
  | ok value => exact call.alloc_follows relaxed _
  | error cause => exact .error _ _ _

end NativeCall

namespace Builtin

theorem print_monotone : print.Monotone strict loose := by
  intro call
  have hline (options : Options) : line (call.under options) = line call := by
    unfold line
    rw [← call.heap.render_under]
    rfl
  have houtput (options : Options) : (call.under options).output = call.output := rfl
  unfold print
  rw [hline, hline, houtput, houtput]
  rcases Output.write [line call, "\n"] call.output with ⟨cause | _, output⟩
  · dsimp only
    by_cases hsame : output = call.output
    · rw [if_pos hsame]
      exact .error _ _ _
    · rw [if_neg hsame, if_neg hsame]
      exact .ok _ _
  · exact .ok _ _

theorem len_monotone : len.Monotone strict loose := by
  intro call
  refine .after fun _ ↦ .after fun value ↦ ?_
  split
  · refine .after fun object ↦ ?_
    split
    · exact .error _ _ _
    · split
      · exact .ok _ _
      · exact .error _ _ _
  · exact .error _ _ _

theorem push_monotone : push.Monotone strict loose := by
  intro call
  refine .after fun _ ↦ .after fun item ↦ .after fun target ↦ ?_
  obtain ⟨handle, object⟩ := target
  cases object with
  | array items | list items => exact .ok _ _
  | _ => exact .error _ _ _

theorem pop_monotone : pop.Monotone strict loose := by
  intro call
  refine .after fun _ ↦ .after fun target ↦ ?_
  obtain ⟨handle, object⟩ := target
  cases object with
  | array items | list items => exact .ok _ _
  | _ => exact .error _ _ _

theorem bigCmp_monotone : bigCmp.Monotone strict loose := by
  intro call
  exact .after fun _ ↦ .after fun a ↦ .after fun b ↦ .ok _ _

variable (relaxed : strict.Relaxed loose)

include relaxed

theorem big_monotone : big.Monotone strict loose := by
  intro call
  have hnumber : Follows (NativeResult.under loose)
      (do (call.under strict).allocBignum (.ok (← (call.under strict).bignumArgument 0)))
      (do (call.under loose).allocBignum (.ok (← (call.under loose).bignumArgument 0))) :=
    .after fun number ↦ call.allocBignum_follows relaxed _
  refine .after fun _ ↦ .after fun value ↦ ?_
  cases value with
  | object handle =>
    refine .after fun object ↦ ?_
    cases object with
    | str text => exact call.allocBignum_follows relaxed _
    | _ => exact hnumber
  | _ => exact hnumber

theorem bigBinary_monotone (op : Bignum → Bignum → Except BignumError Bignum) :
    (bigBinary op).Monotone strict loose := by
  intro call
  refine .after fun _ ↦ .after fun a ↦ .after fun b ↦ ?_
  exact call.allocBignum_follows relaxed _

theorem bigShift_monotone (op : Bignum → Bignum → Except BignumError Bignum) :
    (bigShift op).Monotone strict loose := by
  intro call
  refine .after fun _ ↦ .after fun a ↦ .after fun count ↦ ?_
  exact call.allocBignum_follows relaxed _

theorem bigNeg_monotone : bigNeg.Monotone strict loose := by
  intro call
  exact .after fun _ ↦ .after fun a ↦ call.allocBignum_follows relaxed _

theorem bigStr_monotone : bigStr.Monotone strict loose := by
  intro call
  exact .after fun _ ↦ .after fun a ↦ call.alloc_follows relaxed _

/-- Limits make no difference to the standard host functions but that they may fail. -/
theorem all_monotone : ∀ entry ∈ all, entry.2.Monotone strict loose := by
  have hnew (object : HeapObject) : Native.Monotone strict loose (·.alloc object) :=
    fun call ↦ call.alloc_follows relaxed object
  have hbinary := bigBinary_monotone relaxed
  have hshift := bigShift_monotone relaxed
  simp only [all, List.forall_mem_cons, List.not_mem_nil, false_implies, implies_true, and_true]
  exact ⟨print_monotone, len_monotone, hnew _, hnew _, hnew _, push_monotone, pop_monotone,
    big_monotone relaxed, hbinary _, hbinary _, hbinary _, hbinary _, hbinary _, hbinary _,
    hbinary _, hbinary _, hbinary _, hshift _, hshift _, bigNeg_monotone relaxed, bigCmp_monotone,
    bigStr_monotone relaxed⟩

end Builtin

/-! ## Frames -/

namespace Frame

/-- The frame with the limits of options. -/
def under (options : Options) (frame : Frame) : Frame :=
  { frame with
    maxStack := options.limits.maxStackDepth
    maxScratch := options.limits.maxScratchSlots }

variable (frame : Frame)

theorem withArguments_follows (options : Options) (arguments : List Value) :
    Follows (under options) (frame.withArguments arguments)
      ((frame.under options).withArguments arguments) :=
  .refuse id (.ok _ _)

theorem unwind_under (thrown : Value) : (frame.under options).unwind thrown =
    ((frame.unwind thrown).1, (frame.unwind thrown).2.under options) := by
  have htries : (frame.under options).tries = frame.tries := rfl
  unfold unwind
  rw [htries]
  split
  · rfl
  · rfl

theorem setRegister_follows (options : Options) (index : UInt8) (value : Value) :
    Follows (under options) (frame.setRegister index value)
      ((frame.under options).setRegister index value) := by
  unfold setRegister
  split
  · exact .ok _ _
  · exact .error _ _ _

theorem reserveArguments_follows (options : Options) (count : Nat) :
    Follows (under options) (frame.reserveArguments count)
      ((frame.under options).reserveArguments count) :=
  .after fun _ ↦ .ok _ _

theorem setArgument_follows (options : Options) (index : Nat) (value : Value) :
    Follows (under options) (frame.setArgument index value)
      ((frame.under options).setArgument index value) :=
  .after fun _ ↦ .ok _ _

theorem pop_follows (options : Options) :
    Follows (fun popped ↦ (popped.1, popped.2.under options)) frame.pop
      (frame.under options).pop :=
  .after fun _ ↦ .ok _ (_, _)

theorem addCatch_follows (options : Options) (register : UInt8) (target : Nat) :
    Follows (under options) (frame.addCatch register target)
      ((frame.under options).addCatch register target) := by
  have htries : (frame.under options).tries = frame.tries := rfl
  unfold addCatch
  rw [htries]
  split
  · exact .error _ _ _
  · split
    · exact .error _ _ _
    · exact .ok _ _

theorem endTry_follows (options : Options) :
    Follows (fun closed ↦ (closed.1, closed.2.under options)) frame.endTry
      (frame.under options).endTry := by
  have htries : (frame.under options).tries = frame.tries := rfl
  unfold endTry
  rw [htries]
  split
  · exact .error _ _ _
  · exact .ok _ (_, _)

variable (relaxed : strict.Relaxed loose)

include relaxed

theorem new_follows (entry : Nat) :
    Follows (under loose) (new entry strict) (new entry loose) := by
  have hcapacity : loose.scratchInitialCapacity = strict.scratchInitialCapacity := by
    rw [relaxed.rest_eq]
  unfold new
  rw [hcapacity]
  split
  · exact .error _ _ _
  · exact .ok _ _

theorem push_follows (value : Value) :
    Follows (under loose) ((frame.under strict).push value) ((frame.under loose).push value) :=
  .refuse (Nat.le_trans relaxed.maxStackDepth_le) (.ok _ _)

theorem storeLocal_follows (index : Nat) (value : Value) :
    Follows (under loose) ((frame.under strict).storeLocal index value)
      ((frame.under loose).storeLocal index value) :=
  .refuse (Nat.le_trans relaxed.maxScratchSlots_le) (.ok _ _)

end Frame

/-! ## Sequences -/

/-- No position is the key after the last one, as long as that key can be written. -/
theorem Sequence.position_length {length : Nat} (hlength : length < 2 ^ 31) :
    Sequence.position (.int (Int32.ofNat length)) length =
      .error (.indexOutOfRange length length) := by
  have hkey : (Int32.ofNat length).toInt = length := Int32.toInt_ofNat_of_lt hlength
  simp [position, hkey]

/-- A key that one length allows to append at is refused by a smaller one, so that nothing is
overwritten instead. -/
theorem Sequence.set_follows {maxLength larger : Nat} (hle : maxLength ≤ larger)
    (hlarger : larger ≤ 2 ^ 31) (items : Array Value) (key value : Value) :
    Follows id (Sequence.set items key value maxLength) (Sequence.set items key value larger) := by
  unfold set
  by_cases happend : key = .int (Int32.ofNat items.size) ∧ items.size < larger
  · rw [if_pos happend]
    obtain ⟨rfl, hroom⟩ := happend
    split
    · exact .ok _ _
    · -- Beyond the range of keys the length would wrap around and name an item that exists.
      rw [position_length (Nat.lt_of_lt_of_le hroom hlarger)]
      exact .error _ _ _
  · rw [if_neg happend, if_neg]
    · exact fun _ hresult ↦ hresult
    · rintro ⟨hkey, hroom⟩
      exact happend ⟨hkey, Nat.lt_of_lt_of_le hroom hle⟩

/-! ## Machines -/

namespace Machine

/-- The machine under options, with the standard host functions. -/
def under (options : Options) (machine : Machine) : Machine :=
  { machine with options, heap := machine.heap.under options, natives := Builtin.table }

variable (machine : Machine)

theorem loadField_under (target : Value) (key : String) :
    (machine.under options).loadField target key = machine.loadField target key := by
  have hfield (handle : Handle) : (machine.under options).heap.getField handle key =
      machine.heap.getField handle key := machine.heap.getField_under handle key
  unfold loadField
  simp only [hfield]
  rfl

theorem unlock_follows (options : Options) (key : LockKey) :
    Follows (under options) (machine.unlock key) ((machine.under options).unlock key) := by
  have hlocks : (machine.under options).locks = machine.locks := rfl
  have hid : (machine.under options).id = machine.id := rfl
  unfold unlock
  rw [hlocks, hid]
  split
  · exact .ok _ _
  · exact .error _ _ _

theorem storeField_follows (options : Options) (target : Value) (key : String) (value : Value) :
    Follows (under options) (machine.storeField target key value)
      ((machine.under options).storeField target key value) := by
  unfold storeField
  cases target with
  | object handle =>
    refine .after fun object ↦ ?_
    cases object with
    | plain object => exact .ok _ _
    | _ => exact .error _ _ _
  | _ => exact .error _ _ _

theorem containerErase_follows (options : Options) (container key : Value) :
    Follows (under options) (machine.containerErase container key)
      ((machine.under options).containerErase container key) := by
  refine .after fun handle ↦ .after fun object ↦ ?_
  cases object with
  | array items | list items => exact .after fun _ ↦ .ok _ _
  | map entries => exact .ok _ _
  | set items => exact .ok _ _
  | _ => exact .error _ _ _

section Relaxed

variable (relaxed : strict.Relaxed loose)

include relaxed

theorem alloc_follows (object : HeapObject) :
    Follows (fun made ↦ (made.1, made.2.under loose)) ((machine.under strict).alloc object)
      ((machine.under loose).alloc object) := by
  intro made hmade
  unfold alloc at hmade ⊢
  split at hmade
  · next handle heap hheap =>
    cases hmade
    have hloose : (machine.under loose).heap.alloc object = .ok (handle, heap.under loose) :=
      machine.heap.alloc_follows relaxed object _ hheap
    rw [hloose]
    rfl
  · cases hmade

theorem extend_follows (prototype : Value) :
    Follows (fun made ↦ (made.1, made.2.under loose)) ((machine.under strict).extend prototype)
      ((machine.under loose).extend prototype) := by
  unfold extend
  cases prototype with
  | object handle =>
    refine .after fun object ↦ ?_
    cases object with
    | plain object => exact machine.alloc_follows relaxed _
    | _ => exact .error _ _ _
  | _ => exact .error _ _ _

theorem loadConstant_follows (program : Program) (index : Nat) :
    Follows (fun made ↦ (made.1, made.2.under loose))
      ((machine.under strict).loadConstant program index)
      ((machine.under loose).loadConstant program index) := by
  have hnatives (options : Options) : (machine.under options).natives = Builtin.table := rfl
  unfold loadConstant
  rw [hnatives, hnatives]
  split
  · exact .error _ _ _
  · exact .ok _ (_, _)
  · exact .ok _ (_, _)
  · exact machine.alloc_follows relaxed _
  · exact machine.alloc_follows relaxed _
  · split
    · exact .ok _ (_, _)
    · exact .error _ _ _

theorem newArray_follows (length : Nat) :
    Follows (fun made ↦ (made.1, made.2.under loose)) ((machine.under strict).newArray length)
      ((machine.under loose).newArray length) :=
  .refuse (Nat.lt_of_le_of_lt relaxed.maxArrayLength_le) (machine.alloc_follows relaxed _)

theorem callNative_eq_of_ok {id : UInt32} {receiver value : Value} {arguments : List Value}
    {changed : Machine}
    (h : (machine.under strict).callNative id receiver arguments = (.ok value, changed)) :
    (machine.under loose).callNative id receiver arguments = (.ok value, changed.under loose) := by
  have hnatives (options : Options) : (machine.under options).natives = Builtin.table := rfl
  unfold callNative at h ⊢
  rw [hnatives] at h ⊢
  cases hget : Builtin.table.get? id with
  | none => simp [hget] at h
  | some entry =>
    have hmonotone : entry.2.Monotone strict loose := by
      have hentry : Builtin.all[id.toNat]? = some entry := by
        rw [← hget]
        exact List.getElem?_toArray.symm
      exact Builtin.all_monotone relaxed entry (List.mem_of_getElem? hentry)
    rw [hget] at h
    dsimp only at h ⊢
    split at h
    · cases h
    · next result hresult =>
      have hloose : entry.2 ⟨(machine.under loose).heap, receiver, arguments,
          (machine.under loose).output⟩ = .ok (result.under loose) :=
        hmonotone ⟨machine.heap, receiver, arguments, machine.output⟩ result hresult
      obtain ⟨hanswer, rfl⟩ := Prod.mk.inj h
      rw [hloose, ← hanswer]
      rfl

theorem containerSet_follows (hlength : loose.limits.maxArrayLength ≤ 2 ^ 31)
    (container key value : Value) :
    Follows (under loose) ((machine.under strict).containerSet container key value)
      ((machine.under loose).containerSet container key value) := by
  have hset (items : Array Value) := Sequence.set_follows relaxed.maxArrayLength_le hlength items
  refine .after fun handle ↦ .after fun object ↦ ?_
  cases object with
  | array items | list items => exact .bind (hset items key value) fun _ _ ↦ .ok _ _
  | map entries => exact .ok _ _
  | set items => exact .ok _ _
  | _ => exact .error _ _ _

end Relaxed

end Machine

end RegisterMachine

import RegisterMachine.Proofs.Machine.Changes
import RegisterMachine.Proofs.Native.Grounded

/-!
# How long arrays become

Instructions make arrays and append to arrays and lists only up to the limit on their length. Among
the standard host functions only the one that appends makes them longer, and it knows no limit. So
with each call of it the bound that holds of all arrays and lists rises by one, and a run that never
calls it keeps the limit.
-/

namespace RegisterMachine

variable {bound larger : Nat}

/-! ## Bounded heaps -/

namespace HeapObject

/-- If the object is an array or a list, it has at most so many items. -/
def Within (bound : Nat) : HeapObject → Prop
  | .array items | .list items => items.size ≤ bound
  | _ => True

theorem Within.mono {object : HeapObject} (within : object.Within bound) (hle : bound ≤ larger) :
    object.Within larger := by
  cases object with
  | array | list => exact Nat.le_trans within hle
  | _ => trivial

end HeapObject

namespace Heap

/-- Every array and every list has at most so many items. -/
def Within (bound : Nat) (heap : Heap) : Prop :=
  ∀ index object, heap.objectAt? index = some object → object.Within bound

/-- Everything on a later heap was there before, but for one object. -/
def Gains (heap : Heap) (object : HeapObject) (later : Heap) : Prop :=
  ∀ index found, later.objectAt? index = some found →
    found = object ∨ heap.objectAt? index = some found

variable {heap later : Heap} {object : HeapObject}

theorem Within.mono (within : heap.Within bound) (hle : bound ≤ larger) : heap.Within larger :=
  fun index object hobject ↦ (within index object hobject).mono hle

theorem Gains.within (gains : heap.Gains object later) (within : heap.Within bound)
    (hobject : object.Within bound) : later.Within bound := by
  intro index found hfound
  rcases gains index found hfound with rfl | hbefore
  · exact hobject
  · exact within index found hbefore

theorem gains_modify {index : Nat} {change : Slot → Slot}
    (hchange : ∀ slot, (change slot).object = some object) {free : List UInt32} {live : Nat}
    {limit : Option Nat} {stats : HeapStats} :
    heap.Gains object ⟨heap.slots.modify index change, free, live, limit, stats⟩ := by
  intro place found hfound
  rw [objectAt?, Array.getElem?_modify] at hfound
  split at hfound
  · left
    obtain ⟨changed, hchanged, hobject⟩ := Option.bind_eq_some_iff.1 hfound
    obtain ⟨slot, -, rfl⟩ := Option.map_eq_some_iff.1 hchanged
    exact Option.some.inj (hobject.symm.trans (hchange slot))
  · exact .inr hfound

theorem put_gains (heap : Heap) (handle : Handle) (object : HeapObject) :
    heap.Gains object (heap.put handle object) :=
  gains_modify fun _ ↦ rfl

theorem alloc_gains (heap : Heap) (object : HeapObject) :
    Yields (fun made ↦ heap.Gains object made.2) (heap.alloc object) := by
  have hstore : Yields (fun made ↦ heap.Gains object made.2) (heap.store object) := by
    unfold store
    split
    · exact gains_modify fun _ ↦ rfl
    · split
      · intro index found hfound
        change ((heap.slots.push _)[index]?).bind _ = _ at hfound
        rw [Array.getElem?_push] at hfound
        split at hfound
        · exact .inl (Option.some.inj hfound).symm
        · exact .inr hfound
      · trivial
  unfold alloc
  split
  · split
    · trivial
    · exact hstore
  · exact hstore

end Heap

/-! ## Instructions -/

namespace Sequence

theorem size_set (items : Array Value) (key value : Value) (maxLength : Nat) :
    Yields (fun changed ↦ changed.size ≤ max items.size maxLength)
      (set items key value maxLength) := by
  unfold set
  split
  · next happend =>
    change (items.push value).size ≤ _
    rw [Array.size_push]
    exact Nat.le_trans happend.2 (Nat.le_max_right _ _)
  · refine .bind fun position ↦ ?_
    change (items.setIfInBounds position value).size ≤ _
    rw [Array.size_setIfInBounds]
    exact Nat.le_max_left _ _

theorem size_erase (items : Array Value) (key : Value) :
    Yields (fun changed ↦ changed.size ≤ items.size) (erase items key) := by
  refine .bind fun position ↦ ?_
  change (items.eraseIdxIfInBounds position).size ≤ _
  unfold Array.eraseIdxIfInBounds
  split
  · rw [Array.size_eraseIdx]
    exact Nat.sub_le _ _
  · exact Nat.le_refl _

end Sequence

section Instructions

variable {machine changed : Machine} {frame : Frame} (hheap : machine.heap.Within bound)

include hheap

theorem object_within (handle : Handle) :
    Yields (fun object ↦ object.Within bound) (machine.object handle) := by
  unfold Machine.object
  split
  · next object hget => exact hheap _ object (Heap.objectAt?_of_get hget)
  · trivial

theorem alloc_within {object : HeapObject} (hobject : object.Within bound) :
    Yields (fun made ↦ made.2.heap.Within bound) (machine.alloc object) := by
  unfold Machine.alloc
  split
  · next handle heap halloc =>
    exact ((machine.heap.alloc_gains object).of_ok halloc).within hheap hobject
  · trivial

theorem put_within (handle : Handle) {object : HeapObject} (hobject : object.Within bound) :
    (machine.put handle object).heap.Within bound :=
  (machine.heap.put_gains handle object).within hheap hobject

theorem extend_within (prototype : Value) :
    Yields (fun made ↦ made.2.heap.Within bound) (machine.extend prototype) := by
  unfold Machine.extend
  split
  · refine .bind fun object ↦ ?_
    split
    · exact alloc_within hheap trivial
    · trivial
  · trivial

theorem storeField_within (target : Value) (key : String) (value : Value) :
    Yields (fun changed ↦ changed.heap.Within bound) (machine.storeField target key value) := by
  unfold Machine.storeField
  split
  · refine .bind fun object ↦ ?_
    split
    · exact put_within hheap _ trivial
    · trivial
  · trivial

theorem containerErase_within (container key : Value) :
    Yields (fun changed ↦ changed.heap.Within bound) (machine.containerErase container key) := by
  refine .bind fun handle ↦ Meets.bind (object_within hheap handle) fun object _ hobject ↦ ?_
  cases object with
  | array items | list items =>
    refine Meets.bind (Sequence.size_erase items key) fun changed _ hsize ↦ ?_
    exact put_within hheap handle (Nat.le_trans hsize hobject)
  | map | set => exact put_within hheap handle trivial
  | _ => trivial

variable (limited : machine.options.limits.maxArrayLength ≤ bound)

include limited

theorem newArray_within (length : Nat) :
    Yields (fun made ↦ made.2.heap.Within bound) (machine.newArray length) := by
  unfold Machine.newArray
  split
  · trivial
  · next hlength =>
    apply alloc_within hheap
    change (Array.replicate length Value.null).size ≤ bound
    rw [Array.size_replicate]
    omega

theorem containerSet_within (container key value : Value) :
    Yields (fun changed ↦ changed.heap.Within bound)
      (machine.containerSet container key value) := by
  refine .bind fun handle ↦ Meets.bind (object_within hheap handle) fun object _ hobject ↦ ?_
  cases object with
  | array items | list items =>
    refine Meets.bind (Sequence.size_set items key value _) fun changed _ hsize ↦ ?_
    exact put_within hheap handle (Nat.le_trans hsize (Nat.max_le.2 ⟨hobject, limited⟩))
  | map | set => exact put_within hheap handle trivial
  | _ => trivial

theorem Creates.within {value : Value} (creates : Creates machine frame (value, changed)) :
    changed.heap.Within bound := by
  cases creates with
  | text h | number h | box _ h | object h =>
    refine (alloc_within hheap ?_).of_ok h
    trivial
  | extension _ h => exact (extend_within hheap _).of_ok h
  | array h => exact (newArray_within hheap limited _).of_ok h

theorem Updates.within (updates : Updates machine frame changed) :
    changed.heap.Within bound := by
  cases updates with
  | field _ _ h => exact (storeField_within hheap _ _ _).of_ok h
  | entry _ _ _ h => exact (containerSet_within hheap limited _ _ _).of_ok h
  | removal _ _ h => exact (containerErase_within hheap _ _).of_ok h
  | acquired => exact hheap
  | released h =>
    unfold Machine.unlock at h
    split at h
    · cases h
      exact hheap
    · cases h

/-- No instruction makes an array or list longer than the limit, but for those that are. -/
theorem Acts.within {program : Program} {op : Opcode} {result : Frame}
    (acts : Acts program machine frame op (.next changed result)) :
    changed.heap.Within bound := by
  cases acts with
  | create creates _ => exact creates.within hheap limited
  | update updates => exact updates.within hheap limited
  | skip | assign | receiver | moduleObject | push | pop | storeLocal | reserve | stage | openTry
  | addCatch | closeTry => exact hheap

end Instructions

/-! ## Host functions -/

/-- A host function that makes no array or list longer. -/
def Native.Keeps (function : Native) : Prop :=
  ∀ (call : NativeCall) (bound : Nat), call.heap.Within bound →
    Yields (fun result ↦ result.heap.Within bound) (function call)

namespace NativeCall

variable {call : NativeCall} (within : call.heap.Within bound)

include within

theorem alloc_within {object : HeapObject} (hobject : object.Within bound) :
    Yields (fun result ↦ result.heap.Within bound) (call.alloc object) := by
  unfold alloc
  split
  · next handle heap halloc =>
    exact ((call.heap.alloc_gains object).of_ok halloc).within within hobject
  · trivial

theorem allocBignum_within (number : Except BignumError Bignum) :
    Yields (fun result ↦ result.heap.Within bound) (call.allocBignum number) := by
  cases number with
  | ok value => exact alloc_within within trivial
  | error cause => trivial

theorem sequenceArgument_within :
    Yields (fun found ↦ found.2.Within bound) (Builtin.sequenceArgument call) := by
  refine .bind fun value ↦ ?_
  cases value with
  | object handle =>
    have hobject : Yields (fun object ↦ object.Within bound) (call.object handle) := by
      unfold NativeCall.object
      split
      · next object hget => exact within _ object (Heap.objectAt?_of_get hget)
      · trivial
    exact Meets.bind hobject fun object _ h ↦ h
  | _ => trivial

end NativeCall

namespace Builtin

theorem print_keeps : print.Keeps := by
  intro call bound within
  cases hresult : print call with
  | error cause => trivial
  | ok result =>
    obtain ⟨hheap, -⟩ := (print_meets call).of_ok hresult
    change result.heap.Within bound
    rw [hheap]
    exact within

theorem len_keeps : len.Keeps := by
  intro call bound within
  refine .bind fun _ ↦ .bind fun value ↦ ?_
  cases value with
  | object handle =>
    refine .bind fun object ↦ ?_
    split
    · trivial
    · split
      · exact within
      · trivial
  | _ => trivial

theorem pop_keeps : pop.Keeps := by
  intro call bound within
  refine .bind fun _ ↦ Meets.bind (NativeCall.sequenceArgument_within within) ?_
  intro (handle, object) _ hobject
  have hput {rest : HeapObject} (hrest : rest.Within bound) :
      (call.heap.put handle rest).Within bound :=
    (call.heap.put_gains handle rest).within within hrest
  cases object with
  | array items | list items =>
    have hsize : items.pop.size ≤ bound := by
      rw [Array.size_pop]
      exact Nat.le_trans (Nat.sub_le _ _) hobject
    exact hput hsize
  | _ => trivial

/-- The host function that appends may pass any bound, by one item. -/
theorem push_within {call : NativeCall} (within : call.heap.Within bound) :
    Yields (fun result ↦ result.heap.Within (bound + 1)) (push call) := by
  refine .bind fun _ ↦ .bind fun item ↦
    Meets.bind (NativeCall.sequenceArgument_within within) ?_
  intro (handle, object) _ hobject
  have hput {grown : HeapObject} (hgrown : grown.Within (bound + 1)) :
      (call.heap.put handle grown).Within (bound + 1) :=
    (call.heap.put_gains handle grown).within (within.mono (Nat.le_succ bound)) hgrown
  cases object with
  | array items | list items =>
    have hsize : (items.push item).size ≤ bound + 1 := by
      rw [Array.size_push]
      exact Nat.succ_le_succ hobject
    exact hput hsize
  | _ => trivial

theorem big_keeps : big.Keeps := by
  intro call bound within
  have hnumber : Yields (fun result ↦ result.heap.Within bound)
      (do call.allocBignum (.ok (← call.bignumArgument 0))) :=
    .bind fun number ↦ NativeCall.allocBignum_within within _
  refine .bind fun _ ↦ .bind fun value ↦ ?_
  cases value with
  | object handle =>
    refine .bind fun object ↦ ?_
    cases object with
    | str text => exact NativeCall.allocBignum_within within _
    | _ => exact hnumber
  | _ => exact hnumber

theorem bigBinary_keeps (op : Bignum → Bignum → Except BignumError Bignum) :
    (bigBinary op).Keeps :=
  fun _ _ within ↦ .bind fun _ ↦ .bind fun _ ↦ .bind fun _ ↦
    NativeCall.allocBignum_within within _

theorem bigShift_keeps (op : Bignum → Bignum → Except BignumError Bignum) : (bigShift op).Keeps :=
  fun _ _ within ↦ .bind fun _ ↦ .bind fun _ ↦ .bind fun _ ↦
    NativeCall.allocBignum_within within _

theorem bigNeg_keeps : bigNeg.Keeps :=
  fun _ _ within ↦ .bind fun _ ↦ .bind fun _ ↦ NativeCall.allocBignum_within within _

theorem bigCmp_keeps : bigCmp.Keeps :=
  fun _ _ within ↦ .bind fun _ ↦ .bind fun _ ↦ .bind fun _ ↦ within

theorem bigStr_keeps : bigStr.Keeps :=
  fun _ _ within ↦ .bind fun _ ↦ .bind fun _ ↦ NativeCall.alloc_within within trivial

/-- Only one of the standard host functions makes arrays and lists longer. -/
theorem all_keeps : ∀ entry ∈ all, entry = ("push", push) ∨ entry.2.Keeps := by
  have hlist : Native.Keeps listNew :=
    fun _ bound within ↦ NativeCall.alloc_within within (Nat.zero_le bound)
  have hset : Native.Keeps setNew := fun _ _ within ↦ NativeCall.alloc_within within trivial
  have hmap : Native.Keeps mapNew := fun _ _ within ↦ NativeCall.alloc_within within trivial
  simp only [all, List.mem_cons, List.not_mem_nil, or_false, forall_eq_or_imp, forall_eq]
  exact ⟨.inr print_keeps, .inr len_keeps, .inr hlist, .inr hset, .inr hmap, .inl trivial,
    .inr pop_keeps, .inr big_keeps, .inr (bigBinary_keeps _), .inr (bigBinary_keeps _),
    .inr (bigBinary_keeps _), .inr (bigBinary_keeps _), .inr (bigBinary_keeps _),
    .inr (bigBinary_keeps _), .inr (bigBinary_keeps _), .inr (bigBinary_keeps _),
    .inr (bigBinary_keeps _), .inr (bigShift_keeps _), .inr (bigShift_keeps _), .inr bigNeg_keeps,
    .inr bigCmp_keeps, .inr bigStr_keeps⟩

end Builtin

/-! ## Machines -/

/-- Whether a number is that of the host function that appends. -/
def NativeTable.appends (table : NativeTable) (id : UInt32) : Bool :=
  (table.get? id).any (·.1 == "push")

/-- A machine with the standard host functions whose arrays and lists are within a bound, which is
no lower than the limit. -/
structure Machine.Bounded (bound : Nat) (machine : Machine) : Prop where
  natives_eq : machine.natives = Builtin.table
  limit_le : machine.options.limits.maxArrayLength ≤ bound
  within : machine.heap.Within bound

namespace Machine.Bounded

variable {machine changed : Machine} (bounded : machine.Bounded bound)

include bounded

theorem of_inherits (inherits : machine.Inherits changed) (hle : bound ≤ larger)
    (within : changed.heap.Within larger) : changed.Bounded larger where
  natives_eq := by
    rw [inherits]
    exact bounded.natives_eq
  limit_le := by
    rw [inherits.options_eq]
    exact Nat.le_trans bounded.limit_le hle
  within := within

theorem mono (hle : bound ≤ larger) : machine.Bounded larger :=
  bounded.of_inherits rfl hle (bounded.within.mono hle)

theorem acts {program : Program} {frame result : Frame} {op : Opcode}
    (acts : Acts program machine frame op (.next changed result)) : changed.Bounded bound :=
  bounded.of_inherits acts.inherits (Nat.le_refl bound)
    (acts.within bounded.within bounded.limit_le)

/-- A host function keeps the bound, but for the one that appends, which raises it by one. -/
theorem callNative {id : UInt32} {receiver : Value} {arguments : List Value}
    {answer : Except Fault Value}
    (h : machine.callNative id receiver arguments = (answer, changed)) :
    changed.Bounded (bound + (machine.natives.appends id).toNat) := by
  apply bounded.of_inherits (Machine.callNative_inherits h) (Nat.le_add_right _ _)
  have hkept := bounded.within.mono (Nat.le_add_right bound (machine.natives.appends id).toNat)
  unfold Machine.callNative at h
  split at h
  · obtain rfl : machine = changed := (Prod.mk.inj h).2
    exact hkept
  · next name function hfound =>
    have hentry : (name, function) ∈ Builtin.all :=
      Builtin.mem_all_of_get? (bounded.natives_eq ▸ hfound)
    split at h
    · obtain rfl : machine = changed := (Prod.mk.inj h).2
      exact hkept
    · next result hresult =>
      obtain ⟨-, rfl⟩ := Prod.mk.inj h
      rcases Builtin.all_keeps _ hentry with happends | hkeeps
      · cases happends
        rw [NativeTable.appends, hfound]
        exact (Builtin.push_within bounded.within).of_ok hresult
      · have hwithin := (hkeeps _ bound bounded.within).of_ok hresult
        exact hwithin.mono (Nat.le_add_right _ _)

end Machine.Bounded

/-! ## Steps -/

theorem Progress.At.bounded {machine : Machine} {progress : Progress}
    (arrived : progress.At machine) (bounded : machine.Bounded bound) :
    progress.machine.Bounded bound := by
  obtain ⟨depth, hmachine⟩ := arrived
  rw [hmachine]
  exact { bounded with }

namespace State

variable {program : Program}

/-- Whether the next instruction of a run calls the host function that appends. -/
def appends (program : Program) (state : State) : Bool :=
  match exhausted? state.machine, fetch program state.frame with
  | none, (frame, .ok (op, operands)) =>
    match execute program state.counted frame op operands with
    | .ok (.call _ _ (.native id) _ _) => state.machine.natives.appends id
    | _ => false
  | _, _ => false

theorem Calls.appends_eq {state : State} {id : UInt32} (calls : state.Calls program (.native id)) :
    state.appends program = state.machine.natives.appends id := by
  obtain ⟨hdispatch, hexecute⟩ := calls
  simp only [appends, hdispatch.allowed, hdispatch.fetched, hexecute]

/-- A step keeps the bound, unless it calls the host function that appends. -/
theorem bounded_step {state : State} (bounded : state.machine.Bounded bound) :
    (state.step program).machine.Bounded (bound + (state.appends program).toNat) := by
  obtain ⟨changed, hchanges, harrived⟩ := changes_step program state
  apply harrived.bounded
  have hcounted : state.counted.Bounded bound := { bounded with }
  cases hchanges with
  | kept => exact bounded.mono (Nat.le_add_right _ _)
  | counted => exact hcounted.mono (Nat.le_add_right _ _)
  | acted acts => exact (hcounted.acts acts).mono (Nat.le_add_right _ _)
  | answered calls hanswer =>
    rw [calls.appends_eq]
    exact hcounted.callNative hanswer

end State

/-! ## Runs -/

/-- How far a run that began somewhere can come with so many calls of the host function that
appends. -/
inductive ReachesAppending (program : Program) (start : Progress) : Nat → Progress → Prop
  | refl : ReachesAppending program start 0 start
  | step {count : Nat} {state : State} : ReachesAppending program start count (.running state) →
      ReachesAppending program start (count + (state.appends program).toNat) (state.step program)
  | retry {count : Nat} {state : State} :
      ReachesAppending program start count (.waiting state) →
      ReachesAppending program start count (.running state)
  | locks {count : Nat} {state : State} (locks : LockTable) :
      ReachesAppending program start count (.running state) →
      ReachesAppending program start count
        (.running { state with machine := { state.machine with locks } })

/-- The number of calls of the host function that appends, within so many steps. -/
def Progress.appendings (program : Program) : Nat → Progress → Nat
  | steps + 1, .running state =>
    (state.appends program).toNat + appendings program steps (state.step program)
  | _, _ => 0

section Runs

variable {program : Program} {start progress : Progress} {count : Nat}

theorem Reaches.appending (reached : Reaches program start progress) :
    ∃ count, ReachesAppending program start count progress := by
  induction reached with
  | refl => exact ⟨0, .refl⟩
  | step _ ih =>
    obtain ⟨count, hcount⟩ := ih
    exact ⟨_, hcount.step⟩
  | retry _ ih =>
    obtain ⟨count, hcount⟩ := ih
    exact ⟨count, hcount.retry⟩
  | locks table _ ih =>
    obtain ⟨count, hcount⟩ := ih
    exact ⟨count, hcount.locks table⟩

namespace ReachesAppending

variable (reached : ReachesAppending program start count progress)

include reached

theorem advance (steps : Nat) :
    ReachesAppending program start (count + progress.appendings program steps)
      (progress.advance program steps) := by
  induction steps generalizing progress count with
  | zero => exact reached
  | succ steps ih =>
    cases progress with
    | running state =>
      have hlater := ih reached.step
      rwa [Nat.add_assoc] at hlater
    | waiting state => exact reached
    | ended outcome => exact reached

theorem bounded (begins : start.machine.Bounded bound) :
    progress.machine.Bounded (bound + count) := by
  induction reached with
  | refl => exact begins
  | step _ ih =>
    rw [← Nat.add_assoc]
    exact State.bounded_step ih
  | retry _ ih => exact ih
  | locks table _ ih => exact { ih with }

end ReachesAppending

theorem bounded_run (options : Options) (id : MachineId) (program : Program) :
    ((Machine.new options id).run program).machine.Bounded options.limits.maxArrayLength := by
  have hempty (index : Nat) : (Machine.new options id).heap.objectAt? index = none := by
    simp [Machine.new, Heap.objectAt?]
  have hnew : (Machine.new options id).Bounded options.limits.maxArrayLength :=
    ⟨rfl, Nat.le_refl _, fun index object hobject ↦ by simp [hempty] at hobject⟩
  have starts : Starts program (Machine.new options id)
      ((Machine.new options id).run program) := .run
  have hopens := starts.opens
  generalize (Machine.new options id).run program = start at hopens
  cases hopens with
  | entered => exact { hnew with }
  | refused => exact { hnew with }

/-- However far a run of a new machine has come, no array and no list is longer than the limit by
more than one item for each call of the host function that appends. -/
theorem array_length_le {options : Options} {id : MachineId}
    (reached : Reaches program ((Machine.new options id).run program) progress) :
    (∃ count, ReachesAppending program ((Machine.new options id).run program) count progress) ∧
      ∀ count, ReachesAppending program ((Machine.new options id).run program) count progress →
        progress.machine.heap.Within (options.limits.maxArrayLength + count) :=
  ⟨reached.appending, fun _ appending ↦ (appending.bounded (bounded_run options id program)).within⟩

end Runs

/-- Options that allow arrays of one item. -/
def narrow : Options where
  limits := { maxArrayLength := 1 }

/-- A program that makes an array of one item and appends another. -/
def overfilling : Program where
  name := "overfilling"
  constants := ⟨#[.native "push"]⟩
  code := #[
    Instruction.encode ⟨Opcode.arrayNew.byte, .immReg 0 1⟩,
    Instruction.encode ⟨Opcode.reserveArgs.byte, .imm 2⟩,
    Instruction.encode ⟨Opcode.setArg.byte, .immReg 0 0⟩,
    Instruction.encode ⟨Opcode.setArg.byte, .immReg 1 1⟩,
    Instruction.encode ⟨Opcode.loadConst.byte, .immReg 2 0⟩,
    Instruction.encode ⟨Opcode.localCall.byte, .regs2 3 2⟩,
    Instruction.encode ⟨Opcode.returnValue.byte, .regs1 0⟩]

/-- One call of the host function that appends lets an array have one item more. -/
theorem array_length_le_overfilling :
    Reaches overfilling ((Machine.new narrow 0).run overfilling)
        (((Machine.new narrow 0).run overfilling).advance overfilling 7) ∧
      (((Machine.new narrow 0).run overfilling).advance overfilling 7).machine.heap.Within 2 := by
  have reached : Reaches overfilling ((Machine.new narrow 0).run overfilling)
      (((Machine.new narrow 0).run overfilling).advance overfilling 7) := Reaches.refl.advance 7
  have begins : ReachesAppending overfilling ((Machine.new narrow 0).run overfilling) 0
      ((Machine.new narrow 0).run overfilling) := .refl
  have appending := begins.advance 7
  have hone : ((Machine.new narrow 0).run overfilling).appendings overfilling 7 = 1 := by
    decide +kernel
  rw [hone] at appending
  exact ⟨reached, (array_length_le reached).2 1 appending⟩

/-- An array can pass the limit. -/
theorem array_limit_passed : ¬ ∀ (options : Options) (id : MachineId) (program : Program)
    (progress : Progress), Reaches program ((Machine.new options id).run program) progress →
    progress.machine.heap.Within options.limits.maxArrayLength := by
  intro h
  have harray : (((Machine.new narrow 0).run overfilling).advance overfilling
      7).machine.heap.objectAt? 0 = some (.array #[.null, .null]) := by decide +kernel
  have hlength : 2 ≤ 1 := h narrow 0 overfilling _ (Reaches.refl.advance 7) 0 _ harray
  exact absurd hlength (by decide)

end RegisterMachine

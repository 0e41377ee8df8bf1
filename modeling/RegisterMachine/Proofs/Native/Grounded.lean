import RegisterMachine.Proofs.Heap.Grounded
import RegisterMachine.Proofs.Native.Output

/-!
# Host functions that keep the heap grounded

A host function is safe when, called on a grounded heap with arguments that the heap holds, it
leaves a grounded heap that holds the result, loses no object, and never fails for a stale
reference. Every standard host function is safe.
-/

namespace RegisterMachine

/-- Whether a reference was stale. -/
def NativeError.isStale : NativeError → Bool
  | .heap cause => cause.isStale
  | _ => false

/-- A host function is called on a grounded heap with arguments that it holds. -/
structure NativeCall.Grounded (call : NativeCall) : Prop where
  heap_grounded : call.heap.Grounded
  argument_held : ∀ value ∈ call.arguments, call.heap.Holds value

/-- What is left of a heap by a host function, which has not failed for a stale reference. -/
structure NativeResult.Grounded (heap : Heap) (result : NativeResult) : Prop where
  develops : heap.Develops result.heap
  value_held : result.heap.Holds result.value
  cause_fresh : ∀ cause, result.answer = .error cause → cause.isStale = false

/-- A host function that makes no reference stale and meets none. -/
def Native.Safe (function : Native) : Prop :=
  ∀ call : NativeCall, call.Grounded →
    Meets (fun cause ↦ cause.isStale = false) (NativeResult.Grounded call.heap) (function call)

/-- A part of a host function that never fails for a stale reference. -/
abbrev Settles (condition : α → Prop) (computation : Except NativeError α) : Prop :=
  Meets (fun cause ↦ cause.isStale = false) condition computation

namespace NativeCall

variable {call : NativeCall}

/-! ## Arguments -/

theorem expectCount_settles (call : NativeCall) (count : Nat) :
    Settles (fun _ ↦ True) (call.expectCount count) := by
  unfold expectCount
  split
  · trivial
  · exact rfl

namespace Grounded

variable (grounded : call.Grounded)

include grounded

theorem argument (index : Nat) : Settles call.heap.Holds (call.argument index) := by
  unfold NativeCall.argument
  split
  · next value hvalue => exact grounded.argument_held value (List.mem_of_getElem? hvalue)
  · exact rfl

omit grounded in
/-- A held reference finds its object. -/
theorem object {handle : Handle} (held : call.heap.Holds (.object handle)) :
    Settles (fun object ↦ call.heap.get handle = .ok object) (call.object handle) := by
  obtain ⟨object, hget⟩ := Heap.contains_iff.1 held.contains
  unfold NativeCall.object
  rw [hget]
  exact rfl

theorem intArgument (index : Nat) : Settles (fun _ ↦ True) (call.intArgument index) := by
  apply (grounded.argument index).bind
  intro value _ _
  cases value with
  | int => trivial
  | _ => exact rfl

theorem bignumArgument (index : Nat) : Settles (fun _ ↦ True) (call.bignumArgument index) := by
  apply (grounded.argument index).bind
  intro value _ held
  cases value with
  | int => trivial
  | object handle =>
    apply (object held).bind
    intro object _ _
    cases object with
    | bignum => trivial
    | _ => exact rfl
  | _ => exact rfl

theorem sequenceArgument : Settles (fun found ↦ call.heap.get found.1 = .ok found.2)
    (Builtin.sequenceArgument call) := by
  apply (grounded.argument 0).bind
  intro value _ held
  cases value with
  | object handle => exact (object held).bind fun object _ hget ↦ hget
  | _ => exact rfl

/-! ## Results -/

theorem unchanged {value : Value} (held : call.heap.Holds value) :
    (call.unchanged value).Grounded call.heap :=
  ⟨grounded.heap_grounded.refl, held, nofun⟩

/-- A new object that refers to nothing. -/
theorem alloc {object : HeapObject} (hchildren : object.children = [])
    (hdescent : object.descent? = none) :
    Settles (NativeResult.Grounded call.heap) (call.alloc object) := by
  have hmade := grounded.heap_grounded.allocates object
  unfold NativeCall.alloc
  split
  · next handle heap heq =>
    have hallocates := hmade.of_ok heq
    refine ⟨?_, hallocates.holds, nofun⟩
    apply hallocates.develops grounded.heap_grounded
    · simp [hchildren]
    · simp [hdescent]
  · next cause heq => exact hmade.of_error heq

theorem allocBignum (value : Except BignumError Bignum) :
    Settles (NativeResult.Grounded call.heap) (call.allocBignum value) := by
  cases value with
  | ok value => exact grounded.alloc rfl rfl
  | error cause => exact rfl

/-- An object is replaced by another that refers to nothing new but held values. -/
theorem replaced {handle : Handle} {old new : HeapObject} {value : Value}
    (hget : call.heap.get handle = .ok old) (hdescent : new.descent? = old.descent?)
    (hchildren : ∀ child ∈ new.children, call.heap.Holds child) (held : call.heap.Holds value) :
    Settles (NativeResult.Grounded call.heap)
      (pure ⟨.ok value, call.heap.put handle new, call.output⟩) := by
  have hdevelops := grounded.heap_grounded.put hget hdescent hchildren
  exact ⟨hdevelops, hdevelops.extend.holds held, nofun⟩

end Grounded

end NativeCall

/-! ## The standard host functions -/

namespace Builtin

theorem print_safe : Native.Safe print := by
  intro call grounded
  have hmeets := print_meets call
  cases hresult : print call with
  | error cause =>
    obtain ⟨reason, rfl⟩ := hmeets.of_error hresult
    exact rfl
  | ok result =>
    obtain ⟨hheap, hanswer⟩ := hmeets.of_ok hresult
    have hvalue : result.value = .null := by
      rcases hanswer with hanswer | ⟨reason, hanswer⟩ <;>
        simp [NativeResult.value, hanswer, Except.toOption]
    refine ⟨hheap ▸ grounded.heap_grounded.refl, hvalue ▸ Heap.holds_null, fun cause hcause ↦ ?_⟩
    rcases hanswer with hanswer | ⟨reason, hanswer⟩
    · cases hanswer.symm.trans hcause
    · cases hanswer.symm.trans hcause
      exact rfl

theorem len_safe : Native.Safe len := by
  intro call grounded
  apply (call.expectCount_settles 1).bind
  intro _ _ _
  apply (grounded.argument 0).bind
  intro value _ held
  cases value with
  | object handle =>
    apply (NativeCall.Grounded.object held).bind
    intro object _ _
    split
    · exact rfl
    · split
      · exact grounded.unchanged (Heap.holds_int _)
      · exact rfl
  | _ => exact rfl

theorem push_safe : Native.Safe push := by
  intro call grounded
  apply (call.expectCount_settles 2).bind
  intro _ _ _
  apply (grounded.argument 1).bind
  intro item _ hitem
  apply grounded.sequenceArgument.bind
  intro (handle, object) _ hget
  have hheld {child : Value} (h : child ∈ object.children ∨ child = item) :
      call.heap.Holds child := by
    rcases h with hchild | rfl
    · exact grounded.heap_grounded.holds_child hget hchild
    · exact hitem
  cases object with
  | array items | list items =>
    apply grounded.replaced hget
    · exact rfl
    · intro child hchild
      apply hheld
      simpa [HeapObject.children] using hchild
    · exact Heap.holds_int _
  | _ => exact rfl

theorem pop_safe : Native.Safe pop := by
  intro call grounded
  apply (call.expectCount_settles 1).bind
  intro _ _ _
  apply grounded.sequenceArgument.bind
  intro (handle, object) _ hget
  have hheld {child : Value} (h : child ∈ object.children) : call.heap.Holds child :=
    grounded.heap_grounded.holds_child hget h
  cases object with
  | array items | list items =>
    apply grounded.replaced hget
    · exact rfl
    · intro child hchild
      apply hheld
      have hpop : child ∈ items.toList.dropLast := by simpa [HeapObject.children] using hchild
      exact List.dropLast_subset _ hpop
    · apply Heap.holds_getD
      intro item hback
      exact hheld (by simpa [HeapObject.children] using Array.mem_of_back? hback)
  | _ => exact rfl

theorem big_safe : Native.Safe big := by
  intro call grounded
  have hnumber : Settles (NativeResult.Grounded call.heap)
      (do call.allocBignum (.ok (← call.bignumArgument 0))) := by
    apply (grounded.bignumArgument 0).bind
    intro number _ _
    exact grounded.allocBignum _
  apply (call.expectCount_settles 1).bind
  intro _ _ _
  apply (grounded.argument 0).bind
  intro value _ held
  cases value with
  | object handle =>
    apply (NativeCall.Grounded.object held).bind
    intro object _ _
    cases object with
    | str text => exact grounded.allocBignum _
    | _ => exact hnumber
  | _ => exact hnumber

theorem bigBinary_safe (op : Bignum → Bignum → Except BignumError Bignum) :
    Native.Safe (bigBinary op) := by
  intro call grounded
  apply (call.expectCount_settles 2).bind
  intro _ _ _
  apply (grounded.bignumArgument 0).bind
  intro a _ _
  apply (grounded.bignumArgument 1).bind
  intro b _ _
  exact grounded.allocBignum _

theorem bigShift_safe (op : Bignum → Bignum → Except BignumError Bignum) :
    Native.Safe (bigShift op) := by
  intro call grounded
  apply (call.expectCount_settles 2).bind
  intro _ _ _
  apply (grounded.bignumArgument 0).bind
  intro a _ _
  apply (grounded.intArgument 1).bind
  intro count _ _
  exact grounded.allocBignum _

theorem bigNeg_safe : Native.Safe bigNeg := by
  intro call grounded
  apply (call.expectCount_settles 1).bind
  intro _ _ _
  apply (grounded.bignumArgument 0).bind
  intro a _ _
  exact grounded.allocBignum _

theorem bigCmp_safe : Native.Safe bigCmp := by
  intro call grounded
  apply (call.expectCount_settles 2).bind
  intro _ _ _
  apply (grounded.bignumArgument 0).bind
  intro a _ _
  apply (grounded.bignumArgument 1).bind
  intro b _ _
  exact grounded.unchanged (Heap.holds_int _)

theorem bigStr_safe : Native.Safe bigStr := by
  intro call grounded
  apply (call.expectCount_settles 1).bind
  intro _ _ _
  apply (grounded.bignumArgument 0).bind
  intro a _ _
  exact grounded.alloc rfl rfl

theorem all_safe : ∀ entry ∈ all, Native.Safe entry.2 := by
  have hlist : Native.Safe listNew := fun _ grounded ↦ grounded.alloc rfl rfl
  have hset : Native.Safe setNew := fun _ grounded ↦ grounded.alloc rfl rfl
  have hmap : Native.Safe mapNew := fun _ grounded ↦ grounded.alloc rfl rfl
  simp only [all, List.mem_cons, List.not_mem_nil, or_false, forall_eq_or_imp, forall_eq]
  exact ⟨print_safe, len_safe, hlist, hset, hmap, push_safe, pop_safe, big_safe, bigBinary_safe _,
    bigBinary_safe _, bigBinary_safe _, bigBinary_safe _, bigBinary_safe _, bigBinary_safe _,
    bigBinary_safe _, bigBinary_safe _, bigBinary_safe _, bigShift_safe _, bigShift_safe _,
    bigNeg_safe, bigCmp_safe, bigStr_safe⟩

theorem mem_all_of_get? {id : UInt32} {entry : String × Native} (h : table.get? id = some entry) :
    entry ∈ all :=
  List.mem_toArray.1 (Array.mem_of_getElem? h)

/-- Whatever number a program calls, the function it finds is safe. -/
theorem safe_of_get? {id : UInt32} {name : String} {function : Native}
    (h : table.get? id = some (name, function)) : function.Safe :=
  all_safe _ (mem_all_of_get? h)

end Builtin

end RegisterMachine

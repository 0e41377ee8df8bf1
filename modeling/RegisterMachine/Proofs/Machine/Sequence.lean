import RegisterMachine.Proofs.Heap.Grounded
import RegisterMachine.Proofs.InPlace.Work
import RegisterMachine.Proofs.Limits.Relaxed

/-!
# Arrays and lists are sequences

An integer key reads, replaces or removes the item that it numbers, or appends where it numbers the
place after the last item. Keys have 32 bits, and the place to append at is told by the key that the
length is cut to. So this is all that can happen as long as nothing may be appended at a place that
no key numbers; beyond, a key that numbers another item, or none, appends.

Whatever is done to them, an array and a list with the same items answer the same and keep the same
items, however long they are.
-/

namespace RegisterMachine

open Work (settle)

/-! ## Keys -/

namespace Sequence

variable {items : Array Value} {key : Int32} {value : Value} {place length maxLength : Nat}

theorem position_of_lt (hkey : key.toInt = place) (hlt : place < length) :
    position (.int key) length = .ok place := by
  simp [position, hkey, hlt]

theorem position_of_not (h : ¬ (0 ≤ key.toInt ∧ key.toInt < length)) :
    position (.int key) length = .error (.indexOutOfRange key.toInt length) :=
  if_neg h

/-- At most the place after the last item has a key that appends, if that place has a key at all. -/
theorem appends_iff (hexact : length < maxLength → length < 2 ^ 31) :
    (Value.int key = .int (Int32.ofNat length) ∧ length < maxLength) ↔
      key.toInt = length ∧ length < maxLength := by
  refine and_congr_left fun hroom ↦ ?_
  rw [Value.int.injEq, ← Int32.toInt_inj, Int32.toInt_ofNat_of_lt (hexact hroom)]

theorem set_of_not (hexact : items.size < maxLength → items.size < 2 ^ 31)
    (h : ¬ (key.toInt = items.size ∧ items.size < maxLength)) :
    set items (.int key) value maxLength =
      (position (.int key) items.size).map (items.setIfInBounds · value) :=
  if_neg (mt (appends_iff hexact).1 h)

/-- The key of an item reads, replaces and removes this item, and no other. -/
theorem eq_of_lt_size (hexact : items.size < maxLength → items.size < 2 ^ 31)
    (hkey : key.toInt = place) (hlt : place < items.size) :
    get items (.int key) = .ok items[place] ∧
      set items (.int key) value maxLength = .ok (items.set place value) ∧
      erase items (.int key) = .ok (items.eraseIdx place) := by
  have hposition : position (.int key) items.size = .ok place := position_of_lt hkey hlt
  refine ⟨?_, ?_, ?_⟩
  · rw [get, hposition]
    exact congrArg Except.ok (by simp [hlt])
  · rw [set_of_not hexact (by omega), hposition]
    exact congrArg Except.ok (dif_pos hlt)
  · rw [erase, hposition]
    exact congrArg Except.ok (dif_pos hlt)

/-- The key of the place after the last item appends, while the length may grow. -/
theorem set_of_eq (hexact : items.size < maxLength → items.size < 2 ^ 31)
    (hkey : key.toInt = items.size) (hroom : items.size < maxLength) :
    set items (.int key) value maxLength = .ok (items.push value) :=
  if_pos ((appends_iff hexact).2 ⟨hkey, hroom⟩)

/-- A key that numbers no item is out of range, unless it may append. -/
theorem eq_error_of_not (hexact : items.size < maxLength → items.size < 2 ^ 31)
    (h : ¬ (0 ≤ key.toInt ∧ key.toInt < items.size)) :
    get items (.int key) = .error (.indexOutOfRange key.toInt items.size) ∧
      (¬ (key.toInt = items.size ∧ items.size < maxLength) →
        set items (.int key) value maxLength =
          .error (.indexOutOfRange key.toInt items.size)) ∧
      erase items (.int key) = .error (.indexOutOfRange key.toInt items.size) := by
  have hposition := position_of_not h
  refine ⟨?_, fun hfull ↦ ?_, ?_⟩
  · rw [get, hposition]
    rfl
  · rw [set_of_not hexact hfull, hposition]
    rfl
  · rw [erase, hposition]
    rfl

/-- From the first length on that no key numbers, a key that does not number the place after the
last item appends nevertheless, while the length may grow. -/
theorem exists_set_eq_push (hlength : 2 ^ 31 ≤ items.size) (hroom : items.size < maxLength) :
    ∃ key : Int32, key.toInt ≠ items.size ∧
      ∀ value, set items (.int key) value maxLength = .ok (items.push value) := by
  refine ⟨Int32.ofNat items.size, ?_, fun value ↦ if_pos ⟨rfl, hroom⟩⟩
  have hlt := (Int32.ofNat items.size).toInt_lt
  omega

end Sequence

/-! ## Actions -/

/-- What can be done to a sequence: `set` replaces an item or appends one. -/
inductive SequenceAction where
  | get (key : Value)
  | set (key value : Value)
  | erase (key : Value)
  | push (item : Value)
  | pop
  | len
  deriving DecidableEq, Repr

namespace SequenceAction

/-- What an action answers, and the items after it. -/
def on (maxLength : Nat) (items : Array Value) : SequenceAction → Except Fault (Value × Array Value)
  | .get key => return (← Sequence.get items key, items)
  | .set key value => return (.null, ← Sequence.set items key value maxLength)
  | .erase key => return (.null, ← Sequence.erase items key)
  | .push item => .ok (.int (Int32.ofNat (min (items.size + 1) (2 ^ 31 - 1))), items.push item)
  | .pop => .ok (items.back?.getD .null, items.pop)
  | .len =>
    if items.size < 2 ^ 31 then .ok (.int (Int32.ofNat items.size), items)
    else .error (.native "len" (.argumentError s!"length {items.size} does not fit"))

/-- Calls a host function by name. -/
def ask (machine : Machine) (name : String) (arguments : List Value) :
    Except Fault Value × Machine :=
  match machine.natives.lookup? name with
  | some id => machine.callNative id .null arguments
  | none => (.error (.unknownNative name), machine)

/-- Does something to the sequence of a reference. -/
def perform (machine : Machine) (handle : Handle) : SequenceAction → Except Fault Value × Machine
  | .get key => (machine.containerGet (.object handle) key, machine)
  | .set key value =>
    settle (.ok .null, ·) machine (machine.containerSet (.object handle) key value)
  | .erase key => settle (.ok .null, ·) machine (machine.containerErase (.object handle) key)
  | .push item => ask machine "push" [.object handle, item]
  | .pop => ask machine "pop" [.object handle]
  | .len => ask machine "len" [.object handle]

end SequenceAction

/-- The two kinds of sequences on the heap. -/
inductive SequenceKind where
  | array
  | list

/-- The object of a kind with these items. -/
def SequenceKind.object : SequenceKind → Array Value → HeapObject
  | .array, items => .array items
  | .list, items => .list items

section Natives

variable {call : NativeCall} {handle : Handle} {object : HeapObject}

theorem NativeCall.argument_eq {value : Value} {index : Nat}
    (h : call.arguments[index]? = some value) : call.argument index = .ok value := by
  rw [NativeCall.argument, h]

theorem NativeCall.object_eq (hget : call.heap.get handle = .ok object) :
    call.object handle = .ok object := by
  rw [NativeCall.object, hget]

theorem Builtin.sequenceArgument_eq (hargument : call.arguments[0]? = some (.object handle))
    (hget : call.heap.get handle = .ok object) :
    Builtin.sequenceArgument call = .ok (handle, object) := by
  refine bind_eq_ok_iff.2 ⟨_, NativeCall.argument_eq hargument, ?_⟩
  exact bind_eq_ok_iff.2 ⟨object, NativeCall.object_eq hget, rfl⟩

theorem Builtin.len_eq {length : Nat} (harguments : call.arguments = [.object handle])
    (hget : call.heap.get handle = .ok object) (hlength : Builtin.length? object = some length) :
    Builtin.len call =
      if length < 2 ^ 31 then .ok (call.unchanged (.int (Int32.ofNat length)))
      else .error (.argumentError s!"length {length} does not fit") := by
  have hargument : call.arguments[0]? = some (.object handle) := by rw [harguments]; rfl
  have hcount : call.expectCount 1 = .ok () := by
    rw [NativeCall.expectCount, harguments]
    rfl
  simp only [Builtin.len, hcount, NativeCall.argument_eq hargument, NativeCall.object_eq hget,
    hlength, bind, Except.bind]
  rfl

end Natives

/-- On a machine with the standard host functions, a reference has a sequence of a kind. -/
structure Machine.Keeps (machine : Machine) (handle : Handle) (kind : SequenceKind)
    (maxLength : Nat) (items : Array Value) : Prop where
  natives_eq : machine.natives = Builtin.table
  limit_eq : machine.options.limits.maxArrayLength = maxLength
  get_eq : machine.heap.get handle = .ok (kind.object items)

namespace Machine.Keeps

variable {machine : Machine} {handle : Handle} {kind : SequenceKind} {maxLength : Nat}
  {items : Array Value} (keeps : machine.Keeps handle kind maxLength items)

include keeps

theorem put (changed : Array Value) :
    (machine.put handle (kind.object changed)).Keeps handle kind maxLength changed where
  natives_eq := keeps.natives_eq
  limit_eq := keeps.limit_eq
  get_eq := by rw [Machine.put, Heap.get_put keeps.get_eq, if_pos rfl]

/-- To put the same items back changes nothing. -/
theorem put_self : machine.put handle (kind.object items) = machine := by
  obtain ⟨slot, hslot, -, hobject⟩ := Heap.get_eq_ok_iff.1 keeps.get_eq
  have hsame : machine.heap.slots.modify handle.index.toNat
      (fun slot ↦ { slot with object := some (kind.object items) }) = machine.heap.slots := by
    refine Array.ext_getElem? fun index ↦ ?_
    rw [Array.getElem?_modify]
    split
    · next h =>
      rw [← h, hslot, Option.map_some, ← hobject]
    · rfl
  rw [Machine.put, Heap.put, hsame]

theorem object_eq : machine.object handle = .ok (kind.object items) := by
  rw [Machine.object, keeps.get_eq]

/-- A host function answers for the items alone. -/
theorem ask_eq {name : String} {id : UInt32} {function : Native} {arguments : List Value}
    (hid : Builtin.table.lookup? name = some id)
    (hget : Builtin.table.get? id = some (name, function)) :
    SequenceAction.ask machine name arguments =
      settle
        (fun result : NativeResult ↦ (result.answer.mapError (.native name),
          { machine with heap := result.heap, output := result.output }))
        machine
        ((function ⟨machine.heap, .null, arguments, machine.output⟩).mapError (.native name)) := by
  rw [← keeps.natives_eq] at hid hget
  simp only [SequenceAction.ask, Machine.callNative, hid, hget]
  cases function ⟨machine.heap, .null, arguments, machine.output⟩ <;> rfl

/-- What is done to a sequence depends on its items, and not on its kind. -/
theorem perform_eq (action : SequenceAction) :
    action.perform machine handle =
      settle (fun result ↦ (.ok result.1, machine.put handle (kind.object result.2))) machine
        (action.on maxLength items) := by
  have hobject := keeps.object_eq
  cases action with
  | get key =>
    have hget : machine.containerGet (.object handle) key = Sequence.get items key := by
      simp only [Machine.containerGet, Machine.containerHandle, bind, Except.bind, hobject]
      cases kind <;> rfl
    simp only [SequenceAction.perform, SequenceAction.on, hget]
    cases Sequence.get items key with
    | ok value => exact congrArg (Except.ok value, ·) keeps.put_self.symm
    | error cause => rfl
  | set key value =>
    have hset : machine.containerSet (.object handle) key value =
        (Sequence.set items key value maxLength).map
          fun changed ↦ machine.put handle (kind.object changed) := by
      simp only [Machine.containerSet, Machine.containerHandle, bind, Except.bind, hobject,
        keeps.limit_eq]
      cases kind <;> rfl
    simp only [SequenceAction.perform, SequenceAction.on, hset]
    cases Sequence.set items key value maxLength <;> rfl
  | erase key =>
    have herase : machine.containerErase (.object handle) key =
        (Sequence.erase items key).map
          fun changed ↦ machine.put handle (kind.object changed) := by
      simp only [Machine.containerErase, Machine.containerHandle, bind, Except.bind, hobject]
      cases kind <;> rfl
    simp only [SequenceAction.perform, SequenceAction.on, herase]
    cases Sequence.erase items key <;> rfl
  | push item =>
    have hid : Builtin.table.lookup? "push" = some 5 := by decide +kernel
    have hget : Builtin.table.get? 5 = some ("push", Builtin.push) := rfl
    rw [SequenceAction.perform, keeps.ask_eq hid hget, Builtin.push,
      Builtin.sequenceArgument_eq rfl keeps.get_eq]
    cases kind <;> rfl
  | pop =>
    have hid : Builtin.table.lookup? "pop" = some 6 := by decide +kernel
    have hget : Builtin.table.get? 6 = some ("pop", Builtin.pop) := rfl
    rw [SequenceAction.perform, keeps.ask_eq hid hget, Builtin.pop,
      Builtin.sequenceArgument_eq rfl keeps.get_eq]
    cases kind <;> rfl
  | len =>
    have hid : Builtin.table.lookup? "len" = some 1 := by decide +kernel
    have hget : Builtin.table.get? 1 = some ("len", Builtin.len) := rfl
    have hlength : Builtin.length? (kind.object items) = some items.size := by
      cases kind <;> rfl
    rw [SequenceAction.perform, keeps.ask_eq hid hget, Builtin.len_eq rfl keeps.get_eq hlength,
      SequenceAction.on]
    by_cases hfits : items.size < 2 ^ 31
    · rw [if_pos hfits, if_pos hfits]
      exact congrArg (Except.ok _, ·) keeps.put_self.symm
    · rw [if_neg hfits, if_neg hfits]
      rfl

end Machine.Keeps

/-! ## Sequences of actions -/

namespace SequenceAction

/-- What actions answer one after the other, and the items after all of them. One that fails changes
nothing. -/
def onAll (maxLength : Nat) :
    List SequenceAction → Array Value → List (Except Fault Value) × Array Value
  | [], items => ([], items)
  | action :: rest, items =>
    match action.on maxLength items with
    | .ok (value, changed) => (onAll maxLength rest changed).map (.ok value :: ·) id
    | .error cause => (onAll maxLength rest items).map (.error cause :: ·) id

/-- Does one thing after the other to the sequence of a reference, on the machine as it has been
left. -/
def performAll (handle : Handle) :
    List SequenceAction → Machine → List (Except Fault Value) × Machine
  | [], machine => ([], machine)
  | action :: rest, machine =>
    let (answer, later) := action.perform machine handle
    (performAll handle rest later).map (answer :: ·) id

theorem performAll_keeps {machine : Machine} {handle : Handle} {kind : SequenceKind}
    {maxLength : Nat} {items : Array Value} (keeps : machine.Keeps handle kind maxLength items)
    (actions : List SequenceAction) :
    (performAll handle actions machine).1 = (onAll maxLength actions items).1 ∧
      (performAll handle actions machine).2.Keeps handle kind maxLength
        (onAll maxLength actions items).2 := by
  induction actions generalizing machine items with
  | nil => exact ⟨rfl, keeps⟩
  | cons action rest ih =>
    rw [performAll, onAll, keeps.perform_eq]
    cases action.on maxLength items with
    | ok result =>
      obtain ⟨value, changed⟩ := result
      obtain ⟨hanswers, hkeeps⟩ := ih (keeps.put changed)
      exact ⟨congrArg (List.cons (Except.ok value)) hanswers, hkeeps⟩
    | error cause =>
      obtain ⟨hanswers, hkeeps⟩ := ih keeps
      exact ⟨congrArg (List.cons (Except.error cause)) hanswers, hkeeps⟩

end SequenceAction

/-- An array and a list that have the same items, of any length, cannot be told apart by what is
done to them: every action answers the same, and in the end they have the same items again. The two
may be on one machine or on different ones with the same limit. -/
theorem array_list_alike {first second : Machine} {array list : Handle} {maxLength : Nat}
    {items : Array Value} (hfirst : first.Keeps array .array maxLength items)
    (hsecond : second.Keeps list .list maxLength items) (actions : List SequenceAction) :
    (SequenceAction.performAll array actions first).1 =
        (SequenceAction.performAll list actions second).1 ∧
      ∃ changed, (SequenceAction.performAll array actions first).2.heap.get array =
          .ok (.array changed) ∧
        (SequenceAction.performAll list actions second).2.heap.get list = .ok (.list changed) := by
  obtain ⟨harray, hkept⟩ := SequenceAction.performAll_keeps hfirst actions
  obtain ⟨hlist, hkeeps⟩ := SequenceAction.performAll_keeps hsecond actions
  exact ⟨harray.trans hlist.symm, _, hkept.get_eq, hkeeps.get_eq⟩

end RegisterMachine

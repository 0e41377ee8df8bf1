import RegisterMachine.Heap.Object

/-!
# The heap

Objects live in numbered slots. A slot counts how often it was freed, so a reference that outlives
its object is noticed instead of naming whatever reused the slot. Slots freed last are reused first.
There is room for every object while a slot can be numbered.
-/

namespace RegisterMachine

/-- Why the heap refuses an operation. -/
inductive HeapError where
  | limitExceeded (limit : Nat)
  | allocationFailed
  | danglingReference (handle : Handle)
  deriving DecidableEq, Repr

def HeapError.message : HeapError → String
  | .limitExceeded limit => s!"Heap object limit {limit} reached"
  | .allocationFailed => "Failed to grow the heap"
  | .danglingReference handle => s!"Dangling reference to slot {handle.index}"

/-- A slot of the heap. The generation counts how often it was freed, modulo the width of the
counter; the mark says whether a collection in progress has reached the object. -/
structure Slot where
  generation : UInt32 := 0
  marked : Bool := false
  object : Option HeapObject := none
  deriving DecidableEq, Repr

/-- An emptied slot: its references are stale from now on. -/
def Slot.released (slot : Slot) : Slot :=
  { slot with object := none, generation := slot.generation + 1 }

structure HeapStats where
  collections : Nat := 0
  objectsFreed : Nat := 0
  peakLive : Nat := 0
  deriving DecidableEq, Repr

/-- The slots, those of them that are free, and how many objects live. -/
structure Heap where
  slots : Array Slot := #[]
  free : List UInt32 := []
  live : Nat := 0
  limit : Option Nat := none
  stats : HeapStats := {}
  deriving DecidableEq, Repr

namespace Heap

/-- The slot that a reference names, if its generation is the current one. -/
def slot? (heap : Heap) (handle : Handle) : Option Slot :=
  heap.slots[handle.index.toNat]?.filter (·.generation == handle.generation)

def get (heap : Heap) (handle : Handle) : Except HeapError HeapObject :=
  match (heap.slot? handle).bind (·.object) with
  | some object => .ok object
  | none => .error (.danglingReference handle)

def contains (heap : Heap) (handle : Handle) : Bool :=
  ((heap.slot? handle).bind (·.object)).isSome

def put (heap : Heap) (handle : Handle) (object : HeapObject) : Heap :=
  { heap with
    slots := heap.slots.modify handle.index.toNat fun slot => { slot with object := some object } }

def grown (heap : Heap) : Heap :=
  { heap with
    live := heap.live + 1
    stats := { heap.stats with peakLive := max heap.stats.peakLive (heap.live + 1) } }

/-- Stores an object in the slot freed last, or in a new one. -/
def store (heap : Heap) (object : HeapObject) : Except HeapError (Handle × Heap) :=
  match heap.free with
  | index :: free =>
    let slots := heap.slots.modify index.toNat fun slot =>
      { slot with object := some object, marked := false }
    let generation := (heap.slots[index.toNat]?.map (·.generation)).getD 0
    .ok (⟨index, generation⟩, grown { heap with slots, free })
  | [] =>
    if heap.slots.size < 2 ^ 32 then
      .ok (⟨UInt32.ofNat heap.slots.size, 0⟩,
        grown { heap with slots := heap.slots.push { object := some object } })
    else .error .allocationFailed

/-- Allocates an object, unless the limit is reached. -/
def alloc (heap : Heap) (object : HeapObject) : Except HeapError (Handle × Heap) :=
  match heap.limit with
  | some limit => if heap.live ≥ limit then .error (.limitExceeded limit) else heap.store object
  | none => heap.store object

def release (heap : Heap) (handle : Handle) : Except HeapError (HeapObject × Heap) := do
  let object ← heap.get handle
  return (object,
    { heap with
      slots := heap.slots.modify handle.index.toNat Slot.released
      free := handle.index :: heap.free
      live := heap.live - 1 })

/-! ## Fields -/

/-- Looks for a field along at most so many objects of a prototype chain. -/
def findField (heap : Heap) (key : String) : Nat → Handle → Except HeapError (Option Value)
  | 0, _ => .ok none
  | remaining + 1, handle => do
    match ← heap.get handle with
    | .plain object =>
      match object.fields.lookup key, object.prototype with
      | some value, _ => .ok (some value)
      | none, some next => findField heap key remaining next
      | none, none => .ok none
    | _ => .ok none

/-- The value of a field of an object or of its nearest prototype that has it. No chain without a
repetition is longer than the number of living objects. -/
def getField (heap : Heap) (handle : Handle) (key : String) : Except HeapError (Option Value) :=
  heap.findField key heap.live handle

end Heap

end RegisterMachine

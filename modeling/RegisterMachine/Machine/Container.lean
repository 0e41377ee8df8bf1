import RegisterMachine.Machine.Basic

/-!
# Containers

Arrays and lists are sequences with integer keys from zero; the key after the last one appends. Maps
take any key, a missing one has null, and sets answer whether they hold a key. Room for another item
is always found; the limit on the length is the only one.
-/

namespace RegisterMachine

/-! ## Sequences -/

namespace Sequence

def position (key : Value) (length : Nat) : Except Fault Nat :=
  match key with
  | .int index =>
    if 0 ≤ index.toInt ∧ index.toInt < length then .ok index.toInt.toNat
    else .error (.indexOutOfRange index.toInt length)
  | other => .error (.type (.elementIndex other.typeName))

def get (items : Array Value) (key : Value) : Except Fault Value := do
  return (items[← position key items.size]?).getD .null

/-- Sets the item of a key, or appends at the key after the last one while the length allows. -/
def set (items : Array Value) (key value : Value) (maxLength : Nat) :
    Except Fault (Array Value) :=
  if key = .int (Int32.ofNat items.size) ∧ items.size < maxLength then .ok (items.push value)
  else do return items.setIfInBounds (← position key items.size) value

/-- Removes the item of a key, moving the later ones down. -/
def erase (items : Array Value) (key : Value) : Except Fault (Array Value) := do
  return items.eraseIdxIfInBounds (← position key items.size)

end Sequence

namespace Machine

def containerHandle (op : Opcode) : Value → Except Fault Handle
  | .object handle => .ok handle
  | other => .error (.type (.operand op "container" other.typeName))

def newArray (machine : Machine) (length : Nat) : Except Fault (Value × Machine) :=
  if length > machine.options.limits.maxArrayLength then .error (.arrayTooLarge length)
  else machine.alloc (.array (Array.replicate length .null))

def containerGet (machine : Machine) (container key : Value) : Except Fault Value := do
  let handle ← containerHandle .arrayGet container
  match ← machine.object handle with
  | .array items | .list items => Sequence.get items key
  | .map entries => return (entries.lookup key).getD .null
  | .set items => return .bool (items.contains key)
  | other => throw (.type (.operand .arrayGet "container" other.typeName))

/-- Sets the entry of a key of a container. A set takes in the key if the value counts as true, and
else drops it. -/
def containerSet (machine : Machine) (container key value : Value) : Except Fault Machine := do
  let handle ← containerHandle .arraySet container
  let maxLength := machine.options.limits.maxArrayLength
  match ← machine.object handle with
  | .array items => return machine.put handle (.array (← Sequence.set items key value maxLength))
  | .list items => return machine.put handle (.list (← Sequence.set items key value maxLength))
  | .map entries => return machine.put handle (.map (Entries.insert entries key value))
  | .set items =>
    let items :=
      if value.isTruthy then (if items.contains key then items else items ++ [key])
      else items.filter (· != key)
    return machine.put handle (.set items)
  | other => throw (.type (.operand .arraySet "container" other.typeName))

def containerErase (machine : Machine) (container key : Value) : Except Fault Machine := do
  let handle ← containerHandle .arrayDelete container
  match ← machine.object handle with
  | .array items => return machine.put handle (.array (← Sequence.erase items key))
  | .list items => return machine.put handle (.list (← Sequence.erase items key))
  | .map entries => return machine.put handle (.map (Entries.erase entries key))
  | .set items => return machine.put handle (.set (items.filter (· != key)))
  | other => throw (.type (.operand .arrayDelete "container" other.typeName))

end Machine

end RegisterMachine

import RegisterMachine.Bignum.Basic
import RegisterMachine.Value

/-!
# Heap objects

What a slot of the heap holds. Fields, maps and sets keep their entries in the order in which the
keys first came; no operation of the machine depends on that order.
-/

namespace RegisterMachine

/-! ## Entries by key -/

namespace Entries

/-- Sets the value of a key, in its place if the key has one and else at the end. -/
def insert [BEq α] (entries : List (α × β)) (key : α) (value : β) : List (α × β) :=
  if entries.any (·.1 == key) then
    entries.map fun entry => if entry.1 == key then (key, value) else entry
  else entries ++ [(key, value)]

def erase [BEq α] (entries : List (α × β)) (key : α) : List (α × β) :=
  entries.filter fun entry => !(entry.1 == key)

end Entries

/-! ## Objects -/

/-- An object with fields, which finds missing fields in its prototype. -/
structure PlainObject where
  prototype : Option Handle := none
  fields : List (String × Value) := []
  deriving DecidableEq, Repr

/-- An object on the heap. -/
inductive HeapObject where
  | bignum (value : Bignum)
  | boxed (value : Value)
  | str (value : String)
  | array (items : Array Value)
  | list (items : Array Value)
  | set (items : List Value)
  | map (entries : List (Value × Value))
  | plain (object : PlainObject)
  deriving DecidableEq, Repr

namespace HeapObject

def typeName : HeapObject → String
  | .bignum _ => "bigint"
  | .boxed _ => "boxed"
  | .str _ => "string"
  | .array _ => "array"
  | .list _ => "list"
  | .set _ => "set"
  | .map _ => "map"
  | .plain _ => "object"

def children : HeapObject → List Value
  | .bignum _ | .str _ => []
  | .boxed value => [value]
  | .array items | .list items => items.toList
  | .set items => items
  | .map entries => entries.flatMap fun entry => [entry.1, entry.2]
  | .plain object =>
    object.prototype.toList.map .object ++ object.fields.map (·.2)

def references (object : HeapObject) : List Handle :=
  object.children.filterMap Value.handle?

end HeapObject

end RegisterMachine

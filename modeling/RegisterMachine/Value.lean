import RegisterMachine.Binary32.Decimal

/-!
# Values

What a register, an argument, a stack slot or a container entry holds. Two values are equal when
they are the same, floats bit for bit; the numeric comparisons of the machine are a different
relation.
-/

namespace RegisterMachine

/-- A reference to an object on the heap: a slot and the generation it was allocated in. -/
structure Handle where
  index : UInt32
  generation : UInt32
  deriving DecidableEq, Repr

/-- A value of the machine. -/
inductive Value where
  | null
  | bool (value : Bool)
  | int (value : Int32)
  | float (value : Binary32)
  | native (id : UInt32)
  | function (index : UInt16)
  | object (handle : Handle)
  deriving DecidableEq, Repr

namespace Value

instance : Inhabited Value :=
  ⟨.null⟩

/-- Whether a value counts as true: null, false and zeros do not. -/
def isTruthy : Value → Bool
  | .null => false
  | .bool value => value
  | .int value => value != 0
  | .float value => !value.isZero
  | .native _ | .function _ | .object _ => true

def isNull : Value → Bool
  | .null => true
  | _ => false

def int? : Value → Option Int32
  | .int value => some value
  | _ => none

def float? : Value → Option Binary32
  | .float value => some value
  | _ => none

def bool? : Value → Option Bool
  | .bool value => some value
  | _ => none

def handle? : Value → Option Handle
  | .object handle => some handle
  | _ => none

def typeName : Value → String
  | .null => "null"
  | .bool _ => "bool"
  | .int _ => "int"
  | .float _ => "float"
  | .native _ => "native"
  | .function _ => "function"
  | .object _ => "object"

/-- An order as a number: minus one, zero or one. -/
def orderNumber : Ordering → Int32
  | .lt => -1
  | .eq => 0
  | .gt => 1

def ofOrdering (order : Ordering) : Value :=
  .int (orderNumber order)

/-- The text of a value that does not look into the heap. -/
def text : Value → String
  | .null => "null"
  | .bool value => if value then "true" else "false"
  | .int value => toString value.toInt
  | .float value => value.toText
  | .native id => s!"<native #{id}>"
  | .function index => s!"<function #{index}>"
  | .object handle => s!"<object #{handle.index}>"

end Value

end RegisterMachine

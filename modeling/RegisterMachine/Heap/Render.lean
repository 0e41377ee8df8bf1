import RegisterMachine.Bignum.Numeral
import RegisterMachine.Heap.Basic

/-!
# Text of values on the heap

A value is shown with the contents of the objects it refers to, nine references deep.
-/

namespace RegisterMachine.Heap

/-- The text of a value with the contents of objects so many references deep. -/
def renderWith (heap : Heap) : Nat → Value → String
  | 0, .object _ => "..."
  | depth + 1, .object handle =>
    let many (values : List Value) : String :=
      String.intercalate ", " (values.map (renderWith heap depth))
    match heap.get handle with
    | .error _ => "<dangling>"
    | .ok (.bignum value) => value.toText
    | .ok (.boxed value) => renderWith heap depth value
    | .ok (.str value) => value
    | .ok (.array items) => "[" ++ many items.toList ++ "]"
    | .ok (.list items) => "[" ++ many items.toList ++ "]"
    | .ok (.set items) => "\x7b" ++ many items ++ "\x7d"
    | .ok (.map entries) =>
      let shown := entries.map fun entry =>
        renderWith heap depth entry.1 ++ ": " ++ renderWith heap depth entry.2
      "\x7b" ++ String.intercalate ", " shown ++ "\x7d"
    | .ok (.plain _) => s!"<object #{handle.index}>"
  | _, value => value.text

def render (heap : Heap) (value : Value) : String :=
  heap.renderWith 9 value

end RegisterMachine.Heap

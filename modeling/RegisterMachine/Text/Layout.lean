/-!
# Layout of numerals

A numeral is laid out in a field of at least a given width. The sign comes first, then the marker
of the base when one is asked for, then the digits. Zeros fill between marker and digits; any other
filling goes around the whole. A width never cuts a numeral.
-/

namespace RegisterMachine.Text

/-- Where a numeral stands in a field wider than itself. -/
inductive Alignment where
  | left
  | center
  | right
  deriving DecidableEq, Repr

/-- How a numeral fills its field. -/
inductive Filling where
  | zeros
  | around (fill : Char) (alignment : Alignment)
  deriving DecidableEq, Repr

/-- A way to lay out a numeral. -/
structure Layout where
  showPlus : Bool := false
  showMarker : Bool := false
  width : Nat := 0
  filling : Filling := .around ' ' .right
  deriving Repr

def repeated (count : Nat) (c : Char) : String :=
  String.ofList (List.replicate count c)

/-- Lays out the digits of a number, given its sign and the marker of the base. -/
def Layout.apply (layout : Layout) (negative : Bool) (marker digits : String) : String :=
  let sign := if negative then "-" else if layout.showPlus then "+" else ""
  let marker := if layout.showMarker then marker else ""
  let missing := layout.width - (sign.length + marker.length + digits.length)
  match layout.filling with
  | .zeros => sign ++ marker ++ repeated missing '0' ++ digits
  | .around fill alignment =>
    let numeral := sign ++ marker ++ digits
    match alignment with
    | .left => numeral ++ repeated missing fill
    | .right => repeated missing fill ++ numeral
    | .center => repeated (missing / 2) fill ++ numeral ++ repeated (missing - missing / 2) fill

end RegisterMachine.Text

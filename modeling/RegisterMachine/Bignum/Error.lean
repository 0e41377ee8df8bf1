import RegisterMachine.Text.Quoted

/-!
# Bignum errors

What can go wrong with an integer of any size, and the wording of each case.
-/

namespace RegisterMachine

/-- Why an operation on bignums has no result. -/
inductive BignumError where
  | zeroCapacity
  | capacityOverflow
  | allocationFailed (limbs : Nat)
  | divisionByZero
  | invalidShift
  | shiftTooLarge
  | parse (text : String)
  deriving DecidableEq, Repr

def BignumError.message : BignumError → String
  | .zeroCapacity => "Bignum capacity must be at least one limb"
  | .capacityOverflow => "Bignum capacity overflow"
  | .allocationFailed limbs => s!"Failed to allocate {limbs} limbs"
  | .divisionByZero => "Division by zero"
  | .invalidShift => "Shift count must be positive"
  | .shiftTooLarge => "Shift count too large"
  | .parse text => "Invalid integer literal: " ++ Text.quote text

end RegisterMachine

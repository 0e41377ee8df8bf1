/-!
# Powers

Powers with a natural exponent are those of the type itself, also where a library offers powers in
every monoid: a bound such as `2 ^ 31` is the same term in every module.
-/

namespace RegisterMachine

@[default_instance 10001]
instance (priority := high) powOfNatPow [NatPow α] : Pow α Nat :=
  instPowNat

end RegisterMachine

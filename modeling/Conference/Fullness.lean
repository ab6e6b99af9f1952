import Conference.Rounding

/-!
# Fullness

How full a resource is: one less the quotient of available and maximal capacity, computed in binary
floating point, so that each step rounds. The result is a multiple of `2⁻⁵³` between zero and one,
so it is kept as that multiple, a natural number of at most `2⁵³`.
-/

namespace Conference.Fullness

open Rounding

/-- Full: the number one. -/
def full : Nat := Nat.pow 2 precision

/-- The number of binary places at which the quotient of two positive numbers, the first not above
the second, has all its significant bits. -/
def places (num den : Nat) : Nat :=
  let k := precision - 1 + den.log2 - num.log2
  if Nat.pow 2 (precision - 1) * den ≤ num * Nat.pow 2 k then k else k + 1

/-- One less the significand `m` over `2 ^ k`, rounded to a multiple of `2⁻⁵³`. -/
def complement (m k : Nat) : Nat :=
  if k ≤ precision then (Nat.pow 2 k - m) * Nat.pow 2 (precision - k)
  else roundDiv (Nat.pow 2 k - m) (Nat.pow 2 (k - precision))

/-- The fullness of a resource of which `available` out of `maximum` is left. A resource without
capacity is full. -/
def ratio (available maximum : Nat) : Nat :=
  if maximum = 0 then full
  else
    let num := roundNat available
    let den := roundNat maximum
    if num = 0 then full
    else
      let k := places num den
      complement (roundDiv (num * Nat.pow 2 k) den) k

/-- The 64 bits of the double-precision number that a multiple of `2⁻⁵³` is. -/
def bits (n : Nat) : Nat :=
  if n = 0 then 0
  else
    let exponent := n.log2
    let unit := Nat.pow 2 52
    (exponent + 970) * unit + (n * unit / Nat.pow 2 exponent - unit)

end Conference.Fullness

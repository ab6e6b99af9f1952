/-!
# Rounding

The numbers of binary floating point have 53 significant bits. Rounding takes the nearest of them
and, of two equally near, the one with an even last bit.
-/

namespace Conference.Rounding

def precision : Nat := 53

/-- The quotient `num / den`, rounded to the nearest natural number and half way to the even one. -/
def roundDiv (num den : Nat) : Nat :=
  let quotient := num / den
  let rest := num % den
  if den < 2 * rest then quotient + 1
  else if 2 * rest = den then quotient + quotient % 2
  else quotient

/-- The floating-point number nearest to `n`, if there is no largest one. -/
def roundNat (n : Nat) : Nat :=
  if n < Nat.pow 2 precision then n
  else
    let step := Nat.pow 2 (n.log2 + 1 - precision)
    roundDiv n step * step

/-- The least number that is rounded up beyond the largest floating-point number. -/
def overflowBound : Nat := Nat.pow 2 1024 - Nat.pow 2 970

end Conference.Rounding

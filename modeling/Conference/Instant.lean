import Conference.Text.Numeral

/-!
# Instants

Points in time are whole seconds since the epoch, negative before it. Those that can be named fit
into 64 bits with a sign.
-/

namespace Conference.Instant

/-- The first and the last instant that can be named. -/
def least : Int := -9223372036854775808

@[inherit_doc least]
def greatest : Int := 9223372036854775807

def isNamed (t : Int) : Bool := decide (least ≤ t) && decide (t ≤ greatest)

/-- The nearest instant that can be named. -/
def clamp (t : Int) : Int :=
  if t < least then least else if greatest < t then greatest else t

def read? (cs : List Char) : Option Int := (Numeral.readSigned? cs).filter isNamed

/-- A time that cannot be named gives way to the bound that it lies beyond. -/
theorem clamp_eq (t : Int) : clamp t = max least (min greatest t) := by
  have bounds : least ≤ greatest := by decide
  unfold clamp
  split
  · omega
  · split <;> omega

end Conference.Instant

import Conference.Value.Pattern

/-!
# Value pools

The values that an alias provider hands out. They come pattern by pattern in the order of the
patterns, and the first one that is not in use is the next to go. A value that is asked for by name
has to fit a pattern unless the pool takes any.
-/

namespace Conference

structure Pool where
  patterns : List Pattern
  /-- Any value may be asked for, whether or not it fits a pattern. -/
  acceptsAny : Bool
deriving DecidableEq

/-- A text that is no pattern, and why. -/
structure Pool.Fault where
  source : String
  cause : PatternFault
deriving DecidableEq

namespace Pool

/-- Reads the patterns of a pool; the first one that is refused refuses the pool. -/
def parsePatterns : List String → Except Pool.Fault (List Pattern)
  | [] => .ok []
  | source :: sources =>
    match Pattern.parse source with
    | .error cause => .error ⟨source, cause⟩
    | .ok pattern => (parsePatterns sources).map (pattern :: ·)

def parse (sources : List String) (acceptsAny : Bool) : Except Pool.Fault Pool :=
  (parsePatterns sources).map (⟨·, acceptsAny⟩)

/-- The number of values of all patterns, as far as 64 bits can say. -/
def capacity (pool : Pool) : Nat :=
  let n := pool.patterns.foldr (fun p n => p.capacity + n) 0
  if n ≤ Pattern.maxCount then n else Pattern.maxCount

/-- All values in the order in which they are handed out. -/
def values (pool : Pool) : List String := pool.patterns.flatMap Pattern.values

/-- At most `size` values of several patterns, leaving out the first `start`. -/
def windowOf (start size : Nat) : List Pattern → List String
  | [] => []
  | p :: ps =>
    let found := p.window start size
    found ++ windowOf (start - p.capacity) (size - found.length) ps

def window (pool : Pool) (start size : Nat) : List String := windowOf start size pool.patterns

def accepts (pool : Pool) (value : String) : Bool :=
  pool.acceptsAny || pool.patterns.any (·.admits value)

/-- The first value, in the order of the pool, that is not in use. -/
def firstFree? (pool : Pool) (used : List String) : Option String :=
  pool.patterns.findSome? (·.firstFree? used)

end Pool

end Conference

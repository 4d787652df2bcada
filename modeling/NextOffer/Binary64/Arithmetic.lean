import NextOffer.Binary64.Basic

/-! # Arithmetic on binary floating point values

Each operation is the exact result, rounded once.
-/

namespace NextOffer.Binary64

/-- The value with its sign changed; a NaN stays. -/
def neg : Binary64 → Binary64
  | .nan => .nan
  | .infinity negative => .infinity (!negative)
  | .finite negative quanta h => .finite (!negative) quanta h

/-- The rounded sum. Opposite infinities have none; opposite finite values add up
    to the positive zero. -/
def add : Binary64 → Binary64 → Binary64
  | .nan, _ => .nan
  | _, .nan => .nan
  | .infinity a, .infinity b => if a = b then .infinity a else .nan
  | .infinity a, .finite .. => .infinity a
  | .finite .., .infinity b => .infinity b
  | .finite a m _, .finite b n _ => ofQuanta (a && b) (signed a m + signed b n)

def sub (x y : Binary64) : Binary64 := add x (neg y)

/-- The rounded product; zero times an infinity has none. -/
def mul : Binary64 → Binary64 → Binary64
  | .nan, _ => .nan
  | _, .nan => .nan
  | .infinity a, .infinity b => .infinity (a ^^ b)
  | .infinity a, .finite b n _ => if n = 0 then .nan else .infinity (a ^^ b)
  | .finite a m _, .infinity b => if m = 0 then .nan else .infinity (a ^^ b)
  | .finite a m _, .finite b n _ => ofQuotient (a ^^ b) (m * n) unit

/-- The rounded quotient, for a divisor that is not zero. -/
def div : Binary64 → Binary64 → Binary64
  | .nan, _ => .nan
  | _, .nan => .nan
  | .infinity _, .infinity _ => .nan
  | .infinity a, .finite b _ _ => .infinity (a ^^ b)
  | .finite a _ _, .infinity b => zero (a ^^ b)
  | .finite a m _, .finite b n _ => ofQuotient (a ^^ b) (m * unit) n

end NextOffer.Binary64

/-! # Sets of characters as ranges of code points -/

namespace NextOffer.Text

/-- Code points from the first to the last of each pair. -/
abbrev Ranges := List (Nat × Nat)

def Ranges.has (ranges : Ranges) (c : Char) : Bool :=
  ranges.any fun range => range.1 ≤ c.toNat && c.toNat ≤ range.2

end NextOffer.Text

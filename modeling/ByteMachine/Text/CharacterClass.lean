/-! Sets of characters given by inclusive ranges of code points. -/

namespace ByteMachine

/-- Inclusive ranges of code points, ascending. -/
abbrev CharacterClass := List (Nat × Nat)

/-- Whether some range holds the code point of `c`. -/
def CharacterClass.contains (ranges : CharacterClass) (c : Char) : Bool :=
  ranges.any fun range => range.1 ≤ c.toNat && c.toNat ≤ range.2

end ByteMachine

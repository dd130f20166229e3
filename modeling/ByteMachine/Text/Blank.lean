import ByteMachine.Text.CharacterClass

/-! White space, as the Unicode property `White_Space` has it, and the two operations that depend on
it: cutting it off both ends of a text, and splitting a text into words. -/

namespace ByteMachine.Text

/-- The characters with the property `White_Space`. -/
def blanks : CharacterClass :=
  [(0x09, 0x0D), (0x20, 0x20), (0x85, 0x85), (0xA0, 0xA0), (0x1680, 0x1680), (0x2000, 0x200A),
    (0x2028, 0x2029), (0x202F, 0x202F), (0x205F, 0x205F), (0x3000, 0x3000)]

def isBlank (c : Char) : Bool := blanks.contains c

/-- Everything from the first character that is not blank to the last one. -/
def trimChars (cs : List Char) : List Char :=
  ((cs.dropWhile isBlank).reverse.dropWhile isBlank).reverse

/-- The longest runs of characters that are not blank, in order. -/
def wordChars (cs : List Char) : List (List Char) :=
  (cs.splitOnP isBlank).filter fun piece => !piece.isEmpty

def trim (s : String) : String := String.ofList (trimChars s.toList)

def words (s : String) : List String := (wordChars s.toList).map String.ofList

end ByteMachine.Text

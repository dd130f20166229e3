import ByteMachine.Text.Numeral
import ByteMachine.Text.Quoted

/-! Instruction tokens: exactly four hexadecimal digits of either case, the most significant first.
Nothing is trimmed. Positions count characters from zero. -/

namespace ByteMachine

namespace Token

/-- Why a text is no token. The length is checked first, then the characters from the left. -/
inductive Error
  | wrongLength (length : Nat)
  | invalidDigit (position : Nat) (found : Char)
  deriving DecidableEq

def Error.message : Error → String
  | .wrongLength length => s!"Expected 4 hex digits, got {length} characters"
  | .invalidDigit position found =>
    s!"Invalid hex digit {Text.quoteChar found} at position {position}"

/-- Appends digits, the first of which stands at `position`, to those of `value`. -/
def readDigits (position value : Nat) : List Char → Except Error Nat
  | [] => .ok value
  | c :: cs =>
    match Numeral.digit? 16 c with
    | none => .error (.invalidDigit position c)
    | some d => readDigits (position + 1) (value * 16 + d) cs

/-- The word that a token denotes. -/
def parse (token : String) : Except Error Word :=
  if token.length = 4 then (readDigits 0 0 token.toList).map UInt16.ofNat
  else .error (.wrongLength token.length)

end Token

end ByteMachine

import ByteMachine.Text.Numeral

/-! Integers written in a given radix, read into a bounded range. A sign may lead: plus always,
minus only where the range has negative numbers. Digits are taken one by one, so of a number that
leaves the range and a later character that is no digit the first one met is reported. -/

namespace ByteMachine.Text

/-- The integers from `least` to `greatest`. -/
structure IntegerRange where
  least : Int
  greatest : Int

/-- Why a text does not denote an integer of a range. -/
inductive IntegerError
  | noDigits
  | badDigit
  | tooLarge
  | tooSmall
  deriving DecidableEq

def IntegerError.message : IntegerError → String
  | .noDigits => "cannot parse integer from empty string"
  | .badDigit => "invalid digit found in string"
  | .tooLarge => "number too large to fit in target type"
  | .tooSmall => "number too small to fit in target type"

namespace IntegerRange

/-- An unsigned byte. -/
def byte : IntegerRange := ⟨0, 255⟩

/-- An address or a length: an unsigned number of 64 bits. -/
def size : IntegerRange := ⟨0, 0xFFFFFFFFFFFFFFFF⟩

/-- Appends digits to the value of those already read; `negative` tells which way they count. -/
def readDigits (range : IntegerRange) (radix : Nat) (negative : Bool) :
    Int → List Char → Except IntegerError Int
  | value, [] => .ok value
  | value, c :: cs =>
    match Numeral.digit? radix c with
    | none => .error .badDigit
    | some d =>
      if negative then
        let next := value * radix - d
        if next < range.least then .error .tooSmall else range.readDigits radix negative next cs
      else
        let next := value * radix + d
        if range.greatest < next then .error .tooLarge else range.readDigits radix negative next cs

/-- Reads a whole text. A sign alone has a digit missing, and an empty text all of them. -/
def read (range : IntegerRange) (radix : Nat) (cs : List Char) : Except IntegerError Int :=
  match cs with
  | [] => .error .noDigits
  | ['+'] | ['-'] => .error .badDigit
  | '+' :: digits => range.readDigits radix false 0 digits
  | '-' :: digits =>
    if range.least < 0 then range.readDigits radix true 0 digits else .error .badDigit
  | digits => range.readDigits radix false 0 digits

end IntegerRange

end ByteMachine.Text

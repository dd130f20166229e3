import ByteMachine.Word

/-! Numerals as the reports write them and as their readers take them: upper-case hexadecimal with
leading zeros, decimal right-aligned in a column, and the value of a single digit. -/

namespace ByteMachine.Numeral

/-- Upper-case hexadecimal with at least `width` digits. -/
def hex (width n : Nat) : String :=
  String.ofList (((Nat.toDigits 16 n).map Char.toUpper).leftpad width '0')

/-- Lower-case hexadecimal without leading zeros. -/
def lowerHex (n : Nat) : String := String.ofList (Nat.toDigits 16 n)

/-- Decimal, right-aligned in a column of at least `width` characters. -/
def column (width n : Nat) : String := String.ofList ((Nat.toDigits 10 n).leftpad width ' ')

/-- A byte always takes two digits. -/
def byte (b : Byte) : String := hex 2 b.toNat

/-- A word always takes four digits. -/
def word (w : Word) : String := hex 4 w.toNat

/-- The place of `c` among the digits `0` to `9`, then `a` to `z` in either case. -/
def digitValue (c : Char) : Nat :=
  if c.isDigit then c.toNat - 48
  else if c.isLower then c.toNat - 87
  else if c.isUpper then c.toNat - 55
  else 36

/-- The value of `c` as a digit of the given radix, which is at most 36. -/
def digit? (radix : Nat) (c : Char) : Option Nat :=
  if digitValue c < radix then some (digitValue c) else none

end ByteMachine.Numeral

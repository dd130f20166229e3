import ByteMachine.Word

/-! Arithmetic on bytes that stays within bytes: addition of signed readings, their order, and
rotation. -/

namespace ByteMachine.Byte

/-- The two's complement reading of a byte. -/
def signed (b : Byte) : Int := Int.bmod b.toNat 256

/-- The byte whose signed reading is `n`, up to a multiple of 256. -/
def ofSigned (n : Int) : Byte := UInt8.ofNat (n % 256).toNat

/-- The sum of the signed readings. Overflow wraps in both directions. -/
def addSigned (a b : Byte) : Byte := ofSigned (signed a + signed b)

/-- Whether `a` exceeds `b` in their signed readings. -/
def greaterSigned (a b : Byte) : Bool := signed b < signed a

/-- Moves every bit down by `steps` places modulo eight; bits that leave at the bottom come back at
the top. -/
def rotateRight (b : Byte) (steps : Nat) : Byte :=
  let k := steps % 8
  UInt8.ofNat (b.toNat / Nat.pow 2 k + b.toNat % Nat.pow 2 k * Nat.pow 2 (8 - k))

end ByteMachine.Byte

/-! Binary floating point of single precision, in exact integers. Every finite value is a whole
number of units, a unit being the smallest positive value, `2 ^ (-149)`. An operation computes the
exact result and rounds it once: to the nearest value with a significand of 24 bits, ties to the
even one. -/

namespace ByteMachine

/-- A value of single precision. A finite one is its sign and its magnitude in units; the sign is
kept for zero too. -/
inductive Single
  | nan
  | infinite (negative : Bool)
  | finite (negative : Bool) (units : Nat)
  deriving DecidableEq

namespace Single

/-- How many units make one. -/
def one : Nat := Nat.pow 2 149

/-- The first power of two beyond the range, in units. -/
def overflow : Nat := Nat.pow 2 277

/-- The distance between neighbouring values about a magnitude of `units` is two to this power. -/
def spacing (units : Nat) : Nat := Nat.log2 units - 23

/-! ### Rounding -/

/-- The integer nearest to `num / den`; of two equally near ones the even one. -/
def nearest (num den : Nat) : Nat :=
  let q := num / den
  let twice := 2 * (num % den)
  if twice < den then q
  else if den < twice then q + 1
  else q + q % 2

/-- The value nearest to `num / den` units. -/
def round (negative : Bool) (num den : Nat) : Single :=
  let k := spacing (num / den)
  let units := nearest num (den * Nat.pow 2 k) * Nat.pow 2 k
  if units < overflow then .finite negative units else .infinite negative

/-! ### Bit patterns -/

/-- The weight of the sign bit. -/
def signBit : Nat := 0x80000000

/-- The weight of the significand's leading bit, which a pattern leaves out. -/
def hidden : Nat := 0x800000

/-- The value of a bit pattern: a sign, eight bits of exponent and 23 of fraction. -/
def ofBits (bits : UInt32) : Single :=
  let negative := signBit ≤ bits.toNat
  let exponent := bits.toNat / hidden % 256
  let fraction := bits.toNat % hidden
  if exponent = 255 then if fraction = 0 then .infinite negative else .nan
  else if exponent = 0 then .finite negative fraction
  else .finite negative ((hidden + fraction) * Nat.pow 2 (exponent - 1))

/-- The bit pattern of a magnitude. The leading bit of the significand carries into the exponent. -/
def magnitudeBits (units : Nat) : Nat :=
  spacing units * hidden + units / Nat.pow 2 (spacing units)

/-- A bit pattern of the value; the quiet one without payload for `nan`. -/
def toBits : Single → UInt32
  | .nan => 0x7FC00000
  | .infinite negative => UInt32.ofNat ((if negative then signBit else 0) + 255 * hidden)
  | .finite negative units =>
    UInt32.ofNat ((if negative then signBit else 0) + magnitudeBits units)

/-! ### Arithmetic -/

/-- The finite value as a signed number of units. -/
def signedUnits (negative : Bool) (units : Nat) : Int := if negative then -units else units

/-- The sum. Opposite infinities have none, and a sum of zero is negative only for two negative
operands. -/
def add : Single → Single → Single
  | .nan, _ | _, .nan => .nan
  | .infinite s, .infinite t => if s = t then .infinite s else .nan
  | .infinite s, .finite _ _ | .finite _ _, .infinite s => .infinite s
  | .finite s m, .finite t n =>
    let sum := signedUnits s m + signedUnits t n
    let negative := if sum = 0 then s && t else sum < 0
    round negative sum.natAbs 1

instance : Add Single := ⟨add⟩

/-- The product with `2 ^ k`. -/
def scaleUp (k : Nat) : Single → Single
  | .finite negative units => round negative (units * Nat.pow 2 k) 1
  | x => x

/-- The quotient by `2 ^ k`. -/
def scaleDown (k : Nat) : Single → Single
  | .finite negative units => round negative units (Nat.pow 2 k)
  | x => x

/-! ### Integers -/

/-- The value of a natural number. -/
def ofNat (n : Nat) : Single := round false (n * one) 1

/-- The nearest integer of 32 bits toward zero. Larger magnitudes, infinities among them, give the
nearest end of that range, and `nan` gives zero. -/
def toInt32 : Single → Int
  | .nan => 0
  | .infinite negative => if negative then -0x80000000 else 0x7FFFFFFF
  | .finite negative units =>
    max (-0x80000000) (min 0x7FFFFFFF (signedUnits negative (units / one)))

end Single

end ByteMachine

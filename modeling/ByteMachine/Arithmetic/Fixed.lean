import ByteMachine.Arithmetic.Byte
import ByteMachine.Arithmetic.Single

/-! Fixed point with four integer bits and four fraction bits: a byte counts sixteenths. The sum
goes through single precision, which holds every sum of two such numbers exactly. -/

namespace ByteMachine.Fixed

/-- A sixteenth of the unsigned byte. -/
def toSingle (b : Byte) : Single := (Single.ofNat b.toNat).scaleDown 4

/-- Sixteen times the value toward zero, of which the low eight bits are kept. -/
def ofSingle (x : Single) : Byte := Byte.ofSigned (x.scaleUp 4).toInt32

def add (a b : Byte) : Byte := ofSingle (toSingle a + toSingle b)

end ByteMachine.Fixed

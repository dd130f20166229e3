import ByteMachine.Instruction.Kind
import ByteMachine.Text.Numeral

/-! Instructions and their printed form. An instruction may hold operands that its kind does not
encode; they are shown like the others. -/

namespace ByteMachine

/-- A kind with its operands: registers by their number and the immediate by its value. -/
structure Instruction where
  kind : Kind
  a : Option Nat
  b : Option Nat
  c : Option Nat
  immediate : Option Byte
  deriving DecidableEq

namespace Instruction

/-- The operands that are there, registers first. -/
def operands (i : Instruction) : List String :=
  (i.a.toList ++ i.b.toList ++ i.c.toList).map (fun register => s!"%{register}") ++
    i.immediate.toList.map fun value => s!"$0x{Numeral.byte value}"

/-- The mnemonic, then the operands with commas between them. -/
def text (i : Instruction) : String :=
  if i.operands.isEmpty then i.kind.mnemonic
  else i.kind.mnemonic ++ " " ++ ", ".intercalate i.operands

/-- The instruction with the operands that its kind encodes, and no others. -/
def stripped (i : Instruction) : Instruction where
  kind := i.kind
  a := if i.kind.usesA then i.a else none
  b := if i.kind.usesB then i.b else none
  c := if i.kind.usesC then i.c else none
  immediate := if i.kind.immediateMax.isSome then i.immediate else none

end Instruction

end ByteMachine

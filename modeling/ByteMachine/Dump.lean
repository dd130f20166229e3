import ByteMachine.Memory.Basic
import ByteMachine.Text.Numeral

/-! Reports on memory: rows of bytes with the address of the first, registers by number, and lists
of changes. -/

namespace ByteMachine.Dump

/-- How many bytes stand in a row. -/
def rowLength : Nat := 16

/-- The address of a row, then the bytes from there up to but not including `stop`. -/
def row {size : Nat} (m : Memory size) (start stop : Nat) : String :=
  let bytes := (List.range' start (stop - start)).map fun address => Numeral.byte (m.read address)
  s!"{Numeral.hex 2 start}: " ++ " ".intercalate bytes ++ "\n"

/-- The rows of the bytes from `start` up to but not including `stop`; the last may be short. -/
def rows {size : Nat} (m : Memory size) (start stop : Nat) : String :=
  String.join ((List.range ((stop - start + (rowLength - 1)) / rowLength)).map fun k =>
    let first := start + k * rowLength
    row m first (min (first + rowLength) stop))

/-- The rows of `length` bytes from `start` on, as far as memory goes. -/
def memory {size : Nat} (m : Memory size) (start length : Nat) : String :=
  rows m start (min (start + length) size)

/-- One line for each cell. -/
def registers {size : Nat} (m : Memory size) : String :=
  String.join ((List.range size).map fun register =>
    s!"R{register}: {Numeral.byte (m.read register)}\n")

/-- The value before and after. -/
def change (change : Change) : String :=
  s!"{Numeral.byte change.old} -> {Numeral.byte change.new}"

/-- One line for each change, with the number of the register. -/
def registerChanges (changes : List (Nat × Change)) : String :=
  String.join (changes.map fun entry => s!"R{entry.1}: {change entry.2}\n")

/-- One line for each change, with the address in brackets. -/
def memoryChanges (changes : List (Nat × Change)) : String :=
  String.join (changes.map fun entry => s!"[{Numeral.hex 2 entry.1}]: {change entry.2}\n")

end ByteMachine.Dump

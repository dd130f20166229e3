import ByteMachine.Arithmetic.Fixed
import ByteMachine.Instruction.Kind
import ByteMachine.Machine.Basic
import ByteMachine.Text.Numeral

/-! What the kinds of instruction do to the store. An operation gets the whole word and picks the
fields that it needs. All sources are read before the one cell is written. Jumps evaluate and log
their condition only. -/

namespace ByteMachine

abbrev Operation := Verbosity → Word → Store → Outcome Store

namespace Operation

/-- The operation that changes the store and logs nothing. -/
def pureEffect (effect : Word → Store → Store) : Operation := fun _ word s =>
  ⟨effect word s, .normal, []⟩

/-- The operation that puts a value into register `A`. -/
def assign (value : Word → Store → Byte) : Operation :=
  pureEffect fun word s => s.setRegister (Word.regA word) (value word s)

/-- The operation that puts a function of registers `B` and `C` into register `A`. -/
def binary (f : Byte → Byte → Byte) : Operation := assign fun word s =>
  f (s.registers.read (Word.regB word)) (s.registers.read (Word.regC word))

/-- The operation that logs how register `A` compares with the immediate. -/
def condition (mnemonic sign : String) (holds : Byte → Byte → Bool) : Operation :=
  fun verbosity word s =>
    let value := Word.immediate word
    let answer := holds (s.registers.read (Word.regA word)) value
    let operands := s!"%{Word.regA word} {sign} 0x{Numeral.byte value}"
    ⟨s, .normal, verbosity.emit .debug s!"{mnemonic} {operands}: {answer} (not taken)"⟩

def load : Operation := assign fun word s => s.memory.read (Word.immediate word).toNat

def loadImmediate : Operation := assign fun word _ => Word.immediate word

def store : Operation := pureEffect fun word s =>
  s.setMemory (Word.immediate word).toNat (s.registers.read (Word.regA word))

def copy : Operation := assign fun word s => s.registers.read (Word.regC word)

def rotate : Operation := assign fun word s =>
  Byte.rotateRight (s.registers.read (Word.regA word)) (Word.regC word)

def jumpIfEqual : Operation := condition "jeq" "==" fun a b => a == b

def jumpIfGreater : Operation := condition "jgt" ">" Byte.greaterSigned

def halt : Operation := fun _ _ s => ⟨s, .halted, []⟩

/-- The operation of a kind. The kind that does nothing has none, like an unassigned opcode. -/
def ofKind? : Kind → Option Operation
  | .nop => none
  | .load => some load
  | .loadi => some loadImmediate
  | .store => some store
  | .cpy => some copy
  | .add => some (binary Byte.addSigned)
  | .addf => some (binary Fixed.add)
  | .or => some (binary (· ||| ·))
  | .and => some (binary (· &&& ·))
  | .xor => some (binary (· ^^^ ·))
  | .ror => some rotate
  | .jeq => some jumpIfEqual
  | .halt => some halt
  | .jgt => some jumpIfGreater

def ofOpcode? (opcode : Nat) : Option Operation := (Kind.ofOpcode? opcode).bind ofKind?

/-- The opcodes that have an operation, ascending. -/
def opcodes : List Nat := (List.range 16).filter fun opcode => (ofOpcode? opcode).isSome

end Operation

end ByteMachine

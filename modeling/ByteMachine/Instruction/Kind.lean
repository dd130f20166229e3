/-! The kinds of instruction, their opcodes and mnemonics, and the operands that each kind encodes.
Opcodes 14 and 15 are unassigned. -/

namespace ByteMachine

inductive Kind
  | nop | load | loadi | store | cpy | add | addf | or | and | xor | ror | jeq | halt | jgt
  deriving DecidableEq

/-- Which fields of a word an instruction encodes. -/
inductive Format
  /-- No field. -/
  | bare
  /-- Register `A` and an immediate of eight bits. -/
  | regImm
  /-- Registers `A` and `C`. -/
  | regReg
  /-- Registers `A`, `B` and `C`. -/
  | regRegReg
  /-- Register `A` and a count in the four bits of `C`. -/
  | regCount
  deriving DecidableEq

namespace Kind

/-- Every kind, each at the place of its opcode. -/
def all : List Kind :=
  [.nop, .load, .loadi, .store, .cpy, .add, .addf, .or, .and, .xor, .ror, .jeq, .halt, .jgt]

def opcode : Kind → Nat
  | .nop => 0
  | .load => 1
  | .loadi => 2
  | .store => 3
  | .cpy => 4
  | .add => 5
  | .addf => 6
  | .or => 7
  | .and => 8
  | .xor => 9
  | .ror => 10
  | .jeq => 11
  | .halt => 12
  | .jgt => 13

def ofOpcode? (opcode : Nat) : Option Kind := all[opcode]?

def mnemonic : Kind → String
  | .nop => "nop"
  | .load => "load"
  | .loadi => "loadi"
  | .store => "store"
  | .cpy => "cpy"
  | .add => "add"
  | .addf => "addf"
  | .or => "or"
  | .and => "and"
  | .xor => "xor"
  | .ror => "ror"
  | .jeq => "jeq"
  | .halt => "halt"
  | .jgt => "jgt"

def format : Kind → Format
  | .nop | .halt => .bare
  | .load | .loadi | .store | .jeq | .jgt => .regImm
  | .cpy => .regReg
  | .add | .addf | .or | .and | .xor => .regRegReg
  | .ror => .regCount

def usesA (kind : Kind) : Bool := kind.format != .bare

def usesB (kind : Kind) : Bool := kind.format == .regRegReg

def usesC (kind : Kind) : Bool := kind.format == .regReg || kind.format == .regRegReg

/-- The largest immediate that the kind encodes, if it takes one. -/
def immediateMax (kind : Kind) : Option Nat :=
  match kind.format with
  | .regImm => some 255
  | .regCount => some 15
  | _ => none

theorem ofOpcode?_opcode (kind : Kind) : ofOpcode? kind.opcode = some kind := by
  cases kind <;> rfl

theorem opcode_of_ofOpcode? {opcode : Nat} {kind : Kind} (h : ofOpcode? opcode = some kind) :
    kind.opcode = opcode := by
  have table : ∀ i : Fin all.length, all[i].opcode = i := by decide
  obtain ⟨hlt, rfl⟩ := List.getElem?_eq_some_iff.1 h
  exact table ⟨opcode, hlt⟩

theorem opcode_lt (kind : Kind) : kind.opcode < 14 := by cases kind <;> decide

end Kind

end ByteMachine

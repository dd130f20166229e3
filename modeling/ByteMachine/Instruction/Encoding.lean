import ByteMachine.Instruction.Basic

/-! Instructions as words. Encoding takes the operands that the kind uses, in the order `A`, `B`,
`C`, immediate, and fails on the first that is missing or does not fit its field. Decoding fails on
the unassigned opcodes only and leaves the fields that the kind does not use aside. -/

namespace ByteMachine

/-- Why an instruction has no word. -/
inductive EncodeError
  | missingRegister (name : Char)
  | missingImmediate
  | registerOutOfRange (register : Nat)
  | immediateOutOfRange (value : Byte) (max : Nat)
  deriving DecidableEq

def EncodeError.message : EncodeError → String
  | .missingRegister name => s!"Missing register {name}"
  | .missingImmediate => "Missing immediate"
  | .registerOutOfRange register => s!"Register %{register} out of range"
  | .immediateOutOfRange value max => s!"Immediate {value.toNat} exceeds {max}"

/-- Why a word has no instruction. -/
structure Unassigned where
  opcode : Nat
  deriving DecidableEq

def Unassigned.message (error : Unassigned) : String := s!"Unassigned opcode {error.opcode}"

namespace Instruction

/-! ### Encoding -/

/-- The field of a register operand; zero where the kind does not use it. -/
def registerField (used : Bool) (register : Option Nat) (name : Char) : Except EncodeError Nat :=
  if used then
    match register with
    | none => .error (.missingRegister name)
    | some r => if r < 16 then .ok r else .error (.registerOutOfRange r)
  else .ok 0

/-- The field of an immediate of at most `max`; zero where the kind takes none. -/
def immediateField (max : Option Nat) (immediate : Option Byte) : Except EncodeError Nat :=
  match max with
  | none => .ok 0
  | some max =>
    match immediate with
    | none => .error .missingImmediate
    | some value =>
      if value.toNat ≤ max then .ok value.toNat else .error (.immediateOutOfRange value max)

/-- The word of an instruction. Fields that its kind does not use are zero. -/
def encode (i : Instruction) : Except EncodeError Word := do
  let a ← registerField i.kind.usesA i.a 'A'
  let b ← registerField i.kind.usesB i.b 'B'
  let c ← registerField i.kind.usesC i.c 'C'
  let immediate ← immediateField i.kind.immediateMax i.immediate
  return Word.ofFields i.kind.opcode a b c immediate

/-- The words of a list of instructions, or the error of the first that has none. -/
def encodeAll (is : List Instruction) : Except EncodeError (List Word) := is.mapM encode

/-! ### Decoding -/

/-- The immediate that a word holds for an instruction of the given format. -/
def immediateOfWord (format : Format) (word : Word) : Option Byte :=
  match format with
  | .regImm => some (Word.immediate word)
  | .regCount => some (UInt8.ofNat (Word.regC word))
  | _ => none

/-- The instruction of the given kind with the operands that the word's fields hold. -/
def ofFields (kind : Kind) (word : Word) : Instruction where
  kind := kind
  a := if kind.usesA then some (Word.regA word) else none
  b := if kind.usesB then some (Word.regB word) else none
  c := if kind.usesC then some (Word.regC word) else none
  immediate := immediateOfWord kind.format word

/-- The instruction that a word encodes. -/
def decode (word : Word) : Except Unassigned Instruction :=
  match Kind.ofOpcode? (Word.opcode word) with
  | some kind => .ok (ofFields kind word)
  | none => .error ⟨Word.opcode word⟩

end Instruction

/-- What a word means: its instruction's text, or the unassigned opcode in angle brackets. -/
def Word.meaning (word : Word) : String :=
  match Instruction.decode word with
  | .ok i => i.text
  | .error e => s!"<{e.message}>"

end ByteMachine

import ByteMachine.Text.Blank
import ByteMachine.Text.Integer
import ByteMachine.Token

/-! The arguments of a console command: the words of its line, read one after the other. A read that
finds no word, or one that it cannot use, counts all the same, so an argument's number is always
that of the read that asked for it. -/

namespace ByteMachine.Console

/-- Why a word is no argument of the wanted form. -/
inductive ArgumentFault
  | token (error : Token.Error)
  | integer (error : Text.IntegerError)
  deriving DecidableEq

def ArgumentFault.message : ArgumentFault → String
  | .token e => e.message
  | .integer e => e.message

/-- Why a command fails. -/
inductive CommandError
  | unknownCommand (name : String)
  | missingArgument (index : Nat)
  | badArgument (index : Nat) (fault : ArgumentFault)
  | unusedArguments (count : Nat)
  | outOfRange (index size : Nat)
  deriving DecidableEq

def CommandError.message : CommandError → String
  | .unknownCommand name => s!"Unknown command {Text.quote name}"
  | .missingArgument index => s!"Missing argument {index}"
  | .badArgument index fault => s!"Bad argument {index} ({fault.message})"
  | .unusedArguments count => s!"{count} unused arguments"
  | .outOfRange index size => s!"{index} out of range (size {size})"

/-- The words not yet read and the number of reads so far. -/
structure Arguments where
  remaining : List String
  reads : Nat
  deriving DecidableEq

namespace Arguments

def ofLine (line : String) : Arguments := ⟨Text.words line, 0⟩

/-- A step of reading. The arguments it leaves stand even if it fails. -/
abbrev Reader (α : Type) := ExceptT CommandError (StateM Arguments) α

/-! ### Forms of arguments -/

/-- What a word has to be, by its value or its fault. -/
abbrev Form (α : Type) := String → Except ArgumentFault α

def wordForm : Form Word := fun arg => (Token.parse arg).mapError .token

/-- A decimal integer of the given range. -/
def integerForm (range : Text.IntegerRange) : Form Int := fun arg =>
  (range.read 10 arg.toList).mapError .integer

/-- A decimal number of 64 bits. -/
def sizeForm : Form Nat := fun arg => (integerForm .size arg).map Int.toNat

/-- The characters after all the hexadecimal marks that lead. -/
def dropMarks : List Char → List Char
  | '0' :: 'x' :: rest => dropMarks rest
  | cs => cs

/-- A hexadecimal byte. It may be marked as such, even more than once. -/
def byteForm : Form Byte := fun arg =>
  ((Text.IntegerRange.byte.read 16 (dropMarks arg.toList)).map fun value =>
    UInt8.ofNat value.toNat).mapError .integer

/-! ### Reads -/

/-- The next word, if there is one. -/
def nextOptional : Reader (Option String) := fun arguments =>
  (.ok arguments.remaining.head?, ⟨arguments.remaining.tail, arguments.reads + 1⟩)

/-- The number of the latest read. -/
def index : Reader Nat := return (← get).reads

/-- The next word. -/
def next : Reader String := do
  match ← nextOptional with
  | some arg => return arg
  | none => throw (.missingArgument (← index))

/-- A word in the wanted form. -/
def interpret {α : Type} (form : Form α) (arg : String) : Reader α := do
  match form arg with
  | .ok value => return value
  | .error fault => throw (.badArgument (← index) fault)

/-- The next word in the wanted form. -/
def nextAs {α : Type} (form : Form α) : Reader α := do interpret form (← next)

/-- The next word in the wanted form, if there is one. -/
def nextAsOptional {α : Type} (form : Form α) : Reader (Option α) := do
  match ← nextOptional with
  | some arg => return some (← interpret form arg)
  | none => return none

/-- Fails if words are left. -/
def finish : Reader Unit := do
  match (← get).remaining.length with
  | 0 => return
  | unused => throw (.unusedArguments unused)

end Arguments

end ByteMachine.Console

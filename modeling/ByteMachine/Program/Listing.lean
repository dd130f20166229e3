import ByteMachine.Program.Source
import ByteMachine.Text.Lines
import ByteMachine.Token

/-! The listing of a program text: for each line with a token, what the token means. -/

namespace ByteMachine

/-- What a token denotes: a word with or without an instruction, or no word. -/
inductive Reading
  | instruction (word : Word) (instruction : Instruction)
  | unassigned (word : Word) (error : Unassigned)
  | invalid (error : Token.Error)
  deriving DecidableEq

def Reading.ofToken (token : String) : Reading :=
  match Token.parse token with
  | .error e => .invalid e
  | .ok word =>
    match Instruction.decode word with
    | .ok i => .instruction word i
    | .error e => .unassigned word e

namespace Listing

/-- A token with the number of its line, counted from one, and its reading. -/
structure Item where
  line : Nat
  token : String
  reading : Reading
  deriving DecidableEq

/-- The items of lines of which the first has number `line`. -/
def itemsFrom (line : Nat) : List String → List Item
  | [] => []
  | text :: texts =>
    match Program.token? text with
    | none => itemsFrom (line + 1) texts
    | some token => ⟨line, token, Reading.ofToken token⟩ :: itemsFrom (line + 1) texts

def items (source : String) : List Item := itemsFrom 1 (Text.lines source)

/-- What is written after the line number. -/
def Item.body (item : Item) : String :=
  match item.reading with
  | .instruction word i => s!"{Numeral.word word} {i.text}"
  | .unassigned word e => s!"{Numeral.word word} <{e.message}>"
  | .invalid e => s!"{item.token} <{e.message}>"

def Item.text (item : Item) : String := s!"{Numeral.column 4 item.line}: {item.body}\n"

/-- The listing of a program text, one line for each item. -/
def ofSource (source : String) : String := String.join ((items source).map Item.text)

end Listing

end ByteMachine

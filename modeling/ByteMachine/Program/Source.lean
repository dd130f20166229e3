import ByteMachine.Instruction.Encoding
import ByteMachine.Text.Blank

/-! Program text: one token per line. Blank lines and lines whose first character that is not blank
is a hash mark hold no token. -/

namespace ByteMachine.Program

/-- The line without the blanks around it, if it holds a token; the token may still be invalid. -/
def token? (line : String) : Option String :=
  match Text.trimChars line.toList with
  | [] => none
  | c :: cs => if c = '#' then none else some (String.ofList (c :: cs))

/-- One word per line. -/
def ofWords (words : List Word) : String :=
  String.join (words.map fun word => s!"{Numeral.word word}\n")

/-- The program text of a list of instructions, or the error of the first that has no word. -/
def ofInstructions (is : List Instruction) : Except EncodeError String :=
  (Instruction.encodeAll is).map ofWords

end ByteMachine.Program

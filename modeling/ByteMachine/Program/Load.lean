import ByteMachine.Input
import ByteMachine.Log
import ByteMachine.Program.Source
import ByteMachine.Token

/-! Loading a program. The source is taken line by line; a line with an invalid token either fails
the load or is put to the user, who replies with another token, with a blank line to skip it, or not
at all. Replies are taken from the input only as they are needed. -/

namespace ByteMachine

/-- What happens to a line with an invalid token. -/
inductive InvalidLinePolicy
  /-- It fails the load. -/
  | strict
  /-- The user is asked for a replacement. -/
  | prompt
  deriving DecidableEq

/-- A word with the number of the line that it stands on. -/
structure ProgramLine where
  line : Nat
  word : Word
  deriving DecidableEq

/-- Why a program does not load. -/
inductive LoadError
  | invalidLine (line : Nat) (token : String) (cause : Token.Error)
  | endOfInput (line : Nat)
  | unreadable (cause : ReadError)
  deriving DecidableEq

namespace LoadError

def message : LoadError → String
  | .invalidLine line token cause => s!"Line {line}: {cause.message} ({Text.quote token})"
  | .endOfInput line => s!"Input ended while correcting line {line}"
  | .unreadable cause => s!"Couldn't read program ({cause.message})"

/-- The message with that of its cause after it. -/
def report (error : LoadError) : String :=
  match error with
  | .invalidLine _ _ cause => s!"{error.message}: {cause.message}"
  | .endOfInput _ => error.message
  | .unreadable cause => s!"{error.message}: {cause.message}"

end LoadError

namespace Program

/-- Part of a load: its result, what was printed and logged, and the lines of input not taken. -/
structure Attempt (α : Type) where
  result : Except LoadError α
  output : String
  unread : List Bytes
  log : Log

namespace Attempt

variable {α β : Type}

/-- A result that took no input. -/
def done (result : Except LoadError α) (unread : List Bytes) : Attempt α := ⟨result, "", unread, []⟩

/-- Puts earlier output and log in front. -/
def after (output : String) (log : Log) (attempt : Attempt α) : Attempt α :=
  { attempt with output := output ++ attempt.output, log := log ++ attempt.log }

def map (f : α → β) (attempt : Attempt α) : Attempt β :=
  { attempt with result := attempt.result.map f }

/-- Goes on from a result with the input that it left; an error ends there. -/
def andThen (attempt : Attempt α) (next : α → List Bytes → Attempt β) : Attempt β :=
  match attempt.result with
  | .ok a => (next a attempt.unread).after attempt.output attempt.log
  | .error e => ⟨.error e, attempt.output, attempt.unread, attempt.log⟩

end Attempt

/-! ### Corrections -/

def promptFor (line : Nat) : String := s!"Enter 4 hex digits for line {line} (empty to skip): "

/-- Takes replies up to the first that is blank or a token; a blank one gives no word. -/
def takeReply (verbosity : Verbosity) (line : Nat) : List Bytes → Attempt (Option Word)
  | [] => ⟨.error (.endOfInput line), promptFor line, [], []⟩
  | bytes :: rest =>
    Attempt.after (promptFor line) [] <|
      match Bytes.decode bytes with
      | .error e => .done (.error (.unreadable e)) rest
      | .ok text =>
        let reply := Text.trim text
        if reply.isEmpty then
          (Attempt.done (.ok none) rest).after "" (verbosity.emit .info s!"Skipping line {line}")
        else
          match Token.parse reply with
          | .ok word =>
            (Attempt.done (.ok (some word)) rest).after ""
              (verbosity.emit .info s!"Line {line} corrected to {Numeral.word word}")
          | .error e =>
            (takeReply verbosity line rest).after
              s!"{Text.quote reply} is not valid either ({e.message})\n" []

/-- Tells the user what is wrong with a line and takes replies. -/
def correct (verbosity : Verbosity) (line : Nat) (token : String) (error : Token.Error)
    (replies : List Bytes) : Attempt (Option Word) :=
  (takeReply verbosity line replies).after
    s!"Line {line}: {Text.quote token} is not a valid instruction ({error.message})\n" []

/-! ### Loading -/

/-- What becomes of a line with an invalid token. -/
def replace (policy : InvalidLinePolicy) (verbosity : Verbosity) (line : Nat) (token : String)
    (error : Token.Error) (replies : List Bytes) : Attempt (Option Word) :=
  match policy with
  | .strict => .done (.error (.invalidLine line token error)) replies
  | .prompt => correct verbosity line token error replies

/-- The word of a line, if it has one. -/
def wordOfLine (policy : InvalidLinePolicy) (verbosity : Verbosity) (line : Nat) (bytes : Bytes)
    (replies : List Bytes) : Attempt (Option Word) :=
  match Bytes.decode bytes with
  | .error e => .done (.error (.unreadable e)) replies
  | .ok text =>
    match token? (Text.withoutEnd text) with
    | none => .done (.ok none) replies
    | some token =>
      match Token.parse token with
      | .ok word => .done (.ok (some word)) replies
      | .error e => replace policy verbosity line token e replies

/-- Loads lines of which the first has number `line`. -/
def loadFrom (policy : InvalidLinePolicy) (verbosity : Verbosity) (line : Nat) :
    List Bytes → List Bytes → Attempt (List ProgramLine)
  | [], replies => .done (.ok []) replies
  | bytes :: rest, replies =>
    (wordOfLine policy verbosity line bytes replies).andThen fun word? unread =>
      match word? with
      | none => loadFrom policy verbosity (line + 1) rest unread
      | some word =>
        ((loadFrom policy verbosity (line + 1) rest unread).map (⟨line, word⟩ :: ·)).after ""
          (verbosity.emit .debug s!"Line {line}: {Numeral.word word}")

/-- A load: the program or why there is none, what was printed and logged, and the unread input. -/
structure Load where
  program : Except LoadError (List ProgramLine)
  output : String
  rest : Bytes
  log : Log

/-- Loads a source, taking replies from the input. -/
def load (policy : InvalidLinePolicy) (verbosity : Verbosity) (source input : Bytes) : Load :=
  let attempt := loadFrom policy verbosity 1 source.physicalLines input.physicalLines
  ⟨attempt.result, attempt.output, attempt.unread.flatten, attempt.log⟩

end Program

end ByteMachine

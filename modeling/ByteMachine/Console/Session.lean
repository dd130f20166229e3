import ByteMachine.Console.Command
import ByteMachine.Input

/-! A console session: a prompt before every line, until a line quits, the input ends, or a line is
not text. A command that fails is reported and the session goes on. -/

namespace ByteMachine.Console

/-- A session: the machine after it, how it ended, what was printed and logged, and the lines of
input not taken. -/
structure Session where
  machine : Machine
  result : Except ReadError Unit
  output : String
  unread : List Bytes
  log : Log

def promptText : String := "> "

/-- What is printed for a line: the output of its command, or the error. -/
def Response.shown (response : Response) : String :=
  match response.result with
  | .ok _ => response.output
  | .error e => response.output ++ s!"!> {e.message}\n"

/-- Whether a line ends the session. -/
def Response.quits (response : Response) : Bool :=
  match response.result with
  | .ok .quit => true
  | _ => false

/-- Takes lines in turn. -/
def sessionFrom (verbosity : Verbosity) : List Bytes → Machine → Session
  | [], m => ⟨m, .ok (), promptText, [], []⟩
  | bytes :: rest, m =>
    match Bytes.decode bytes with
    | .error e => ⟨m, .error e, promptText, rest, []⟩
    | .ok line =>
      let response := respond verbosity line m
      let shown := promptText ++ response.shown
      if response.quits then ⟨response.machine, .ok (), shown, rest, response.log⟩
      else
        let after := sessionFrom verbosity rest response.machine
        { after with output := shown ++ after.output, log := response.log ++ after.log }

/-- A session on the given input. -/
def session (verbosity : Verbosity) (input : Bytes) (m : Machine) : Session :=
  sessionFrom verbosity input.physicalLines m

/-- The input that the session did not take. -/
def Session.rest (s : Session) : Bytes := s.unread.flatten

end ByteMachine.Console

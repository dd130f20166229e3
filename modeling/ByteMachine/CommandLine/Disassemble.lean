import ByteMachine.CommandLine.Files
import ByteMachine.CommandLine.Options
import ByteMachine.CommandLine.Report
import ByteMachine.Program.Listing

/-! The disassembler's command line: print the listing of a program file, which is decoded as a
whole before anything is printed. -/

namespace ByteMachine.CommandLine.Disassemble

def interface : Interface where
  switches := [⟨"help", some 'h', .stop .help⟩, ⟨"version", some 'V', .stop .version⟩]
  positionals := 1

/-- The path on a command line, which has to name one. -/
def parse (args : List String) : Except Stop String := do
  let given ← interface.parse args
  match given.positionals with
  | path :: _ => return path
  | [] => throw .usage

/-- The program file could not be read as text. -/
structure Failure where
  path : String
  cause : ReadError
  deriving DecidableEq

def Failure.message (failure : Failure) : String :=
  s!"Error reading program file {failure.path}: {failure.cause.message}"

def run (files : Files) (path : String) (verbosity : Verbosity) : Report Failure :=
  match files path >>= Bytes.decode with
  | .error e => ⟨.error ⟨path, e⟩, "", []⟩
  | .ok source =>
    let count := (Text.lines source).length
    ⟨.ok (), Listing.ofSource source,
      verbosity.emit .info s!"Deassembling {count} lines from {path}"⟩

end ByteMachine.CommandLine.Disassemble

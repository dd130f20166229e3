import ByteMachine.CommandLine.Disassemble
import ByteMachine.CommandLine.Emulate

/-! The program: `emulate` and `disassemble`, each followed by its own arguments. All decisions are
made by pure functions; here files and input are read and the report is printed. -/

namespace ByteMachine.CommandLine

def usageText : String :=
  "usage: emulate [-iqv] [--strict | --prompt] [-m IMAGE] [PROGRAM]\n" ++
  "       disassemble PROGRAM\n"

def versionText : String := "0.1.0\n"

/-- Whether a code of the system is the given one; some calls return it negated. -/
def isCode (expected code : UInt32) : Bool := code == expected || code == 0 - expected

/-- Why the system could not read a file. -/
def readErrorOf : IO.Error → ReadError
  | .noFileOrDirectory .. => .notFound
  | .inappropriateType _ code _ => if isCode 20 code then .notDirectory else .isDirectory
  | .invalidArgument _ code details => if isCode 36 code then .nameTooLong else .other details
  | error => .other (toString error)

/-- The content of a file as it is now. -/
def readFile (path : String) : IO (Except ReadError Bytes) := do
  try
    return .ok (← IO.FS.readBinFile path).data.toList
  catch e => return .error (readErrorOf e)

/-- The files under the given paths as they are now. -/
def snapshot (paths : List String) : IO Files := do
  let contents ← paths.mapM fun (path : String) => do return (path, ← readFile path)
  return fun path => (contents.lookup path).getD (.error .notFound)

/-- All of standard input. -/
def readInput : IO Bytes := do return (← (← IO.getStdin).readBinToEnd).data.toList

/-- Prints what was asked for in place of a run. -/
def stop : Stop → IO UInt32
  | .usage => do IO.eprint usageText; return 2
  | .help => do IO.print usageText; return 0
  | .version => do IO.print versionText; return 0

/-- Prints a report; a failure also on the error stream. -/
def finish {ε : Type} (message : ε → String) (report : Report ε) : IO UInt32 := do
  IO.print report.output
  match report.result with
  | .ok () => return 0
  | .error e => IO.eprintln s!"Error: {message e}"; return 1

def emulate (args : List String) : IO UInt32 := do
  match Emulate.Options.parse args with
  | .error reason => stop reason
  | .ok options =>
    let files ← snapshot (options.image.toList ++ options.program.toList)
    let input ← if options.usesInput then readInput else pure []
    finish Emulate.Failure.message (Emulate.run files options none input)

def disassemble (args : List String) : IO UInt32 := do
  match Disassemble.parse args with
  | .error reason => stop reason
  | .ok path =>
    finish Disassemble.Failure.message (Disassemble.run (← snapshot [path]) path none)

end ByteMachine.CommandLine

def main (args : List String) : IO UInt32 :=
  match args with
  | "emulate" :: rest => ByteMachine.CommandLine.emulate rest
  | "disassemble" :: rest => ByteMachine.CommandLine.disassemble rest
  | _ => ByteMachine.CommandLine.stop .usage

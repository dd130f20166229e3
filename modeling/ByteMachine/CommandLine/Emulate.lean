import ByteMachine.CommandLine.Files
import ByteMachine.CommandLine.Options
import ByteMachine.CommandLine.Report
import ByteMachine.Console.Session

/-! The emulator's command line: fill the memory from an image, load and run a program, open a
console, and dump the final state, each only where it is asked for. Corrections and the console take
their lines from the same input, the console after the corrections. -/

namespace ByteMachine.CommandLine.Emulate

structure Options where
  program : Option String
  image : Option String
  strict : Bool
  prompt : Bool
  interactive : Bool
  verbose : Bool
  quiet : Bool
  deriving DecidableEq

def interface : Interface where
  switches :=
    [⟨"strict", none, .flag⟩, ⟨"prompt", none, .flag⟩, ⟨"interactive", some 'i', .flag⟩,
      ⟨"memory-image", some 'm', .value⟩, ⟨"verbose", some 'v', .flag⟩, ⟨"quiet", some 'q', .flag⟩,
      ⟨"help", some 'h', .stop .help⟩, ⟨"version", some 'V', .stop .version⟩]
  positionals := 1

/-- The options of a command line. Asking for a strict load and for prompts is refused. -/
def Options.parse (args : List String) : Except Stop Options := do
  let given ← interface.parse args
  if given.flag "strict" && given.flag "prompt" then throw .usage
  return {
    program := given.positionals.head?
    image := given.value? "memory-image"
    strict := given.flag "strict"
    prompt := given.flag "prompt"
    interactive := given.flag "interactive"
    verbose := given.flag "verbose"
    quiet := given.flag "quiet" }

/-- How a load treats invalid lines. Nobody is asked unless it is wanted, as the input is no
terminal. -/
def Options.policy (options : Options) : InvalidLinePolicy :=
  if options.strict then .strict else if options.prompt then .prompt else .strict

/-- Whether a run may take lines from its input. -/
def Options.usesInput (options : Options) : Bool :=
  options.interactive || options.policy == .prompt

/-- Why a run fails. -/
inductive Failure
  | imageUnreadable (path : String) (cause : ReadError)
  | imageTooLarge (cause : ImageTooLarge)
  | programNotOpened (path : String) (cause : ReadError)
  | programNotLoaded (path : String) (cause : LoadError)
  | inputUnreadable (cause : ReadError)
  deriving DecidableEq

def Failure.message : Failure → String
  | .imageUnreadable path cause => s!"Failed to read memory image {path}: {cause.message}"
  | .imageTooLarge cause => cause.message
  | .programNotOpened path cause => s!"Failed to open program file {path}: {cause.message}"
  | .programNotLoaded path cause => s!"Failed to load {path}: {cause.report}"
  | .inputUnreadable cause => cause.message

/-- The state between two parts of a run: the machine, the input not yet taken, and what has been
printed and logged. -/
structure Stage where
  machine : Machine
  input : Bytes
  output : String
  log : Log

/-- A part of a run that failed, with the input not taken and what was printed and logged until
then. -/
structure Stopped where
  failure : Failure
  input : Bytes
  output : String
  log : Log

/-- The machine with the image in its memory. -/
def initial (files : Files) (image : Option String) : Except Failure Machine :=
  match image with
  | none => .ok .zero
  | some path =>
    match files path with
    | .error e => .error (.imageUnreadable path e)
    | .ok bytes => (Machine.ofImage bytes).mapError .imageTooLarge

/-- The load of a program file. A directory can be opened but not read. -/
def loadFile (files : Files) (policy : InvalidLinePolicy) (verbosity : Verbosity) (path : String)
    (input : Bytes) : Except Failure Program.Load :=
  match files path with
  | .ok source => .ok (Program.load policy verbosity source input)
  | .error .isDirectory => .error (.programNotLoaded path (.unreadable .isDirectory))
  | .error e => .error (.programNotOpened path e)

/-- Loads a program file and runs the program. Nothing runs unless all of it loads. -/
def runFile (files : Files) (options : Options) (verbosity : Verbosity) (path : String)
    (stage : Stage) : Except Stopped Stage :=
  match loadFile files options.policy verbosity path stage.input with
  | .error failure => .error ⟨failure, stage.input, stage.output, stage.log⟩
  | .ok load =>
    let output := stage.output ++ load.output
    let log := stage.log ++ load.log
    match load.program with
    | .error e => .error ⟨.programNotLoaded path e, load.rest, output, log⟩
    | .ok program =>
      let count := program.length
      let run := Program.run verbosity options.verbose program stage.machine
      .ok {
        machine := run.machine
        input := load.rest
        output := output ++ run.output
        log := log ++ verbosity.emit .info s!"Loaded {count} instructions from {path}" ++ run.log ++
          verbosity.emit .info s!"Executed {run.summary.executed} of {count} instructions" }

/-- Runs the program, if there is one. -/
def runProgram (files : Files) (options : Options) (verbosity : Verbosity) (stage : Stage) :
    Except Stopped Stage :=
  match options.program with
  | none => .ok stage
  | some path => runFile files options verbosity path stage

/-- Opens the console on the input that is left, if it is wanted. -/
def runConsole (options : Options) (verbosity : Verbosity) (stage : Stage) :
    Except Stopped Stage :=
  if options.interactive then
    let session := Console.session verbosity stage.input stage.machine
    let output := stage.output ++ session.output
    let log := stage.log ++ session.log
    match session.result with
    | .error e => .error ⟨.inputUnreadable e, session.rest, output, log⟩
    | .ok () => .ok ⟨session.machine, session.rest, output, log⟩
  else .ok stage

/-- The memory and the registers under their headings. -/
def finalDump (m : Machine) : String :=
  "Memory:\n" ++ Dump.memory m.memory 0 256 ++ "\nRegisters:\n" ++ Dump.registers m.registers

/-- Prints the dump, unless it is not wanted. -/
def printDump (options : Options) (stage : Stage) : Stage :=
  if options.quiet then stage
  else { stage with output := stage.output ++ finalDump stage.machine }

/-- The parts of a run in turn, up to the first that fails. -/
def stages (files : Files) (options : Options) (verbosity : Verbosity) (input : Bytes) :
    Except Stopped Stage := do
  let machine ← (initial files options.image).mapError (⟨·, input, "", []⟩)
  let ran ← runProgram files options verbosity ⟨machine, input, "", []⟩
  let closed ← runConsole options verbosity ran
  return printDump options closed

def run (files : Files) (options : Options) (verbosity : Verbosity) (input : Bytes) :
    Report Failure :=
  match stages files options verbosity input with
  | .ok stage => ⟨.ok (), stage.output, stage.log⟩
  | .error stopped => ⟨.error stopped.failure, stopped.output, stopped.log⟩

end ByteMachine.CommandLine.Emulate

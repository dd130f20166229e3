import ByteMachine.Console.Arguments
import ByteMachine.Program.Run

/-! The commands of the console. A line is read as a command first and carried out after that, so a
line that cannot be read has no effect. -/

namespace ByteMachine.Console

inductive Command
  | nothing
  | execute (word : Word)
  | showMemory (start length : Nat)
  | showRegisters
  | setRegister (register : Nat) (value : Byte)
  | setMemory (address value : Byte)
  | showMeaning (word : Word)
  | help
  | quit
  deriving DecidableEq

/-! ### Reading -/

namespace Command

open Arguments

/-- The rest of a line that sets a cell. -/
def ofTarget (target : String) : Reader Command := do
  match target with
  | "r" =>
    let register ← nextAs sizeForm
    let value ← nextAs byteForm
    finish
    return .setRegister register value
  | "m" =>
    let address ← nextAs byteForm
    let value ← nextAs byteForm
    finish
    return .setMemory address value
  | other => throw (.unknownCommand s!"set {other}")

/-- The rest of a line whose first word is `name`. Words after `h`, `help` and `q` are not read. -/
def ofName (name : String) : Reader Command := do
  match name with
  | "x" =>
    let word ← nextAs wordForm
    finish
    return .execute word
  | "m" =>
    let start ← nextAsOptional byteForm
    let length ← nextAsOptional sizeForm
    finish
    return .showMemory (start.getD 0).toNat (length.getD 256)
  | "r" =>
    finish
    return .showRegisters
  | "set" => ofTarget (← next)
  | "dis" =>
    let word ← nextAs wordForm
    finish
    return .showMeaning word
  | "h" | "help" => return .help
  | "q" => return .quit
  | other => throw (.unknownCommand other)

/-- The command of a line; a line without words asks for nothing. -/
def reader : Reader Command := do
  match ← nextOptional with
  | some name => ofName name
  | none => return .nothing

def ofLine (line : String) : Except CommandError Command := (reader (.ofLine line)).1

end Command

/-! ### Carrying out -/

/-- Whether the session goes on. -/
inductive Flow
  | goOn
  | quit
  deriving DecidableEq

/-- What a line came to. -/
structure Response where
  machine : Machine
  result : Except CommandError Flow
  output : String
  log : Log

/-- Lists every command. -/
def helpText : String :=
  "x <word>              execute one instruction word (4 hex digits)\n" ++
  "m [addr] [len]        dump memory from hex addr, len bytes (decimal)\n" ++
  "r                     dump registers\n" ++
  "set r <index> <byte>  set register (decimal index, hex byte)\n" ++
  "set m <addr> <byte>   set memory byte (hex addr, hex byte)\n" ++
  "dis <word>            show the instruction a word decodes to\n" ++
  "h, help               show this help\n" ++
  "q                     quit\n"

/-- A response that leaves the machine alone. -/
def Response.still (machine : Machine) (result : Except CommandError Flow) (output : String) :
    Response :=
  ⟨machine, result, output, []⟩

namespace Command

/-- Executes a word and takes the changes that it made. -/
def executeWord (verbosity : Verbosity) (word : Word) (m : Machine) : Response :=
  let outcome := m.execute verbosity word
  let ending := match outcome.status with
    | .normal => ""
    | .halted => "Halted\n"
  ⟨outcome.state.settle, .ok .goOn, Program.changes outcome.state.toStore ++ ending, outcome.log⟩

/-- Sets a register without leaving a change pending. -/
def assignRegister (register : Nat) (value : Byte) (m : Machine) : Response :=
  if register < 16 then
    let registers := (m.registers.store register value).settle
    .still { m with registers := registers } (.ok .goOn) ""
  else .still m (.error (.outOfRange register 16)) ""

/-- Sets a byte of memory without leaving a change pending. Every byte is an address. -/
def assignMemory (address value : Byte) (m : Machine) : Response :=
  let memory := (m.memory.store address.toNat value).settle
  .still { m with memory := memory } (.ok .goOn) ""

def perform (verbosity : Verbosity) (m : Machine) : Command → Response
  | .nothing => .still m (.ok .goOn) ""
  | .execute word => executeWord verbosity word m
  | .showMemory start length => .still m (.ok .goOn) (Dump.memory m.memory start length)
  | .showRegisters => .still m (.ok .goOn) (Dump.registers m.registers)
  | .setRegister register value => assignRegister register value m
  | .setMemory address value => assignMemory address value m
  | .showMeaning word => .still m (.ok .goOn) (Word.meaning word ++ "\n")
  | .help => .still m (.ok .goOn) helpText
  | .quit => .still m (.ok .quit) ""

end Command

/-- Reads a line as a command and carries it out. -/
def respond (verbosity : Verbosity) (line : String) (m : Machine) : Response :=
  match Command.ofLine line with
  | .ok command => command.perform verbosity m
  | .error e => .still m (.error e) ""

end ByteMachine.Console

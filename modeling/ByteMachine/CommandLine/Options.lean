/-! Command lines. Arguments are taken from the left, and the first that is refused, or that asks
for the help or the version, decides. A long switch has two hyphens and may have its value after an
equals sign; short ones are single characters that may share one hyphen, the last with its value
right after it or in the next argument. Two hyphens alone make all that follows positional. -/

namespace ByteMachine.CommandLine

/-- Why a command line leads to no run. -/
inductive Stop
  | usage
  | help
  | version
  deriving DecidableEq

/-- What giving a switch does. -/
inductive Effect
  | flag
  | value
  | stop (reason : Stop)
  deriving DecidableEq

structure Switch where
  long : String
  short : Option Char
  effect : Effect
  deriving DecidableEq

/-- What a program admits: its switches, and how many positional arguments at most. -/
structure Interface where
  switches : List Switch
  positionals : Nat

/-- What has been given so far. A switch whose value is still to come is `awaiting` it. -/
structure Given where
  flags : List String
  values : List (String × String)
  positionals : List String
  awaiting : Option String
  literal : Bool
  deriving DecidableEq

namespace Given

/-- The start of a command line. -/
def start : Given := ⟨[], [], [], none, false⟩

/-- Whether the flag with the given long name was given. -/
def flag (given : Given) (long : String) : Bool := given.flags.contains long

/-- The value given for the switch with the given long name. -/
def value? (given : Given) (long : String) : Option String := given.values.lookup long

/-- Every flag is given once at most. -/
def addFlag (given : Given) (long : String) : Except Stop Given :=
  if given.flags.contains long then .error .usage
  else .ok { given with flags := long :: given.flags }

/-- Every value is given once at most and is not empty. -/
def addValue (given : Given) (long value : String) : Except Stop Given :=
  if value.isEmpty || (given.value? long).isSome then .error .usage
  else .ok { given with values := (long, value) :: given.values, awaiting := none }

def await (given : Given) (long : String) : Given := { given with awaiting := some long }

/-- A positional argument is not empty. -/
def addPositional (limit : Nat) (given : Given) (arg : String) : Except Stop Given :=
  if arg.isEmpty || limit ≤ given.positionals.length then .error .usage
  else .ok { given with positionals := given.positionals ++ [arg] }

end Given

/-! ### Forms of arguments -/

/-- What an argument looks like. -/
inductive Form
  /-- Two hyphens alone. -/
  | separator
  /-- A long switch by its name, with the text after an equals sign. -/
  | long (name : String) (value? : Option String)
  /-- Short switches, and perhaps a value. -/
  | short (cluster : List Char)
  | plain

def Form.of (arg : String) : Form :=
  match arg.toList with
  | ['-', '-'] => .separator
  | '-' :: '-' :: cs =>
    let name := cs.takeWhile (· != '=')
    let value? := match cs.dropWhile (· != '=') with
      | [] => none
      | _ :: value => some (String.ofList value)
    .long (String.ofList name) value?
  | '-' :: c :: cs => .short (c :: cs)
  | _ => .plain

/-! ### Taking arguments -/

namespace Interface

/-- A long switch. Only one that takes a value may have a text after an equals sign. -/
def takeLong (interface : Interface) (given : Given) (name : String) (value? : Option String) :
    Except Stop Given :=
  match interface.switches.find? (·.long == name), value? with
  | none, _ => .error .usage
  | some ⟨_, _, .flag⟩, none => given.addFlag name
  | some ⟨_, _, .stop reason⟩, none => .error reason
  | some ⟨_, _, .value⟩, none => .ok (given.await name)
  | some ⟨_, _, .value⟩, some value => given.addValue name value
  | some _, some _ => .error .usage

/-- Short switches in turn. All that follows one that takes a value is its value, less an equals
sign at its start. -/
def takeShort (interface : Interface) (given : Given) : List Char → Except Stop Given
  | [] => .ok given
  | c :: cs =>
    match interface.switches.find? (·.short == some c) with
    | none => .error .usage
    | some ⟨_, _, .stop reason⟩ => .error reason
    | some ⟨long, _, .flag⟩ => do interface.takeShort (← given.addFlag long) cs
    | some ⟨long, _, .value⟩ =>
      match cs with
      | [] => .ok (given.await long)
      | '=' :: value => given.addValue long (String.ofList value)
      | value => given.addValue long (String.ofList value)

/-- One argument. A value that is awaited can be neither a switch nor the separator. -/
def take (interface : Interface) (given : Given) (arg : String) : Except Stop Given :=
  match given.awaiting, given.literal, Form.of arg with
  | some long, false, .plain => given.addValue long arg
  | some _, _, _ => .error .usage
  | none, true, _ => given.addPositional interface.positionals arg
  | none, false, .separator => .ok { given with literal := true }
  | none, false, .long name value? => interface.takeLong given name value?
  | none, false, .short cluster => interface.takeShort given cluster
  | none, false, .plain => given.addPositional interface.positionals arg

/-- A whole command line. -/
def parse (interface : Interface) (args : List String) : Except Stop Given := do
  let given ← args.foldlM interface.take Given.start
  if given.awaiting.isSome then throw .usage else return given

end Interface

end ByteMachine.CommandLine

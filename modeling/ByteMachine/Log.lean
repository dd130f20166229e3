/-! Log messages. A message is kept if the verbosity asked for admits its severity, so what a run
logs at a lower verbosity is part of what it logs at a higher one. -/

namespace ByteMachine

/-- How much a message matters, the gravest first. -/
inductive Severity
  | info | debug | trace
  deriving DecidableEq

structure Entry where
  severity : Severity
  message : String
  deriving DecidableEq

abbrev Log := List Entry

/-- The least grave severity that is kept; without one nothing is. -/
abbrev Verbosity := Option Severity

def Severity.rank : Severity → Nat
  | .info => 0
  | .debug => 1
  | .trace => 2

namespace Verbosity

def admits (verbosity : Verbosity) (severity : Severity) : Bool :=
  match verbosity with
  | none => false
  | some limit => severity.rank ≤ limit.rank

/-- The log of a single message. -/
def emit (verbosity : Verbosity) (severity : Severity) (message : String) : Log :=
  if verbosity.admits severity then [⟨severity, message⟩] else []

end Verbosity

end ByteMachine

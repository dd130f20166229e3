import ByteMachine.Log

/-! The report on a run that a command line asked for. What was printed before a failure stands. -/

namespace ByteMachine.CommandLine

/-- How a run ended, what it printed until then, and what it logged. -/
structure Report (ε : Type) where
  result : Except ε Unit
  output : String
  log : Log

end ByteMachine.CommandLine

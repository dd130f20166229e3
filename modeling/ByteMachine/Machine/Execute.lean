import ByteMachine.Instruction.Encoding
import ByteMachine.Machine.Operation

/-! Executing words. A word whose opcode has no operation is skipped. Execution of a list stops
after the first word that halts. -/

namespace ByteMachine

/-- How many words were executed, and whether the last one halted. -/
structure Summary where
  executed : Nat
  halted : Bool
  deriving DecidableEq

/-- The operation of the word's opcode; skipping the word if there is none. -/
def Store.apply (verbosity : Verbosity) (word : Word) (s : Store) : Outcome Store :=
  let opcode := Word.opcode word
  match Operation.ofOpcode? opcode with
  | some operation => operation verbosity word s
  | none =>
    ⟨s, .normal,
      verbosity.emit .debug s!"No handler for opcode {opcode} ({Numeral.word word}), skipping"⟩

namespace Machine

/-- The message that announces a word before it is executed. -/
def announcement (m : Machine) (word : Word) : String :=
  s!"{Numeral.byte m.pc}: {Numeral.word word} {Word.meaning word}"

/-- The log of a halt. -/
def haltLog (verbosity : Verbosity) (word : Word) : Status → Log
  | .normal => []
  | .halted => verbosity.emit .info s!"Halted by {Numeral.word word}"

/-- Executes one word. -/
def execute (verbosity : Verbosity) (word : Word) (m : Machine) : Outcome Machine :=
  let outcome := m.toStore.apply verbosity word
  { state := { m with toStore := outcome.state, ir := word }
    status := outcome.status
    log := verbosity.emit .trace (m.announcement word) ++ outcome.log ++
      haltLog verbosity word outcome.status }

/-- A machine after some words with the count of them and what was logged. -/
structure Execution where
  machine : Machine
  summary : Summary
  log : Log

/-- Executes the words up to and including the first that halts. -/
def executeWords (verbosity : Verbosity) : List Word → Machine → Execution
  | [], m => ⟨m, ⟨0, false⟩, []⟩
  | word :: words, m =>
    let first := m.execute verbosity word
    match first.status with
    | .halted => ⟨first.state, ⟨1, true⟩, first.log⟩
    | .normal =>
      let rest := executeWords verbosity words first.state
      ⟨rest.machine, ⟨rest.summary.executed + 1, rest.summary.halted⟩, first.log ++ rest.log⟩

section

variable {verbosity : Verbosity} {word : Word} {words : List Word} {m : Machine}

theorem executeWords_cons_halted (h : (m.execute verbosity word).status = .halted) :
    m.executeWords verbosity (word :: words) =
      ⟨(m.execute verbosity word).state, ⟨1, true⟩, (m.execute verbosity word).log⟩ := by
  simp only [executeWords, h]

theorem executeWords_cons_normal (h : (m.execute verbosity word).status = .normal) :
    m.executeWords verbosity (word :: words) =
      let rest := (m.execute verbosity word).state.executeWords verbosity words
      ⟨rest.machine, ⟨rest.summary.executed + 1, rest.summary.halted⟩,
        (m.execute verbosity word).log ++ rest.log⟩ := by
  simp only [executeWords, h]

end

/-- The message that closes an execution. -/
def Execution.closing (summary : Summary) : String :=
  s!"Executed {summary.executed} instructions" ++ if summary.halted then " (halted)" else ""

/-- Executes words and logs how many they were. -/
def executeAll (verbosity : Verbosity) (words : List Word) (m : Machine) : Execution :=
  let execution := m.executeWords verbosity words
  { execution with
    log := execution.log ++ verbosity.emit .debug (Execution.closing execution.summary) }

end Machine

end ByteMachine

import ByteMachine.Dump
import ByteMachine.Machine.Execute
import ByteMachine.Program.Load

/-! Running a loaded program. The changes that an instruction makes are taken right after it, and a
verbose run reports them under the instruction's line and word. -/

namespace ByteMachine.Program

/-- A run: the machine after it, how far it went, and what was printed and logged. -/
structure Run where
  machine : Machine
  summary : Summary
  output : String
  log : Log

/-- The pending changes of a store, registers first. -/
def changes (s : Store) : String :=
  Dump.registerChanges s.registers.pending ++ Dump.memoryChanges s.memory.pending

/-- What a verbose run prints for an instruction that left the given store. -/
def block (entry : ProgramLine) (s : Store) : String :=
  s!"{Numeral.column 4 entry.line}: {Numeral.word entry.word}\n" ++ changes s

/-- Runs a program up to and including the first line that halts. -/
def run (verbosity : Verbosity) (verbose : Bool) : List ProgramLine → Machine → Run
  | [], m => ⟨m, ⟨0, false⟩, "", []⟩
  | entry :: program, m =>
    let first := m.execute verbosity entry.word
    let output := if verbose then block entry first.state.toStore else ""
    let settled := first.state.settle
    match first.status with
    | .halted => ⟨settled, ⟨1, true⟩, output ++ s!"Halted at line {entry.line}\n", first.log⟩
    | .normal =>
      let rest := run verbosity verbose program settled
      ⟨rest.machine, ⟨rest.summary.executed + 1, rest.summary.halted⟩, output ++ rest.output,
        first.log ++ rest.log⟩

end ByteMachine.Program

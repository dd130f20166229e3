import ByteMachine.Program.Run
import ByteMachine.Proofs.Machine.Pending
import ByteMachine.Proofs.Text.Numeral
import ByteMachine.Proofs.Text.PhysicalLines

/-! The lines of a report. Each is one line of text. A line that reports a change is told by its
first character from a header, which starts with a blank or a digit, and from a line that reports a
halt. -/

namespace ByteMachine.Program

open Numeral Text

/-- The line that reports a change: the cell, and its value before and after. -/
def changeLine : Place × Change → String
  | (.register index, change) =>
    s!"R{index}: {Numeral.byte change.old} -> {Numeral.byte change.new}\n"
  | (.memory address, change) =>
    s!"[{Numeral.hex 2 address}]: {Numeral.byte change.old} -> {Numeral.byte change.new}\n"

/-- The first line of a block. -/
def header (entry : ProgramLine) : String :=
  s!"{Numeral.column 4 entry.line}: {Numeral.word entry.word}\n"

/-- The line that reports a halt. -/
def haltLine (entry : ProgramLine) : String := s!"Halted at line {entry.line}\n"

theorem registerChanges_eq (changes : List (Nat × Change)) : Dump.registerChanges changes =
    String.join (changes.map fun entry => changeLine (.register entry.1, entry.2)) := by
  simp [Dump.registerChanges, Dump.change, changeLine, toString, String.append_assoc]

theorem memoryChanges_eq (changes : List (Nat × Change)) : Dump.memoryChanges changes =
    String.join (changes.map fun entry => changeLine (.memory entry.1, entry.2)) := by
  simp [Dump.memoryChanges, Dump.change, changeLine, toString, String.append_assoc]

theorem changes_eq (s : Store) : changes s = String.join (s.pendingChanges.map changeLine) := by
  rw [changes, registerChanges_eq, memoryChanges_eq, Store.pendingChanges, List.map_append,
    String.join_append, List.map_map, List.map_map]
  rfl

theorem block_eq (entry : ProgramLine) (s : Store) :
    block entry s = header entry ++ String.join (s.pendingChanges.map changeLine) := by
  rw [block, changes_eq]
  rfl

/-! ### They are lines -/

theorem isLine_changeLine (entry : Place × Change) : IsLine (changeLine entry) := by
  obtain ⟨place, change⟩ := entry
  have hold := newline_notMem_hex 2 change.old.toNat
  have hnew := newline_notMem_hex 2 change.new.toNat
  cases place with
  | register index =>
    have hindex := newline_notMem_toDigits index
    exact isLine_append_newline (by simp [toString, Numeral.byte, hindex, hold, hnew])
  | memory address =>
    have haddress := newline_notMem_hex 2 address
    exact isLine_append_newline (by simp [toString, Numeral.byte, haddress, hold, hnew])

theorem isLine_header (entry : ProgramLine) : IsLine (header entry) := by
  have hline := newline_notMem_column 4 entry.line
  have hword := newline_notMem_hex 4 entry.word.toNat
  exact isLine_append_newline (by simp [toString, Numeral.word, hline, hword])

theorem isLine_haltLine (entry : ProgramLine) : IsLine (haltLine entry) := by
  have hline := newline_notMem_toDigits entry.line
  exact isLine_append_newline (by simp [toString, hline])

/-! ### They are told apart -/

theorem head?_changeLine (entry : Place × Change) :
    (changeLine entry).toList.head? = some 'R' ∨ (changeLine entry).toList.head? = some '[' := by
  obtain ⟨place, change⟩ := entry
  cases place with
  | register index => simp [changeLine, toString]
  | memory address => simp [changeLine, toString]

theorem head?_haltLine (entry : ProgramLine) : (haltLine entry).toList.head? = some 'H' := by
  unfold haltLine
  simp [toString]

theorem head?_header (entry : ProgramLine) :
    ∃ c, (header entry).toList.head? = some c ∧ (c = ' ' ∨ c.isDigit = true) := by
  obtain ⟨c, hc, hkind⟩ := head?_column 4 entry.line
  refine ⟨c, ?_, hkind⟩
  simp [header, toString, hc]

theorem changeLine_ne_header (change : Place × Change) (entry : ProgramLine) :
    changeLine change ≠ header entry := by
  intro heq
  obtain ⟨c, hc, hkind⟩ := head?_header entry
  rw [← heq] at hc
  rcases head?_changeLine change with h | h <;>
    · rw [h, Option.some_inj] at hc
      subst hc
      exact absurd hkind (by decide)

theorem changeLine_ne_of_head? {line : String} (h : line.toList.head? = some 'H')
    (change : Place × Change) : changeLine change ≠ line := by
  rintro rfl
  rcases head?_changeLine change with h' | h' <;> simp [h'] at h

end ByteMachine.Program

import ByteMachine.Proofs.Dump.Rows
import ByteMachine.Proofs.Program.Report

/-! Changes read back from a report. The lines of changes are read by their characters: a cell, and
two values with an arrow between them. All other lines of a report are passed over, so what is read
is what was printed, in order. -/

namespace ByteMachine.Program

open Dump Text

/-! ### A reader of reports -/

/-- Reads decimal digits, one at least. -/
def readDecimal (digits : List Char) : Option Nat :=
  if digits ≠ [] ∧ digits.all Char.isDigit then some (Nat.ofDigitChars 10 digits 0) else none

/-- Reads the values before and after, and the end of the line. -/
def readChange (text : List Char) : Option Change :=
  match text with
  | [high, low, ' ', '-', '>', ' ', high', low', '\n'] => do
    return ⟨← readByte [high, low], ← readByte [high', low']⟩
  | _ => none

/-- Reads the number of a register up to a colon, and then a change. -/
def readRegisterChange (text : List Char) : Option (Place × Change) :=
  match text.dropWhile (· != ':') with
  | ':' :: ' ' :: rest => do
    let register ← readDecimal (text.takeWhile (· != ':'))
    return (.register register, ← readChange rest)
  | _ => none

/-- Reads an address up to a bracket, and after a colon a change. -/
def readMemoryChange (text : List Char) : Option (Place × Change) :=
  match text.dropWhile (· != ']') with
  | ']' :: ':' :: ' ' :: rest => do
    let address ← readHex (text.takeWhile (· != ']'))
    return (.memory address, ← readChange rest)
  | _ => none

/-- Reads a line by its first character. -/
def readChangeLine (line : String) : Option (Place × Change) :=
  match line.toList with
  | 'R' :: text => readRegisterChange text
  | '[' :: text => readMemoryChange text
  | _ => none

/-- Reads the changes of a report, from the lines that tell one. -/
def readChanges (report : String) : List (Place × Change) :=
  (physicalLines report).filterMap readChangeLine

/-! ### One line -/

theorem readDecimal_toDigits (n : Nat) : readDecimal (Nat.toDigits 10 n) = some n := by
  have hdigits : (Nat.toDigits 10 n).all Char.isDigit = true :=
    List.all_eq_true.2 fun c hc => Nat.isDigit_of_mem_toDigits (by decide) (by decide) hc
  rw [readDecimal, if_pos ⟨Nat.toDigits_ne_nil, hdigits⟩, Nat.ofDigitChars_ten_toDigits]

/-- What stands on a line after the cell. -/
def changeText (change : Change) : String :=
  s!"{Numeral.byte change.old} -> {Numeral.byte change.new}\n"

theorem readChange_changeText (change : Change) :
    readChange (changeText change).toList = some change := by
  obtain ⟨high, low, hold⟩ := List.length_eq_two.1 (Numeral.length_byte change.old)
  obtain ⟨high', low', hnew⟩ := List.length_eq_two.1 (Numeral.length_byte change.new)
  have htext : (changeText change).toList =
      [high, low, ' ', '-', '>', ' ', high', low', '\n'] := by
    simp [changeText, toString, hold, hnew]
  rw [htext, readChange, ← hold, ← hnew, readByte_byte, readByte_byte]
  rfl

theorem readRegisterChange_text (register : Nat) (change : Change) :
    readRegisterChange (Nat.toDigits 10 register ++ ':' :: ' ' :: (changeText change).toList) =
      some (.register register, change) := by
  have hcolon : ':' ∉ Nat.toDigits 10 register := Numeral.notMem_toDigits (by decide) register
  rw [readRegisterChange, dropWhile_append_mark hcolon, takeWhile_append_mark hcolon]
  change (readDecimal _ >>= fun index => readChange _ >>= fun read =>
    some (Place.register index, read)) = _
  rw [readDecimal_toDigits, readChange_changeText]
  rfl

theorem readMemoryChange_text (address : Nat) (change : Change) :
    readMemoryChange ((Numeral.hex 2 address).toList ++
      ']' :: ':' :: ' ' :: (changeText change).toList) = some (.memory address, change) := by
  have hbracket : ']' ∉ (Numeral.hex 2 address).toList := Numeral.notMem_hex (by decide) 2 address
  rw [readMemoryChange, dropWhile_append_mark hbracket, takeWhile_append_mark hbracket]
  change (readHex _ >>= fun index => readChange _ >>= fun read =>
    some (Place.memory index, read)) = _
  rw [readHex_hex, readChange_changeText]
  rfl

theorem readChangeLine_changeLine (entry : Place × Change) :
    readChangeLine (changeLine entry) = some entry := by
  obtain ⟨place, change⟩ := entry
  cases place with
  | register register =>
    have hline : (changeLine (.register register, change)).toList =
        'R' :: (Nat.toDigits 10 register ++ ':' :: ' ' :: (changeText change).toList) := by
      simp [changeLine, changeText, toString]
    rw [readChangeLine, hline]
    exact readRegisterChange_text register change
  | memory address =>
    have hline : (changeLine (.memory address, change)).toList =
        '[' :: ((Numeral.hex 2 address).toList ++
          ']' :: ':' :: ' ' :: (changeText change).toList) := by
      simp [changeLine, changeText, toString]
    rw [readChangeLine, hline]
    exact readMemoryChange_text address change

theorem readChangeLine_of_head? {line : String} (hregister : line.toList.head? ≠ some 'R')
    (hmemory : line.toList.head? ≠ some '[') : readChangeLine line = none := by
  unfold readChangeLine
  split
  · rename_i h
    rw [h] at hregister
    exact absurd rfl hregister
  · rename_i h
    rw [h] at hmemory
    exact absurd rfl hmemory
  · rfl

theorem readChangeLine_header (entry : ProgramLine) : readChangeLine (header entry) = none := by
  obtain ⟨c, hc, hkind⟩ := head?_header entry
  apply readChangeLine_of_head? <;>
    · rw [hc]
      rintro ⟨⟩
      exact absurd hkind (by decide)

theorem readChangeLine_haltLine (entry : ProgramLine) : readChangeLine (haltLine entry) = none := by
  apply readChangeLine_of_head? <;>
    · rw [head?_haltLine]
      decide

/-! ### Lines in turn -/

theorem readChanges_join {lines : List String} (h : ∀ line ∈ lines, IsLine line) :
    readChanges (String.join lines) = lines.filterMap readChangeLine := by
  rw [readChanges, physicalLines_join h]

theorem filterMap_readChangeLine (changes : List (Place × Change)) :
    (changes.map changeLine).filterMap readChangeLine = changes := by
  have hread : readChangeLine ∘ changeLine = some := funext readChangeLine_changeLine
  rw [List.filterMap_map, hread, List.filterMap_some]

end ByteMachine.Program

import ByteMachine.Instruction.Encoding
import ByteMachine.Proofs.Text.Numeral
import ByteMachine.Proofs.Text.Separated

/-! The characters of what a word means. The text of an instruction is written with letters, digits
and the signs of operands; it has neither a newline nor an angle bracket. Nor has the message for an
unassigned opcode. -/

namespace ByteMachine

namespace Instruction

/-- The characters that instructions are written with. -/
def textAlphabet : List Char := "abcdefghijklmnopqrstuvwxyz0123456789ABCDEF ,%$".toList

theorem mnemonic_subset_textAlphabet (kind : Kind) : kind.mnemonic.toList ⊆ textAlphabet := by
  cases kind <;> decide

theorem register_subset_textAlphabet (register : Nat) :
    (s!"%{register}").toList ⊆ textAlphabet := by
  have table : ∀ d : Fin 10, Nat.digitChar d ∈ textAlphabet := by decide
  intro c hc
  have hc : c = '%' ∨ c ∈ Nat.toDigits 10 register := by simpa [toString] using hc
  rcases hc with rfl | hc
  · decide
  · obtain ⟨d, hd, rfl⟩ := Numeral.exists_digit_of_mem_toDigits (by decide) hc
    exact table ⟨d, hd⟩

theorem immediate_subset_textAlphabet (value : Byte) :
    (s!"$0x{Numeral.byte value}").toList ⊆ textAlphabet := by
  have table : ∀ d : Fin 16, Numeral.upperDigit d ∈ textAlphabet := by decide
  intro c hc
  have hc : c ∈ "$0x".toList ∨ c ∈ (Numeral.byte value).toList := by
    simpa [toString, or_assoc] using hc
  rcases hc with hc | hc
  · exact (by decide : "$0x".toList ⊆ textAlphabet) hc
  · obtain ⟨d, hd, rfl⟩ := Numeral.exists_digit_of_mem_hex hc
    exact table ⟨d, hd⟩

theorem operand_subset_textAlphabet {i : Instruction} {operand : String}
    (h : operand ∈ i.operands) : operand.toList ⊆ textAlphabet := by
  rw [operands, List.mem_append, List.mem_map, List.mem_map] at h
  rcases h with ⟨register, -, rfl⟩ | ⟨value, -, rfl⟩
  · exact register_subset_textAlphabet register
  · exact immediate_subset_textAlphabet value

theorem text_subset_textAlphabet (i : Instruction) : i.text.toList ⊆ textAlphabet := by
  intro c hc
  unfold text at hc
  split at hc
  · exact mnemonic_subset_textAlphabet i.kind hc
  · simp only [String.toList_append, List.mem_append] at hc
    rcases hc with (hc | hc) | hc
    · exact mnemonic_subset_textAlphabet i.kind hc
    · exact (by decide : " ".toList ⊆ textAlphabet) hc
    · rcases Text.mem_intercalate hc with hc | ⟨operand, hoperand, hc⟩
      · exact (by decide : ", ".toList ⊆ textAlphabet) hc
      · exact operand_subset_textAlphabet hoperand hc

theorem notMem_text {c : Char} (h : c ∉ textAlphabet) (i : Instruction) : c ∉ i.text.toList :=
  fun hc => h (i.text_subset_textAlphabet hc)

end Instruction

namespace Unassigned

theorem message_eq (e : Unassigned) : e.message = s!"Unassigned opcode {e.opcode}" := rfl

theorem notMem_message {c : Char} (hletter : c ∉ "Unassigned opcode ".toList)
    (hdigit : c.isDigit = false) (e : Unassigned) : c ∉ e.message.toList := by
  have hopcode := Numeral.notMem_toDigits hdigit e.opcode
  rw [message_eq, String.toList_append, List.mem_append]
  rintro (h | h)
  · exact hletter h
  · exact hopcode (by simpa [toString] using h)

end Unassigned

/-- What a word means is written with the characters of instructions and of one message. -/
theorem Word.notMem_meaning {c : Char} (htext : c ∉ Instruction.textAlphabet)
    (hbrackets : c ∉ ['<', '>']) (hletter : c ∉ "Unassigned opcode ".toList)
    (hdigit : c.isDigit = false) (word : Word) : c ∉ word.meaning.toList := by
  unfold Word.meaning
  cases Instruction.decode word with
  | ok i => exact i.notMem_text htext
  | error e =>
    have hmessage := e.notMem_message hletter hdigit
    simp only [List.mem_cons, List.not_mem_nil, or_false, not_or] at hbrackets
    simp [toString, hmessage, hbrackets]

end ByteMachine

import ByteMachine.Proofs.Text.Numeral
import ByteMachine.Text.Quoted

/-! The characters between quotes. An escape is written with the characters of a fixed alphabet, so
only the quoted character itself can add another one, and a newline is never shown as it is. -/

namespace ByteMachine.Text

/-- The characters that escapes are written with. -/
def escapeAlphabet : List Char := "\\tru\x7b\x7d0123456789abcdefn".toList

theorem mem_escapeAlphabet_of_lowerHex {n : Nat} {x : Char}
    (h : x ∈ (Numeral.lowerHex n).toList) : x ∈ escapeAlphabet := by
  have table : ∀ d : Fin 16, Nat.digitChar d ∈ escapeAlphabet := by decide
  rw [Numeral.lowerHex, String.toList_ofList] at h
  obtain ⟨d, hd, rfl⟩ := Numeral.exists_digit_of_mem_toDigits (by decide) h
  exact table ⟨d, hd⟩

theorem mem_escape {mark c x : Char} (h : x ∈ (escape mark c).toList) :
    x ∈ escapeAlphabet ∨ x = c ∧ c ≠ '\n' := by
  have letters : ∀ s ∈ ["\\0", "\\t", "\\r", "\\n"], s.toList ⊆ escapeAlphabet := by decide
  unfold escape at h
  split at h
  · exact .inl (letters _ (by decide) h)
  split at h
  · exact .inl (letters _ (by decide) h)
  split at h
  · exact .inl (letters _ (by decide) h)
  split at h
  · exact .inl (letters _ (by decide) h)
  rename_i hnewline
  split at h
  · rw [String.toList_ofList, List.mem_cons, List.mem_singleton] at h
    rcases h with rfl | rfl
    · exact .inl (by decide)
    · exact .inr ⟨rfl, hnewline⟩
  split at h
  · simp only [String.toList_append, List.mem_append] at h
    rcases h with (h | h) | h
    · exact .inl ((by decide : "\\u\x7b".toList ⊆ escapeAlphabet) h)
    · exact .inl (mem_escapeAlphabet_of_lowerHex h)
    · exact .inl ((by decide : "\x7d".toList ⊆ escapeAlphabet) h)
  · exact .inr ⟨by simpa using h, hnewline⟩

theorem newline_notMem_escape (mark c : Char) : '\n' ∉ (escape mark c).toList := by
  intro h
  rcases mem_escape h with h | ⟨rfl, h⟩
  · exact absurd h (by decide)
  · exact h rfl

/-- A character that no escape is written with comes only from itself. -/
theorem eq_of_mem_escape {mark c x : Char} (hx : x ∉ escapeAlphabet)
    (h : x ∈ (escape mark c).toList) : x = c :=
  (mem_escape h).elim (fun hmem => absurd hmem hx) And.left

end ByteMachine.Text

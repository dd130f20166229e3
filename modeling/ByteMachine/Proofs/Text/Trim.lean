import ByteMachine.Text.Blank
import ByteMachine.Text.Lines
import Mathlib.Data.List.DropRight

/-! Trimming. A blank at the end does not matter, and so neither does the end of a line, whose
characters are blanks. What was trimmed stays as it is. -/

namespace ByteMachine.Text

theorem trimChars_eq (cs : List Char) :
    trimChars cs = (cs.dropWhile isBlank).rdropWhile isBlank := rfl

theorem trimChars_subset (cs : List Char) : trimChars cs ⊆ cs := by
  rw [trimChars_eq]
  exact List.Subset.trans (List.rdropWhile_prefix _ _).subset (List.dropWhile_suffix _).subset

theorem trimChars_concat {c : Char} (h : isBlank c = true) (cs : List Char) :
    trimChars (cs ++ [c]) = trimChars cs := by
  rw [trimChars_eq, trimChars_eq, List.dropWhile_append]
  split
  · rename_i hempty
    rw [List.isEmpty_iff.1 hempty, List.dropWhile_cons_of_pos h, List.dropWhile_nil]
  · exact List.rdropWhile_concat_pos _ _ _ h

/-- The end of a line is blank. -/
theorem trimChars_dropLineEnd (cs : List Char) : trimChars (dropLineEnd cs) = trimChars cs := by
  unfold dropLineEnd
  split
  · rename_i rest h
    have hcs : cs = (rest.reverse ++ ['\r']) ++ ['\n'] := by
      rw [← List.reverse_reverse cs, h]
      simp
    rw [hcs, trimChars_concat (by decide), trimChars_concat (by decide)]
  · rename_i rest _ h
    have hcs : cs = rest.reverse ++ ['\n'] := by
      rw [← List.reverse_reverse cs, h]
      simp
    rw [hcs, trimChars_concat (by decide)]
  · rfl

theorem trimChars_trimChars (cs : List Char) : trimChars (trimChars cs) = trimChars cs := by
  -- the trimmed text is a prefix of one whose first character is not blank
  have hfront : (trimChars cs).dropWhile isBlank = trimChars cs := by
    rw [List.dropWhile_eq_self_iff]
    intro hpos
    have hfrontOf : trimChars cs <+: cs.dropWhile isBlank := List.rdropWhile_prefix _ _
    rw [hfrontOf.getElem]
    exact List.dropWhile_get_zero_not _ _ (by have := hfrontOf.length_le; omega)
  rw [trimChars_eq (trimChars cs), hfront, trimChars_eq, List.rdropWhile_idempotent]

theorem trimChars_of_no_blank {cs : List Char} (h : ∀ c ∈ cs, isBlank c = false) :
    trimChars cs = cs := by
  have hfront : cs.dropWhile isBlank = cs := by
    rw [List.dropWhile_eq_self_iff]
    intro hpos
    rw [h _ (List.getElem_mem hpos)]
    exact Bool.false_ne_true
  rw [trimChars_eq, hfront, List.rdropWhile_eq_self_iff]
  intro hne
  rw [h _ (List.getLast_mem hne)]
  exact Bool.false_ne_true

theorem trimChars_withoutEnd (line : String) :
    trimChars (withoutEnd line).toList = trimChars line.toList := by
  rw [withoutEnd, String.toList_ofList, trimChars_dropLineEnd]

/-- Trimming a line, and ending it anew, leaves what it is trimmed to. -/
theorem trimChars_withoutEnd_trim (line : String) :
    trimChars (withoutEnd (trim line ++ "\n")).toList = trimChars line.toList := by
  have hnewline : ("\n" : String).toList = ['\n'] := rfl
  rw [trimChars_withoutEnd, String.toList_append, hnewline, trimChars_concat (by decide), trim,
    String.toList_ofList, trimChars_trimChars]

end ByteMachine.Text

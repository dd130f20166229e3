/-! Texts put together with separators and taken apart again. A mark that the text before it does
not hold is found again, so pieces that do not hold the mark of their separator are too. -/

namespace ByteMachine.Text

/-! ### Marks -/

section Mark

variable {mark : Char} {cs : List Char}

theorem takeWhile_append_mark (h : mark ∉ cs) (ds : List Char) :
    (cs ++ mark :: ds).takeWhile (· != mark) = cs := by
  have hcs : ∀ c ∈ cs, (c != mark) = true := fun c hc => bne_iff_ne.2 fun heq => h (heq ▸ hc)
  rw [List.takeWhile_append_of_pos hcs, List.takeWhile_cons_of_neg (by simp), List.append_nil]

theorem dropWhile_append_mark (h : mark ∉ cs) (ds : List Char) :
    (cs ++ mark :: ds).dropWhile (· != mark) = mark :: ds := by
  have hcs : ∀ c ∈ cs, (c != mark) = true := fun c hc => bne_iff_ne.2 fun heq => h (heq ▸ hc)
  rw [List.dropWhile_append_of_pos hcs, List.dropWhile_cons_of_neg (by simp)]

/-- The first mark is found again. -/
theorem eq_of_first_mark {xs ys as bs : List Char} (hx : mark ∉ xs) (hy : mark ∉ ys)
    (h : xs ++ mark :: as = ys ++ mark :: bs) : xs = ys ∧ as = bs := by
  have hbefore := congrArg (List.takeWhile (· != mark)) h
  have hafter := congrArg (List.dropWhile (· != mark)) h
  rw [takeWhile_append_mark hx, takeWhile_append_mark hy] at hbefore
  rw [dropWhile_append_mark hx, dropWhile_append_mark hy] at hafter
  exact ⟨hbefore, (List.cons.inj hafter).2⟩

end Mark

/-! ### Separators -/

theorem mem_intercalate {separator : String} {pieces : List String} {c : Char}
    (h : c ∈ (separator.intercalate pieces).toList) :
    c ∈ separator.toList ∨ ∃ piece ∈ pieces, c ∈ piece.toList := by
  induction pieces with
  | nil => simp at h
  | cons piece pieces ih =>
    cases pieces with
    | nil => exact .inr ⟨piece, List.mem_cons_self, by simpa using h⟩
    | cons next pieces =>
      simp only [String.intercalate_cons_cons, String.toList_append, List.mem_append] at h
      rcases h with (h | h) | h
      · exact .inr ⟨piece, List.mem_cons_self, h⟩
      · exact .inl h
      · rcases ih h with h | ⟨other, hother, h⟩
        · exact .inl h
        · exact .inr ⟨other, List.mem_cons_of_mem _ hother, h⟩

/-- As many pieces are found again if none holds the first character of the separator. -/
theorem intercalate_inj {separator : String} {mark : Char} {rest : List Char}
    (hseparator : separator.toList = mark :: rest) {xs ys : List String}
    (hlength : xs.length = ys.length) (hx : ∀ x ∈ xs, mark ∉ x.toList)
    (hy : ∀ y ∈ ys, mark ∉ y.toList)
    (h : separator.intercalate xs = separator.intercalate ys) : xs = ys := by
  induction xs generalizing ys with
  | nil => exact (List.length_eq_zero_iff.1 hlength.symm).symm
  | cons x xs ih =>
    cases ys with
    | nil => cases hlength
    | cons y ys =>
      have hlength : xs.length = ys.length := Nat.succ.inj hlength
      cases xs with
      | nil =>
        obtain rfl : ys = [] := List.length_eq_zero_iff.1 hlength.symm
        simpa using h
      | cons x' xs =>
        cases ys with
        | nil => cases hlength
        | cons y' ys =>
          have hchars := congrArg String.toList h
          simp only [String.intercalate_cons_cons, String.toList_append, hseparator,
            List.append_assoc, List.cons_append] at hchars
          obtain ⟨hpiece, hothers⟩ :=
            eq_of_first_mark (hx x List.mem_cons_self) (hy y List.mem_cons_self) hchars
          rw [String.toList_inj.1 hpiece]
          congr 1
          exact ih hlength (fun z hz => hx z (List.mem_cons_of_mem _ hz))
            (fun z hz => hy z (List.mem_cons_of_mem _ hz))
            (String.toList_inj.1 (List.append_cancel_left hothers))

end ByteMachine.Text

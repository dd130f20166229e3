/-! Lines of a text. A line runs through its newline, and the last one may lack it. A carriage
return right before the newline belongs to the line's end; any other one is part of the line. -/

namespace ByteMachine.Text

/-- Cuts a list after each element that ends a piece. Nothing is lost: the pieces concatenate to the
list. -/
def cutAfter {α : Type} (ends : α → Bool) : List α → List (List α)
  | [] => []
  | a :: as =>
    if ends a then [a] :: cutAfter ends as
    else match cutAfter ends as with
      | [] => [[a]]
      | piece :: pieces => (a :: piece) :: pieces

theorem flatten_cutAfter {α : Type} (ends : α → Bool) (as : List α) :
    (cutAfter ends as).flatten = as := by
  induction as with
  | nil => rfl
  | cons a as ih =>
    rw [cutAfter]
    split
    · simp [ih]
    · split <;> rename_i h <;> rw [h] at ih <;> simp [← ih]

/-- The line without the newline that ends it and a carriage return before that. -/
def dropLineEnd (line : List Char) : List Char :=
  match line.reverse with
  | '\n' :: '\r' :: rest => rest.reverse
  | '\n' :: rest => rest.reverse
  | _ => line

/-- A line of text without its end. -/
def withoutEnd (line : String) : String := String.ofList (dropLineEnd line.toList)

/-- The lines of a text without their ends. -/
def lines (s : String) : List String :=
  (cutAfter (· == '\n') s.toList).map fun line => withoutEnd (String.ofList line)

end ByteMachine.Text

import ByteMachine.Proofs.Console.Effect

/-! Words after a command that is given every argument. A command that reads its line to the end
refuses them, however many there are and whatever they say, before it has an effect. Help and
quitting do not read on after their names, so for them such words are no fault. -/

namespace ByteMachine.Console

open Arguments

variable {words surplus : List String} {command : Command}

/-! ### Reading -/

theorem Command.Complete.ofLine_eq_error (h : Complete words command)
    (hcommand : ¬ command.ignoresSurplus) (hsurplus : surplus ≠ []) {line : String}
    (hline : Text.words line = words ++ surplus) :
    ofLine line = .error (.unusedArguments surplus.length) := by
  rw [ofLine, Arguments.ofLine, hline, h.reader_append hcommand]
  cases surplus with
  | nil => exact absurd rfl hsurplus
  | cons word others => rfl

/-- What does not read on is written with any words after it. -/
theorem Command.Complete.written_append (h : Complete words command)
    (hcommand : command.ignoresSurplus) (surplus : List String) :
    Written (words ++ surplus) command := by
  cases h with
  | shortHelp => exact .shortHelp surplus
  | help => exact .help surplus
  | quit => exact .quit surplus
  | _ => rcases hcommand with h | h <;> cases h

/-! ### Carrying out -/

/-- Surplus words are counted and refused, and nothing happens; only help is shown and a session is
quit all the same. -/
theorem surplus_words_are_refused_unless_ignored (verbosity : Verbosity) (m : Machine)
    {line : String} (hline : Text.words line = words ++ surplus)
    (hcomplete : Command.Complete words command) (hsurplus : surplus ≠ []) :
    respond verbosity line m =
      match command with
      | .help => .still m (.ok .goOn) helpText
      | .quit => .still m (.ok .quit) ""
      | _ => .still m (.error (.unusedArguments surplus.length)) "" := by
  by_cases hcommand : command.ignoresSurplus
  · have hwritten := hcomplete.written_append hcommand surplus
    rw [← hline] at hwritten
    rw [respond_of_written hwritten]
    rcases hcommand with rfl | rfl <;> rfl
  · rw [respond, hcomplete.ofLine_eq_error hcommand hsurplus hline]
    cases command with
    | help => exact absurd (.inl rfl) hcommand
    | quit => exact absurd (.inr rfl) hcommand
    | _ => rfl

/-- A register is not set if a word comes after its value. -/
theorem surplus_word_keeps_register :
    Text.words "set r 3 2A !" = ["set", "r", "3", "2A"] ++ ["!"] ∧
      Command.Complete ["set", "r", "3", "2A"] (.setRegister 3 0x2A) ∧
      respond none "set r 3 2A !" .zero = .still .zero (.error (.unusedArguments 1)) "" := by
  have hwords : Text.words "set r 3 2A !" = ["set", "r", "3", "2A"] ++ ["!"] := by decide +kernel
  have hcomplete : Command.Complete ["set", "r", "3", "2A"] (.setRegister 3 0x2A) :=
    .setRegister (by decide +kernel) (by decide +kernel)
  exact ⟨hwords, hcomplete, surplus_words_are_refused_unless_ignored none .zero hwords hcomplete
    (List.cons_ne_nil _ _)⟩

/-- Help and quitting are no errors with a word after them. -/
theorem help_and_quit_ignore_surplus_words :
    (Text.words "h 1" = ["h"] ++ ["1"] ∧ Command.Complete ["h"] .help ∧
      (respond none "h 1" .zero).result ≠ .error (.unusedArguments 1) ∧
      (respond none "h 1" .zero).output = helpText) ∧
    Text.words "q 1" = ["q"] ++ ["1"] ∧ Command.Complete ["q"] .quit ∧
      (respond none "q 1" .zero).result ≠ .error (.unusedArguments 1) ∧
      (respond none "q 1" .zero).result = .ok .quit :=
  ⟨⟨by decide +kernel, .shortHelp, by decide +kernel, by decide +kernel⟩,
    by decide +kernel, .quit, by decide +kernel, by decide +kernel⟩

end ByteMachine.Console

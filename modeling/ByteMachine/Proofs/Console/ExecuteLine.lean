import ByteMachine.Proofs.Console.Grammar
import ByteMachine.Proofs.Program.FirstHalt
import ByteMachine.Proofs.Token

/-! Executing a program from the console. The line that executes a word is the name of the command
and the token of the word, and it reads back as that command. Given such lines up to the first word
that halts, the console takes the very steps of a run: it takes the changes after every word as
well. -/

namespace ByteMachine

namespace Text

/-! ### Words of a line -/

theorem wordChars_append_blank {blank : Char} (h : isBlank blank = true) (xs ys : List Char) :
    wordChars (xs ++ blank :: ys) = wordChars xs ++ wordChars ys := by
  rw [wordChars, List.splitOnP_append_cons xs ys h, List.filter_append]
  rfl

theorem wordChars_of_no_blank {xs : List Char} (hne : xs ≠ []) (h : ∀ c ∈ xs, isBlank c = false) :
    wordChars xs = [xs] := by
  rw [wordChars, List.splitOnP_eq_singleton h, List.filter_cons_of_pos (by simp [hne])]
  rfl

end Text

/-- The words of a line that holds a name and a token. -/
theorem Token.words_line {line name token : String} {word : Word}
    (hline : line.toList = name.toList ++ ' ' :: token.toList) (hne : name.toList ≠ [])
    (hname : name.toList.any Text.isBlank = false) (h : parse token = .ok word) :
    Text.words line = [name, token] := by
  have hname : ∀ c ∈ name.toList, Text.isBlank c = false := by
    simpa only [Bool.not_eq_true] using List.any_eq_false.1 hname
  have htoken : token.toList ≠ [] := by
    rw [← List.length_pos_iff, String.length_toList, length_of_parse h]
    decide
  rw [Text.words, hline, Text.wordChars_append_blank (by decide),
    Text.wordChars_of_no_blank hne hname, Text.wordChars_of_no_blank htoken (isBlank_of_parse h)]
  simp

namespace Console

/-! ### The line that executes a word -/

/-- The command that executes a word, as it is typed. -/
def executeLine (word : Word) : String := s!"x {Numeral.word word}"

theorem words_executeLine (word : Word) :
    Text.words (executeLine word) = ["x", Numeral.word word] := by
  have hchars : (executeLine word).toList = "x".toList ++ ' ' :: (Numeral.word word).toList := by
    rw [executeLine, String.toList_append]
    rfl
  exact Token.words_line hchars (by decide) (by decide) (Token.parse_word word)

theorem ofLine_executeLine (word : Word) :
    Command.ofLine (executeLine word) = .ok (.execute word) := by
  rw [Command.ofLine_eq_ok_iff, words_executeLine]
  exact .execute (Token.parse_word word)

theorem respond_executeLine (verbosity : Verbosity) (word : Word) (m : Machine) :
    respond verbosity (executeLine word) m = Command.executeWord verbosity word m := by
  rw [respond, ofLine_executeLine]
  rfl

/-! ### Lines in turn -/

/-- The responses to lines that are given in turn. -/
def responses (verbosity : Verbosity) : List String → Machine → List Response
  | [], _ => []
  | line :: lines, m =>
    let response := respond verbosity line m
    response :: responses verbosity lines response.machine

/-- The machine after responses to lines, the first of which was given to `m`. -/
def machineAfter (m : Machine) (responses : List Response) : Machine :=
  match responses.getLast? with
  | none => m
  | some response => response.machine

/-- What the console makes of a step. -/
def stepResponse (step : Step ProgramLine) : Response :=
  ⟨step.after.settle, .ok .goOn,
    Program.changes step.after.toStore ++ if step.halts then "Halted\n" else "",
    step.outcome.log⟩

/-- The lines of a program up to the first whose word halts, as they are typed. -/
def typed (program : List ProgramLine) : List String :=
  (Program.throughHalt program).map fun entry => executeLine entry.word

theorem executeWord_eq (verbosity : Verbosity) (entry : ProgramLine) (m : Machine) :
    Command.executeWord verbosity entry.word m =
      stepResponse ⟨entry, m, m.execute verbosity entry.word⟩ := by
  rw [Command.executeWord, stepResponse, Step.halts, Step.status]
  cases (m.execute verbosity entry.word).status <;> rfl

/-- The console takes the steps of a run. -/
theorem responses_typed (verbosity : Verbosity) (program : List ProgramLine) (m : Machine) :
    responses verbosity (typed program) m =
      (Program.steps verbosity program m).map stepResponse := by
  induction program generalizing m with
  | nil => rfl
  | cons entry program ih =>
    rw [typed, Program.throughHalt_cons, List.map_cons, responses, respond_executeLine,
      executeWord_eq]
    cases h : (m.execute verbosity entry.word).status with
    | halted =>
      rw [Program.steps, Machine.trace_cons_halted h, if_pos ((Word.halts_iff _ _ m).2 h)]
      rfl
    | normal =>
      rw [Program.steps, Machine.trace_cons_normal h, (Word.halts_eq_false_iff _ _ m).2 h,
        if_neg Bool.false_ne_true, List.map_cons]
      exact congrArg _ (ih _)

theorem machineAfter_stepResponse (m : Machine) (steps : List (Step ProgramLine)) :
    machineAfter m (steps.map stepResponse) = Step.final Machine.settle m steps := by
  rw [machineAfter, Step.final, List.getLast?_map]
  cases steps.getLast? <;> rfl

end Console

end ByteMachine

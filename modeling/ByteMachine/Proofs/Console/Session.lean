import ByteMachine.Console.Session
import ByteMachine.Proofs.Console.Effect
import ByteMachine.Proofs.Text.PhysicalLines

/-! A session as a walk over the lines of its input. It answers them in turn up to the first that
ends it, because it is not text or asks to quit. That line is taken without an effect, and what
comes after it stays in the input. -/

namespace ByteMachine.Console

variable {verbosity : Verbosity} {m : Machine}

/-- What a session prints for a line that it answers: the prompt, and then the output of the command
or its error. -/
def exchange (response : Response) : String :=
  "> " ++
    match response.result with
    | .ok _ => response.output
    | .error e => s!"!> {e.message}\n"

/-- The session with exchanges in front of it. -/
def Session.after (given : List Response) (session : Session) : Session :=
  { session with
    output := String.join (given.map exchange) ++ session.output
    log := given.flatMap Response.log ++ session.log }

/-- The line ends a session in which the machine has come to `m`, with the given result. -/
inductive Ends (verbosity : Verbosity) (m : Machine) (line : Bytes) : Except ReadError Unit → Prop
  | notText (h : Bytes.decode line = .error .invalidEncoding) :
    Ends verbosity m line (.error .invalidEncoding)
  | quit {text : String} (htext : Bytes.decode line = .ok text)
    (hquit : (respond verbosity text m).result = .ok .quit) : Ends verbosity m line (.ok ())

/-! ### One line -/

theorem quits_eq_true_iff {response : Response} :
    response.quits = true ↔ response.result = .ok .quit := by
  unfold Response.quits
  split
  · rename_i h
    simp [h]
  · rename_i h
    simpa using h

/-- Quitting does nothing else. -/
theorem respond_of_quit {line : String} (h : (respond verbosity line m).result = .ok .quit) :
    respond verbosity line m = .still m (.ok .quit) "" := by
  obtain ⟨command, -, hrespond⟩ := exists_written_of_ok h
  rw [hrespond] at h ⊢
  cases command with
  | quit => rfl
  | setRegister index value =>
    dsimp only [Command.perform, Command.assignRegister] at h
    split at h <;> cases h
  | _ => cases h

/-- A command that fails has printed nothing before its error. -/
theorem promptText_append_shown (line : String) (m : Machine) :
    promptText ++ (respond verbosity line m).shown = exchange (respond verbosity line m) := by
  rw [Response.shown, exchange, promptText]
  cases h : (respond verbosity line m).result with
  | ok flow => rfl
  | error e =>
    obtain ⟨-, houtput, -⟩ := respond_of_error h
    dsimp only
    rw [houtput, String.empty_append]

/-! ### Lines in turn -/

theorem sessionFrom_of_ends {line : Bytes} {result : Except ReadError Unit}
    (h : Ends verbosity m line result) (after : List Bytes) :
    sessionFrom verbosity (line :: after) m = ⟨m, result, promptText, after, []⟩ := by
  rw [sessionFrom]
  cases h with
  | notText hline => rw [hline]
  | quit htext hquit =>
    rw [htext]
    dsimp only
    rw [if_pos (quits_eq_true_iff.2 hquit), promptText_append_shown, respond_of_quit hquit]
    rfl

/-- Lines of which none asks to quit are answered, and the session goes on from there. -/
theorem sessionFrom_append {texts : List String} (left : List Bytes)
    (h : ∀ response ∈ responses verbosity texts m, response.result ≠ .ok .quit) :
    sessionFrom verbosity (texts.map Bytes.encode ++ left) m =
      (sessionFrom verbosity left (machineAfter m (responses verbosity texts m))).after
        (responses verbosity texts m) := by
  induction texts generalizing m with
  | nil =>
    simp only [List.map_nil, List.nil_append, responses, Session.after, String.join_nil,
      String.empty_append, List.flatMap_nil]
    rfl
  | cons text texts ih =>
    rw [responses, List.forall_mem_cons] at h
    obtain ⟨hfirst, hrest⟩ := h
    have hgoesOn : ¬ (respond verbosity text m).quits = true := fun hquits =>
      hfirst (quits_eq_true_iff.1 hquits)
    rw [List.map_cons, List.cons_append, sessionFrom, Bytes.decode_encode]
    dsimp only
    rw [if_neg hgoesOn, ih hrest, promptText_append_shown, responses]
    simp only [Session.after, machineAfter_cons, List.map_cons, String.join_cons,
      String.append_assoc, List.flatMap_cons, List.append_assoc]

/-- The lines before the first that ends the session. -/
theorem exists_first_end (verbosity : Verbosity) (lines : List Bytes) (m : Machine) :
    ∃ (texts : List String) (left : List Bytes), lines = texts.map Bytes.encode ++ left ∧
      (∀ response ∈ responses verbosity texts m, response.result ≠ .ok .quit) ∧
      (left = [] ∨ ∃ line after result, left = line :: after ∧
        Ends verbosity (machineAfter m (responses verbosity texts m)) line result) := by
  induction lines generalizing m with
  | nil => exact ⟨[], [], rfl, by simp [responses], .inl rfl⟩
  | cons line lines ih =>
    cases hdecode : Bytes.decode line with
    | error e =>
      have hline : Bytes.decode line = .error .invalidEncoding := by
        rw [hdecode, Bytes.decode_eq_error hdecode]
      exact ⟨[], line :: lines, rfl, by simp [responses], .inr ⟨_, _, _, rfl, .notText hline⟩⟩
    | ok text =>
      by_cases hquit : (respond verbosity text m).result = .ok .quit
      · exact ⟨[], line :: lines, rfl, by simp [responses], .inr ⟨_, _, _, rfl, .quit hdecode hquit⟩⟩
      · -- the line is answered, and the lines after it go to the machine that it leaves
        obtain ⟨texts, left, rfl, hgoOn, hleft⟩ := ih (respond verbosity text m).machine
        refine ⟨text :: texts, left, ?_, ?_, ?_⟩
        · rw [List.map_cons, Bytes.decode_eq_ok_iff.1 hdecode, List.cons_append]
        · rw [responses, List.forall_mem_cons]
          exact ⟨hquit, hgoOn⟩
        · rw [responses, machineAfter_cons]
          exact hleft

/-- A session leaves an end of its lines unread. -/
theorem unread_sessionFrom_suffix (verbosity : Verbosity) (lines : List Bytes) (m : Machine) :
    (sessionFrom verbosity lines m).unread <:+ lines := by
  obtain ⟨texts, left, rfl, hgoOn, hleft⟩ := exists_first_end verbosity lines m
  rw [sessionFrom_append left hgoOn]
  rcases hleft with rfl | ⟨line, after, result, rfl, hends⟩
  · exact List.nil_suffix
  · rw [sessionFrom_of_ends hends]
    exact (List.suffix_cons line after).trans (List.suffix_append _ _)

/-- A session answers every line before the first that ends it, once and in order, also after a
command that fails. Then it prompts once more, for the line that ends it or at the end of the
input. -/
theorem session_answers_lines_in_turn (verbosity : Verbosity) (input : Bytes) (m : Machine) :
    ∃ (texts : List String) (left : List Bytes),
      input.physicalLines = texts.map Bytes.encode ++ left ∧
      let session := session verbosity input m
      let given := responses verbosity texts m
      (∀ response ∈ given, response.result ≠ .ok .quit) ∧
      session.machine = machineAfter m given ∧
      session.output = String.join (given.map exchange) ++ "> " ∧
      session.log = given.flatMap Response.log ∧
      (left = [] ∧ session.result = .ok () ∧ session.rest = [] ∨
        ∃ line after, left = line :: after ∧
          Ends verbosity (machineAfter m given) line session.result ∧
          session.rest = after.flatten) := by
  obtain ⟨texts, left, hlines, hgoOn, hleft⟩ := exists_first_end verbosity input.physicalLines m
  refine ⟨texts, left, hlines, ?_⟩
  dsimp only
  rw [session, hlines, sessionFrom_append left hgoOn]
  rcases hleft with rfl | ⟨line, after, result, rfl, hends⟩
  · exact ⟨hgoOn, rfl, rfl, List.append_nil _, .inl ⟨rfl, rfl, rfl⟩⟩
  · rw [sessionFrom_of_ends hends]
    exact ⟨hgoOn, rfl, rfl, List.append_nil _, .inr ⟨line, after, rfl, hends, rfl⟩⟩

/-- A line that fails, one that is answered, one that quits, and one that stays unread. -/
example : (session none (Bytes.encode "set r 16 01\nset r 3 2A\nq\nr\n") .zero).output =
    "> !> 16 out of range (size 16)\n> > " := by
  decide +kernel

end ByteMachine.Console

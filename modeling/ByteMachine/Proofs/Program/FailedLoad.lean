import ByteMachine.Proofs.Machine.ExecutionLog
import ByteMachine.Proofs.Program.Reply
import ByteMachine.Proofs.Program.StrictLoad

/-! Loads that fail. A load passes lines that are accepted and, if it may ask, lines that a reply
settles, and fails at the first line that is neither. Until then it prints what it asks about the
invalid lines, this one included, and takes the replies to that. -/

namespace ByteMachine.Program

/-! ### Questions -/

/-- An invalid line that the user is asked about, with the replies that are refused. -/
structure Question where
  line : Nat
  token : String
  cause : Token.Error
  refused : List Bytes

namespace Question

/-- What is wrong with the line, and the question, again after each reply that is refused. -/
def text (question : Question) : String :=
  let fault := question.cause.message
  let asked := s!"Enter 4 hex digits for line {question.line} (empty to skip): "
  s!"Line {question.line}: {Text.quote question.token} is not a valid instruction ({fault})\n" ++
    (String.join (question.refused.map fun reply => asked ++ (Reply.ofBytes reply).complaint) ++
      asked)

/-- The question is about an invalid line, and no reply that it passes over settles it. -/
structure Concerns (question : Question) (bytes : Bytes) : Prop where
  content : Content.ofBytes bytes = .invalid question.token question.cause
  refused : ∀ reply ∈ question.refused, isRefused reply = true

variable {question : Question} {bytes : Bytes}

/-- The first reply that is not refused settles the line or cannot be read. -/
theorem Concerns.correct_of_reply (h : question.Concerns bytes) (verbosity : Verbosity)
    {reply : Bytes} (hreply : isRefused reply = false) (left : List Bytes) :
    let attempt := correct verbosity question.line question.token question.cause
      (question.refused ++ reply :: left)
    attempt.result = (Reply.ofBytes reply).answer ∧ attempt.output = question.text ∧
      attempt.unread = left := by
  have hneg : ¬ isRefused reply = true := Bool.not_eq_true _ ▸ hreply
  have hdrop : (question.refused ++ reply :: left).dropWhile isRefused = reply :: left := by
    rw [List.dropWhile_append_of_pos h.refused, List.dropWhile_cons_of_neg hneg]
  have htake : (question.refused ++ reply :: left).takeWhile isRefused = question.refused := by
    rw [List.takeWhile_append_of_pos h.refused, List.takeWhile_cons_of_neg hneg, List.append_nil]
  obtain ⟨hresult, hunread⟩ := takeReply_settled verbosity question.line hdrop
  have houtput := output_takeReply verbosity question.line (question.refused ++ reply :: left)
  rw [htake] at houtput
  exact ⟨hresult, congrArg (_ ++ ·) houtput, hunread⟩

theorem Concerns.correct_of_end (h : question.Concerns bytes) (verbosity : Verbosity) :
    let attempt := correct verbosity question.line question.token question.cause question.refused
    attempt.result = .error (.endOfInput question.line) ∧ attempt.output = question.text ∧
      attempt.unread = [] := by
  have hdrop : question.refused.dropWhile isRefused = [] := List.dropWhile_eq_nil_iff.2 h.refused
  have htake : question.refused.takeWhile isRefused = question.refused :=
    List.takeWhile_eq_self_iff.2 h.refused
  obtain ⟨hresult, hunread⟩ := takeReply_exhausted verbosity question.line hdrop
  have houtput := output_takeReply verbosity question.line question.refused
  rw [htake] at houtput
  exact ⟨hresult, congrArg (_ ++ ·) houtput, hunread⟩

end Question

/-! ### Failing -/

/-- A load of lines of which the first has the given number fails with an error. It asks some
questions, and of the replies some are unread then. -/
inductive Fails : InvalidLinePolicy → Nat → List Bytes → List Bytes → LoadError → List Question →
    List Bytes → Prop
  /-- A line is not UTF-8. -/
  | illFormedLine {policy : InvalidLinePolicy} {n : Nat} {bytes : Bytes} {rest replies : List Bytes}
    (hbytes : Content.ofBytes bytes = .illFormed) :
    Fails policy n (bytes :: rest) replies (.unreadable .invalidEncoding) [] replies
  /-- A line is invalid, and nobody may be asked. -/
  | invalidLine {n : Nat} {bytes : Bytes} {rest replies : List Bytes} {token : String}
    {cause : Token.Error} (hbytes : Content.ofBytes bytes = .invalid token cause) :
    Fails .strict n (bytes :: rest) replies (.invalidLine n token cause) [] replies
  /-- The replies end before one settles an invalid line. -/
  | endOfInput {question : Question} {bytes : Bytes} {rest : List Bytes}
    (hline : question.Concerns bytes) :
    Fails .prompt question.line (bytes :: rest) question.refused (.endOfInput question.line)
      [question] []
  /-- A reply to an invalid line is not UTF-8. -/
  | illFormedReply {question : Question} {bytes reply : Bytes} {rest left : List Bytes}
    (hline : question.Concerns bytes) (hreply : Reply.ofBytes reply = .illFormed) :
    Fails .prompt question.line (bytes :: rest) (question.refused ++ reply :: left)
      (.unreadable .invalidEncoding) [question] left
  /-- A line is accepted, and a later one fails. -/
  | accepted {policy : InvalidLinePolicy} {n : Nat} {bytes : Bytes}
    {rest replies unread : List Bytes} {e : LoadError} {asked : List Question}
    (hbytes : (Content.ofBytes bytes).isAccepted = true)
    (hrest : Fails policy (n + 1) rest replies e asked unread) :
    Fails policy n (bytes :: rest) replies e asked unread
  /-- A reply settles an invalid line, and a later line fails. -/
  | corrected {question : Question} {bytes reply : Bytes} {rest left unread : List Bytes}
    {word? : Option Word} {e : LoadError} {asked : List Question}
    (hline : question.Concerns bytes) (hreply : (Reply.ofBytes reply).answer = .ok word?)
    (hrest : Fails .prompt (question.line + 1) rest left e asked unread) :
    Fails .prompt question.line (bytes :: rest) (question.refused ++ reply :: left) e
      (question :: asked) unread

variable {policy : InvalidLinePolicy} {verbosity : Verbosity} {n : Nat}
  {lines rest replies unread : List Bytes} {e : LoadError} {asked : List Question}

/-- Without asking, no reply is taken. -/
theorem Fails.strict (h : Fails .strict n lines replies e asked unread) :
    asked = [] ∧ unread = replies := by
  generalize hpolicy : InvalidLinePolicy.strict = policy at h
  induction h with
  | illFormedLine _ | invalidLine _ => exact ⟨rfl, rfl⟩
  | accepted _ _ ih => exact ih hpolicy
  | endOfInput _ | illFormedReply _ _ | corrected _ _ _ => cases hpolicy

/-! ### Loads that fail -/

/-- The attempt ends with an error, after it printed the text and left some replies unread. -/
def Attempt.FailsWith {α : Type} (attempt : Attempt α) (e : LoadError) (text : String)
    (unread : List Bytes) : Prop :=
  attempt.result = .error e ∧ attempt.output = text ∧ attempt.unread = unread

theorem result_loadRest_eq_error_iff (word? : Option Word) :
    (loadRest policy verbosity n rest word? replies).result = .error e ↔
      (loadFrom policy verbosity (n + 1) rest replies).result = .error e := by
  cases word? with
  | none => exact Iff.rfl
  | some word =>
    rw [loadRest, Attempt.result_after, Attempt.result_map]
    cases (loadFrom policy verbosity (n + 1) rest replies).result with
    | ok program => exact iff_of_false (fun h => by cases h) (fun h => by cases h)
    | error e' => exact Iff.rfl

theorem failsWith_loadRest {text : String} (word? : Option Word)
    (h : (loadFrom policy verbosity (n + 1) rest replies).FailsWith e text unread) :
    (loadRest policy verbosity n rest word? replies).FailsWith e text unread := by
  obtain ⟨hresult, houtput, hunread⟩ := h
  refine ⟨(result_loadRest_eq_error_iff word?).2 hresult, ?_, ?_⟩
  · cases word? with
    | none => exact houtput
    | some word => rw [loadRest, Attempt.output_after, Attempt.output_map, houtput,
        String.empty_append]
  · cases word? <;> exact hunread

theorem loadFrom_accepted {bytes : Bytes} (h : (Content.ofBytes bytes).isAccepted = true) :
    ∃ word?, loadFrom policy verbosity n (bytes :: rest) replies =
      loadRest policy verbosity n rest word? replies := by
  rcases Content.of_isAccepted h with hempty | ⟨word, hword⟩
  · exact ⟨none, loadFrom_empty hempty rest replies⟩
  · exact ⟨some word, loadFrom_word hword rest replies⟩

theorem not_isRefused_of_answer {reply : Bytes} {word? : Option Word}
    (h : (Reply.ofBytes reply).answer = .ok word?) : isRefused reply = false := by
  unfold isRefused
  cases hreply : Reply.ofBytes reply with
  | refused text cause =>
    rw [hreply] at h
    cases h
  | illFormed | skip | word _ _ => rfl

/-- A reply that is not refused and answers nothing cannot be read. -/
theorem illFormed_of_answer {reply : Bytes} (hreply : isRefused reply = false) {e : LoadError}
    (h : (Reply.ofBytes reply).answer = .error e) :
    Reply.ofBytes reply = .illFormed ∧ e = .unreadable .invalidEncoding := by
  unfold isRefused at hreply
  cases hkind : Reply.ofBytes reply with
  | illFormed =>
    rw [hkind] at h
    cases h
    exact ⟨rfl, rfl⟩
  | refused text cause =>
    rw [hkind] at hreply
    cases hreply
  | skip | word _ _ =>
    rw [hkind] at h
    cases h

/-- What a load that fails prints and leaves. -/
theorem failsWith_loadFrom (verbosity : Verbosity)
    (h : Fails policy n lines replies e asked unread) :
    (loadFrom policy verbosity n lines replies).FailsWith e (String.join (asked.map Question.text))
      unread := by
  induction h with
  | illFormedLine hbytes =>
    rw [loadFrom_illFormed hbytes]
    exact ⟨rfl, rfl, rfl⟩
  | invalidLine hbytes =>
    rw [loadFrom_invalid_strict hbytes]
    exact ⟨rfl, rfl, rfl⟩
  | endOfInput hline =>
    obtain ⟨hresult, houtput, hunread⟩ := hline.correct_of_end verbosity
    rw [loadFrom_invalid hline.content, replace, Attempt.andThen_of_error hresult]
    exact ⟨rfl, by rw [houtput]; simp, hunread⟩
  | @illFormedReply question bytes reply rest left hline hreply =>
    have hrefused : isRefused reply = false := by
      unfold isRefused
      rw [hreply]
      rfl
    obtain ⟨hresult, houtput, hunread⟩ := hline.correct_of_reply verbosity hrefused left
    rw [hreply] at hresult
    rw [loadFrom_invalid hline.content, replace, Attempt.andThen_of_error hresult]
    exact ⟨rfl, by rw [houtput]; simp, hunread⟩
  | accepted hbytes _ ih =>
    obtain ⟨word?, hload⟩ := loadFrom_accepted hbytes
    rw [hload]
    exact failsWith_loadRest word? ih
  | @corrected question bytes reply rest left unread word? e asked hline hreply _ ih =>
    obtain ⟨hresult, houtput, hunread⟩ :=
      hline.correct_of_reply verbosity (not_isRefused_of_answer hreply) left
    obtain ⟨hfails, hprinted, hleft⟩ := failsWith_loadRest word? ih
    rw [loadFrom_invalid hline.content, replace, Attempt.andThen_of_ok (hresult.trans hreply),
      hunread]
    refine ⟨hfails, ?_, hleft⟩
    rw [Attempt.output_after, houtput, hprinted, List.map_cons, String.join_cons]

/-- A load fails in one of these ways only. -/
theorem fails_of_result (h : (loadFrom policy verbosity n lines replies).result = .error e) :
    ∃ asked unread, Fails policy n lines replies e asked unread := by
  induction lines generalizing n replies with
  | nil => cases h
  | cons bytes rest ih =>
    by_cases haccepted : (Content.ofBytes bytes).isAccepted = true
    · obtain ⟨word?, hload⟩ := loadFrom_accepted haccepted
      rw [hload] at h
      obtain ⟨asked, unread, hfails⟩ := ih ((result_loadRest_eq_error_iff word?).1 h)
      exact ⟨asked, unread, .accepted haccepted hfails⟩
    rcases Content.of_not_isAccepted (Bool.eq_false_iff.2 haccepted) with
      hbytes | ⟨token, cause, hbytes⟩
    · rw [loadFrom_illFormed hbytes] at h
      cases h
      exact ⟨_, _, .illFormedLine hbytes⟩
    cases policy with
    | strict =>
      rw [loadFrom_invalid_strict hbytes] at h
      cases h
      exact ⟨_, _, .invalidLine hbytes⟩
    | prompt =>
      -- the replies are those that are refused and, if there is one, the reply that is not
      obtain ⟨refused, hrefused, hsplit⟩ : ∃ refused, (∀ reply ∈ refused, isRefused reply = true) ∧
          replies = refused ++ replies.dropWhile isRefused :=
        ⟨_, fun _ => List.mem_takeWhile_imp, List.takeWhile_append_dropWhile.symm⟩
      have hline : (Question.mk n token cause refused).Concerns bytes := ⟨hbytes, hrefused⟩
      rw [loadFrom_invalid hbytes, replace] at h
      cases hdrop : replies.dropWhile isRefused with
      | nil =>
        rw [hdrop, List.append_nil] at hsplit
        subst hsplit
        obtain ⟨hresult, -⟩ := hline.correct_of_end verbosity
        rw [Attempt.andThen_of_error hresult] at h
        cases h
        exact ⟨_, _, .endOfInput hline⟩
      | cons reply left =>
        have hreply := isRefused_of_dropWhile hdrop
        rw [hdrop] at hsplit
        subst hsplit
        obtain ⟨hresult, -, hunread⟩ := hline.correct_of_reply verbosity hreply left
        cases hanswer : (Reply.ofBytes reply).answer with
        | ok word? =>
          rw [Attempt.andThen_of_ok (hresult.trans hanswer), hunread, Attempt.result_after] at h
          obtain ⟨asked, unread, hfails⟩ := ih ((result_loadRest_eq_error_iff word?).1 h)
          exact ⟨_, _, .corrected hline hanswer hfails⟩
        | error e' =>
          obtain ⟨hill, rfl⟩ := illFormed_of_answer hreply hanswer
          rw [Attempt.andThen_of_error (hresult.trans hanswer)] at h
          cases h
          exact ⟨_, _, .illFormedReply hline hill⟩

/-- A load fails exactly in these ways. -/
theorem load_eq_error_iff (policy : InvalidLinePolicy) (verbosity : Verbosity)
    (source input : Bytes) (e : LoadError) :
    (load policy verbosity source input).program = .error e ↔
      ∃ asked unread, Fails policy 1 source.physicalLines input.physicalLines e asked unread := by
  refine ⟨fails_of_result, ?_⟩
  rintro ⟨asked, unread, hfails⟩
  exact (failsWith_loadFrom verbosity hfails).1

/-! ### The log of a load -/

section Traced

theorem traced_emit {severity : Severity} (h : severity ≠ .trace) (message : String) :
    Log.traced (verbosity.emit severity message) = [] := by
  refine Log.traced_of_ne fun entry hentry => ?_
  unfold Verbosity.emit at hentry
  split at hentry
  · rw [List.mem_singleton.1 hentry]
    exact h
  · cases hentry

theorem traced_takeReply (verbosity : Verbosity) (line : Nat) (replies : List Bytes) :
    (takeReply verbosity line replies).log.traced = [] := by
  induction replies with
  | nil => rfl
  | cons reply rest ih =>
    rw [takeReply_cons]
    cases Reply.ofBytes reply with
    | illFormed => rfl
    | skip | word _ _ =>
      simp only [Attempt.after, Attempt.done, List.nil_append, List.append_nil]
      exact traced_emit (by decide) _
    | refused text cause => exact ih

theorem traced_wordOfLine (policy : InvalidLinePolicy) (verbosity : Verbosity) (line : Nat)
    (bytes : Bytes) (replies : List Bytes) :
    (wordOfLine policy verbosity line bytes replies).log.traced = [] := by
  rw [wordOfLine_eq]
  cases Content.ofBytes bytes with
  | illFormed | empty | word _ => rfl
  | invalid token cause =>
    cases policy with
    | strict => rfl
    | prompt => exact traced_takeReply verbosity line replies

theorem traced_andThen {α β : Type} {attempt : Attempt α} {next : α → List Bytes → Attempt β}
    (h : attempt.log.traced = []) (hnext : ∀ a left, (next a left).log.traced = []) :
    (attempt.andThen next).log.traced = [] := by
  unfold Attempt.andThen
  cases attempt.result with
  | error e => exact h
  | ok a =>
    dsimp only [Attempt.after]
    rw [Log.traced_append, h, hnext]
    rfl

/-- Loading executes nothing. -/
theorem traced_loadFrom (policy : InvalidLinePolicy) (verbosity : Verbosity) (line : Nat)
    (lines replies : List Bytes) :
    (loadFrom policy verbosity line lines replies).log.traced = [] := by
  induction lines generalizing line replies with
  | nil => rfl
  | cons bytes rest ih =>
    rw [loadFrom_cons]
    refine traced_andThen (traced_wordOfLine policy verbosity line bytes replies) ?_
    intro word? left
    cases word? with
    | none => exact ih (line + 1) left
    | some word =>
      dsimp only [loadRest, Attempt.after, Attempt.map]
      rw [Log.traced_append, ih, traced_emit (by decide)]
      rfl

end Traced

end ByteMachine.Program

import ByteMachine.Program.Load
import ByteMachine.Proofs.Text.PhysicalLines

/-! What a physical line of a program holds, and how a load goes on from it: one equation for each
kind of content. A load does not look at a line in any other way. -/

namespace ByteMachine.Program

inductive Content
  /-- Bytes that are not UTF-8. -/
  | illFormed
  /-- A blank line or a comment. -/
  | empty
  | word (word : Word)
  | invalid (token : String) (cause : Token.Error)
  deriving DecidableEq

namespace Content

def ofText (line : String) : Content :=
  match token? (Text.withoutEnd line) with
  | none => .empty
  | some token =>
    match Token.parse token with
    | .ok w => .word w
    | .error cause => .invalid token cause

def ofBytes (bytes : Bytes) : Content :=
  match Bytes.decode bytes with
  | .ok line => ofText line
  | .error _ => .illFormed

/-- Whether a load passes such a line without asking and without failing. -/
def isAccepted : Content → Bool
  | .empty | .word _ => true
  | .illFormed | .invalid _ _ => false

theorem of_isAccepted {content : Content} (h : content.isAccepted = true) :
    content = .empty ∨ ∃ w, content = .word w := by
  cases content with
  | empty => exact .inl rfl
  | word w => exact .inr ⟨w, rfl⟩
  | illFormed => cases h
  | invalid token cause => cases h

theorem of_not_isAccepted {content : Content} (h : content.isAccepted = false) :
    content = .illFormed ∨ ∃ token cause, content = .invalid token cause := by
  cases content with
  | illFormed => exact .inl rfl
  | invalid token cause => exact .inr ⟨token, cause, rfl⟩
  | empty => cases h
  | word w => cases h

theorem ofBytes_encode (line : String) : ofBytes (Bytes.encode line) = ofText line := by
  rw [ofBytes, Bytes.decode_encode]

/-- What the content says of the line's token. -/
def Fits (line : String) : Content → Prop
  | .illFormed => False
  | .empty => token? (Text.withoutEnd line) = none
  | .word w => ∃ token, token? (Text.withoutEnd line) = some token ∧ Token.parse token = .ok w
  | .invalid token cause =>
    token? (Text.withoutEnd line) = some token ∧ Token.parse token = .error cause

theorem fits_of_ofText {line : String} {content : Content} (h : ofText line = content) :
    content.Fits line := by
  subst h
  unfold ofText
  cases htoken : token? (Text.withoutEnd line) with
  | none => exact htoken
  | some token =>
    dsimp only
    cases hparse : Token.parse token with
    | ok w => exact ⟨token, htoken, hparse⟩
    | error cause => exact ⟨htoken, hparse⟩

theorem ofText_ne_illFormed (line : String) : ofText line ≠ .illFormed := fits_of_ofText

theorem ofBytes_eq_illFormed_iff {bytes : Bytes} :
    ofBytes bytes = .illFormed ↔ ∀ line, Bytes.encode line ≠ bytes := by
  constructor
  · rintro h line rfl
    rw [ofBytes_encode] at h
    exact ofText_ne_illFormed line h
  · intro h
    unfold ofBytes
    split
    · rename_i line hline
      exact absurd (Bytes.decode_eq_ok_iff.1 hline) (h line)
    · rfl

end Content

/-! ### Attempts -/

namespace Attempt

variable {α β : Type}

@[simp] theorem output_done (result : Except LoadError α) (unread : List Bytes) :
    (done result unread).output = "" := rfl

@[simp] theorem result_after (output : String) (log : Log) (attempt : Attempt α) :
    (attempt.after output log).result = attempt.result := rfl

@[simp] theorem output_after (output : String) (log : Log) (attempt : Attempt α) :
    (attempt.after output log).output = output ++ attempt.output := rfl

@[simp] theorem unread_after (output : String) (log : Log) (attempt : Attempt α) :
    (attempt.after output log).unread = attempt.unread := rfl

@[simp] theorem result_map (f : α → β) (attempt : Attempt α) :
    (attempt.map f).result = attempt.result.map f := rfl

@[simp] theorem output_map (f : α → β) (attempt : Attempt α) :
    (attempt.map f).output = attempt.output := rfl

@[simp] theorem unread_map (f : α → β) (attempt : Attempt α) :
    (attempt.map f).unread = attempt.unread := rfl

theorem after_nil (attempt : Attempt α) : attempt.after "" [] = attempt := by
  simp [after]

theorem done_ok_andThen (a : α) (unread : List Bytes) (next : α → List Bytes → Attempt β) :
    (done (.ok a) unread).andThen next = next a unread := by
  change (next a unread).after "" [] = _
  rw [after_nil]

theorem done_error_andThen (e : LoadError) (unread : List Bytes)
    (next : α → List Bytes → Attempt β) :
    (done (.error e) unread).andThen next = done (.error e) unread := rfl

theorem andThen_of_ok {attempt : Attempt α} {a : α} (h : attempt.result = .ok a)
    (next : α → List Bytes → Attempt β) :
    attempt.andThen next = (next a attempt.unread).after attempt.output attempt.log := by
  rw [andThen, h]

theorem andThen_of_error {attempt : Attempt α} {e : LoadError} (h : attempt.result = .error e)
    (next : α → List Bytes → Attempt β) :
    attempt.andThen next = ⟨.error e, attempt.output, attempt.unread, attempt.log⟩ := by
  rw [andThen, h]

theorem unread_andThen_suffix (attempt : Attempt α) {next : α → List Bytes → Attempt β}
    (h : ∀ a left, (next a left).unread <:+ left) :
    (attempt.andThen next).unread <:+ attempt.unread := by
  unfold andThen
  cases attempt.result with
  | ok a => exact h a attempt.unread
  | error e => exact List.suffix_rfl

end Attempt

/-! ### Lines of a load -/

variable {policy : InvalidLinePolicy} {verbosity : Verbosity} {line : Nat} {bytes : Bytes}

theorem wordOfLine_eq (policy : InvalidLinePolicy) (verbosity : Verbosity) (line : Nat)
    (bytes : Bytes) (replies : List Bytes) :
    wordOfLine policy verbosity line bytes replies =
      match Content.ofBytes bytes with
      | .illFormed => .done (.error (.unreadable .invalidEncoding)) replies
      | .empty => .done (.ok none) replies
      | .word word => .done (.ok (some word)) replies
      | .invalid token cause => replace policy verbosity line token cause replies := by
  unfold wordOfLine Content.ofBytes Content.ofText
  cases hdecode : Bytes.decode bytes with
  | error e => rw [Bytes.decode_eq_error hdecode]
  | ok text =>
    dsimp only
    cases token? (Text.withoutEnd text) with
    | none => rfl
    | some token =>
      dsimp only
      cases Token.parse token <;> rfl

/-- What follows a line once its word, if any, is known. -/
def loadRest (policy : InvalidLinePolicy) (verbosity : Verbosity) (line : Nat) (rest : List Bytes)
    (word? : Option Word) (unread : List Bytes) : Attempt (List ProgramLine) :=
  match word? with
  | none => loadFrom policy verbosity (line + 1) rest unread
  | some word =>
    ((loadFrom policy verbosity (line + 1) rest unread).map (⟨line, word⟩ :: ·)).after ""
      (verbosity.emit .debug s!"Line {line}: {Numeral.word word}")

theorem loadFrom_cons (policy : InvalidLinePolicy) (verbosity : Verbosity) (line : Nat)
    (bytes : Bytes) (rest replies : List Bytes) :
    loadFrom policy verbosity line (bytes :: rest) replies =
      (wordOfLine policy verbosity line bytes replies).andThen
        (loadRest policy verbosity line rest) := by
  rw [loadFrom]
  rfl

theorem loadFrom_illFormed (h : Content.ofBytes bytes = .illFormed) (rest replies : List Bytes) :
    loadFrom policy verbosity line (bytes :: rest) replies =
      .done (.error (.unreadable .invalidEncoding)) replies := by
  rw [loadFrom_cons, wordOfLine_eq, h]
  exact Attempt.done_error_andThen _ _ _

theorem loadFrom_empty (h : Content.ofBytes bytes = .empty) (rest replies : List Bytes) :
    loadFrom policy verbosity line (bytes :: rest) replies =
      loadFrom policy verbosity (line + 1) rest replies := by
  rw [loadFrom_cons, wordOfLine_eq, h]
  exact Attempt.done_ok_andThen _ _ _

theorem loadFrom_word {word : Word} (h : Content.ofBytes bytes = .word word)
    (rest replies : List Bytes) :
    loadFrom policy verbosity line (bytes :: rest) replies =
      loadRest policy verbosity line rest (some word) replies := by
  rw [loadFrom_cons, wordOfLine_eq, h]
  exact Attempt.done_ok_andThen _ _ _

theorem loadFrom_invalid {token : String} {cause : Token.Error}
    (h : Content.ofBytes bytes = .invalid token cause) (rest replies : List Bytes) :
    loadFrom policy verbosity line (bytes :: rest) replies =
      (replace policy verbosity line token cause replies).andThen
        (loadRest policy verbosity line rest) := by
  rw [loadFrom_cons, wordOfLine_eq, h]

end ByteMachine.Program

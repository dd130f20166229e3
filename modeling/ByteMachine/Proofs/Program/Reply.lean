import ByteMachine.Proofs.Program.Content
import ByteMachine.Proofs.Text.Trim
import ByteMachine.Proofs.Token

/-! The prompt loop. It passes over the lines of replies that it refuses and ends with the first that
it does not: a blank one, one that is a token once trimmed, or one that cannot be read. The question
is asked once for each reply that is refused and once more, so it is not asked forever. A reply that
settles a line can be written in its place. -/

namespace ByteMachine.Program

/-! ### Replies -/

/-- What a line of replies says. -/
inductive Reply
  /-- Bytes that are not UTF-8. -/
  | illFormed
  /-- A blank line. -/
  | skip
  | word (text : String) (word : Word)
  | refused (text : String) (cause : Token.Error)

namespace Reply

def ofBytes (bytes : Bytes) : Reply :=
  match Bytes.decode bytes with
  | .error _ => .illFormed
  | .ok line =>
    let text := Text.trim line
    if text.isEmpty then .skip
    else
      match Token.parse text with
      | .ok w => .word text w
      | .error cause => .refused text cause

def isRefused : Reply → Bool
  | .refused _ _ => true
  | .illFormed | .skip | .word _ _ => false

/-- The line that a settling reply puts in the place of an invalid one. -/
def replacement? : Reply → Option Bytes
  | .skip => some (Bytes.encode "\n")
  | .word text _ => some (Bytes.encode (text ++ "\n"))
  | .illFormed | .refused _ _ => none

/-- What is printed before the question is asked again. -/
def complaint : Reply → String
  | .refused text cause => s!"{Text.quote text} is not valid either ({cause.message})\n"
  | .illFormed | .skip | .word _ _ => ""

theorem exists_of_isRefused {reply : Reply} (h : reply.isRefused = true) :
    ∃ text cause, reply = .refused text cause := by
  cases reply with
  | refused text cause => exact ⟨text, cause, rfl⟩
  | illFormed => cases h
  | skip => cases h
  | word text w => cases h

theorem ofBytes_encode_ne_illFormed (line : String) : ofBytes (Bytes.encode line) ≠ .illFormed := by
  unfold ofBytes
  rw [Bytes.decode_encode]
  dsimp only
  split
  · exact Reply.noConfusion
  · split <;> exact Reply.noConfusion

end Reply

/-- Whether a line of replies is neither blank nor a token, so that another one is asked for. -/
def isRefused (reply : Bytes) : Bool := (Reply.ofBytes reply).isRefused

/-! ### The prompt loop -/

section Prompt

variable (verbosity : Verbosity) (line : Nat)

theorem takeReply_cons (bytes : Bytes) (rest : List Bytes) :
    takeReply verbosity line (bytes :: rest) =
      Attempt.after (promptFor line) [] (match Reply.ofBytes bytes with
        | .illFormed => .done (.error (.unreadable .invalidEncoding)) rest
        | .skip => (Attempt.done (.ok none) rest).after ""
            (verbosity.emit .info s!"Skipping line {line}")
        | .word _ word => (Attempt.done (.ok (some word)) rest).after ""
            (verbosity.emit .info s!"Line {line} corrected to {Numeral.word word}")
        | .refused text cause =>
          (takeReply verbosity line rest).after (Reply.refused text cause).complaint []) := by
  rw [takeReply]
  unfold Reply.ofBytes
  cases hdecode : Bytes.decode bytes with
  | error e => rw [Bytes.decode_eq_error hdecode]
  | ok text =>
    dsimp only
    by_cases hempty : (Text.trim text).isEmpty = true
    · rw [if_pos hempty, if_pos hempty]
    · rw [if_neg hempty, if_neg hempty]
      cases Token.parse (Text.trim text) <;> rfl

/-- Refused replies are passed over. -/
theorem takeReply_dropWhile (replies : List Bytes) :
    (takeReply verbosity line replies).result =
        (takeReply verbosity line (replies.dropWhile isRefused)).result ∧
      (takeReply verbosity line replies).unread =
        (takeReply verbosity line (replies.dropWhile isRefused)).unread := by
  induction replies with
  | nil => exact ⟨rfl, rfl⟩
  | cons reply rest ih =>
    by_cases h : isRefused reply = true
    · obtain ⟨text, cause, hreply⟩ := Reply.exists_of_isRefused h
      rw [List.dropWhile_cons_of_pos h, takeReply_cons, hreply]
      exact ih
    · rw [List.dropWhile_cons_of_neg h]
      exact ⟨rfl, rfl⟩

/-- The loop asks once for each reply that is refused, and once more. -/
theorem output_takeReply (replies : List Bytes) :
    (takeReply verbosity line replies).output =
      String.join ((replies.takeWhile isRefused).map fun reply =>
        promptFor line ++ (Reply.ofBytes reply).complaint) ++ promptFor line := by
  induction replies with
  | nil => simp [takeReply]
  | cons reply rest ih =>
    rw [takeReply_cons, List.takeWhile_cons]
    unfold isRefused
    cases hreply : Reply.ofBytes reply with
    | refused text cause =>
      simp only [Reply.isRefused, if_true, Attempt.output_after, List.map_cons, String.join_cons,
        hreply]
      rw [ih]
      simp only [String.append_assoc]
      rfl
    | illFormed => simp [Reply.isRefused]
    | skip => simp [Reply.isRefused]
    | word text w => simp [Reply.isRefused]

end Prompt

/-! ### Replacements -/

theorem ofText_newline : Content.ofText "\n" = .empty := by decide

/-- A token that was trimmed is read again from a line of its own. -/
theorem ofText_word {line : String} {word : Word} (h : Token.parse (Text.trim line) = .ok word) :
    Content.ofText (Text.trim line ++ "\n") = .word word := by
  have hdigits := Token.isSome_digit?_of_parse h
  have hlength := Token.length_of_parse h
  have htoken : token? (Text.withoutEnd (Text.trim line ++ "\n")) = some (Text.trim line) := by
    rw [token?, Text.trimChars_withoutEnd_trim]
    rw [Text.trim, String.toList_ofList] at hdigits
    rw [Text.trim, String.length_ofList] at hlength
    rw [Text.trim]
    cases hchars : Text.trimChars line.toList with
    | nil =>
      rw [hchars] at hlength
      cases hlength
    | cons c cs =>
      rw [hchars] at hdigits
      have hc : c ≠ '#' := by
        rintro rfl
        exact absurd (hdigits '#' List.mem_cons_self) (by decide)
      dsimp only
      rw [if_neg hc]
  rw [Content.ofText, htoken]
  dsimp only
  rw [h]

/-- An encoded text without a newline, and a newline, make a line. -/
theorem closed_encode {text : String} (h : '\n' ∉ text.toList) :
    Text.Closed (· == (10 : Byte)) (Bytes.encode (text ++ "\n")) := by
  refine ⟨Bytes.encode text, 10, Bytes.encode_append _ _, ?_, rfl⟩
  intro b hb
  rw [Bytes.encode_eq, List.mem_flatMap] at hb
  obtain ⟨c, hc, hbc⟩ := hb
  rw [beq_eq_false_iff_ne]
  rintro rfl
  exact h (Bytes.eq_of_newline_mem hbc ▸ hc)

theorem newline_notMem_of_parse {token : String} {word : Word} (h : Token.parse token = .ok word) :
    '\n' ∉ token.toList := by
  intro hmem
  exact absurd (Token.isSome_digit?_of_parse h '\n' hmem) (by decide)

/-! ### Settling a line -/

/-- What the prompt loop gives for a reply that it does not refuse. -/
def Reply.answer : Reply → Except LoadError (Option Word)
  | .skip => .ok none
  | .word _ w => .ok (some w)
  | .illFormed | .refused _ _ => .error (.unreadable .invalidEncoding)

/-- The content of a line with the given word or none. -/
def Content.ofWord? : Option Word → Content
  | none => .empty
  | some w => .word w

/-- A replacement holds just the word of the answer, and is a line. -/
theorem answer_of_replacement {bytes replacement : Bytes}
    (h : (Reply.ofBytes bytes).replacement? = some replacement) :
    Text.Closed (· == (10 : Byte)) replacement ∧
      ∃ word?, (Reply.ofBytes bytes).answer = .ok word? ∧
        Content.ofBytes replacement = Content.ofWord? word? := by
  unfold Reply.ofBytes at h ⊢
  cases hdecode : Bytes.decode bytes with
  | error e =>
    rw [hdecode] at h
    cases h
  | ok line =>
    rw [hdecode] at h
    dsimp only at h ⊢
    by_cases hempty : (Text.trim line).isEmpty = true
    · rw [if_pos hempty] at h ⊢
      cases h
      exact ⟨closed_encode (by simp : '\n' ∉ "".toList), none, rfl,
        (Content.ofBytes_encode _).trans ofText_newline⟩
    · rw [if_neg hempty] at h ⊢
      cases hparse : Token.parse (Text.trim line) with
      | error cause =>
        rw [hparse] at h
        cases h
      | ok w =>
        rw [hparse] at h
        cases h
        exact ⟨closed_encode (newline_notMem_of_parse hparse), some w, rfl,
          (Content.ofBytes_encode _).trans (ofText_word hparse)⟩

/-- A reply that is not refused but replaces nothing cannot be read. -/
theorem eq_illFormed_of_no_replacement {reply : Reply} (hrefused : reply.isRefused = false)
    (h : reply.replacement? = none) : reply = .illFormed := by
  cases reply with
  | illFormed => rfl
  | refused text cause => cases hrefused
  | skip => cases h
  | word text w => cases h

theorem isRefused_of_dropWhile {replies unread : List Bytes} {reply : Bytes}
    (h : replies.dropWhile isRefused = reply :: unread) : isRefused reply = false := by
  have hne : replies.dropWhile isRefused ≠ [] := by simp [h]
  simpa [h] using List.head_dropWhile_not isRefused hne

/-- The loop ends with the first reply that it does not refuse. -/
theorem takeReply_settled (verbosity : Verbosity) (line : Nat) {replies unread : List Bytes}
    {reply : Bytes} (h : replies.dropWhile isRefused = reply :: unread) :
    (takeReply verbosity line replies).result = (Reply.ofBytes reply).answer ∧
      (takeReply verbosity line replies).unread = unread := by
  obtain ⟨hresult, hunread⟩ := takeReply_dropWhile verbosity line replies
  have hreply := isRefused_of_dropWhile h
  rw [hresult, hunread, h, takeReply_cons]
  unfold isRefused at hreply
  cases hr : Reply.ofBytes reply with
  | illFormed => exact ⟨rfl, rfl⟩
  | skip => exact ⟨rfl, rfl⟩
  | word text w => exact ⟨rfl, rfl⟩
  | refused text cause =>
    rw [hr] at hreply
    cases hreply

theorem takeReply_exhausted (verbosity : Verbosity) (line : Nat) {replies : List Bytes}
    (h : replies.dropWhile isRefused = []) :
    (takeReply verbosity line replies).result = .error (.endOfInput line) ∧
      (takeReply verbosity line replies).unread = [] := by
  obtain ⟨hresult, hunread⟩ := takeReply_dropWhile verbosity line replies
  rw [hresult, hunread, h]
  exact ⟨rfl, rfl⟩

theorem unread_takeReply_suffix (verbosity : Verbosity) (line : Nat) (replies : List Bytes) :
    (takeReply verbosity line replies).unread <:+ replies := by
  cases hdrop : replies.dropWhile isRefused with
  | nil =>
    rw [(takeReply_exhausted verbosity line hdrop).2]
    exact List.nil_suffix
  | cons reply unread =>
    rw [(takeReply_settled verbosity line hdrop).2]
    have hsuffix := List.dropWhile_suffix (l := replies) isRefused
    rw [hdrop] at hsuffix
    exact (List.suffix_cons reply unread).trans hsuffix

end ByteMachine.Program

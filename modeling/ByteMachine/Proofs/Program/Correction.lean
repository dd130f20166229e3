import ByteMachine.Proofs.Program.Reply
import ByteMachine.Proofs.Program.StrictLoad

/-! A prompted load is a strict load of the corrected source. The correction hands out the replies:
each invalid line gets those up to and including the first that settles it, and that reply takes the
line's place. What is left of the replies then is what the load leaves unread. -/

namespace ByteMachine.Program

/-! ### Corrections -/

/-- What comes of handing out the replies to the invalid lines of a source. -/
inductive Correction
  /-- The lines with each invalid one replaced, and the replies that no line needed. -/
  | corrected (lines unread : List Bytes)
  /-- The replies ended before the line with this number was settled. -/
  | exhausted (line : Nat)
  /-- A reply that is not UTF-8 was met; these are after it. -/
  | illFormedReply (unread : List Bytes)
  /-- A line that is not UTF-8 was met; these replies are unread then. -/
  | illFormedLine (unread : List Bytes)

def Correction.cons (bytes : Bytes) : Correction → Correction
  | .corrected lines unread => .corrected (bytes :: lines) unread
  | other => other

/-- Hands out replies to the invalid ones of lines of which the first has number `line`. -/
def correctLines (line : Nat) : List Bytes → List Bytes → Correction
  | [], replies => .corrected [] replies
  | bytes :: rest, replies =>
    match Content.ofBytes bytes with
    | .illFormed => .illFormedLine replies
    | .empty | .word _ => (correctLines (line + 1) rest replies).cons bytes
    | .invalid _ _ =>
      match replies.dropWhile isRefused with
      | [] => .exhausted line
      | reply :: unread =>
        match (Reply.ofBytes reply).replacement? with
        | some replacement => (correctLines (line + 1) rest unread).cons replacement
        | none => .illFormedReply unread

/-! ### The load that a correction describes -/

/-- The load ends as the correction does, with a strict load's program of the corrected lines. -/
def Correction.Describes (line : Nat) (attempt : Attempt (List ProgramLine)) : Correction → Prop
  | .corrected lines unread =>
    attempt.unread = unread ∧ ∃ program, attempt.result = .ok program ∧
      ∀ verbosity replies, (loadFrom .strict verbosity line lines replies).result = .ok program
  | .exhausted n => attempt.result = .error (.endOfInput n) ∧ attempt.unread = []
  | .illFormedReply unread | .illFormedLine unread =>
    attempt.result = .error (.unreadable .invalidEncoding) ∧ attempt.unread = unread

theorem describes_after {correction : Correction} {line : Nat}
    {attempt : Attempt (List ProgramLine)} (h : correction.Describes line attempt)
    (output : String) (log : Log) : correction.Describes line (attempt.after output log) := by
  cases correction <;> exact h

/-- Passing a line, or its replacement, adds its word to both loads. -/
theorem describes_cons {verbosity : Verbosity} {line : Nat} {bytes : Bytes} {word? : Option Word}
    (hbytes : Content.ofBytes bytes = Content.ofWord? word?) {rest unread : List Bytes}
    {correction : Correction}
    (h : correction.Describes (line + 1) (loadFrom .prompt verbosity (line + 1) rest unread)) :
    (correction.cons bytes).Describes line (loadRest .prompt verbosity line rest word? unread) := by
  cases word? with
  | none =>
    cases correction with
    | corrected lines left =>
      obtain ⟨hleft, program, hresult, hstrict⟩ := h
      refine ⟨hleft, program, hresult, fun v replies => ?_⟩
      rw [loadFrom_empty hbytes]
      exact hstrict v replies
    | exhausted n => exact h
    | illFormedReply left => exact h
    | illFormedLine left => exact h
  | some w =>
    apply describes_after
    cases correction with
    | corrected lines left =>
      obtain ⟨hleft, program, hresult, hstrict⟩ := h
      refine ⟨hleft, ⟨line, w⟩ :: program, by rw [Attempt.result_map, hresult]; rfl,
        fun v replies => ?_⟩
      rw [loadFrom_word hbytes, loadRest, Attempt.result_after, Attempt.result_map, hstrict]
      rfl
    | exhausted n => exact ⟨by rw [Attempt.result_map, h.1]; rfl, h.2⟩
    | illFormedReply left => exact ⟨by rw [Attempt.result_map, h.1]; rfl, h.2⟩
    | illFormedLine left => exact ⟨by rw [Attempt.result_map, h.1]; rfl, h.2⟩

theorem describes_loadFrom (verbosity : Verbosity) (line : Nat) (lines replies : List Bytes) :
    (correctLines line lines replies).Describes line
      (loadFrom .prompt verbosity line lines replies) := by
  induction lines generalizing line replies with
  | nil => exact ⟨rfl, [], rfl, fun _ _ => rfl⟩
  | cons bytes rest ih =>
    rw [correctLines]
    cases hc : Content.ofBytes bytes with
    | illFormed =>
      rw [loadFrom_illFormed hc]
      exact ⟨rfl, rfl⟩
    | empty =>
      rw [loadFrom_empty hc]
      exact describes_cons (by exact hc : _ = Content.ofWord? none) (ih (line + 1) replies)
    | word w =>
      rw [loadFrom_word hc]
      exact describes_cons hc (ih (line + 1) replies)
    | invalid token cause =>
      rw [loadFrom_invalid hc]
      dsimp only [replace]
      generalize hattempt : correct verbosity line token cause replies = attempt
      have hresult : attempt.result = (takeReply verbosity line replies).result := by
        rw [← hattempt, correct, Attempt.result_after]
      have hunread : attempt.unread = (takeReply verbosity line replies).unread := by
        rw [← hattempt, correct, Attempt.unread_after]
      cases hdrop : replies.dropWhile isRefused with
      | nil =>
        obtain ⟨hloop, hleft⟩ := takeReply_exhausted verbosity line hdrop
        rw [Attempt.andThen_of_error (hresult.trans hloop)]
        exact ⟨rfl, hunread.trans hleft⟩
      | cons reply unread =>
        obtain ⟨hloop, hleft⟩ := takeReply_settled verbosity line hdrop
        dsimp only
        cases hrep : (Reply.ofBytes reply).replacement? with
        | none =>
          rw [eq_illFormed_of_no_replacement (isRefused_of_dropWhile hdrop) hrep] at hloop
          rw [Attempt.andThen_of_error (hresult.trans hloop)]
          exact ⟨rfl, hunread.trans hleft⟩
        | some replacement =>
          obtain ⟨-, word?, hanswer, hcontent⟩ := answer_of_replacement hrep
          rw [Attempt.andThen_of_ok (hresult.trans (hloop.trans hanswer)), hunread.trans hleft]
          exact describes_after (describes_cons hcontent (ih (line + 1) unread)) _ _

/-! ### Lines of a correction -/

theorem cons_eq_corrected {bytes : Bytes} {correction : Correction} {lines unread : List Bytes}
    (h : correction.cons bytes = .corrected lines unread) :
    ∃ rest, lines = bytes :: rest ∧ correction = .corrected rest unread := by
  cases correction with
  | corrected rest left =>
    cases h
    exact ⟨rest, rfl, rfl⟩
  | exhausted n => cases h
  | illFormedReply left => cases h
  | illFormedLine left => cases h

/-- The corrected lines can be told apart in their concatenation. -/
theorem isCut_correctLines {line : Nat} {lines replies corrected unread : List Bytes}
    (hlines : Text.IsCut (· == (10 : Byte)) lines)
    (h : correctLines line lines replies = .corrected corrected unread) :
    Text.IsCut (· == (10 : Byte)) corrected := by
  induction lines generalizing line replies corrected with
  | nil =>
    cases h
    trivial
  | cons bytes rest ih =>
    obtain ⟨hbytes, hrest⟩ := hlines
    rw [correctLines] at h
    -- a line that stays may be open only if nothing follows it
    have hkept : (correctLines (line + 1) rest replies).cons bytes = .corrected corrected unread →
        Text.IsCut (· == (10 : Byte)) corrected := by
      intro hcons
      obtain ⟨tail, rfl, htail⟩ := cons_eq_corrected hcons
      refine ⟨?_, ih hrest htail⟩
      rcases hbytes with hclosed | ⟨rfl, hopen⟩
      · exact .inl hclosed
      · cases htail
        exact .inr ⟨rfl, hopen⟩
    split at h
    · cases h
    · exact hkept h
    · exact hkept h
    · split at h
      · cases h
      · split at h
        · rename_i replacement hrep
          obtain ⟨tail, rfl, htail⟩ := cons_eq_corrected h
          exact ⟨.inl (answer_of_replacement hrep).1, ih hrest htail⟩
        · cases h

theorem correctLines_wellFormed {line : Nat} {lines replies : List Bytes}
    (hlines : ∀ bytes ∈ lines, Content.ofBytes bytes ≠ .illFormed)
    (hreplies : ∀ reply ∈ replies, Reply.ofBytes reply ≠ .illFormed) :
    (∃ corrected unread, correctLines line lines replies = .corrected corrected unread) ∨
      ∃ n, correctLines line lines replies = .exhausted n := by
  induction lines generalizing line replies with
  | nil => exact .inl ⟨[], replies, rfl⟩
  | cons bytes rest ih =>
    have hrest : ∀ b ∈ rest, Content.ofBytes b ≠ .illFormed :=
      fun b hb => hlines b (List.mem_cons_of_mem _ hb)
    have hcons : ∀ (b : Bytes) (left : List Bytes), (∀ reply ∈ left, reply ∈ replies) →
        (∃ corrected unread, (correctLines (line + 1) rest left).cons b =
          .corrected corrected unread) ∨
        ∃ n, (correctLines (line + 1) rest left).cons b = .exhausted n := by
      intro b left hleft
      rcases @ih (line + 1) left hrest fun reply hr => hreplies reply (hleft reply hr) with
        ⟨corrected, unread, h⟩ | ⟨n, h⟩
      · exact .inl ⟨b :: corrected, unread, by rw [h]; rfl⟩
      · exact .inr ⟨n, by rw [h]; rfl⟩
    rw [correctLines]
    split
    · rename_i hill
      exact absurd hill (hlines bytes List.mem_cons_self)
    · exact hcons bytes replies fun _ hr => hr
    · exact hcons bytes replies fun _ hr => hr
    · split
      · exact .inr ⟨line, rfl⟩
      · rename_i reply unread hdrop
        have hmem : ∀ r ∈ reply :: unread, r ∈ replies := by
          rw [← hdrop]
          exact fun r hr => (List.dropWhile_subset isRefused) hr
        split
        · exact hcons _ unread fun r hr => hmem r (List.mem_cons_of_mem _ hr)
        · rename_i hrep
          exact absurd (eq_illFormed_of_no_replacement (isRefused_of_dropWhile hdrop) hrep)
            (hreplies reply (hmem reply List.mem_cons_self))

/-! ### What is left of the input -/

theorem unread_wordOfLine_suffix (policy : InvalidLinePolicy) (verbosity : Verbosity) (line : Nat)
    (bytes : Bytes) (replies : List Bytes) :
    (wordOfLine policy verbosity line bytes replies).unread <:+ replies := by
  rw [wordOfLine_eq]
  cases Content.ofBytes bytes with
  | illFormed => exact List.suffix_rfl
  | empty => exact List.suffix_rfl
  | word w => exact List.suffix_rfl
  | invalid token cause =>
    cases policy with
    | strict => exact List.suffix_rfl
    | prompt => exact unread_takeReply_suffix verbosity line replies

theorem unread_loadFrom_suffix (policy : InvalidLinePolicy) (verbosity : Verbosity) (line : Nat)
    (lines replies : List Bytes) :
    (loadFrom policy verbosity line lines replies).unread <:+ replies := by
  induction lines generalizing line replies with
  | nil => exact List.suffix_rfl
  | cons bytes rest ih =>
    rw [loadFrom_cons]
    refine (Attempt.unread_andThen_suffix _ fun word? left => ?_).trans
      (unread_wordOfLine_suffix policy verbosity line bytes replies)
    cases word? <;> exact ih (line + 1) left

theorem physicalLines_rest (policy : InvalidLinePolicy) (verbosity : Verbosity)
    (source input : Bytes) :
    (load policy verbosity source input).rest.physicalLines =
      (loadFrom policy verbosity 1 source.physicalLines input.physicalLines).unread :=
  Bytes.physicalLines_flatten (unread_loadFrom_suffix policy verbosity 1 _ _)

/-- A prompted load that succeeds has taken the replies that the correction needs. -/
theorem exists_corrected {verbosity : Verbosity} {source input : Bytes}
    {program : List ProgramLine}
    (h : (load .prompt verbosity source input).program = .ok program) :
    ∃ corrected, correctLines 1 source.physicalLines input.physicalLines =
      .corrected corrected (load .prompt verbosity source input).rest.physicalLines := by
  rw [physicalLines_rest]
  have hdescribes := describes_loadFrom verbosity 1 source.physicalLines input.physicalLines
  have hresult : (loadFrom .prompt verbosity 1 source.physicalLines input.physicalLines).result =
      .ok program := h
  cases hcorrection : correctLines 1 source.physicalLines input.physicalLines with
  | corrected lines unread =>
    rw [hcorrection] at hdescribes
    exact ⟨lines, by rw [hdescribes.1]⟩
  | exhausted n =>
    rw [hcorrection, Correction.Describes, hresult] at hdescribes
    cases hdescribes.1
  | illFormedReply unread =>
    rw [hcorrection, Correction.Describes, hresult] at hdescribes
    cases hdescribes.1
  | illFormedLine unread =>
    rw [hcorrection, Correction.Describes, hresult] at hdescribes
    cases hdescribes.1

/-- A load leaves an end of its input unread. -/
theorem exists_append_rest (policy : InvalidLinePolicy) (verbosity : Verbosity)
    (source input : Bytes) :
    ∃ taken, input = taken ++ (load policy verbosity source input).rest := by
  obtain ⟨taken, htaken⟩ := unread_loadFrom_suffix policy verbosity 1 source.physicalLines
    input.physicalLines
  refine ⟨taken.flatten, ?_⟩
  dsimp only [load]
  rw [← List.flatten_append, htaken, Bytes.flatten_physicalLines]

/-! ### Prompted loading -/

/-- A prompted load is a strict load of the source as the replies correct it. -/
theorem load_prompt_agrees_with_correction (verbosity : Verbosity) (source input : Bytes) :
    let result := load .prompt verbosity source input
    let correction := correctLines 1 source.physicalLines input.physicalLines
    (match correction with
      | .corrected lines unread =>
        result.rest = unread.flatten ∧ ∃ program, result.program = .ok program ∧
          ∀ verbosity' input',
            (load .strict verbosity' lines.flatten input').program = .ok program
      | .exhausted n => result.program = .error (.endOfInput n) ∧ result.rest = []
      | .illFormedReply unread | .illFormedLine unread =>
        result.program = .error (.unreadable .invalidEncoding) ∧ result.rest = unread.flatten) ∧
    (∀ text replies, source.decode = .ok text → input.decode = .ok replies →
      (∃ lines unread, correction = .corrected lines unread) ∨ ∃ n, correction = .exhausted n) ∧
    ((∀ bytes ∈ source.physicalLines, ∀ token cause,
        Content.ofBytes bytes ≠ .invalid token cause) →
      result.output = "" ∧ result.rest = input) ∧
    (∃ taken, input = taken ++ result.rest) ∧
    ∀ line replies,
      let asked := s!"Enter 4 hex digits for line {line} (empty to skip): "
      (takeReply verbosity line replies).output =
        String.join ((replies.takeWhile isRefused).map fun reply =>
          asked ++ (Reply.ofBytes reply).complaint) ++ asked := by
  refine ⟨?_, ?_, ?_, exists_append_rest _ _ _ _, output_takeReply verbosity⟩
  · have hdescribes := describes_loadFrom verbosity 1 source.physicalLines input.physicalLines
    cases hcorrection : correctLines 1 source.physicalLines input.physicalLines with
    | corrected lines unread =>
      rw [hcorrection] at hdescribes
      obtain ⟨hunread, program, hprogram, hstrict⟩ := hdescribes
      refine ⟨congrArg List.flatten hunread, program, hprogram, fun v replies => ?_⟩
      have hcut : Bytes.physicalLines lines.flatten = lines :=
        Text.cutAfter_flatten (isCut_correctLines (Text.isCut_cutAfter _ _) hcorrection)
      dsimp only [load]
      rw [hcut]
      exact hstrict v replies.physicalLines
    | exhausted n =>
      rw [hcorrection] at hdescribes
      exact ⟨hdescribes.1, congrArg List.flatten hdescribes.2⟩
    | illFormedReply unread =>
      rw [hcorrection] at hdescribes
      exact ⟨hdescribes.1, congrArg List.flatten hdescribes.2⟩
    | illFormedLine unread =>
      rw [hcorrection] at hdescribes
      exact ⟨hdescribes.1, congrArg List.flatten hdescribes.2⟩
  · intro text replies hsource hinput
    apply correctLines_wellFormed
    · intro bytes hbytes
      obtain ⟨line, rfl⟩ := Bytes.exists_encode_of_mem hsource hbytes
      rw [Content.ofBytes_encode]
      exact Content.ofText_ne_illFormed line
    · intro reply hreply
      obtain ⟨line, rfl⟩ := Bytes.exists_encode_of_mem hinput hreply
      exact Reply.ofBytes_encode_ne_illFormed line
  · intro hvalid
    have hsilent := loadFrom_silent .prompt verbosity 1
      (fun bytes hb token cause hc => absurd hc (hvalid bytes hb token cause)) input.physicalLines
    refine ⟨hsilent.1, ?_⟩
    dsimp only [load]
    rw [hsilent.2, Bytes.flatten_physicalLines]

/-- One reply is refused and the next one corrects the second line; a source without invalid lines
takes none. -/
theorem load_prompt_takes_two_replies :
    (load .prompt none (Bytes.encode "2A05\n1G00\n3A10\n") (Bytes.encode "nope\n1A00\nx")).rest =
        Bytes.encode "x" ∧
      (load .prompt none (Bytes.encode "2A05\n1G00\n3A10\n")
          (Bytes.encode "nope\n1A00\nx")).program =
        (load .strict none (Bytes.encode "2A05\n1A00\n3A10\n") []).program ∧
      ((∃ lines unread, correctLines 1 (Bytes.encode "2A05\n1G00\n3A10\n").physicalLines
          (Bytes.encode "nope\n1A00\nx").physicalLines = .corrected lines unread) ∨
        ∃ n, correctLines 1 (Bytes.encode "2A05\n1G00\n3A10\n").physicalLines
          (Bytes.encode "nope\n1A00\nx").physicalLines = .exhausted n) ∧
      (load .prompt none (Bytes.encode "# halt\nC000\n") (Bytes.encode "x")).output = "" ∧
      (load .prompt none (Bytes.encode "# halt\nC000\n") (Bytes.encode "x")).rest =
        Bytes.encode "x" := by
  obtain ⟨hcorrection, hreadable, -⟩ := load_prompt_agrees_with_correction none
    (Bytes.encode "2A05\n1G00\n3A10\n") (Bytes.encode "nope\n1A00\nx")
  have hlines : correctLines 1 (Bytes.encode "2A05\n1G00\n3A10\n").physicalLines
      (Bytes.encode "nope\n1A00\nx").physicalLines =
      .corrected [Bytes.encode "2A05\n", Bytes.encode "1A00\n", Bytes.encode "3A10\n"]
        [Bytes.encode "x"] := rfl
  rw [hlines] at hcorrection
  obtain ⟨hrest, program, hprogram, hstrict⟩ := hcorrection
  refine ⟨hrest, hprogram.trans (hstrict none []).symm,
    hreadable _ _ (Bytes.decode_encode _) (Bytes.decode_encode _), ?_⟩
  obtain ⟨-, -, hsilent, -⟩ := load_prompt_agrees_with_correction none
    (Bytes.encode "# halt\nC000\n") (Bytes.encode "x")
  apply hsilent
  have hsource : (Bytes.encode "# halt\nC000\n").physicalLines =
      [Bytes.encode "# halt\n", Bytes.encode "C000\n"] := rfl
  rw [hsource]
  intro bytes hbytes token cause
  rcases List.mem_cons.1 hbytes with rfl | hbytes
  · have hcontent : Content.ofBytes (Bytes.encode "# halt\n") = .empty := rfl
    rw [hcontent]
    exact Content.noConfusion
  · obtain rfl := List.mem_singleton.1 hbytes
    have hcontent : Content.ofBytes (Bytes.encode "C000\n") = .word 0xC000 := rfl
    rw [hcontent]
    exact Content.noConfusion

end ByteMachine.Program

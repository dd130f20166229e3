import ByteMachine.Proofs.Program.StrictLoad
import ByteMachine.Proofs.Program.VerboseRun
import ByteMachine.Proofs.Token

/-! Where a run stops. A program that was loaded strictly runs through the first line of its text
whose token begins with the digit of the opcode that halts, whatever the machine. The lines after it
have no part in the run. -/

namespace ByteMachine

namespace Token

/-! ### The digit of a halt -/

/-- The opcode that halts is the digit `C`. -/
theorem digit?_eq_halt_iff {c : Char} :
    Numeral.digit? 16 c = some (Kind.opcode .halt) ↔ c = 'C' ∨ c = 'c' := by
  have table : ∀ i : Fin 128, Numeral.digit? 16 (Char.ofNat i) = some (Kind.opcode .halt) →
      Char.ofNat i = 'C' ∨ Char.ofNat i = 'c' := by decide
  constructor
  · intro h
    obtain ⟨i, rfl⟩ :=
      Numeral.exists_ascii_of_isSome_digit? (by decide) (Option.isSome_of_eq_some h)
    exact table i h
  · rintro (rfl | rfl) <;> decide

theorem halts_iff {token : String} {word : Word} (h : parse token = .ok word) :
    Word.halts word = true ↔ token.toList.head? = some 'C' ∨ token.toList.head? = some 'c' := by
  obtain ⟨c, hhead, hdigit⟩ := digit?_head_of_parse h
  have hopcode : Word.halts word = true ↔ Numeral.digit? 16 c = some (Kind.opcode .halt) := by
    rw [hdigit, Word.halts, beq_iff_eq, Option.some_inj]
  rw [hopcode, digit?_eq_halt_iff, hhead, Option.some_inj, Option.some_inj]

end Token

namespace Program

/-! ### The first word that halts -/

/-- The lines up to the first whose word halts. -/
def throughHalt (program : List ProgramLine) : List ProgramLine :=
  program.take (program.findIdx (fun entry => Word.halts entry.word) + 1)

theorem throughHalt_cons (entry : ProgramLine) (program : List ProgramLine) :
    throughHalt (entry :: program) =
      entry :: if Word.halts entry.word then [] else throughHalt program := by
  rw [throughHalt, List.findIdx_cons, List.take_succ_cons]
  cases Word.halts entry.word <;> rfl

theorem throughHalt_append {front : List ProgramLine} {entry : ProgramLine}
    (hfront : ∀ e ∈ front, Word.halts e.word = false) (hentry : Word.halts entry.word = true)
    (rest : List ProgramLine) : throughHalt (front ++ entry :: rest) = front ++ [entry] := by
  induction front with
  | nil => rw [List.nil_append, throughHalt_cons, if_pos hentry, List.nil_append]
  | cons first front ih =>
    have hfirst := hfront first List.mem_cons_self
    rw [List.cons_append, throughHalt_cons, hfirst, if_neg Bool.false_ne_true,
      ih fun e he => hfront e (List.mem_cons_of_mem _ he), List.cons_append]

/-- The lines after the first that halts have no part in a run. -/
theorem run_throughHalt (verbosity : Verbosity) (verbose : Bool) (program : List ProgramLine)
    (m : Machine) :
    run verbosity verbose (throughHalt program) m = run verbosity verbose program m := by
  induction program generalizing m with
  | nil => rfl
  | cons entry program ih =>
    rw [throughHalt_cons]
    cases h : (m.execute verbosity entry.word).status with
    | halted =>
      rw [if_pos ((Word.halts_iff _ _ m).2 h)]
      simp only [run, h]
    | normal =>
      rw [(Word.halts_eq_false_iff _ _ m).2 h, if_neg Bool.false_ne_true]
      simp only [run, h, ih]

theorem summary_run (verbosity : Verbosity) (verbose : Bool) (program : List ProgramLine)
    (m : Machine) :
    (run verbosity verbose program m).summary =
      ⟨(throughHalt program).length, program.any fun entry => Word.halts entry.word⟩ := by
  induction program generalizing m with
  | nil => rfl
  | cons entry program ih =>
    rw [throughHalt_cons, List.any_cons, run]
    cases h : (m.execute verbosity entry.word).status with
    | halted =>
      rw [(Word.halts_iff _ _ m).2 h, if_pos rfl]
      rfl
    | normal =>
      rw [(Word.halts_eq_false_iff _ _ m).2 h, if_neg Bool.false_ne_true]
      dsimp only
      rw [ih]
      rfl

theorem ending_of_halts (verbosity : Verbosity) {front : List ProgramLine} {entry : ProgramLine}
    (hfront : ∀ e ∈ front, Word.halts e.word = false) (hentry : Word.halts entry.word = true)
    (rest : List ProgramLine) (m : Machine) :
    ending (steps verbosity (front ++ entry :: rest) m) = haltLine entry := by
  induction front generalizing m with
  | nil =>
    have hstatus := (Word.halts_iff verbosity entry.word m).1 hentry
    have hhalts : Step.halts ⟨entry, m, m.execute verbosity entry.word⟩ = true :=
      Step.halts_of_status hstatus
    rw [List.nil_append, steps, Machine.trace_cons_halted hstatus, ending_cons, if_pos hhalts]
  | cons first front ih =>
    have hstatus := (Word.halts_eq_false_iff verbosity first.word m).1
      (hfront first List.mem_cons_self)
    have hnot : Step.halts ⟨first, m, m.execute verbosity first.word⟩ = false :=
      Step.not_halts_of_status hstatus
    rw [List.cons_append, steps, Machine.trace_cons_normal hstatus, ending_cons, hnot,
      if_neg Bool.false_ne_true]
    exact ih (fun e he => hfront e (List.mem_cons_of_mem _ he)) _

/-- A run that halts ends its output with the line of the halt, and prints no more unless verbose. -/
theorem output_of_halts (verbosity : Verbosity) (verbose : Bool) {front : List ProgramLine}
    {entry : ProgramLine} (hfront : ∀ e ∈ front, Word.halts e.word = false)
    (hentry : Word.halts entry.word = true) (rest : List ProgramLine) (m : Machine) :
    ∃ blocks, (verbose = false → blocks = "") ∧
      (run verbosity verbose (front ++ entry :: rest) m).output = blocks ++ haltLine entry := by
  have hrun := run_eq_steps verbosity verbose (front ++ entry :: rest) m
  dsimp only at hrun
  rw [ending_of_halts verbosity hfront hentry rest m] at hrun
  exact ⟨_, fun hquiet => if_neg (ne_true_of_eq_false hquiet), congrArg Run.output hrun⟩

/-! ### The first line that halts -/

/-- The line holds a token that begins with the digit of the opcode that halts. -/
def BeginsHalt (line : String) : Prop :=
  ∃ token ∈ token? line, token.toList.head? = some 'C' ∨ token.toList.head? = some 'c'

instance (line : String) : Decidable (BeginsHalt line) :=
  inferInstanceAs (Decidable
    (∃ token ∈ token? line, token.toList.head? = some 'C' ∨ token.toList.head? = some 'c'))

theorem not_beginsHalt_of_none {line : String} (h : token? line = none) : ¬ BeginsHalt line := by
  rintro ⟨token, htoken, -⟩
  rw [h] at htoken
  cases htoken

theorem beginsHalt_iff {line token : String} {word : Word} (htoken : token? line = some token)
    (hparse : Token.parse token = .ok word) : BeginsHalt line ↔ Word.halts word = true := by
  rw [BeginsHalt, htoken, Token.halts_iff hparse]
  simp

namespace Reads

variable {n : Nat} {texts before : List String} {line : String} {program : List ProgramLine}

theorem any_halts_iff (h : Reads n texts program) :
    program.any (fun entry => Word.halts entry.word) = true ↔ ∃ text ∈ texts, BeginsHalt text := by
  induction h with
  | nil n => simp
  | skip htoken _ ih => simp [ih, not_beginsHalt_of_none htoken]
  | word htoken hparse _ ih => simp [ih, beginsHalt_iff htoken hparse]

/-- The last of some lines is the first that halts, so is its entry in the program. -/
theorem halting (h : Reads n (before ++ [line]) program)
    (hbefore : ∀ text ∈ before, ¬ BeginsHalt text) (hline : BeginsHalt line) :
    ∃ front word, program = front ++ [⟨n + before.length, word⟩] ∧
      (∀ entry ∈ front, Word.halts entry.word = false) ∧ Word.halts word = true := by
  obtain ⟨front, rest, rfl, hfront, hrest⟩ := h.split
  cases hrest with
  | skip htoken _ => exact absurd hline (not_beginsHalt_of_none htoken)
  | @word _ _ _ word _ _ htoken hparse hnil =>
    cases hnil
    refine ⟨front, word, rfl, fun entry hentry => ?_, (beginsHalt_iff htoken hparse).1 hline⟩
    rw [← Bool.not_eq_true]
    intro hhalts
    obtain ⟨text, htext, hbegins⟩ :=
      hfront.any_halts_iff.1 (List.any_eq_true.2 ⟨entry, hentry, hhalts⟩)
    exact hbefore text htext hbegins

end Reads

/-- A run stops at the first line of the text that begins with the digit of a halt, and a text that
is the same up to this line has the same run. -/
theorem run_stops_at_first_halt {loading : Verbosity} {text : String} {input : Bytes}
    {program : List ProgramLine}
    (hload : (load .strict loading (Bytes.encode text) input).program = .ok program)
    (verbosity : Verbosity) (verbose : Bool) (m : Machine) :
    let result := run verbosity verbose program m
    (result.summary.halted = true ↔ ∃ line ∈ Text.lines text, BeginsHalt line) ∧
    ∀ before line after, Text.lines text = before ++ line :: after →
      (∀ earlier ∈ before, ¬ BeginsHalt earlier) → BeginsHalt line →
      (∃ blocks, (verbose = false → blocks = "") ∧
        result.output = blocks ++ s!"Halted at line {before.length + 1}\n") ∧
      result.summary =
        ⟨(before ++ [line]).countP fun text => (token? text).isSome, true⟩ ∧
      ∀ (loading' : Verbosity) (text' : String) (input' : Bytes) (program' : List ProgramLine),
        (load .strict loading' (Bytes.encode text') input').program = .ok program' →
        before ++ [line] <+: Text.lines text' →
        run verbosity verbose program' m = result := by
  intro result
  have hreads := reads_of_load hload
  have hsummary : result.summary = _ := summary_run verbosity verbose program m
  refine ⟨by rw [hsummary]; exact hreads.any_halts_iff, ?_⟩
  intro before line after hlines hbefore hline
  have hsplit : before ++ line :: after = before ++ [line] ++ after := by simp
  rw [hlines, hsplit] at hreads
  obtain ⟨through, rest, rfl, hthrough, -⟩ := hreads.split
  obtain ⟨front, word, rfl, hfront, hword⟩ := hthrough.halting hbefore hline
  let entry : ProgramLine := ⟨1 + before.length, word⟩
  have hentry : Word.halts entry.word = true := hword
  have hcut : ∀ rest, throughHalt (front ++ [entry] ++ rest) = front ++ [entry] := by
    intro rest
    rw [List.append_assoc]
    exact throughHalt_append hfront hentry rest
  refine ⟨?_, ?_, ?_⟩
  · obtain ⟨blocks, hblocks, houtput⟩ := output_of_halts verbosity verbose hfront hentry rest m
    have hlast : haltLine entry = s!"Halted at line {before.length + 1}\n" :=
      congrArg (fun n : Nat => s!"Halted at line {n}\n") (Nat.add_comm 1 before.length)
    refine ⟨blocks, hblocks, ?_⟩
    rw [← hlast, ← houtput, ← List.singleton_append, ← List.append_assoc]
  · rw [hsummary, hcut, hthrough.length_eq]
    congr 1
    exact List.any_eq_true.2 ⟨entry, by simp [entry], hentry⟩
  · rintro loading' text' input' program' hload' ⟨after', hlines'⟩
    have hreads' := reads_of_load hload'
    rw [← hlines'] at hreads'
    obtain ⟨through', rest', rfl, hthrough', -⟩ := hreads'.split
    -- the common lines hold the same words in both texts
    obtain rfl := hthrough'.unique hthrough
    calc run verbosity verbose (front ++ [entry] ++ rest') m
        = run verbosity verbose (front ++ [entry]) m := by rw [← run_throughHalt, hcut]
      _ = result := by rw [← hcut rest, run_throughHalt]

/-- The comment on the second line and what comes after the third have no part in the run. -/
theorem run_stops_at_third_line :
    let program : List ProgramLine := [⟨1, 0x2A05⟩, ⟨3, 0xC123⟩, ⟨4, 0x2B01⟩]
    let program' : List ProgramLine := [⟨1, 0x2A05⟩, ⟨3, 0xC123⟩, ⟨5, 0x3A00⟩, ⟨6, 0xC000⟩]
    let text := "2a05\n# C000\n c123 \r\n2B01"
    let text' := "2a05\n# C000\n c123 \n\n3A00\nC000\n"
    (load .strict none (Bytes.encode text) []).program = .ok program ∧
    (load .strict none (Bytes.encode text') []).program = .ok program' ∧
    ∀ verbosity m,
      (run verbosity false program m).output = "Halted at line 3\n" ∧
      (run verbosity true program m).summary = ⟨2, true⟩ ∧
      run verbosity true program' m = run verbosity true program m := by
  intro program program' text text'
  have hload : (load .strict none (Bytes.encode text) []).program = .ok program := by decide +kernel
  have hload' : (load .strict none (Bytes.encode text') []).program = .ok program' := by
    decide +kernel
  have hlines : Text.lines text = ["2a05", "# C000"] ++ " c123 " :: ["2B01"] := by decide
  have hprefix : ["2a05", "# C000"] ++ [" c123 "] <+: Text.lines text' := by decide
  have hbefore : ∀ earlier ∈ ["2a05", "# C000"], ¬ BeginsHalt earlier := by decide
  have hline : BeginsHalt " c123 " := by decide
  refine ⟨hload, hload', fun verbosity m => ?_⟩
  obtain ⟨-, hquiet⟩ := run_stops_at_first_halt hload verbosity false m
  obtain ⟨-, hverbose⟩ := run_stops_at_first_halt hload verbosity true m
  obtain ⟨⟨blocks, hblocks, houtput⟩, -⟩ := hquiet _ _ _ hlines hbefore hline
  obtain ⟨-, hsummary, hsame⟩ := hverbose _ _ _ hlines hbefore hline
  refine ⟨?_, hsummary, hsame none text' [] program' hload' hprefix⟩
  rw [houtput, hblocks rfl]
  rfl

end Program

end ByteMachine

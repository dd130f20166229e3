import ByteMachine.Proofs.Console.ExecuteLine
import ByteMachine.Proofs.Machine.ExecutionLog
import ByteMachine.Proofs.Program.Listing

/-! The trace of a run and the listing of its text. Both show a word by its numeral and its meaning,
and so does the console. The trace announces the words that are executed, so it is the listing up to
the first halt, with the program counter, which stays where it is, in place of the line numbers. -/

namespace ByteMachine

namespace Program

/-! ### The log of a run -/

/-- Less is logged at a lower verbosity, and nothing else. -/
theorem log_run (verbosity : Verbosity) (verbose : Bool) (program : List ProgramLine)
    (m : Machine) :
    (run verbosity verbose program m).log =
      (run (some .trace) verbose program m).log.admitted verbosity := by
  induction program generalizing m with
  | nil => exact (Log.admitted_nil verbosity).symm
  | cons entry program ih =>
    have hstate := Machine.state_execute_congr verbosity (some .trace) entry.word m
    have hstatus := Machine.status_execute_congr verbosity (some .trace) entry.word m
    have hlog : (m.execute verbosity entry.word).log = _ := Machine.log_execute_eq
    have hrest := ih (m.execute (some .trace) entry.word).state.settle
    dsimp only [run]
    rw [hstate, hstatus, hlog]
    cases (m.execute (some .trace) entry.word).status with
    | halted => rfl
    | normal =>
      dsimp only
      rw [hrest, Log.admitted_append]

/-- A run announces every word that it executes, all with one program counter. -/
theorem traced_run (verbose : Bool) (program : List ProgramLine) (m : Machine) :
    (run (some .trace) verbose program m).log.traced =
      (throughHalt program).map fun entry => m.announcement entry.word := by
  induction program generalizing m with
  | nil => rfl
  | cons entry program ih =>
    have hrest := ih (m.execute (some .trace) entry.word).state.settle
    rw [throughHalt_cons, List.map_cons]
    dsimp only [run]
    cases h : (m.execute (some .trace) entry.word).status with
    | halted =>
      rw [if_pos ((Word.halts_iff _ _ m).2 h)]
      exact Machine.traced_execute
    | normal =>
      rw [(Word.halts_eq_false_iff _ _ m).2 h, if_neg Bool.false_ne_true]
      dsimp only
      rw [Log.traced_append, Machine.traced_execute, hrest]
      rfl

end Program

namespace Listing

open Program

/-! ### The listing of a program -/

/-- The line of a word. -/
def wordLine (entry : ProgramLine) : String :=
  s!"{Numeral.column 4 entry.line}: {Numeral.word entry.word} {entry.word.meaning}"

theorem toList_wordLine (entry : ProgramLine) : (wordLine entry).toList =
    (Numeral.column 4 entry.line).toList ++
      ':' :: (s!" {Numeral.word entry.word} {entry.word.meaning}").toList := by
  simp [wordLine, toString]

theorem lineEnd_notMem_wordLine {c : Char} (h : c = '\n' ∨ c = '\r') (entry : ProgramLine) :
    c ∉ (wordLine entry).toList := by
  have hblank : c ≠ ' ' ∧ c ≠ ':' := by rcases h with rfl | rfl <;> decide
  have hcolumn : c ∉ (Numeral.column 4 entry.line).toList := by
    apply Numeral.notMem_column <;> rcases h with rfl | rfl <;> decide
  have hword : c ∉ (Numeral.word entry.word).toList := by
    apply Numeral.notMem_hex
    rcases h with rfl | rfl <;> decide
  have hmeaning : c ∉ entry.word.meaning.toList := by
    apply Word.notMem_meaning <;> rcases h with rfl | rfl <;> decide
  simp [wordLine, toString, hblank, hcolumn, hword, hmeaning]

theorem Item.text_of_word {line : Nat} {token : String} {word : Word}
    (h : Token.parse token = .ok word) :
    (ofToken line token).text = wordLine ⟨line, word⟩ ++ "\n" := by
  have hline : (ofToken line token).line = line := rfl
  rw [text, hline, body_of_word h]
  simp [wordLine, toString, String.append_assoc]

/-- Whether the item is read as an instruction that halts. -/
def Item.halts (item : Item) : Bool :=
  match item.reading with
  | .instruction _ i => i.kind == .halt
  | .unassigned _ _ | .invalid _ => false

theorem Item.halts_of_word {line : Nat} {token : String} {word : Word}
    (h : Token.parse token = .ok word) : (ofToken line token).halts = Word.halts word := by
  unfold halts ofToken Reading.ofToken Instruction.decode Word.halts
  rw [h]
  dsimp only
  cases hkind : Kind.ofOpcode? (Word.opcode word) with
  | none =>
    have hne : Word.opcode word ≠ Kind.opcode .halt := by
      intro heq
      rw [heq, Kind.ofOpcode?_opcode] at hkind
      cases hkind
    exact (beq_false_of_ne hne).symm
  | some kind =>
    rw [← Kind.opcode_of_ofOpcode? hkind]
    cases kind <;> rfl

end Listing

namespace Program.Reads

open Listing

variable {n : Nat} {texts : List String} {program : List ProgramLine}

/-- The items of lines that hold a program are its words, one by one. -/
theorem map_itemsFrom {α : Type} {f : Item → α} {g : ProgramLine → α}
    (hfg : ∀ line token word, Token.parse token = .ok word →
      f (Item.ofToken line token) = g ⟨line, word⟩) (h : Reads n texts program) :
    (itemsFrom n texts).map f = program.map g := by
  induction h with
  | nil n => rfl
  | skip htoken _ ih => rw [itemsFrom, htoken, ih]
  | word htoken hparse _ ih =>
    rw [itemsFrom, htoken, List.map_cons, List.map_cons, ih]
    exact congrArg (· :: _) (hfg _ _ _ hparse)

/-- The listing of a text that loads has a line for each word of the program. -/
theorem lines_ofSource {text : String} (h : Reads 1 (Text.lines text) program) :
    Text.lines (ofSource text) = program.map wordLine := by
  have hlines : ∀ line ∈ program.map wordLine, '\n' ∉ line.toList ∧ '\r' ∉ line.toList := by
    intro line hline
    obtain ⟨entry, -, rfl⟩ := List.mem_map.1 hline
    exact ⟨lineEnd_notMem_wordLine (.inl rfl) entry, lineEnd_notMem_wordLine (.inr rfl) entry⟩
  have hitems : (items text).map Item.text = (program.map wordLine).map (· ++ "\n") := by
    rw [List.map_map]
    exact h.map_itemsFrom fun _ _ _ => Item.text_of_word
  rw [ofSource, hitems, Text.lines_join hlines]

/-- The program halts first where the listing does. -/
theorem throughHalt_eq {text : String} (h : Reads 1 (Text.lines text) program) :
    throughHalt program = program.take ((items text).findIdx Item.halts + 1) := by
  have hfind : (items text).findIdx Item.halts =
      program.findIdx fun entry => Word.halts entry.word := by
    have hitems : (items text).map Item.halts = program.map fun entry => Word.halts entry.word :=
      h.map_itemsFrom fun _ _ _ => Item.halts_of_word
    have hindex := congrArg (List.findIdx id) hitems
    rwa [List.findIdx_map, List.findIdx_map] at hindex
  rw [throughHalt, hfind]

end Program.Reads

/-! ### The meaning of a word -/

theorem Console.respond_meaning (verbosity : Verbosity) {token : String} {word : Word}
    (h : Token.parse token = .ok word) (m : Machine) :
    respond verbosity s!"dis {token}" m = .still m (.ok .goOn) (word.meaning ++ "\n") := by
  have hline : (s!"dis {token}").toList = "dis".toList ++ ' ' :: token.toList := by
    simp [toString]
  have hread : Command.ofLine s!"dis {token}" = .ok (.showMeaning word) := by
    rw [Command.ofLine_eq_ok_iff, Token.words_line hline (by decide) (by decide) h]
    exact .showMeaning h
  rw [respond, hread]
  rfl

namespace Program

open Listing

/-! ### Trace and listing -/

/-- The line with another number in place of its own, which ends before the first colon. -/
def renumbered (number line : String) : String :=
  number ++ String.ofList (line.toList.dropWhile (· != ':'))

theorem renumbered_wordLine (number : String) (entry : ProgramLine) :
    renumbered number (wordLine entry) =
      s!"{number}: {Numeral.word entry.word} {entry.word.meaning}" := by
  rw [renumbered, toList_wordLine, Text.dropWhile_append_mark (colon_notMem_column entry.line)]
  exact String.toList_inj.1 (by simp [toString])

/-- From program counter zero, the trace of a run is the listing of its text, cut after the first
halt, with a zero for every line number. The console answers with the end of the line that the
listing has for a word. What is logged at some verbosity is a part of the trace, and nothing else
depends on the verbosity. -/
theorem trace_is_listing :
    (∀ (loading : Verbosity) (text : String) (input : Bytes) (program : List ProgramLine)
        (verbose : Bool) (m : Machine),
      (load .strict loading (Bytes.encode text) input).program = .ok program → m.pc = 0 →
      let result := run (some .trace) verbose program m
      let listed := Text.lines (ofSource text)
      result.log.traced.length = result.summary.executed ∧
      result.log.traced =
        (listed.take ((items text).findIdx Item.halts + 1)).map (renumbered "00")) ∧
    (∀ (verbosity : Verbosity) (token : String) (word : Word) (line : Nat) (m : Machine),
      Token.parse token = .ok word →
      let response := Console.respond verbosity s!"dis {token}" m
      response.result = .ok .goOn ∧ response.machine = m ∧
      (Item.ofToken line token).text =
        s!"{Numeral.column 4 line}: {Numeral.word word} " ++ response.output) ∧
    ∀ (verbosity : Verbosity) (verbose : Bool) (program : List ProgramLine) (m : Machine),
      let result := run (some .trace) verbose program m
      let other := run verbosity verbose program m
      other.log = result.log.admitted verbosity ∧ other.machine = result.machine ∧
      other.summary = result.summary ∧ other.output = result.output := by
  refine ⟨?_, ?_, fun verbosity verbose program m => ?_⟩
  · intro loading text input program verbose m hload hpc result listed
    have hreads := reads_of_load hload
    have htraced : result.log.traced = _ := traced_run verbose program m
    have hsummary : result.summary = _ := summary_run (some .trace) verbose program m
    refine ⟨by rw [htraced, hsummary, List.length_map], ?_⟩
    have hlisted : listed = _ := hreads.lines_ofSource
    rw [htraced, hlisted, hreads.throughHalt_eq, ← List.map_take, List.map_map]
    refine List.map_congr_left fun entry _ => ?_
    have hzero : Numeral.byte 0 = "00" := by decide
    exact Eq.trans (by rw [Machine.announcement, hpc, hzero]) (renumbered_wordLine "00" entry).symm
  · intro verbosity token word line m hparse response
    have hresponse : response = _ := Console.respond_meaning verbosity hparse m
    rw [hresponse]
    refine ⟨rfl, rfl, ?_⟩
    rw [Item.text_of_word hparse]
    exact String.append_assoc
  · exact ⟨log_run verbosity verbose program m,
      run_verbosity verbosity (some .trace) verbose program m⟩

/-- Words without an operation are announced like any other, and nothing after the halt is. -/
theorem trace_is_listing_through_halt :
    let text := "0000\n\ne123\n# C000\n 2A7f\nC0FF\n5012"
    let program : List ProgramLine :=
      [⟨1, 0x0000⟩, ⟨3, 0xE123⟩, ⟨5, 0x2A7F⟩, ⟨6, 0xC0FF⟩, ⟨7, 0x5012⟩]
    let result := run (some .trace) false program .zero
    (load .strict none (Bytes.encode text) []).program = .ok program ∧ Machine.zero.pc = 0 ∧
    result.log.traced = ["00: 0000 nop", "00: E123 <Unassigned opcode 14>",
      "00: 2A7F loadi %10, $0x7F", "00: C0FF halt"] ∧
    result.summary.executed = 4 ∧
    (run (some .debug) false program .zero).log =
      result.log.filter (fun entry => entry.severity != .trace) ∧
    (run (some .debug) false program .zero).log.map Entry.message =
      ["No handler for opcode 0 (0000), skipping", "No handler for opcode 14 (E123), skipping",
        "Halted by C0FF"] ∧
    (run (some .info) false program .zero).log =
      result.log.filter (fun entry => entry.severity == .info) ∧
    (run (some .info) false program .zero).log.map Entry.message = ["Halted by C0FF"] ∧
    (run none false program .zero).log = [] ∧
    (Console.respond none "dis E123" .zero).output = "<Unassigned opcode 14>\n" := by
  intro text program result
  have hload : (load .strict none (Bytes.encode text) []).program = .ok program := by decide +kernel
  have hpc : Machine.zero.pc = 0 := rfl
  have hlisted : Text.lines (ofSource text) = program.map wordLine :=
    (reads_of_load hload).lines_ofSource
  have hhalt : (items text).findIdx Item.halts = 3 := by decide +kernel
  have hparse : Token.parse "E123" = .ok 0xE123 := by decide
  obtain ⟨htrace, hmeaning, hlog⟩ := trace_is_listing
  obtain ⟨hlength, htraced⟩ := htrace none text [] program false .zero hload hpc
  obtain ⟨-, -, hline⟩ := hmeaning none "E123" 0xE123 1 .zero hparse
  obtain ⟨hdebug, -⟩ := hlog (some .debug) false program .zero
  obtain ⟨hinfo, -⟩ := hlog (some .info) false program .zero
  obtain ⟨hsilent, -⟩ := hlog none false program .zero
  rw [hlisted, hhalt] at htraced
  have htraced : result.log.traced = ["00: 0000 nop", "00: E123 <Unassigned opcode 14>",
      "00: 2A7F loadi %10, $0x7F", "00: C0FF halt"] := htraced.trans (by decide)
  refine ⟨hload, hpc, htraced, ?_, hdebug, by decide +kernel, hinfo, by decide +kernel, hsilent,
    ?_⟩
  · rw [← hlength]
    exact congrArg List.length htraced
  · have htext : (Item.ofToken 1 "E123").text =
        "   1: E123 " ++ "<Unassigned opcode 14>\n" := by decide
    exact (String.append_right_inj _).1 (hline.symm.trans htext)

end Program

end ByteMachine

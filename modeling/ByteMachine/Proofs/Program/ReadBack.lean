import ByteMachine.Proofs.Instruction.Encoding
import ByteMachine.Proofs.Program.StrictLoad
import ByteMachine.Proofs.Text.Trim
import ByteMachine.Proofs.Token

/-! The text of a list of instructions, read back. Every line of it holds one token and nothing
else, so the strict load and the listing both take it line by line: the first gives the words that
were written, the second the instructions without the operands that their kinds do not use. These
have the same words, so the text of what was found is the text itself. -/

namespace ByteMachine

/-- The instruction that was read, if there is one. -/
def Reading.instruction? : Reading → Option Instruction
  | .instruction _ i => some i
  | .unassigned _ _ | .invalid _ => none

namespace Listing

/-- The instructions that a program text holds. -/
def instructions (source : String) : List Instruction :=
  (items source).filterMap fun item => item.reading.instruction?

/-- The item of a line that holds the word of an instruction. -/
def Item.ofEncoded (i : Instruction) (entry : ProgramLine) : Item :=
  ⟨entry.line, Numeral.word entry.word, .instruction entry.word i.stripped⟩

theorem mapM_ofEncoded {is : List Instruction} {entries : List ProgramLine}
    (h : is.length = entries.length) :
    (List.zipWith Item.ofEncoded is entries).mapM Item.programLine = .ok entries := by
  rw [← List.map_uncurry_zip_eq_zipWith, List.mapM_map]
  exact List.mapM_pure.trans (congrArg Except.ok (List.map_snd_zip h.ge))

theorem filterMap_ofEncoded {is : List Instruction} {entries : List ProgramLine}
    (h : is.length = entries.length) :
    ((List.zipWith Item.ofEncoded is entries).filterMap fun item => item.reading.instruction?) =
      is.map Instruction.stripped := by
  have hfound : ((is.zip entries).filterMap fun pair => some pair.1.stripped) =
      ((is.zip entries).map Prod.fst).map Instruction.stripped := by
    rw [List.map_map, ← List.filterMap_eq_map]
    rfl
  rw [← List.map_uncurry_zip_eq_zipWith, List.filterMap_map]
  rw [List.map_fst_zip h.le] at hfound
  exact hfound

end Listing

namespace Program

/-- The words on lines of their own, of which the first has number `first`. -/
def numbered (first : Nat) (words : List Word) : List ProgramLine :=
  words.mapIdx fun k word => ⟨first + k, word⟩

theorem numbered_cons (first : Nat) (word : Word) (words : List Word) :
    numbered first (word :: words) = ⟨first, word⟩ :: numbered (first + 1) words := by
  simp [numbered, List.mapIdx_cons, Nat.add_comm, Nat.add_left_comm]

/-! ### The lines of the text -/

theorem token?_word (word : Word) : token? (Numeral.word word) = some (Numeral.word word) := by
  have htrim : Text.trimChars (Numeral.word word).toList = (Numeral.word word).toList :=
    Text.trimChars_of_no_blank fun c => Numeral.isBlank_of_mem_hex
  have hlength : (Numeral.word word).toList.length = 4 := by
    rw [String.length_toList, Numeral.length_word]
  have hhash : '#' ∉ (Numeral.word word).toList :=
    Numeral.notMem_hex (by decide) 4 word.toNat
  rw [token?, htrim]
  split
  · rename_i hnil
    rw [hnil] at hlength
    cases hlength
  · rename_i c cs hcons
    have hc : c ≠ '#' := by
      rintro rfl
      rw [hcons] at hhash
      exact hhash List.mem_cons_self
    rw [if_neg hc, ← hcons, String.ofList_toList]

theorem lines_ofWords (words : List Word) :
    Text.lines (ofWords words) = words.map Numeral.word := by
  have hjoin : ofWords words = String.join ((words.map Numeral.word).map (· ++ "\n")) := by
    rw [ofWords, List.map_map]
    rfl
  rw [hjoin]
  refine Text.lines_join fun text htext => ?_
  obtain ⟨word, -, rfl⟩ := List.mem_map.1 htext
  exact ⟨Numeral.notMem_hex (by decide) 4 _, Numeral.notMem_hex (by decide) 4 _⟩

theorem itemsFrom_words {is : List Instruction} {words : List Word}
    (h : List.Forall₂ (fun i word => Instruction.encode i = .ok word) is words) (first : Nat) :
    Listing.itemsFrom first (words.map Numeral.word) =
      List.zipWith Listing.Item.ofEncoded is (numbered first words) := by
  induction h generalizing first with
  | nil => rfl
  | @cons i word is words hword _ ih =>
    have hreading : Reading.ofToken (Numeral.word word) = .instruction word i.stripped := by
      rw [Reading.ofToken, Token.parse_word]
      simp only [Instruction.decode_of_encode hword]
    rw [List.map_cons, Listing.itemsFrom, token?_word, numbered_cons, List.zipWith_cons_cons, ← ih,
      Listing.Item.ofEncoded, ← hreading]

/-! ### Reading back -/

theorem ofInstructions_eq_ok_iff {is : List Instruction} {text : String} :
    ofInstructions is = .ok text ↔
      ∃ words, Instruction.encodeAll is = .ok words ∧ ofWords words = text := by
  rw [ofInstructions]
  cases Instruction.encodeAll is with
  | ok words => simp [Except.map]
  | error e => simp [Except.map]

/-- A text that was written from instructions gives both readers what was written. -/
theorem ofInstructions_reads_back (verbosity : Verbosity) (input : Bytes) {is : List Instruction}
    {text : String} (h : ofInstructions is = .ok text) :
    ∃ words, Instruction.encodeAll is = .ok words ∧ words.length = is.length ∧
      let loaded := load .strict verbosity (Bytes.encode text) input
      loaded.program = .ok (numbered 1 words) ∧ loaded.output = "" ∧ loaded.rest = input ∧
      Listing.items text = List.zipWith Listing.Item.ofEncoded is (numbered 1 words) ∧
      Listing.instructions text = is.map Instruction.stripped ∧
      ofInstructions (Listing.instructions text) = .ok text := by
  obtain ⟨words, hwords, rfl⟩ := ofInstructions_eq_ok_iff.1 h
  have hencode := Instruction.encodeAll_eq_ok_iff.1 hwords
  have hlength : is.length = (numbered 1 words).length := by
    rw [numbered, List.length_mapIdx]
    exact hencode.length_eq
  have hitems : Listing.items (ofWords words) =
      List.zipWith Listing.Item.ofEncoded is (numbered 1 words) := by
    rw [Listing.items, lines_ofWords]
    exact itemsFrom_words hencode 1
  have hfound : Listing.instructions (ofWords words) = is.map Instruction.stripped := by
    rw [Listing.instructions, hitems, Listing.filterMap_ofEncoded hlength]
  obtain ⟨houtput, hrest⟩ := load_strict_silent verbosity (Bytes.encode (ofWords words)) input
  refine ⟨words, hwords, hencode.length_eq.symm, ?_, houtput, hrest, hitems, hfound, ?_⟩
  · rw [load_strict_eq verbosity _ input (Bytes.decode_encode _), hitems,
      Listing.mapM_ofEncoded hlength]
  · rw [hfound, ofInstructions, Instruction.encodeAll_stripped]
    exact h

/-- Neither the stray register of the rotation nor the immediate of the halt is written. -/
theorem ofInstructions_reads_back_stray_operands :
    let is : List Instruction :=
      [⟨.ror, some 3, some 99, none, some 15⟩, ⟨.halt, none, none, none, some 7⟩]
    let text := "A30F\nC000\n"
    ofInstructions is = .ok text ∧
    (load .strict none (Bytes.encode text) (Bytes.encode "x")).program =
      .ok [⟨1, 0xA30F⟩, ⟨2, 0xC000⟩] ∧
    Listing.items text =
      [⟨1, "A30F", .instruction 0xA30F ⟨.ror, some 3, none, none, some 15⟩⟩,
        ⟨2, "C000", .instruction 0xC000 ⟨.halt, none, none, none, none⟩⟩] ∧
    ofInstructions (Listing.instructions text) = .ok text := by
  intro is text
  have h : ofInstructions is = .ok text := by decide +kernel
  obtain ⟨words, hwords, -, hprogram, -, -, hitems, -, hagain⟩ :=
    ofInstructions_reads_back none (Bytes.encode "x") h
  have hencode : Instruction.encodeAll is = .ok [0xA30F, 0xC000] := by decide
  obtain rfl : words = [0xA30F, 0xC000] := Except.ok.inj (hwords.symm.trans hencode)
  exact ⟨h, hprogram, hitems.trans (by decide), hagain⟩

end Program

end ByteMachine

import ByteMachine.Proofs.Instruction.Encoding
import ByteMachine.Proofs.Machine.Reference
import ByteMachine.Proofs.Machine.Trace

/-! Disassembling a word and assembling it again clears the bits that its kind does not use. What a
word does depends on the other bits only: each operation reads no more than the operands that the
format of its kind declares. So a program and its reassembly run alike, step by step. -/

namespace ByteMachine

/-! ### Operand bits -/

/-- The fields of a format, each with its lowest bit and its width. -/
def Format.fields : Format → List (Nat × Nat)
  | .bare => []
  | .regImm => [(8, 4), (0, 8)]
  | .regReg => [(8, 4), (0, 4)]
  | .regRegReg => [(8, 4), (4, 4), (0, 4)]
  | .regCount => [(8, 4), (0, 4)]

/-- The words agree on every bit of the format's fields. -/
def Format.Agree (format : Format) (w w' : Word) : Prop :=
  ∀ field ∈ format.fields, ∀ bit, field.1 ≤ bit → bit < field.1 + field.2 →
    w.toBitVec.getLsbD bit = w'.toBitVec.getLsbD bit

theorem Word.field_eq_of_bits {w w' : Word} {low width : Nat}
    (h : ∀ bit, low ≤ bit → bit < low + width →
      w.toBitVec.getLsbD bit = w'.toBitVec.getLsbD bit) :
    Word.field w low width = Word.field w' low width := by
  have hbits : w.toBitVec.extractLsb' low width = w'.toBitVec.extractLsb' low width := by
    apply BitVec.eq_of_getLsbD_eq
    intro i hi
    rw [BitVec.getLsbD_extractLsb', BitVec.getLsbD_extractLsb',
      h (low + i) (by omega) (by omega)]
  rw [Word.field, hbits, Word.field]

theorem Format.Agree.field_eq {format : Format} {w w' : Word} (h : format.Agree w w')
    {low width : Nat} (hfield : (low, width) ∈ format.fields) :
    Word.field w low width = Word.field w' low width :=
  Word.field_eq_of_bits (h (low, width) hfield)

namespace Instruction

/-- The operands of an instruction are in the bits of its format. -/
theorem ofFields_congr {kind : Kind} {w w' : Word} (h : kind.format.Agree w w') :
    ofFields kind w = ofFields kind w' := by
  have hA (hmem : (8, 4) ∈ kind.format.fields) : Word.regA w = Word.regA w' := by
    rw [Word.regA_eq_field, Word.regA_eq_field, h.field_eq hmem]
  have hB (hmem : (4, 4) ∈ kind.format.fields) : Word.regB w = Word.regB w' := by
    rw [Word.regB_eq_field, Word.regB_eq_field, h.field_eq hmem]
  have hC (hmem : (0, 4) ∈ kind.format.fields) : Word.regC w = Word.regC w' := by
    rw [Word.regC_eq_field, Word.regC_eq_field, h.field_eq hmem]
  have himmediate (hmem : (0, 8) ∈ kind.format.fields) : Word.immediate w = Word.immediate w' := by
    rw [Word.immediate_eq_field, Word.immediate_eq_field, h.field_eq hmem]
  unfold ofFields Kind.usesA Kind.usesB Kind.usesC immediateOfWord
  cases kind with
  | nop | halt => rfl
  | load | loadi | store | jeq | jgt => rw [hA (by decide), himmediate (by decide)]; rfl
  | cpy | ror => rw [hA (by decide), hC (by decide)]; rfl
  | add | addf | or | and | xor => rw [hA (by decide), hB (by decide), hC (by decide)]; rfl

end Instruction

namespace Operation

/-- An operation reads nothing of the word but the operands of its kind. -/
theorem eq_of_ofFields_eq {kind : Kind} {operation : Operation} (h : ofKind? kind = some operation)
    {w w' : Word} (hfields : Instruction.ofFields kind w = Instruction.ofFields kind w')
    (verbosity : Verbosity) (s : Store) : operation verbosity w s = operation verbosity w' s := by
  have hA (hused : kind.usesA = true) : Word.regA w = Word.regA w' := by
    simpa [Instruction.ofFields, hused] using congrArg Instruction.a hfields
  have hB (hused : kind.usesB = true) : Word.regB w = Word.regB w' := by
    simpa [Instruction.ofFields, hused] using congrArg Instruction.b hfields
  have hC (hused : kind.usesC = true) : Word.regC w = Word.regC w' := by
    simpa [Instruction.ofFields, hused] using congrArg Instruction.c hfields
  have himmediate (hf : kind.format = .regImm) : Word.immediate w = Word.immediate w' := by
    simpa [Instruction.ofFields, Instruction.immediateOfWord, hf] using
      congrArg Instruction.immediate hfields
  have hcount (hf : kind.format = .regCount) : Word.regC w = Word.regC w' := by
    have hbyte : UInt8.ofNat (Word.regC w) = UInt8.ofNat (Word.regC w') := by
      simpa [Instruction.ofFields, Instruction.immediateOfWord, hf] using
        congrArg Instruction.immediate hfields
    have hlt := Word.regC_lt w
    have hlt' := Word.regC_lt w'
    have := congrArg UInt8.toNat hbyte
    rwa [UInt8.toNat_ofNat_of_lt' (by simp only [UInt8.size]; omega),
      UInt8.toNat_ofNat_of_lt' (by simp only [UInt8.size]; omega)] at this
  cases kind with
  | nop => cases h
  | halt => cases h; rfl
  | load => cases h; simp only [load, assign, pureEffect, hA rfl, himmediate rfl]
  | loadi => cases h; simp only [loadImmediate, assign, pureEffect, hA rfl, himmediate rfl]
  | store => cases h; simp only [store, pureEffect, hA rfl, himmediate rfl]
  | jeq => cases h; simp only [jumpIfEqual, condition, hA rfl, himmediate rfl]
  | jgt => cases h; simp only [jumpIfGreater, condition, hA rfl, himmediate rfl]
  | cpy => cases h; simp only [copy, assign, pureEffect, hA rfl, hC rfl]
  | ror => cases h; simp only [rotate, assign, pureEffect, hA rfl, hcount rfl]
  | add | addf | or | and | xor =>
    cases h; simp only [binary, assign, pureEffect, hA rfl, hB rfl, hC rfl]

end Operation

/-! ### Words that decode alike -/

/-- The words stand for the same instruction. -/
def Word.SameInstruction (w w' : Word) : Prop :=
  ∃ i, Instruction.decode w = .ok i ∧ Instruction.decode w' = .ok i

/-- The words do the same to every store. -/
def Word.ActsAs (w w' : Word) : Prop :=
  ∀ (verbosity : Verbosity) (s : Store),
    (s.apply verbosity w).status = (s.apply verbosity w').status ∧
      (s.apply verbosity w).state = (s.apply verbosity w').state

theorem Word.SameInstruction.actsAs {w w' : Word} (h : Word.SameInstruction w w') :
    w.ActsAs w' := by
  intro verbosity s
  obtain ⟨i, hw, hw'⟩ := h
  obtain ⟨hkind, hi⟩ := Instruction.decode_eq_ok_iff.1 hw
  obtain ⟨hkind', hi'⟩ := Instruction.decode_eq_ok_iff.1 hw'
  simp only [Store.apply, Operation.ofOpcode?, hkind, hkind', Option.bind_some]
  cases hoperation : Operation.ofKind? i.kind with
  | none => exact ⟨rfl, rfl⟩
  | some operation =>
    have heq := Operation.eq_of_ofFields_eq hoperation (hi.symm.trans hi') verbosity s
    exact ⟨congrArg Outcome.status heq, congrArg Outcome.state heq⟩

/-! ### Reassembly -/

/-- Disassembling `before` and assembling the instruction gives `after`, which has the same
instruction. -/
def Word.ReassemblesTo (before after : Word) : Prop :=
  ∃ i, Instruction.decode before = .ok i ∧ Instruction.encode i = .ok after ∧
    Instruction.decode after = .ok i

theorem Word.rightUnique_reassemblesTo : Relator.RightUnique Word.ReassemblesTo := by
  rintro word after after' ⟨i, hdecode, hencode, -⟩ ⟨i', hdecode', hencode', -⟩
  rw [hdecode] at hdecode'
  cases hdecode'
  rw [hencode] at hencode'
  cases hencode'
  rfl

theorem Word.exists_reassemblesTo {word : Word} (h : Word.opcode word < 14) :
    ∃ after, word.ReassemblesTo after := by
  obtain ⟨i, hi⟩ := Instruction.exists_decode h
  obtain ⟨after, hencode, hdecode⟩ := Instruction.exists_reassembled hi
  exact ⟨after, i, hi, hencode, hdecode⟩

theorem Word.exists_reassembly {words : List Word} (h : ∀ word ∈ words, Word.opcode word < 14) :
    ∃ words', List.Forall₂ Word.ReassemblesTo words words' := by
  induction words with
  | nil => exact ⟨[], .nil⟩
  | cons word words ih =>
    obtain ⟨after, hafter⟩ := Word.exists_reassemblesTo (h word List.mem_cons_self)
    obtain ⟨words', hwords'⟩ := ih fun w hw => h w (List.mem_cons_of_mem _ hw)
    exact ⟨after :: words', .cons hafter hwords'⟩

namespace Machine

/-- The status after each word that is executed. -/
def statuses (verbosity : Verbosity) (words : List Word) (m : Machine) : List Status :=
  (trace verbosity id id words m).map Step.status

theorem execute_congr {w w' : Word} (h : w.ActsAs w') (verbosity : Verbosity) {m m' : Machine}
    (hm : m.toStore = m'.toStore) :
    (m.execute verbosity w).status = (m'.execute verbosity w').status ∧
      (m.execute verbosity w).state.toStore = (m'.execute verbosity w').state.toStore := by
  simp only [execute]
  rw [hm]
  exact h verbosity m'.toStore

/-- Programs whose words act alike run alike. -/
theorem executeAll_of_actsAs {words words' : List Word}
    (h : List.Forall₂ Word.ActsAs words words') (verbosity : Verbosity) (m : Machine) :
    (m.executeAll verbosity words).summary = (m.executeAll verbosity words').summary ∧
      m.statuses verbosity words = m.statuses verbosity words' ∧
      (m.executeAll verbosity words).machine.toStore =
        (m.executeAll verbosity words').machine.toStore := by
  have hmatches : List.Forall₂ (Step.Matches Word.ActsAs fun m m' => m.toStore = m'.toStore)
      (trace verbosity id id words m) (trace verbosity id id words' m) := by
    refine trace_matches ?_ (fun _ _ hm => hm) h rfl
    intro w w' m m' hw hm
    exact execute_congr hw verbosity hm
  simp only [executeAll, executeWords_eq_trace]
  exact ⟨Step.summary_eq hmatches, Step.statuses_eq hmatches,
    Step.final_related (fun _ _ hm => hm) hmatches rfl⟩

/-- Programs whose words stand for the same instructions run alike. -/
theorem executeAll_congr {words words' : List Word}
    (h : List.Forall₂ Word.SameInstruction words words') (verbosity : Verbosity) (m : Machine) :
    (m.executeAll verbosity words).summary = (m.executeAll verbosity words').summary ∧
      m.statuses verbosity words = m.statuses verbosity words' ∧
      (m.executeAll verbosity words).machine.toStore =
        (m.executeAll verbosity words').machine.toStore :=
  executeAll_of_actsAs (h.imp fun _ _ hw => hw.actsAs) verbosity m

/-- A program whose opcodes are all assigned can be disassembled and assembled again, once and for
all, and runs like its reassembly. Operations see no difference between words that agree on the
operands of their format. -/
theorem reassembly_preserves_runs (words : List Word)
    (h : ∀ word ∈ words, Word.opcode word < 14) :
    (∃ words', List.Forall₂ Word.ReassemblesTo words words' ∧
      List.Forall₂ Word.ReassemblesTo words' words' ∧
      ∀ (verbosity : Verbosity) (m : Machine),
        let original := m.executeAll verbosity words
        let again := m.executeAll verbosity words'
        again.summary = original.summary ∧
        m.statuses verbosity words' = m.statuses verbosity words ∧
        again.machine.registers = original.machine.registers ∧
        again.machine.memory = original.machine.memory) ∧
    ∀ opcode kind operation, Kind.ofOpcode? opcode = some kind →
      Operation.ofOpcode? opcode = some operation →
      ∀ word word', kind.format.Agree word word' →
        ∀ verbosity s, operation verbosity word s = operation verbosity word' s := by
  constructor
  · obtain ⟨words', hwords'⟩ := Word.exists_reassembly h
    have hagain : List.Forall₂ Word.ReassemblesTo words' words' := by
      clear h
      induction hwords' with
      | nil => exact .nil
      | cons hw _ ih =>
        obtain ⟨i, -, hencode, hdecode⟩ := hw
        exact .cons ⟨i, hdecode, hencode, hdecode⟩ ih
    have hsame : List.Forall₂ Word.SameInstruction words' words :=
      (hwords'.imp fun w w' ⟨i, hdecode, _, hdecode'⟩ => ⟨i, hdecode', hdecode⟩).flip
    refine ⟨words', hwords', hagain, fun verbosity m => ?_⟩
    obtain ⟨hsummary, hstatuses, hstore⟩ := executeAll_congr hsame verbosity m
    exact ⟨hsummary, hstatuses, congrArg Store.registers hstore, congrArg Store.memory hstore⟩
  · intro opcode kind operation hkind hoperation word word' hagree verbosity s
    rw [Operation.ofOpcode?, hkind, Option.bind_some] at hoperation
    exact Operation.eq_of_ofFields_eq hoperation (Instruction.ofFields_congr hagree) verbosity s

/-- Five words, three of them with bits that their kind does not use, and a copy that is called
with a word of another opcode. -/
theorem reassembly_preserves_copy_and_rotation :
    let words : List Word := [0x4A7B, 0xA1F3, 0x2105, 0xC555, 0x2207]
    let words' : List Word := [0x4A0B, 0xA103, 0x2105, 0xC000, 0x2207]
    let m := Machine.zero.mapStore (Store.setRegister · 1 0x81)
    (∀ word ∈ words, Word.opcode word < 14) ∧
    List.Forall₂ Word.ReassemblesTo words words' ∧
    (m.executeAll none words').summary = (m.executeAll none words).summary ∧
    (m.executeAll none words').machine.registers = (m.executeAll none words).machine.registers ∧
    Operation.copy none 0x4A7B m.toStore = Operation.copy none 0xFA0B m.toStore := by
  intro words words' m
  have hassigned : ∀ word ∈ words, Word.opcode word < 14 := by
    simp only [words, List.mem_cons, List.not_mem_nil, or_false]
    rintro word (rfl | rfl | rfl | rfl | rfl) <;> decide
  obtain ⟨⟨ws, hws, -, hrun⟩, hoperation⟩ := reassembly_preserves_runs words hassigned
  have hwords' : List.Forall₂ Word.ReassemblesTo words words' :=
    .cons ⟨_, rfl, by decide, rfl⟩ <| .cons ⟨_, rfl, by decide, rfl⟩ <|
      .cons ⟨_, rfl, by decide, rfl⟩ <| .cons ⟨_, rfl, by decide, rfl⟩ <|
        .cons ⟨_, rfl, by decide, rfl⟩ .nil
  obtain rfl : ws = words' := Word.rightUnique_reassemblesTo.forall₂ hws hwords'
  obtain ⟨hsummary, -, hregisters, -⟩ := hrun none m
  have hagree : Kind.cpy.format.Agree 0x4A7B 0xFA0B := by
    have hbits : ∀ field ∈ Format.regReg.fields, ∀ bit < field.1 + field.2, field.1 ≤ bit →
        (0x4A7B : Word).toBitVec.getLsbD bit = (0xFA0B : Word).toBitVec.getLsbD bit := by decide
    exact fun field hfield bit hlow hhigh => hbits field hfield bit hhigh hlow
  exact ⟨hassigned, hwords', hsummary, hregisters, hoperation 4 _ _ rfl rfl _ _ hagree none _⟩

end Machine

end ByteMachine

import ByteMachine.Proofs.Machine.Reference

/-! Words that do nothing. A word is inert if it has no operation or only evaluates a condition, or
if it puts into a register what the register holds already. Inert words can be deleted from a
program or inserted into it: only the count of executed words tells. -/

namespace ByteMachine

/-- No operation or a condition, a copy within one register, a rotation by whole turns, or a bitwise
operation that merges a register with itself. -/
def Word.Inert (word : Word) : Prop :=
  opcode word ∈ [0, 11, 13, 14, 15] ∨
  opcode word = 4 ∧ regA word = regC word ∨
  opcode word = 10 ∧ 8 ∣ regC word ∨
  opcode word ∈ [7, 8] ∧ regA word = regB word ∧ regB word = regC word

instance (word : Word) : Decidable word.Inert := inferInstanceAs (Decidable (_ ∨ _))

/-! ### An inert word -/

theorem Word.halts_of_inert {word : Word} (h : word.Inert) : word.halts = false := by
  have hne : opcode word ≠ 12 := by
    intro hopcode
    simp [Inert, hopcode] at h
  exact beq_eq_false_iff_ne.2 hne

namespace Store

/-- An inert word writes what the cell holds, if it writes anything. -/
theorem value_of_effect?_inert {word : Word} (h : word.Inert) {s : Store} {place : Place}
    {value : Byte} (heffect : s.effect? word = some (place, value)) : s.value place = value := by
  unfold Word.Inert at h
  rw [Word.opcode_eq_field, Word.regA_eq_field, Word.regB_eq_field, Word.regC_eq_field] at h
  unfold effect? at heffect
  rcases h with hopcode | ⟨hopcode, hac⟩ | ⟨hopcode, hcount⟩ | ⟨hopcode, hab, hbc⟩
  · simp only [List.mem_cons, List.not_mem_nil, or_false] at hopcode
    rcases hopcode with hopcode | hopcode | hopcode | hopcode | hopcode <;>
      simp [hopcode] at heffect
  · simp only [hopcode, Option.some.injEq, Prod.mk.injEq] at heffect
    obtain ⟨rfl, rfl⟩ := heffect
    rw [hac]
    rfl
  · simp only [hopcode, Option.some.injEq, Prod.mk.injEq] at heffect
    obtain ⟨rfl, rfl⟩ := heffect
    have hturns : ∀ bits : BitVec 8, bits.rotateRight 0 = bits := by
      simp [BitVec.rotateRight_def]
    rw [Nat.mod_eq_zero_of_dvd hcount, hturns]
    rfl
  · simp only [List.mem_cons, List.not_mem_nil, or_false] at hopcode
    rcases hopcode with hopcode | hopcode <;>
      simp only [hopcode, Option.some.injEq, Prod.mk.injEq] at heffect <;>
      obtain ⟨rfl, rfl⟩ := heffect
    · rw [hab, hbc, UInt8.or_self]
      rfl
    · rw [hab, hbc, UInt8.and_self]
      rfl

theorem state_apply_of_inert {word : Word} (h : word.Inert) (verbosity : Verbosity) (s : Store) :
    (s.apply verbosity word).state = s := by
  rw [apply_eq_perform]
  cases heffect : s.effect? word with
  | none => rfl
  | some effect =>
    have hvalue : s.value effect.1 = effect.2 := value_of_effect?_inert h heffect
    rw [perform, ← hvalue, put_value]

end Store

/-! ### Programs -/

/-- A word of a program, to be kept or deleted. Only inert words are deleted. -/
structure Marked where
  word : Word
  deleted : Bool
  inert : deleted = true → word.Inert

namespace Marked

/-- All words of the program. -/
def words (program : List Marked) : List Word := program.map word

/-- The words of the program without those that are deleted. -/
def kept (program : List Marked) : List Word :=
  (program.filter fun entry => !entry.deleted).map word

/-- How many words are deleted before the first that halts, or in all if none does. -/
def deletedBeforeHalt (program : List Marked) : Nat :=
  (program.takeWhile fun entry => !entry.word.halts).countP deleted

variable {entry : Marked}

theorem kept_cons_of_deleted (h : entry.deleted = true) (program : List Marked) :
    kept (entry :: program) = kept program := by
  rw [kept, List.filter_cons_of_neg (by simp [h]), kept]

theorem kept_cons_of_kept (h : entry.deleted = false) (program : List Marked) :
    kept (entry :: program) = entry.word :: kept program := by
  rw [kept, List.filter_cons_of_pos (by simp [h]), List.map_cons, kept]

theorem deletedBeforeHalt_cons_of_halts (h : entry.word.halts = true) (program : List Marked) :
    deletedBeforeHalt (entry :: program) = 0 := by
  simp [deletedBeforeHalt, h]

theorem deletedBeforeHalt_cons (h : entry.word.halts = false) (program : List Marked) :
    deletedBeforeHalt (entry :: program) =
      deletedBeforeHalt program + if entry.deleted then 1 else 0 := by
  rw [deletedBeforeHalt, List.takeWhile_cons_of_pos (by simp [h]), List.countP_cons,
    deletedBeforeHalt]

end Marked

namespace Machine

open Marked

/-- Machines that differ in the instruction register at most. -/
structure SameButIr (m m' : Machine) : Prop where
  toStore : m.toStore = m'.toStore
  pc : m.pc = m'.pc

theorem SameButIr.execute {m m' : Machine} (h : m.SameButIr m') (verbosity : Verbosity)
    (word : Word) :
    (m.execute verbosity word).state.SameButIr (m'.execute verbosity word).state :=
  ⟨congrArg (fun s => (Store.apply verbosity word s).state) h.toStore, h.pc⟩

theorem SameButIr.execute_inert {m m' : Machine} (h : m.SameButIr m') {word : Word}
    (hinert : word.Inert) (verbosity : Verbosity) :
    (m.execute verbosity word).state.SameButIr m' :=
  ⟨(Store.state_apply_of_inert hinert verbosity m.toStore).trans h.toStore, h.pc⟩

/-- The program runs as it does without the deleted words, but for the count of words. -/
theorem executeWords_kept (program : List Marked) (verbosity : Verbosity) {m m' : Machine}
    (h : m.SameButIr m') :
    let whole := m.executeWords verbosity (words program)
    let rest := m'.executeWords verbosity (kept program)
    whole.machine.SameButIr rest.machine ∧
    whole.summary =
      ⟨rest.summary.executed + deletedBeforeHalt program, rest.summary.halted⟩ := by
  induction program generalizing m m' with
  | nil => exact ⟨h, rfl⟩
  | cons entry program ih =>
    have hwords : words (entry :: program) = entry.word :: words program := rfl
    cases hdeleted : entry.deleted with
    | true =>
      have hinert := entry.inert hdeleted
      have hhalts := Word.halts_of_inert hinert
      have hstatus := (Word.halts_eq_false_iff verbosity entry.word m).1 hhalts
      obtain ⟨hmachine, hsummary⟩ := ih (h.execute_inert hinert verbosity)
      rw [hwords, kept_cons_of_deleted hdeleted, executeWords_cons_normal hstatus,
        deletedBeforeHalt_cons hhalts, hdeleted, if_pos rfl]
      refine ⟨hmachine, ?_⟩
      dsimp only
      rw [hsummary, Nat.add_assoc]
    | false =>
      rw [hwords, kept_cons_of_kept hdeleted]
      cases hhalts : entry.word.halts with
      | true =>
        rw [executeWords_cons_halted ((Word.halts_iff verbosity entry.word m).1 hhalts),
          executeWords_cons_halted ((Word.halts_iff verbosity entry.word m').1 hhalts),
          deletedBeforeHalt_cons_of_halts hhalts]
        exact ⟨h.execute verbosity entry.word, rfl⟩
      | false =>
        obtain ⟨hmachine, hsummary⟩ := ih (h.execute verbosity entry.word)
        rw [executeWords_cons_normal ((Word.halts_eq_false_iff verbosity entry.word m).1 hhalts),
          executeWords_cons_normal ((Word.halts_eq_false_iff verbosity entry.word m').1 hhalts),
          deletedBeforeHalt_cons hhalts, hdeleted]
        refine ⟨hmachine, ?_⟩
        dsimp only
        rw [hsummary, Nat.add_right_comm]
        rfl

/-- Inert words can be deleted from a program or inserted into it. The run ends with the same cells,
pending changes and halt, and counts the words that are deleted before the first that halts. -/
theorem deleting_inert_words_preserves_run (program : List Marked) (verbosity : Verbosity)
    (m : Machine) :
    let whole := m.executeAll verbosity (words program)
    let rest := m.executeAll verbosity (kept program)
    rest.machine.registers = whole.machine.registers ∧
    rest.machine.memory = whole.machine.memory ∧
    rest.machine.pc = whole.machine.pc ∧
    rest.summary.halted = whole.summary.halted ∧
    whole.summary.executed = rest.summary.executed + deletedBeforeHalt program := by
  intro whole rest
  have hsame : m.SameButIr m := ⟨rfl, rfl⟩
  obtain ⟨hmachine, hsummary⟩ := executeWords_kept program verbosity hsame
  have hstore : rest.machine.toStore = whole.machine.toStore := hmachine.toStore.symm
  exact ⟨congrArg Store.registers hstore, congrArg Store.memory hstore, hmachine.pc.symm,
    (congrArg Summary.halted hsummary).symm, congrArg Summary.executed hsummary⟩

/-- A copy within a register and a turn of eight bits are deleted, on either side of the halt. -/
theorem deleting_inert_words_around_halt :
    let program : List Marked :=
      [⟨0x2A05, false, by decide⟩, ⟨0x4171, true, by decide⟩, ⟨0xC000, false, by decide⟩,
        ⟨0xA118, true, by decide⟩]
    words program = [0x2A05, 0x4171, 0xC000, 0xA118] ∧
    kept program = [0x2A05, 0xC000] ∧
    ∀ (verbosity : Verbosity) (m : Machine),
      (m.executeAll verbosity [0x2A05, 0xC000]).machine.registers =
        (m.executeAll verbosity [0x2A05, 0x4171, 0xC000, 0xA118]).machine.registers ∧
      (m.executeAll verbosity [0x2A05, 0x4171, 0xC000, 0xA118]).summary.executed =
        (m.executeAll verbosity [0x2A05, 0xC000]).summary.executed + 1 := by
  intro program
  refine ⟨rfl, rfl, fun verbosity m => ?_⟩
  obtain ⟨hregisters, -, -, -, hexecuted⟩ := deleting_inert_words_preserves_run program verbosity m
  exact ⟨hregisters, hexecuted⟩

end Machine

end ByteMachine

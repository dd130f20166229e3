import ByteMachine.Proofs.Machine.Pending
import Mathlib.Data.Int.ModEq

/-! Runs of rotations. Two rotations are one by the sum of their counts, and only what a count
leaves modulo eight matters. So words that rotate one register come to a single rotation, which is
undone when the sum comes to whole turns: then nothing is left pending either. -/

namespace ByteMachine

/-- The word rotates the register. The bits of `B` do not matter. -/
def Word.Rotates (word : Word) (register : Nat) : Prop :=
  opcode word = Kind.opcode .ror ∧ regA word = register

instance (word : Word) (register : Nat) : Decidable (word.Rotates register) :=
  inferInstanceAs (Decidable (_ ∧ _))

theorem Store.effect?_of_rotates {word : Word} {register : Nat} (h : word.Rotates register)
    (s : Store) :
    s.effect? word = some (.register register,
      Byte.rotateRight (s.value (.register register)) (Word.regC word)) := by
  obtain ⟨hopcode, rfl⟩ := h
  rw [Word.opcode_eq_field] at hopcode
  rw [Word.regA_eq_field, Word.regC_eq_field, Byte.rotateRight_eq]
  simp only [effect?, hopcode, Kind.opcode, BitVec.rotateRight_mod_eq_rotateRight]
  rfl

namespace Machine

/-- `after` is `before` with the register rotated. Of the pending changes only that register's may
differ. -/
structure Rotated (register count : Nat) (before after : Machine) : Prop where
  value : after.value = Function.update before.value (.register register)
    (Byte.rotateRight (before.value (.register register)) count)
  pending : ∀ other, other ≠ .register register →
    ∀ change, after.HasPending change other ↔ before.HasPending change other

namespace Rotated

variable {register s t : Nat} {m m' m'' : Machine}

theorem refl (register : Nat) (m : Machine) : Rotated register 0 m m := by
  refine ⟨?_, fun _ _ _ => Iff.rfl⟩
  rw [Byte.rotateRight_zero, Function.update_eq_self]

theorem trans (h : Rotated register s m m') (h' : Rotated register t m' m'') :
    Rotated register (s + t) m m'' := by
  refine ⟨?_, fun other hother change =>
    (h'.pending other hother change).trans (h.pending other hother change)⟩
  rw [h'.value, h.value, Function.update_self, Function.update_idem,
    Byte.rotateRight_rotateRight _ (Nat.ModEq.refl (s + t))]

theorem value_self (h : Rotated register s m m') :
    m'.value (.register register) = Byte.rotateRight (m.value (.register register)) s := by
  rw [h.value, Function.update_self]

theorem value_of_ne (h : Rotated register s m m') {other : Place}
    (hne : other ≠ .register register) : m'.value other = m.value other := by
  rw [h.value, Function.update_of_ne hne]

end Rotated

variable {word : Word} {register : Nat}

theorem rotated_execute (h : word.Rotates register) (verbosity : Verbosity) (m : Machine) :
    Rotated register (Word.regC word) m (m.execute verbosity word).state := by
  have heffect := Store.effect?_of_rotates h m.toStore
  constructor
  · have hvalue := Store.value_apply verbosity word m.toStore
    rwa [heffect] at hvalue
  · intro other hother change
    have hstore : (m.execute verbosity word).state.toStore = m.put (.register register) _ :=
      (Store.apply_eq_perform verbosity word m.toStore).trans (congrArg _ heffect)
    rw [hstore]
    exact Store.hasPending_put_of_ne m.toStore _ change hother

theorem status_of_rotates (h : word.Rotates register) (verbosity : Verbosity) (m : Machine) :
    (m.execute verbosity word).status = .normal := by
  rw [← Word.halts_eq_false_iff verbosity word m, Word.halts, h.1]
  rfl

/-- Rotations one after the other: none halts, and their counts add up. -/
theorem rotated_executeWords {words : List Word} (h : ∀ word ∈ words, word.Rotates register)
    (verbosity : Verbosity) (m : Machine) :
    let execution := m.executeWords verbosity words
    execution.summary = ⟨words.length, false⟩ ∧
      Rotated register (words.map Word.regC).sum m execution.machine := by
  induction words generalizing m with
  | nil => exact ⟨rfl, Rotated.refl register m⟩
  | cons word words ih =>
    have hword : word.Rotates register := h word List.mem_cons_self
    obtain ⟨hsummary, hrest⟩ :=
      ih (fun w hw => h w (List.mem_cons_of_mem _ hw)) (m.execute verbosity word).state
    rw [executeWords_cons_normal (status_of_rotates hword verbosity m), List.map_cons,
      List.sum_cons]
    refine ⟨?_, (rotated_execute hword verbosity m).trans hrest⟩
    dsimp only
    rw [hsummary, List.length_cons]

/-- A rotation after a rotation is one by any count that the sum of theirs leaves modulo eight, and
what goes round in all is back. A program of rotations of one register rotates it by the sum of its
counts and leaves all other cells alone. If nothing was pending before, a change of the register is
pending after it exactly if the register differs. -/
theorem rotations_add_up :
    (∀ (b : Byte) (s t u : Nat), u ≡ s + t [MOD 8] →
      Byte.rotateRight (Byte.rotateRight b s) t = Byte.rotateRight b u) ∧
    (∀ (b : Byte) (s t : Nat), (t : Int) ≡ -s [ZMOD 8] →
      Byte.rotateRight (Byte.rotateRight b s) t = b) ∧
    ∀ (register : Nat) (words : List Word), (∀ word ∈ words, word.Rotates register) →
      ∀ (verbosity : Verbosity) (m : Machine),
        let execution := m.executeAll verbosity words
        let old := m.value (.register register)
        let new := execution.machine.value (.register register)
        execution.summary = ⟨words.length, false⟩ ∧
        new = Byte.rotateRight old ((words.map Word.regC).sum % 8) ∧
        (∀ other, other ≠ .register register →
          execution.machine.value other = m.value other ∧
          ∀ change, execution.machine.HasPending change other ↔ m.HasPending change other) ∧
        (m.registers.pending = [] → m.memory.pending = [] →
          ∀ change, execution.machine.HasPending change (.register register) ↔
            old ≠ new ∧ change = ⟨old, new⟩) := by
  refine ⟨fun b s t u h => Byte.rotateRight_rotateRight b h, fun b s t h => ?_,
    fun register words h verbosity m => ?_⟩
  · have hturns : 0 ≡ s + t [MOD 8] := by
      unfold Int.ModEq at h
      unfold Nat.ModEq
      omega
    rw [Byte.rotateRight_rotateRight b hturns, Byte.rotateRight_zero]
  · intro execution old new
    obtain ⟨hsummary, hrotated⟩ := rotated_executeWords h verbosity m
    refine ⟨hsummary, hrotated.value_self.trans (Byte.rotateRight_mod _ _).symm,
      fun other hother => ⟨hrotated.value_of_ne hother, hrotated.pending other hother⟩,
      fun hregisters hmemory change => ?_⟩
    have htracks : execution.machine.Tracks m.value :=
      tracks_executeWords (Store.tracks_of_pending_eq_nil hregisters hmemory) verbosity words
    -- where there is no such register, both values are zero
    have hexists (hne : old ≠ new) : (Place.register register).Exists := by
      by_contra hno
      exact hne ((m.value_of_not_exists hno).trans
        (execution.machine.value_of_not_exists hno).symm)
    exact htracks.registers.mem_pending_iff.trans
      ⟨And.right, fun hchange => ⟨hexists hchange.1, hchange⟩⟩

/-- Three places and five are a whole turn, and `B` does not matter. After the first word alone a
change is pending. -/
theorem rotations_add_up_to_turn :
    let words : List Word := [0xA313, 0xA3F5]
    let m := (Machine.zero.mapStore (Store.setRegister · 3 0x81)).settle
    let half := (m.executeAll none (words.take 1)).machine
    let whole := (m.executeAll none words).machine
    (7 ≡ 9 + 6 [MOD 8] ∧
      Byte.rotateRight (Byte.rotateRight 0x81 9) 6 = Byte.rotateRight 0x81 7) ∧
    ((4294967293 : Nat) : Int) ≡ -(3 : Nat) [ZMOD 8] ∧
    Byte.rotateRight (Byte.rotateRight 0x81 3) 4294967293 = 0x81 ∧
    (∀ word ∈ words, word.Rotates 3) ∧
    m.registers.pending = [] ∧ m.memory.pending = [] ∧
    half.HasPending ⟨0x81, 0x30⟩ (.register 3) ∧
    whole.value (.register 3) = 0x81 ∧
    ∀ change, ¬ whole.HasPending change (.register 3) := by
  intro words m half whole
  have hwords : ∀ word ∈ words, word.Rotates 3 := by
    simp only [words, List.mem_cons, List.not_mem_nil, or_false]
    rintro word (rfl | rfl) <;> decide
  have hregisters : m.registers.pending = [] := Memory.pending_settle _
  have hmemory : m.memory.pending = [] := Memory.pending_settle _
  have hold : m.value (.register 3) = 0x81 := by decide +kernel
  obtain ⟨hcompose, hundo, hrun⟩ := rotations_add_up
  obtain ⟨-, hhalf, -, hhalfPending⟩ :=
    hrun 3 (words.take 1) (fun word hword => hwords word (List.mem_of_mem_take hword)) none m
  obtain ⟨-, hwhole, -, hwholePending⟩ := hrun 3 words hwords none m
  have hhalf : half.value (.register 3) = 0x30 := by
    rw [hhalf, hold]
    decide
  have hwhole : whole.value (.register 3) = 0x81 := by
    rw [hwhole, hold]
    decide
  have hsum : 7 ≡ 9 + 6 [MOD 8] := by decide
  have hturn : ((4294967293 : Nat) : Int) ≡ -(3 : Nat) [ZMOD 8] := by decide
  refine ⟨⟨hsum, hcompose 0x81 9 6 7 hsum⟩, hturn, hundo 0x81 3 _ hturn, hwords, hregisters,
    hmemory, (hhalfPending hregisters hmemory _).2 ?_, hwhole, fun change hchange => ?_⟩
  · rw [hold, hhalf]
    exact ⟨by decide, rfl⟩
  · exact ((hwholePending hregisters hmemory change).1 hchange).1 (hold.trans hwhole.symm)

end Machine

end ByteMachine

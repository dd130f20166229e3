import ByteMachine.Machine.Execute
import ByteMachine.Proofs.Arithmetic.Byte
import ByteMachine.Proofs.Arithmetic.Exact
import ByteMachine.Proofs.Machine.Place

/-! The instruction table. It says of each word which cell is written and with what, by the bits of
the word and the cells before it. Execution does what the table says, on every state. -/

namespace ByteMachine

namespace Word

/-! ### Fields as bits -/

/-- The number in the `width` bits from `low` on. -/
def field (word : Word) (low width : Nat) : Nat := (word.toBitVec.extractLsb' low width).toNat

theorem field_eq (word : Word) (low width : Nat) :
    field word low width = word.toNat / 2 ^ low % 2 ^ width := by
  rw [field, BitVec.extractLsb'_toNat, Nat.shiftRight_eq_div_pow]
  rfl

theorem opcode_eq_field (word : Word) : opcode word = field word 12 4 := by
  have := word.toNat_lt
  rw [field_eq, opcode]
  omega

theorem regA_eq_field (word : Word) : regA word = field word 8 4 := (field_eq word 8 4).symm

theorem regB_eq_field (word : Word) : regB word = field word 4 4 := (field_eq word 4 4).symm

theorem regC_eq_field (word : Word) : regC word = field word 0 4 := by
  rw [field_eq, Nat.pow_zero, Nat.div_one]
  rfl

theorem immediate_eq_field (word : Word) : immediate word = UInt8.ofNat (field word 0 8) := by
  rw [field_eq, Nat.pow_zero, Nat.div_one]
  rfl

theorem field_lt (word : Word) (low width : Nat) : field word low width < 2 ^ width :=
  BitVec.isLt _

theorem toNat_immediate_eq_field (word : Word) : (immediate word).toNat = field word 0 8 := by
  rw [immediate_eq_field, UInt8.toNat_ofNat_of_lt' (field_lt word 0 8)]

end Word

namespace Store

/-! ### The table -/

/-- What the table has a word write, and where. -/
def effect? (word : Word) (s : Store) : Option (Place × Byte) :=
  let a := Word.field word 8 4
  let b := s.registers.read (Word.field word 4 4)
  let c := s.registers.read (Word.field word 0 4)
  let immediate := Word.field word 0 8
  match Word.field word 12 4 with
  | 1 => some (.register a, s.memory.read immediate)
  | 2 => some (.register a, UInt8.ofNat immediate)
  | 3 => some (.memory immediate, s.registers.read a)
  | 4 => some (.register a, c)
  | 5 => some (.register a, UInt8.ofInt (b.toInt8.toInt + c.toInt8.toInt))
  | 6 => some (.register a, UInt8.ofNat (b.toNat + c.toNat))
  | 7 => some (.register a, b ||| c)
  | 8 => some (.register a, b &&& c)
  | 9 => some (.register a, b ^^^ c)
  | 10 =>
    let count := Word.field word 0 4 % 8
    some (.register a, UInt8.ofBitVec ((s.registers.read a).toBitVec.rotateRight count))
  | _ => none

def perform (s : Store) : Option (Place × Byte) → Store
  | none => s
  | some (place, value) => s.put place value

theorem exists_of_effect? {word : Word} {s : Store} {place : Place} {value : Byte}
    (h : s.effect? word = some (place, value)) : place.Exists := by
  have ha : Word.field word 8 4 < 16 := Word.field_lt word 8 4
  have himmediate : Word.field word 0 8 < 256 := Word.field_lt word 0 8
  unfold effect? at h
  split at h <;> cases h <;> assumption

theorem apply_eq_perform (verbosity : Verbosity) (word : Word) (s : Store) :
    (s.apply verbosity word).state = s.perform (s.effect? word) := by
  unfold effect? apply
  rw [← Word.opcode_eq_field, ← Word.regA_eq_field, ← Word.regB_eq_field, ← Word.regC_eq_field,
    ← Word.toNat_immediate_eq_field]
  dsimp only
  have hlt := Word.opcode_lt word
  generalize Word.opcode word = opcode at hlt ⊢
  -- both sides choose by the opcode, and only the arithmetic is written in another way
  match opcode, hlt with
  | 0, _ | 11, _ | 12, _ | 13, _ | 14, _ | 15, _ => rfl
  | 1, _ | 3, _ | 4, _ | 7, _ | 8, _ | 9, _ => rfl
  | 2, _ => exact congrArg (s.setRegister _) UInt8.ofNat_toNat.symm
  | 5, _ => exact congrArg (s.setRegister _) (Byte.addSigned_eq _ _)
  | 6, _ => exact congrArg (s.setRegister _) (Fixed.add_eq _ _)
  | 10, _ =>
    rw [BitVec.rotateRight_mod_eq_rotateRight]
    exact congrArg (s.setRegister _) (Byte.rotateRight_eq _ _)
  | _ + 16, hlt => exact absurd hlt (by omega)

theorem status_apply (verbosity : Verbosity) (word : Word) (s : Store) :
    (s.apply verbosity word).status = .halted ↔ Word.field word 12 4 = 12 := by
  rw [← Word.opcode_eq_field]
  unfold apply Operation.ofOpcode?
  dsimp only
  cases h : Kind.ofOpcode? (Word.opcode word) with
  | none =>
    have hne : Word.opcode word ≠ 12 := by
      intro heq
      rw [heq] at h
      cases h
    exact iff_of_false (fun hstatus => by cases hstatus) hne
  | some kind =>
    rw [← Kind.opcode_of_ofOpcode? h]
    cases kind with
    | halt => exact iff_of_true rfl rfl
    | _ => exact iff_of_false (fun hstatus => by cases hstatus) (by decide)

end Store

namespace Word

/-! ### Words that halt -/

/-- Whether the word halts. -/
def halts (word : Word) : Bool := opcode word == Kind.opcode .halt

theorem halts_iff (verbosity : Verbosity) (word : Word) (m : Machine) :
    halts word = true ↔ (m.execute verbosity word).status = .halted := by
  rw [halts, beq_iff_eq, opcode_eq_field]
  exact (m.toStore.status_apply verbosity word).symm

theorem halts_eq_false_iff (verbosity : Verbosity) (word : Word) (m : Machine) :
    halts word = false ↔ (m.execute verbosity word).status = .normal := by
  rw [← Bool.not_eq_true, halts_iff verbosity word m]
  cases (m.execute verbosity word).status <;> decide

end Word

namespace Machine

/-! ### Execution -/

/-- Executing a word does what the table says, and nothing else. -/
theorem execute_follows_table (verbosity : Verbosity) (word : Word) (m : Machine) :
    let outcome := m.execute verbosity word
    let after := outcome.state
    (match m.effect? word with
      | none => after.toStore = m.toStore
      | some (place, value) =>
        after.toStore = m.put place value ∧
        after.value place = value ∧
        ∀ other, other ≠ place →
          after.value other = m.value other ∧
          ∀ change, after.HasPending change other ↔ m.HasPending change other) ∧
    after.pc = m.pc ∧
    after.ir = word ∧
    (outcome.status = .halted ↔ Word.field word 12 4 = 12) := by
  intro outcome after
  have hstore : after.toStore = m.perform (m.effect? word) :=
    Store.apply_eq_perform verbosity word m.toStore
  refine ⟨?_, rfl, rfl, Store.status_apply verbosity word m.toStore⟩
  rw [hstore]
  split
  · rename_i heffect
    rw [heffect]
    rfl
  · rename_i place value heffect
    rw [heffect]
    exact ⟨rfl, Store.value_put _ _ (Store.exists_of_effect? heffect), fun other hne =>
      ⟨Store.value_put_of_ne _ _ hne, fun change => Store.hasPending_put_of_ne _ _ change hne⟩⟩

/-- An addition whose three registers are the same one. -/
theorem execute_doubles_register :
    let m := Machine.zero.mapStore (Store.setRegister · 1 0x81)
    let after := (m.execute none 0x5111).state
    after.value (.register 1) = 2 ∧
    after.value (.memory 0x11) = 0 ∧
    ∀ change, after.HasPending change (.register 5) ↔ m.HasPending change (.register 5) := by
  intro m after
  have heffect : m.effect? 0x5111 = some (.register 1, 2) := by decide +kernel
  have hmemory : m.value (.memory 0x11) = 0 := by decide +kernel
  obtain ⟨h, -⟩ := execute_follows_table none 0x5111 m
  rw [heffect] at h
  obtain ⟨-, hvalue, hother⟩ := h
  exact ⟨hvalue, (hother _ (by decide)).1.trans hmemory, (hother _ (by decide)).2⟩

end Machine

end ByteMachine

import ByteMachine.Proofs.Arithmetic.BitPattern
import ByteMachine.Proofs.Machine.Reassembly

/-! Addition in fixed point. The way through single precision loses nothing: a byte is turned into
its sixteenths and back, sums are exact, and what leaves the range of a byte is cut as in two's
complement. So the two additions of the instruction set do the same, and a program may use
either. -/

namespace ByteMachine

/-- `after` is `before` or, if that adds in fixed point, a word that adds the same registers in
two's complement. -/
def Word.ReplacesAddf (before after : Word) : Prop :=
  after = before ∨
  opcode before = Kind.opcode .addf ∧ opcode after = Kind.opcode .add ∧
    regA after = regA before ∧ regB after = regB before ∧ regC after = regC before

instance (before after : Word) : Decidable (before.ReplacesAddf after) :=
  inferInstanceAs (Decidable (_ ∨ _))

theorem Store.apply_of_operation {word : Word} {operation : Operation}
    (h : Operation.ofOpcode? (Word.opcode word) = some operation) (verbosity : Verbosity)
    (s : Store) : s.apply verbosity word = operation verbosity word s := by
  simp only [apply, h]

theorem Word.ReplacesAddf.actsAs {before after : Word} (h : before.ReplacesAddf after) :
    after.ActsAs before := by
  intro verbosity s
  rcases h with rfl | ⟨hbefore, hafter, ha, hb, hc⟩
  · exact ⟨rfl, rfl⟩
  · have hbefore : Operation.ofOpcode? (opcode before) = some (Operation.binary Fixed.add) := by
      rw [hbefore]
      rfl
    have hafter : Operation.ofOpcode? (opcode after) = some (Operation.binary Byte.addSigned) := by
      rw [hafter]
      rfl
    rw [Store.apply_of_operation hbefore, Store.apply_of_operation hafter]
    simp only [Operation.binary, Operation.assign, Operation.pureEffect, ha, hb, hc,
      Fixed.add_eq_addSigned, and_self]

/-- Conversion of a pattern to fixed point keeps the whole sixteenths of its exact number, clamped
to 32 bits and cut to eight. A byte is turned into its sixteenths and back, and the sum is that of
the bytes modulo 256, as in two's complement. So a program may add in two's complement where it adds
in fixed point. -/
theorem fixed_point_is_exact :
    (∀ bits, Fixed.ofSingle (.ofBits bits) = UInt8.ofInt (Single.sixteenths bits)) ∧
    (∀ b, let bits := Single.toBits (Fixed.toSingle b)
      Single.ofBits bits = Fixed.toSingle b ∧ Single.exactValue bits = b.toNat / 16 ∧
      Fixed.ofSingle (Fixed.toSingle b) = b) ∧
    (∀ a b, (Fixed.add a b).toNat = (a.toNat + b.toNat) % 256 ∧
      Fixed.add a b = Byte.addSigned a b) ∧
    ∀ words words', List.Forall₂ Word.ReplacesAddf words words' →
      ∀ (verbosity : Verbosity) (m : Machine),
        let original := m.executeAll verbosity words
        let replaced := m.executeAll verbosity words'
        replaced.summary = original.summary ∧
        replaced.machine.registers = original.machine.registers ∧
        replaced.machine.memory = original.machine.memory := by
  refine ⟨Fixed.ofSingle_ofBits, fun b => ⟨Fixed.ofBits_toBits_toSingle b,
    Fixed.exactValue_toSingle b, Fixed.ofSingle_toSingle b⟩,
    fun a b => ⟨?_, Fixed.add_eq_addSigned a b⟩, fun words words' h verbosity m => ?_⟩
  · rw [Fixed.add_eq]
    exact UInt8.toNat_ofNat'
  · have halike : List.Forall₂ Word.ActsAs words' words := (h.imp fun _ _ hw => hw.actsAs).flip
    obtain ⟨hsummary, -, hstore⟩ := Machine.executeAll_of_actsAs halike verbosity m
    exact ⟨hsummary, congrArg Store.registers hstore, congrArg Store.memory hstore⟩

/-- A number below zero is cut toward it and wraps. In the program the first of two additions is
replaced, whose sum wraps too. -/
theorem fixed_point_is_exact_where_sum_wraps :
    let words : List Word := [0x6A12, 0x2105, 0x6B1A]
    let words' : List Word := [0x5A12, 0x2105, 0x6B1A]
    let m := Machine.zero.mapStore fun s => (s.setRegister 1 0xFF).setRegister 2 0x18
    Single.sixteenths 0xBFFEB852 = -31 ∧ Fixed.ofSingle (.ofBits 0xBFFEB852) = 0xE1 ∧
    List.Forall₂ Word.ReplacesAddf words words' ∧
    (m.executeAll none words).machine.registers.read 10 = 0x17 ∧
    (m.executeAll none words').summary = (m.executeAll none words).summary ∧
    (m.executeAll none words').machine.registers = (m.executeAll none words).machine.registers ∧
    (m.executeAll none words').machine.memory = (m.executeAll none words).machine.memory := by
  intro words words' m
  have hsixteenths : Single.sixteenths 0xBFFEB852 = -31 := by decide +kernel
  have hwords : List.Forall₂ Word.ReplacesAddf words words' :=
    .cons (by decide) <| .cons (by decide) <| .cons (by decide) .nil
  have hsum : (m.executeAll none words).machine.registers.read 10 = 0x17 := by decide +kernel
  obtain ⟨hbits, -, -, hrun⟩ := fixed_point_is_exact
  refine ⟨hsixteenths, ?_, hwords, hsum, hrun words words' hwords none m⟩
  rw [hbits, hsixteenths]
  rfl

end ByteMachine

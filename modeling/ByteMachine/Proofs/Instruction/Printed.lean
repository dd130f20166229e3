import ByteMachine.Proofs.Instruction.Encoding
import ByteMachine.Proofs.Instruction.Text
import ByteMachine.Proofs.Token

/-! The printed form of an instruction determines it. The mnemonic ends before the first space and
tells the kind, and with it which operands there are; the operands are found again between the
commas. So words are printed alike exactly if they stand for the same instruction. -/

namespace ByteMachine

/-! ### Mnemonics -/

namespace Kind

def ofMnemonic? (mnemonic : String) : Option Kind := all.find? fun kind => kind.mnemonic == mnemonic

theorem ofMnemonic?_mnemonic (kind : Kind) : ofMnemonic? kind.mnemonic = some kind := by
  cases kind <;> decide

theorem mnemonic_inj {kind other : Kind} (h : kind.mnemonic = other.mnemonic) : kind = other := by
  rw [← Option.some_inj, ← ofMnemonic?_mnemonic, h, ofMnemonic?_mnemonic]

theorem space_notMem_mnemonic (kind : Kind) : ' ' ∉ kind.mnemonic.toList := by
  cases kind <;> decide

end Kind

namespace Instruction

/-! ### Operands -/

theorem toList_register (register : Nat) :
    (s!"%{register}").toList = '%' :: Nat.toDigits 10 register := by simp [toString]

theorem toList_immediate (value : Byte) :
    (s!"$0x{Numeral.byte value}").toList = "$0x".toList ++ (Numeral.byte value).toList := by
  simp [toString]

theorem register_inj {register other : Nat} (h : s!"%{register}" = s!"%{other}") :
    register = other := by
  have hchars := congrArg String.toList h
  rw [toList_register, toList_register] at hchars
  exact Numeral.toDigits_inj (List.cons.inj hchars).2

theorem immediate_inj {value other : Byte}
    (h : s!"$0x{Numeral.byte value}" = s!"$0x{Numeral.byte other}") : value = other := by
  have hchars := congrArg String.toList h
  rw [toList_immediate, toList_immediate] at hchars
  have hbyte := String.toList_inj.1 (List.append_cancel_left hchars)
  exact UInt8.toNat_inj.1 (Numeral.hex_inj hbyte)

theorem comma_notMem_operand {i : Instruction} {operand : String} (h : operand ∈ i.operands) :
    ',' ∉ operand.toList := by
  rw [operands, List.mem_append, List.mem_map, List.mem_map] at h
  rcases h with ⟨register, -, rfl⟩ | ⟨value, -, rfl⟩
  · have hdigits : ',' ∉ Nat.toDigits 10 register := Numeral.notMem_toDigits (by decide) register
    rw [toList_register]
    simp [hdigits]
  · have hbyte : ',' ∉ (Numeral.byte value).toList := Numeral.notMem_hex (by decide) 2 _
    rw [toList_immediate]
    simp [hbyte]

/-! ### Instructions with the operands of their kind -/

/-- The operands that are there are those that the kind uses. -/
def IsExact (i : Instruction) : Prop :=
  ∀ operand, (i.value? operand).isSome = (i.kind.max? operand).isSome

theorem isExact_of_decode {w : Word} {i : Instruction} (h : decode w = .ok i) : i.IsExact := by
  obtain ⟨hencodable, hstripped⟩ := encodable_of_decode h
  intro operand
  cases hmax : i.kind.max? operand with
  | none => rw [← hstripped, value?_stripped, hmax]; rfl
  | some max => rw [value?_of_encodable hencodable hmax]; rfl

/-- Which operands are there is the same for both. -/
def SameOperands (i j : Instruction) : Prop :=
  ∀ operand, (i.value? operand).isSome = (j.value? operand).isSome

theorem sameOperands_of_kind_eq {i j : Instruction} (hi : i.IsExact) (hj : j.IsExact)
    (h : i.kind = j.kind) : i.SameOperands j := by
  intro operand
  rw [hi, hj, h]

theorem SameOperands.lengths {i j : Instruction} (h : i.SameOperands j) :
    i.a.toList.length = j.a.toList.length ∧ i.b.toList.length = j.b.toList.length ∧
      i.c.toList.length = j.c.toList.length ∧
      i.immediate.toList.length = j.immediate.toList.length := by
  have ha := h .a
  have hb := h .b
  have hc := h .c
  have himmediate := h .immediate
  simp only [value?, Option.isSome_map] at ha hb hc himmediate
  simp only [Option.length_toList, ha, hb, hc, himmediate, and_self]

theorem SameOperands.length_eq {i j : Instruction} (h : i.SameOperands j) :
    i.operands.length = j.operands.length := by
  obtain ⟨ha, hb, hc, himmediate⟩ := h.lengths
  simp only [operands, List.length_append, List.length_map, ha, hb, hc, himmediate]

/-- The registers stand before the immediate, each in its turn. -/
theorem SameOperands.eq {i j : Instruction} (h : i.SameOperands j) (hkind : i.kind = j.kind)
    (hoperands : i.operands = j.operands) : i = j := by
  obtain ⟨ha, hb, hc, -⟩ := h.lengths
  obtain ⟨hregisters, himmediate⟩ := List.append_inj hoperands (by simp [ha, hb, hc])
  have hregisters := (List.map_inj_right fun _ _ => register_inj).1 hregisters
  have himmediate := (List.map_inj_right fun _ _ => immediate_inj).1 himmediate
  obtain ⟨hregisters, hc⟩ := List.append_inj hregisters (by simp [ha, hb])
  obtain ⟨ha, hb⟩ := List.append_inj hregisters ha
  have hoption {α : Type} {x y : Option α} (hxy : x.toList = y.toList) : x = y := by
    simpa using congrArg List.head? hxy
  obtain ⟨kind, a, b, c, immediate⟩ := i
  obtain ⟨kind', a', b', c', immediate'⟩ := j
  obtain rfl : kind = kind' := hkind
  obtain rfl : a = a' := hoption ha
  obtain rfl : b = b' := hoption hb
  obtain rfl : c = c' := hoption hc
  obtain rfl : immediate = immediate' := hoption himmediate
  rfl

/-! ### Texts -/

theorem toList_text_of_operands {i : Instruction} (h : i.operands ≠ []) :
    i.text.toList =
      i.kind.mnemonic.toList ++ ' ' :: (", ".intercalate i.operands).toList := by
  rw [text, if_neg (by simpa using h)]
  simp

/-- With a space after it the text has one after the mnemonic. -/
theorem exists_text_append_space (i : Instruction) :
    ∃ rest, i.text.toList ++ [' '] = i.kind.mnemonic.toList ++ ' ' :: rest := by
  by_cases h : i.operands = []
  · exact ⟨[], by rw [text, if_pos (by simp [h])]⟩
  · refine ⟨(", ".intercalate i.operands).toList ++ [' '], ?_⟩
    rw [toList_text_of_operands h, List.append_assoc, List.cons_append]

theorem kind_eq_of_text_eq {i j : Instruction} (h : i.text = j.text) : i.kind = j.kind := by
  obtain ⟨rest, hi⟩ := i.exists_text_append_space
  obtain ⟨rest', hj⟩ := j.exists_text_append_space
  rw [h, hj] at hi
  obtain ⟨hmnemonic, -⟩ := Text.eq_of_first_mark j.kind.space_notMem_mnemonic
    i.kind.space_notMem_mnemonic hi
  exact (Kind.mnemonic_inj (String.toList_inj.1 hmnemonic)).symm

theorem operands_eq_of_text_eq {i j : Instruction} (hthere : i.SameOperands j)
    (h : i.text = j.text) : i.operands = j.operands := by
  have hlength := hthere.length_eq
  by_cases hi : i.operands = []
  · rw [hi] at hlength ⊢
    exact (List.length_eq_zero_iff.1 hlength.symm).symm
  · have hj : j.operands ≠ [] := by
      rw [← List.length_pos_iff, ← hlength]
      exact List.length_pos_iff.2 hi
    have hchars := congrArg String.toList h
    rw [toList_text_of_operands hi, toList_text_of_operands hj, kind_eq_of_text_eq h] at hchars
    have hjoined := (List.cons.inj (List.append_cancel_left hchars)).2
    have hseparator : ", ".toList = ',' :: [' '] := rfl
    exact Text.intercalate_inj hseparator hlength (fun _ => comma_notMem_operand)
      (fun _ => comma_notMem_operand) (String.toList_inj.1 hjoined)

theorem text_inj {i j : Instruction} (hi : i.IsExact) (hj : j.IsExact) (h : i.text = j.text) :
    i = j := by
  have hkind := kind_eq_of_text_eq h
  have hthere := sameOperands_of_kind_eq hi hj hkind
  exact hthere.eq hkind (operands_eq_of_text_eq hthere h)

/-- Instructions with exactly the operands of their kind are equal if their texts are. So words with
assigned opcodes are printed alike exactly if they stand for the same instruction, and exactly if
their instructions are assembled to the same word. -/
theorem text_determines_instruction :
    (∀ i j : Instruction, i.IsExact → j.IsExact → i.text = j.text → i = j) ∧
    ∀ w w' : Word, Word.opcode w < 14 → Word.opcode w' < 14 →
      ∃ i j, decode w = .ok i ∧ decode w' = .ok j ∧ (i.text = j.text ↔ i = j) ∧
        ∃ again again', encode i = .ok again ∧ encode j = .ok again' ∧
          (i = j ↔ again = again') := by
  refine ⟨fun i j => text_inj, fun w w' hw hw' => ?_⟩
  obtain ⟨i, hi⟩ := exists_decode hw
  obtain ⟨j, hj⟩ := exists_decode hw'
  obtain ⟨again, hencode, hdecode⟩ := exists_reassembled hi
  obtain ⟨again', hencode', hdecode'⟩ := exists_reassembled hj
  have htext : i.text = j.text ↔ i = j :=
    ⟨text_inj (isExact_of_decode hi) (isExact_of_decode hj), congrArg text⟩
  refine ⟨i, j, hi, hj, htext, again, again', hencode, hencode', ?_, ?_⟩
  · rintro rfl
    exact Except.ok.inj (hencode.symm.trans hencode')
  · rintro rfl
    exact Except.ok.inj (hdecode.symm.trans hdecode')

/-- Two words for a copy that differ in bits which it does not use are printed alike, and copies of
registers that no word holds are told apart. -/
theorem text_determines_copies :
    let copy (a c : Nat) : Instruction := ⟨.cpy, some a, none, some c, none⟩
    decode 0x4A7B = .ok (ofFields .cpy 0x4A7B) ∧ decode 0x4A0B = .ok (copy 10 11) ∧
    ofFields .cpy 0x4A7B = copy 10 11 ∧
    (copy 1 23).text ≠ (copy 12 3).text ∧
    ∃ again again', encode (ofFields .cpy 0x4A7B) = .ok again ∧
      encode (copy 10 11) = .ok again' ∧ again = again' := by
  intro copy
  have hexact (a c : Nat) : (copy a c).IsExact := by
    intro operand
    cases operand <;> rfl
  have hfirst : decode 0x4A7B = .ok (ofFields .cpy 0x4A7B) := rfl
  have hsecond : decode 0x4A0B = .ok (copy 10 11) := rfl
  obtain ⟨hinj, hwords⟩ := text_determines_instruction
  have hsame : ofFields .cpy 0x4A7B = copy 10 11 :=
    hinj _ _ (isExact_of_decode hfirst) (hexact 10 11) (by decide)
  have hapart : (copy 1 23).text ≠ (copy 12 3).text := fun h =>
    absurd (hinj _ _ (hexact 1 23) (hexact 12 3) h) (by decide)
  obtain ⟨i, j, hi, hj, -, again, again', hencode, hencode', hwords⟩ :=
    hwords 0x4A7B 0x4A0B (by decide) (by decide)
  cases hfirst.symm.trans hi
  cases hsecond.symm.trans hj
  exact ⟨hfirst, hsecond, hsame, hapart, again, again', hencode, hencode', hwords.1 hsame⟩

end Instruction

end ByteMachine

import ByteMachine.Instruction.Encoding
import Mathlib.Data.List.Forall2

/-! Encoding and decoding undo each other. Encoding looks at the operands one by one: an operand is
at fault if the kind uses it and it is missing or too large for its field. Without a fault there is
a word, and each field of it holds its operand and nothing of another one, so the word decodes to
the instruction without the operands that its kind does not use. A list fails with its first
instruction that has no word. -/

namespace ByteMachine

/-- The operands, in the order in which encoding takes them. -/
inductive Operand
  | a | b | c | immediate
  deriving DecidableEq

namespace Operand

def all : List Operand := [.a, .b, .c, .immediate]

/-- What is wrong if the operand is not there. -/
def missing : Operand → EncodeError
  | .a => .missingRegister 'A'
  | .b => .missingRegister 'B'
  | .c => .missingRegister 'C'
  | .immediate => .missingImmediate

/-- What is wrong if the operand exceeds `max`. -/
def tooLarge (value max : Nat) : Operand → EncodeError
  | .a | .b | .c => .registerOutOfRange value
  | .immediate => .immediateOutOfRange (UInt8.ofNat value) max

end Operand

/-- The largest value of the operand that the kind encodes, if it uses it. -/
def Kind.max? (kind : Kind) : Operand → Option Nat
  | .a => if kind.usesA then some 15 else none
  | .b => if kind.usesB then some 15 else none
  | .c => if kind.usesC then some 15 else none
  | .immediate => kind.immediateMax

namespace Instruction

/-- The operand's number, if it is there. -/
def value? (i : Instruction) : Operand → Option Nat
  | .a => i.a
  | .b => i.b
  | .c => i.c
  | .immediate => i.immediate.map UInt8.toNat

/-- Every operand that the kind uses is there and fits. -/
def Encodable (i : Instruction) : Prop :=
  ∀ operand max, i.kind.max? operand = some max →
    ∃ value, i.value? operand = some value ∧ value ≤ max

/-- What keeps the operand from being encoded. -/
def fault? (i : Instruction) (operand : Operand) : Option EncodeError :=
  match i.kind.max? operand with
  | none => none
  | some max =>
    match i.value? operand with
    | none => some operand.missing
    | some value => if value ≤ max then none else some (operand.tooLarge value max)

/-- The first fault in the order of the operands. -/
def firstFault? (i : Instruction) : Option EncodeError := Operand.all.findSome? i.fault?

/-- The number that encoding puts in the operand's field. -/
def fieldValue (i : Instruction) (operand : Operand) : Nat :=
  match i.kind.max? operand with
  | none => 0
  | some _ => (i.value? operand).getD 0

/-! ### Faults -/

theorem fault?_eq_none_iff {i : Instruction} {operand : Operand} :
    i.fault? operand = none ↔ ∀ max, i.kind.max? operand = some max →
      ∃ value, i.value? operand = some value ∧ value ≤ max := by
  unfold fault?
  cases i.kind.max? operand with
  | none => simp
  | some max =>
    cases i.value? operand with
    | none => simp
    | some value => simp

theorem firstFault?_eq_none_iff {i : Instruction} : i.firstFault? = none ↔ i.Encodable := by
  rw [firstFault?, List.findSome?_eq_none_iff]
  have hall : ∀ operand, operand ∈ Operand.all := by
    intro operand
    cases operand <;> decide
  constructor
  · intro h operand
    exact fault?_eq_none_iff.1 (h operand (hall operand))
  · intro h operand _
    exact fault?_eq_none_iff.2 (h operand)

/-! ### The outcome of encoding -/

/-- The field of an operand, by its fault. -/
def field (i : Instruction) (operand : Operand) : Except EncodeError Nat :=
  match i.fault? operand with
  | none => .ok (i.fieldValue operand)
  | some e => .error e

theorem registerField_eq {used : Bool} {register : Option Nat} {name : Char} {i : Instruction}
    {operand : Operand} (hmax : i.kind.max? operand = if used then some 15 else none)
    (hvalue : i.value? operand = register) (hmissing : operand.missing = .missingRegister name)
    (hlarge : ∀ r, operand.tooLarge r 15 = .registerOutOfRange r) :
    registerField used register name = i.field operand := by
  unfold registerField field fault? fieldValue
  rw [hmax, hvalue, hmissing]
  cases used with
  | false => rfl
  | true =>
    cases register with
    | none => rfl
    | some r =>
      by_cases hr : r < 16
      · simp [hr, Nat.le_of_lt_succ hr]
      · simp [hr, hlarge, show ¬ r ≤ 15 by omega]

theorem immediateField_eq (i : Instruction) :
    immediateField i.kind.immediateMax i.immediate = i.field .immediate := by
  unfold immediateField field fault? fieldValue
  simp only [Kind.max?, value?]
  cases i.kind.immediateMax with
  | none => rfl
  | some max =>
    cases i.immediate with
    | none => rfl
    | some value =>
      by_cases hv : value.toNat ≤ max
      · simp [hv]
      · simp [hv, Operand.tooLarge]

theorem encode_eq_fields (i : Instruction) :
    encode i = (do
      let a ← i.field .a
      let b ← i.field .b
      let c ← i.field .c
      let immediate ← i.field .immediate
      return Word.ofFields i.kind.opcode a b c immediate) := by
  have ha : registerField i.kind.usesA i.a 'A' = i.field .a :=
    registerField_eq rfl rfl rfl fun _ => rfl
  have hb : registerField i.kind.usesB i.b 'B' = i.field .b :=
    registerField_eq rfl rfl rfl fun _ => rfl
  have hc : registerField i.kind.usesC i.c 'C' = i.field .c :=
    registerField_eq rfl rfl rfl fun _ => rfl
  rw [encode, ha, hb, hc, immediateField_eq]

/-- The word of an instruction without a fault. -/
def word (i : Instruction) : Word :=
  Word.ofFields i.kind.opcode (i.fieldValue .a) (i.fieldValue .b) (i.fieldValue .c)
    (i.fieldValue .immediate)

theorem encode_eq (i : Instruction) :
    encode i = match i.firstFault? with
      | none => .ok i.word
      | some e => .error e := by
  rw [encode_eq_fields, firstFault?, Operand.all]
  unfold field
  simp only [List.findSome?_cons, List.findSome?_nil]
  cases i.fault? .a with
  | some e => rfl
  | none =>
    cases i.fault? .b with
    | some e => rfl
    | none =>
      cases i.fault? .c with
      | some e => rfl
      | none =>
        cases i.fault? .immediate with
        | some e => rfl
        | none => rfl

theorem encode_of_encodable {i : Instruction} (h : i.Encodable) : encode i = .ok i.word := by
  rw [encode_eq, firstFault?_eq_none_iff.2 h]

theorem encode_eq_error_iff {i : Instruction} {e : EncodeError} :
    encode i = .error e ↔ i.firstFault? = some e := by
  rw [encode_eq]
  cases i.firstFault? with
  | none => simp
  | some e' => simp

theorem encodable_of_encode {i : Instruction} {w : Word} (h : encode i = .ok w) :
    i.Encodable := by
  rw [← firstFault?_eq_none_iff]
  cases hf : i.firstFault? with
  | none => rfl
  | some e =>
    rw [encode_eq_error_iff.2 hf] at h
    cases h

/-! ### Decoding the word -/

theorem value?_of_encodable {i : Instruction} (h : i.Encodable) {operand : Operand} {max : Nat}
    (hmax : i.kind.max? operand = some max) :
    i.value? operand = some (i.fieldValue operand) := by
  obtain ⟨value, hvalue, -⟩ := h operand max hmax
  rw [fieldValue, hmax, hvalue]
  rfl

theorem fieldValue_le {i : Instruction} (h : i.Encodable) (operand : Operand) :
    i.fieldValue operand ≤ (i.kind.max? operand).getD 0 := by
  cases hmax : i.kind.max? operand with
  | none => simp [fieldValue, hmax]
  | some max =>
    obtain ⟨value, hvalue, hle⟩ := h operand max hmax
    simpa [fieldValue, hmax, hvalue] using hle

/-- An operand never reaches into the field of another one. -/
theorem fields_fit {i : Instruction} (h : i.Encodable) :
    i.fieldValue .a < 16 ∧ i.fieldValue .b < 16 ∧
      i.fieldValue .b * 16 + i.fieldValue .c + i.fieldValue .immediate < 256 ∧
      (i.kind.format ≠ .regImm → i.fieldValue .c + i.fieldValue .immediate < 16) := by
  have ha := fieldValue_le h .a
  have hb := fieldValue_le h .b
  have hc := fieldValue_le h .c
  have himmediate := fieldValue_le h .immediate
  simp only [Kind.max?, Kind.usesA, Kind.usesB, Kind.usesC, Kind.immediateMax] at *
  cases hf : i.kind.format <;> simp [hf] at * <;> omega

theorem decode_word {i : Instruction} (h : i.Encodable) :
    decode i.word = .ok (ofFields i.kind i.word) := by
  obtain ⟨ha, -, hlow, -⟩ := fields_fit h
  have hop : i.kind.opcode < 16 := Nat.lt_trans i.kind.opcode_lt (by decide)
  rw [decode, word, Word.opcode_ofFields hop ha hlow, Kind.ofOpcode?_opcode]

/-- Instructions are equal if their kinds and the numbers of their operands are. -/
theorem ext_value? {i j : Instruction} (hkind : i.kind = j.kind)
    (h : ∀ operand, i.value? operand = j.value? operand) : i = j := by
  obtain ⟨kind, a, b, c, immediate⟩ := i
  obtain ⟨kind', a', b', c', immediate'⟩ := j
  obtain rfl : kind = kind' := hkind
  obtain rfl : a = a' := h .a
  obtain rfl : b = b' := h .b
  obtain rfl : c = c' := h .c
  obtain rfl : immediate = immediate' :=
    Option.map_injective (fun _ _ => UInt8.toNat_inj.1) (h .immediate)
  rfl

theorem value?_stripped (i : Instruction) (operand : Operand) :
    i.stripped.value? operand =
      if (i.kind.max? operand).isSome then i.value? operand else none := by
  cases operand with
  | a => cases hused : i.kind.usesA <;> simp [stripped, value?, Kind.max?, hused]
  | b => cases hused : i.kind.usesB <;> simp [stripped, value?, Kind.max?, hused]
  | c => cases hused : i.kind.usesC <;> simp [stripped, value?, Kind.max?, hused]
  | immediate => cases hmax : i.kind.immediateMax <;> simp [stripped, value?, Kind.max?, hmax]

/-- Each field of the word holds its operand. -/
theorem value?_ofFields_word {i : Instruction} (h : i.Encodable) (operand : Operand) :
    (ofFields i.kind i.word).value? operand =
      if (i.kind.max? operand).isSome then some (i.fieldValue operand) else none := by
  obtain ⟨ha, hb, hlow, hc⟩ := fields_fit h
  have hop : i.kind.opcode < 16 := Nat.lt_trans i.kind.opcode_lt (by decide)
  have hregA : Word.regA i.word = i.fieldValue .a := Word.regA_ofFields hop ha hlow
  have hregB (hf : i.kind.format ≠ .regImm) : Word.regB i.word = i.fieldValue .b :=
    Word.regB_ofFields hop ha hb (hc hf)
  have hregC (hf : i.kind.format ≠ .regImm) :
      Word.regC i.word = i.fieldValue .c + i.fieldValue .immediate :=
    Word.regC_ofFields hop ha hb (hc hf)
  have himmediate : (Word.immediate i.word).toNat =
      i.fieldValue .b * 16 + i.fieldValue .c + i.fieldValue .immediate :=
    Word.toNat_immediate_ofFields hop ha hlow
  have hzero {operand : Operand} (hmax : i.kind.max? operand = none) :
      i.fieldValue operand = 0 := by
    rw [fieldValue, hmax]
  cases operand with
  | a => cases hused : i.kind.usesA <;> simp [ofFields, value?, Kind.max?, hused, hregA]
  | b =>
    cases hused : i.kind.usesB with
    | false => simp [ofFields, value?, Kind.max?, hused]
    | true =>
      have hf : i.kind.format ≠ .regImm := fun hf => by simp [Kind.usesB, hf] at hused
      simp [ofFields, value?, Kind.max?, hused, hregB hf]
  | c =>
    cases hused : i.kind.usesC with
    | false => simp [ofFields, value?, Kind.max?, hused]
    | true =>
      have hf : i.kind.format ≠ .regImm := fun hf => by simp [Kind.usesC, hf] at hused
      have hnone : i.kind.max? .immediate = none := by
        cases hformat : i.kind.format <;>
          simp_all [Kind.usesC, Kind.max?, Kind.immediateMax]
      simp [ofFields, value?, Kind.max?, hused, hregC hf, hzero hnone]
  | immediate =>
    have hunused (hf : i.kind.format = .regImm ∨ i.kind.format = .regCount) :
        i.fieldValue .b = 0 ∧ i.fieldValue .c = 0 := by
      rcases hf with hf | hf <;>
        exact ⟨hzero (by simp [Kind.max?, Kind.usesB, hf]),
          hzero (by simp [Kind.max?, Kind.usesC, hf])⟩
    cases hf : i.kind.format with
    | regImm =>
      obtain ⟨hb0, hc0⟩ := hunused (.inl hf)
      simp [ofFields, value?, Kind.max?, Kind.immediateMax, immediateOfWord, hf, himmediate, hb0,
        hc0]
    | regCount =>
      obtain ⟨-, hc0⟩ := hunused (.inr hf)
      have hlt : i.fieldValue .immediate < 16 := by
        have := hc (by simp [hf])
        omega
      simp [ofFields, value?, Kind.max?, Kind.immediateMax, immediateOfWord, hf, hregC, hc0,
        Nat.mod_eq_of_lt (show i.fieldValue .immediate < 256 by omega)]
    | bare => simp [ofFields, value?, Kind.max?, Kind.immediateMax, immediateOfWord, hf]
    | regReg => simp [ofFields, value?, Kind.max?, Kind.immediateMax, immediateOfWord, hf]
    | regRegReg => simp [ofFields, value?, Kind.max?, Kind.immediateMax, immediateOfWord, hf]

theorem ofFields_word {i : Instruction} (h : i.Encodable) :
    ofFields i.kind i.word = i.stripped := by
  refine ext_value? rfl fun operand => ?_
  rw [value?_ofFields_word h, value?_stripped]
  split
  · rename_i hused
    obtain ⟨max, hmax⟩ := Option.isSome_iff_exists.1 hused
    exact (value?_of_encodable h hmax).symm
  · rfl

/-! ### Lists -/

theorem encodeAll_cons (i : Instruction) (is : List Instruction) :
    encodeAll (i :: is) = (do
      let w ← encode i
      let ws ← encodeAll is
      return w :: ws) :=
  List.mapM_cons

theorem encodeAll_eq_ok_iff {is : List Instruction} {ws : List Word} :
    encodeAll is = .ok ws ↔ List.Forall₂ (fun i w => encode i = .ok w) is ws := by
  induction is generalizing ws with
  | nil => cases ws <;> simp [encodeAll, pure, Except.pure]
  | cons i is ih =>
    rw [encodeAll_cons]
    cases hi : encode i with
    | error e => cases ws <;> simp [bind, Except.bind, hi]
    | ok w =>
      cases his : encodeAll is with
      | error e => cases ws <;> simp [bind, Except.bind, ← ih, hi, his]
      | ok ws' => cases ws <;> simp [bind, Except.bind, pure, Except.pure, ← ih, hi, his]

theorem encodeAll_eq_error_iff {is : List Instruction} {e : EncodeError} :
    encodeAll is = .error e ↔ ∃ before i after, is = before ++ i :: after ∧
      (∀ j ∈ before, j.Encodable) ∧ encode i = .error e := by
  constructor
  · intro h
    induction is with
    | nil => cases h
    | cons i is ih =>
      rw [encodeAll_cons] at h
      cases hi : encode i with
      | error e' =>
        rw [hi] at h
        cases h
        exact ⟨[], i, is, rfl, by simp, hi⟩
      | ok w =>
        have his : encodeAll is = .error e := by
          cases hrest : encodeAll is with
          | error e' =>
            rw [hi, hrest] at h
            cases h
            rfl
          | ok ws =>
            rw [hi, hrest] at h
            cases h
        obtain ⟨before, j, after, rfl, hbefore, hj⟩ := ih his
        refine ⟨i :: before, j, after, rfl, ?_, hj⟩
        simpa [encodable_of_encode hi] using hbefore
  · rintro ⟨before, i, after, rfl, hbefore, hi⟩
    induction before with
    | nil =>
      rw [List.nil_append, encodeAll_cons, hi]
      rfl
    | cons j before ih =>
      have hj := encode_of_encodable (hbefore j List.mem_cons_self)
      have hrest := ih fun k hk => hbefore k (List.mem_cons_of_mem _ hk)
      rw [List.cons_append, encodeAll_cons, hj, hrest]
      rfl

/-! ### The round trip -/

theorem decode_of_encode {i : Instruction} {w : Word} (h : encode i = .ok w) :
    decode w = .ok i.stripped := by
  have hencodable := encodable_of_encode h
  rw [encode_of_encodable hencodable] at h
  cases h
  rw [decode_word hencodable, ofFields_word hencodable]

/-- Operands that the kind does not use have no part in the word. -/
theorem encode_stripped (i : Instruction) : encode i.stripped = encode i := by
  obtain ⟨kind, a, b, c, immediate⟩ := i
  cases kind <;> rfl

theorem encodeAll_stripped (is : List Instruction) :
    encodeAll (is.map stripped) = encodeAll is := by
  induction is with
  | nil => rfl
  | cons i is ih => rw [List.map_cons, encodeAll_cons, encodeAll_cons, encode_stripped, ih]

/-! ### Decoded instructions -/

theorem decode_eq_ok_iff {w : Word} {i : Instruction} :
    decode w = .ok i ↔ Kind.ofOpcode? (Word.opcode w) = some i.kind ∧ i = ofFields i.kind w := by
  unfold decode
  cases Kind.ofOpcode? (Word.opcode w) with
  | none => simp
  | some kind =>
    constructor
    · intro h
      cases h
      exact ⟨rfl, rfl⟩
    · rintro ⟨hkind, hi⟩
      cases hkind
      exact congrArg Except.ok hi.symm

theorem exists_decode {w : Word} (h : Word.opcode w < 14) : ∃ i, decode w = .ok i := by
  have hkind : Kind.ofOpcode? (Word.opcode w) = some Kind.all[Word.opcode w] :=
    List.getElem?_eq_getElem (l := Kind.all) h
  exact ⟨_, by rw [decode, hkind]⟩

theorem stripped_ofFields (kind : Kind) (w : Word) :
    (ofFields kind w).stripped = ofFields kind w := by
  cases kind <;> rfl

/-- Every field of a word fits itself. -/
theorem encodable_ofFields (kind : Kind) (w : Word) : (ofFields kind w).Encodable := by
  intro operand max hmax
  replace hmax : kind.max? operand = some max := hmax
  cases operand with
  | a =>
    cases hused : kind.usesA <;> simp only [Kind.max?, hused] at hmax <;> cases hmax
    exact ⟨Word.regA w, by simp [value?, ofFields, hused], Nat.le_of_lt_succ (Word.regA_lt w)⟩
  | b =>
    cases hused : kind.usesB <;> simp only [Kind.max?, hused] at hmax <;> cases hmax
    exact ⟨Word.regB w, by simp [value?, ofFields, hused], Nat.le_of_lt_succ (Word.regB_lt w)⟩
  | c =>
    cases hused : kind.usesC <;> simp only [Kind.max?, hused] at hmax <;> cases hmax
    exact ⟨Word.regC w, by simp [value?, ofFields, hused], Nat.le_of_lt_succ (Word.regC_lt w)⟩
  | immediate =>
    simp only [Kind.max?, Kind.immediateMax] at hmax
    cases hf : kind.format <;> simp only [hf] at hmax <;> cases hmax
    · exact ⟨_, by simp [value?, ofFields, immediateOfWord, hf],
        Nat.le_of_lt_succ (Word.immediate w).toNat_lt⟩
    · have hlt := Word.regC_lt w
      refine ⟨Word.regC w, ?_, Nat.le_of_lt_succ hlt⟩
      simp [value?, ofFields, immediateOfWord, hf,
        Nat.mod_eq_of_lt (show Word.regC w < 256 by omega)]

/-- A word holds every operand that its kind uses, and no other. -/
theorem encodable_of_decode {w : Word} {i : Instruction} (h : decode w = .ok i) :
    i.Encodable ∧ i.stripped = i := by
  obtain ⟨-, hi⟩ := decode_eq_ok_iff.1 h
  rw [hi]
  exact ⟨encodable_ofFields _ _, stripped_ofFields _ _⟩

/-- Assembling what a word stands for gives a word that stands for the same. -/
theorem exists_reassembled {w : Word} {i : Instruction} (h : decode w = .ok i) :
    ∃ again, encode i = .ok again ∧ decode again = .ok i := by
  obtain ⟨hencodable, hstripped⟩ := encodable_of_decode h
  have hencode := encode_of_encodable hencodable
  exact ⟨i.word, hencode, (decode_of_encode hencode).trans (by rw [hstripped])⟩

/-- Decoding undoes encoding, which fails on the first operand that has no field. -/
theorem decode_undoes_encode :
    (∀ i : Instruction,
      ((∃ w, encode i = .ok w) ↔ i.Encodable) ∧
      (∀ w, encode i = .ok w → decode w = .ok i.stripped) ∧
      ∀ e, encode i = .error e ↔
        ∃ before operand after, Operand.all = before ++ operand :: after ∧
          i.fault? operand = some e ∧ ∀ earlier ∈ before, i.fault? earlier = none) ∧
    ∀ is : List Instruction,
      (∀ ws, encodeAll is = .ok ws ↔ List.Forall₂ (fun i w => encode i = .ok w) is ws) ∧
      ∀ e, encodeAll is = .error e ↔ ∃ before i after, is = before ++ i :: after ∧
        (∀ j ∈ before, j.Encodable) ∧ encode i = .error e := by
  refine ⟨fun i => ⟨⟨?_, ?_⟩, fun w => decode_of_encode, fun e => ?_⟩,
    fun is => ⟨fun ws => encodeAll_eq_ok_iff, fun e => encodeAll_eq_error_iff⟩⟩
  · rintro ⟨w, h⟩
    exact encodable_of_encode h
  · intro h
    exact ⟨i.word, encode_of_encodable h⟩
  · rw [encode_eq_error_iff, firstFault?, List.findSome?_eq_some_iff]

/-- An operand that is not used does not matter, however large, and the error is that of `B`,
before the missing `C` and before the next instruction. -/
theorem decode_undoes_encode_stray_operand :
    let ror : Instruction := ⟨.ror, some 3, some 99, none, some 15⟩
    let add : Instruction := ⟨.add, some 1, some 16, none, none⟩
    encode ror = .ok 0xA30F ∧
    decode 0xA30F = .ok ⟨.ror, some 3, none, none, some 15⟩ ∧
    encode add = .error (.registerOutOfRange 16) ∧
    encodeAll [ror, add, ⟨.jgt, none, none, none, none⟩] = .error (.registerOutOfRange 16) := by
  intro ror add
  obtain ⟨hone, hlist⟩ := decode_undoes_encode
  have hror : encode ror = .ok 0xA30F := by decide
  have hadd : encode add = .error (.registerOutOfRange 16) :=
    ((hone add).2.2 _).2 ⟨[.a], .b, [.c, .immediate], rfl, rfl, by decide⟩
  refine ⟨hror, (hone ror).2.1 _ hror, hadd, ((hlist _).2 _).2 ⟨[ror], add, _, rfl, ?_, hadd⟩⟩
  simpa using (hone ror).1.1 ⟨_, hror⟩

end Instruction

end ByteMachine

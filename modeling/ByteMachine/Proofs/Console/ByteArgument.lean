import ByteMachine.Proofs.Console.ArgumentNumbers
import ByteMachine.Proofs.Text.Positional

/-! Bytes as arguments. A byte is meant to be written as hexadecimal digits with one mark or none in
front of them. Of the texts without a second mark and a plus sign exactly those are taken. But marks
are dropped as often as they stand in front, and a plus sign may follow them. -/

namespace ByteMachine.Console.Arguments

/-- Hexadecimal marks, one after the other. -/
def marks (count : Nat) : List Char := (List.replicate count ['0', 'x']).flatten

/-- The characters are hexadecimal digits, one at least, with the value of the byte. -/
structure DigitsOf (byte : Byte) (digits : List Char) : Prop where
  ne_nil : digits ≠ []
  isHexDigit : ∀ c ∈ digits, Numeral.IsHexDigit c
  value_eq : Numeral.value 16 digits = byte.toNat

/-! ### Marks -/

theorem marks_succ (count : Nat) : marks (count + 1) = '0' :: 'x' :: marks count := rfl

theorem exists_marks (cs : List Char) : ∃ count, cs = marks count ++ dropMarks cs := by
  fun_induction dropMarks cs with
  | case1 rest ih =>
    obtain ⟨count, hrest⟩ := ih
    refine ⟨count + 1, ?_⟩
    rw [marks_succ, List.cons_append, List.cons_append, ← hrest]
  | case2 cs hcs => exact ⟨0, rfl⟩

theorem dropMarks_marks_append (count : Nat) (cs : List Char) :
    dropMarks (marks count ++ cs) = dropMarks cs := by
  induction count with
  | zero => rfl
  | succ count ih =>
    rw [marks_succ, List.cons_append, List.cons_append, dropMarks]
    exact ih

theorem dropMarks_of_notMem {cs : List Char} (h : 'x' ∉ cs) : dropMarks cs = cs := by
  rw [dropMarks]
  rintro rest rfl
  exact h (by simp)

/-! ### The form of a byte -/

theorem DigitsOf.notMem {byte : Byte} {digits : List Char} (h : DigitsOf byte digits) {c : Char}
    (hc : ¬ Numeral.IsHexDigit c) : c ∉ digits := fun hmem => hc (h.isHexDigit c hmem)

/-- Any marks are taken, and a plus sign after them. -/
theorem byteForm_eq_ok_iff {arg : String} {byte : Byte} :
    byteForm arg = .ok byte ↔
      ∃ count sign digits, arg.toList = marks count ++ sign ++ digits ∧
        (sign = [] ∨ sign = ['+']) ∧ DigitsOf byte digits := by
  have hleast : 0 ≤ Text.IntegerRange.byte.least := le_refl 0
  have hgreatest : 0 ≤ Text.IntegerRange.byte.greatest := by decide
  have hradix : 16 ≤ 36 := by decide
  rw [byteForm]
  constructor
  · intro h
    cases hn : Text.IntegerRange.byte.read 16 (dropMarks arg.toList) with
    | error e =>
      rw [hn] at h
      cases h
    | ok n =>
      rw [hn] at h
      have hbyte : UInt8.ofNat n.toNat = byte := Except.ok.inj h
      obtain ⟨sign, digits, hcs, hsign, hne, hdigits, rfl, hle⟩ :=
        (Text.IntegerRange.read_eq_ok_iff hleast hgreatest hradix).1 hn
      have hlt : Numeral.value 16 digits < 256 := by
        have hle : (Numeral.value 16 digits : Int) ≤ 255 := hle
        omega
      obtain ⟨count, harg⟩ := exists_marks arg.toList
      refine ⟨count, sign, digits, ?_, hsign, hne, fun c hc => ?_, ?_⟩
      · rw [List.append_assoc, ← hcs]
        exact harg
      · exact Numeral.isSome_digit?_iff.1 (hdigits c hc)
      · rw [← hbyte, Int.toNat_natCast, UInt8.toNat_ofNat_of_lt' hlt]
  · rintro ⟨count, sign, digits, harg, hsign, hdigits⟩
    have hnotMem : 'x' ∉ sign ++ digits := by
      rw [List.mem_append]
      rintro (hmem | hmem)
      · rcases hsign with rfl | rfl <;> simp at hmem
      · exact hdigits.notMem (by decide) hmem
    have hle : (Numeral.value 16 digits : Int) ≤ 255 := by
      have hbyte := byte.toNat_lt
      rw [hdigits.value_eq]
      omega
    have hcs : dropMarks arg.toList = sign ++ digits := by
      rw [harg, List.append_assoc, dropMarks_marks_append, dropMarks_of_notMem hnotMem]
    have hread := (Text.IntegerRange.read_eq_ok_iff hleast hgreatest hradix).2
      ⟨sign, digits, hcs, hsign, hdigits.ne_nil,
        fun c hc => Numeral.isSome_digit?_iff.2 (hdigits.isHexDigit c hc), rfl, hle⟩
    rw [hread, hdigits.value_eq]
    exact congrArg Except.ok UInt8.ofNat_toNat

/-- Without a second mark and a plus sign a byte is digits after one mark or none. -/
theorem byteForm_eq_ok_iff_of_plain {arg : String} {byte : Byte}
    (hmarks : ¬ marks 2 <+: arg.toList) (hplus : '+' ∉ arg.toList) :
    byteForm arg = .ok byte ↔
      ∃ digits, (arg.toList = digits ∨ arg.toList = marks 1 ++ digits) ∧ DigitsOf byte digits := by
  rw [byteForm_eq_ok_iff]
  constructor
  · rintro ⟨count, sign, digits, harg, rfl | rfl, hdigits⟩
    · rw [List.append_nil] at harg
      match count with
      | 0 => exact ⟨digits, .inl harg, hdigits⟩
      | 1 => exact ⟨digits, .inr harg, hdigits⟩
      | count + 2 =>
        refine absurd ⟨marks count ++ digits, ?_⟩ hmarks
        rw [harg, ← List.append_assoc]
        rfl
    · refine absurd ?_ hplus
      rw [harg]
      simp
  · rintro ⟨digits, harg | harg, hdigits⟩
    · exact ⟨0, [], digits, harg, .inl rfl, hdigits⟩
    · exact ⟨1, [], digits, harg, .inl rfl, hdigits⟩

/-! ### The argument -/

/-- A byte is read from digits after one mark or none, as long as there is no second mark and no
plus sign; it is read from digits after more marks and after a plus sign as well. Another text is a
bad argument with the number of the read. -/
theorem byte_argument_takes_marks_and_plus (arg : String) (rest : List String) (reads : Nat) :
    let read := nextAs byteForm ⟨arg :: rest, reads⟩
    (¬ marks 2 <+: arg.toList → '+' ∉ arg.toList → ∀ byte,
      read = (.ok byte, ⟨rest, reads + 1⟩) ↔
        ∃ digits, (arg.toList = digits ∨ arg.toList = marks 1 ++ digits) ∧ DigitsOf byte digits) ∧
    (∀ byte, read = (.ok byte, ⟨rest, reads + 1⟩) ↔
      ∃ count sign digits, arg.toList = marks count ++ sign ++ digits ∧
        (sign = [] ∨ sign = ['+']) ∧ DigitsOf byte digits) ∧
    ((∃ byte, read = (.ok byte, ⟨rest, reads + 1⟩)) ∨
      ∃ fault, read = (.error (.badArgument (reads + 1) fault), ⟨rest, reads + 1⟩)) := by
  intro read
  have hok (byte : Byte) : read = (.ok byte, ⟨rest, reads + 1⟩) ↔ byteForm arg = .ok byte := by
    rw [nextAs_eq_ok_iff]
    constructor
    · rintro ⟨_, hform, hwords, -⟩
      cases hwords
      exact hform
    · intro hform
      exact ⟨arg, hform, rfl, rfl⟩
  refine ⟨fun hmarks hplus byte => ?_, fun byte => ?_, ?_⟩
  · rw [hok, byteForm_eq_ok_iff_of_plain hmarks hplus]
  · rw [hok, byteForm_eq_ok_iff]
  · cases hform : byteForm arg with
    | ok byte => exact .inl ⟨byte, (hok byte).2 hform⟩
    | error fault =>
      have hread : read = _ := reader_eq (.nextAs byteForm) ⟨arg :: rest, reads⟩
      refine .inr ⟨fault, hread.trans ?_⟩
      dsimp only [List.head?_cons, List.tail_cons, Read.answer, Read.ofWord]
      rw [hform]
      rfl

/-- Zeros may lead, after the mark too. -/
theorem byte_argument_takes_zeros_after_mark :
    ¬ marks 2 <+: "0x00F".toList ∧ '+' ∉ "0x00F".toList ∧
      nextAs byteForm ⟨["0x00F", "7"], 1⟩ = (.ok 15, ⟨["7"], 2⟩) := by
  have hmarks : ¬ marks 2 <+: "0x00F".toList := by decide
  have hplus : '+' ∉ "0x00F".toList := by decide
  obtain ⟨hplain, -⟩ := byte_argument_takes_marks_and_plus "0x00F" ["7"] 1
  refine ⟨hmarks, hplus, (hplain hmarks hplus 15).2 ⟨['0', '0', 'F'], .inr rfl, ?_⟩⟩
  have hdigits : ∀ c ∈ ['0', '0', 'F'], Numeral.IsHexDigit c := by
    simp only [List.forall_mem_cons, List.not_mem_nil, false_implies, implies_true, and_true]
    decide
  exact ⟨List.cons_ne_nil _ _, hdigits, by decide⟩

/-- Neither a second mark nor a plus sign is refused. -/
theorem second_mark_and_plus_are_no_fault :
    (nextAs byteForm ⟨["0x0x1", "+1"], 0⟩ = (.ok 1, ⟨["+1"], 1⟩) ∧
      ¬ ∃ digits, ("0x0x1".toList = digits ∨ "0x0x1".toList = marks 1 ++ digits) ∧
        DigitsOf 1 digits) ∧
    nextAs byteForm ⟨["+1"], 1⟩ = (.ok 1, ⟨[], 2⟩) ∧
      ¬ ∃ digits, ("+1".toList = digits ∨ "+1".toList = marks 1 ++ digits) ∧
        DigitsOf 1 digits := by
  have hmark : byteForm "0x0x1" = .ok 1 := rfl
  have hplus : byteForm "+1" = .ok 1 := rfl
  refine ⟨⟨nextAs_of_ok hmark _ _, ?_⟩, nextAs_of_ok hplus _ _, ?_⟩
  · rintro ⟨digits, rfl | h, hdigits⟩
    · exact hdigits.notMem (c := 'x') (by decide) (by decide)
    · obtain rfl : ['0', 'x', '1'] = digits := congrArg (List.drop 2) h
      exact hdigits.notMem (c := 'x') (by decide) (by decide)
  · rintro ⟨digits, rfl | h, hdigits⟩
    · exact hdigits.notMem (c := '+') (by decide) (by decide)
    · exact absurd h (by simp [marks_succ])

end ByteMachine.Console.Arguments

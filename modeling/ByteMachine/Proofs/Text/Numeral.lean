import ByteMachine.Text.Blank
import ByteMachine.Text.Numeral

/-! The characters of numerals: digits, and blanks in front of a number in a column. None of them
ends a line, and a hexadecimal numeral is a single word. -/

namespace ByteMachine.Numeral

theorem exists_digit_of_mem_toDigits {base n : Nat} (hbase : 1 < base) {c : Char}
    (h : c ∈ Nat.toDigits base n) : ∃ d < base, c = Nat.digitChar d := by
  induction n using Nat.strongRecOn with
  | ind n ih =>
    by_cases hn : n < base
    · rw [Nat.toDigits_of_lt_base hn, List.mem_singleton] at h
      exact ⟨n, hn, h⟩
    · rw [Nat.toDigits_of_base_le hbase (Nat.not_lt.1 hn), List.mem_append,
        List.mem_singleton] at h
      rcases h with h | h
      · exact ih (n / base) (Nat.div_lt_self (by omega) hbase) h
      · exact ⟨n % base, Nat.mod_lt _ (by omega), h⟩

/-- The digits that reports use. -/
def upperDigit (d : Nat) : Char := (Nat.digitChar d).toUpper

theorem digit?_upperDigit {d : Nat} (h : d < 16) : digit? 16 (upperDigit d) = some d := by
  have table : ∀ i : Fin 16, digit? 16 (upperDigit i) = some i.val := by decide
  exact table ⟨d, h⟩

theorem digit?_lt {radix : Nat} {c : Char} {d : Nat} (h : digit? radix c = some d) : d < radix := by
  unfold digit? at h
  split at h
  · cases h
    assumption
  · cases h

theorem toList_hex (width n : Nat) :
    (hex width n).toList =
      List.replicate (width - (Nat.toDigits 16 n).length) (upperDigit 0) ++
        (Nat.toDigits 16 n).map Char.toUpper := by
  rw [hex, String.toList_ofList, List.leftpad, List.length_map]
  rfl

theorem toList_hex_ne_nil (width n : Nat) : (hex width n).toList ≠ [] := by
  rw [toList_hex]
  simp [Nat.toDigits_ne_nil]

theorem exists_digit_of_mem_hex {width n : Nat} {c : Char} (h : c ∈ (hex width n).toList) :
    ∃ d < 16, c = upperDigit d := by
  rw [toList_hex, List.mem_append] at h
  rcases h with h | h
  · exact ⟨0, by decide, List.eq_of_mem_replicate h⟩
  · obtain ⟨x, hx, rfl⟩ := List.mem_map.1 h
    obtain ⟨d, hd, rfl⟩ := exists_digit_of_mem_toDigits (by decide) hx
    exact ⟨d, hd, rfl⟩

theorem length_hex {width n : Nat} (h : (Nat.toDigits 16 n).length ≤ width) :
    (hex width n).toList.length = width := by
  rw [toList_hex, List.length_append, List.length_replicate, List.length_map]
  omega

theorem length_word (w : Word) : (word w).length = 4 := by
  rw [← String.length_toList]
  exact length_hex ((Nat.length_toDigits_le_iff (by decide) (by decide)).2 w.toNat_lt)

theorem length_byte (b : Byte) : (byte b).toList.length = 2 :=
  length_hex ((Nat.length_toDigits_le_iff (by decide) (by decide)).2 b.toNat_lt)

theorem map_toUpper_word (w : Word) : (word w).map Char.toUpper = word w := by
  have table : ∀ d : Fin 16, (upperDigit d).toUpper = upperDigit d := by decide
  rw [← String.toList_inj, String.toList_map]
  refine (List.map_congr_left fun c hc => ?_).trans (List.map_id _)
  obtain ⟨d, hd, rfl⟩ := exists_digit_of_mem_hex hc
  exact table ⟨d, hd⟩

theorem isDigit_of_mem_column {width n : Nat} {c : Char} (h : c ∈ (column width n).toList) :
    c = ' ' ∨ c.isDigit = true := by
  rw [column, String.toList_ofList, List.leftpad, List.mem_append] at h
  rcases h with h | h
  · exact .inl (List.eq_of_mem_replicate h)
  · exact .inr (Nat.isDigit_of_mem_toDigits (by decide) (by decide) h)

/-! ### Digits of either case -/

/-- A hexadecimal digit, in either case. -/
def IsHexDigit (c : Char) : Prop :=
  ('0' ≤ c ∧ c ≤ '9') ∨ ('A' ≤ c ∧ c ≤ 'F') ∨ ('a' ≤ c ∧ c ≤ 'f')

instance : DecidablePred IsHexDigit := fun _ => inferInstanceAs (Decidable (_ ∨ _))

theorem exists_ascii_of_isHexDigit {c : Char} (h : IsHexDigit c) :
    ∃ i : Fin 128, c = Char.ofNat i := by
  have hle : c.toNat ≤ 102 := by
    rcases h with ⟨-, h⟩ | ⟨-, h⟩ | ⟨-, h⟩ <;>
      exact Nat.le_trans (UInt32.le_iff_toNat_le.1 h) (by decide)
  exact ⟨⟨c.toNat, by omega⟩, (Char.ofNat_toNat c).symm⟩

/-- Every digit of a radix stands between `0` and `z`. -/
theorem toNat_range_of_isSome_digit? {radix : Nat} {c : Char} (hradix : radix ≤ 36)
    (h : (digit? radix c).isSome = true) : 48 ≤ c.toNat ∧ c.toNat ≤ 122 := by
  have hvalue : digitValue c < 36 := by
    unfold digit? at h
    split at h
    · omega
    · cases h
  unfold digitValue at hvalue
  split at hvalue
  · rename_i hdigit
    have hdigit : 48 ≤ c.toNat ∧ c.toNat ≤ 57 := Char.isDigit_iff_toNat.1 hdigit
    omega
  · split at hvalue
    · rename_i hlower
      obtain ⟨hlow, hhigh⟩ := Bool.and_eq_true_iff.1 hlower
      have hlow : 97 ≤ c.toNat := UInt32.le_iff_toNat_le.1 (of_decide_eq_true hlow)
      have hhigh : c.toNat ≤ 122 := UInt32.le_iff_toNat_le.1 (of_decide_eq_true hhigh)
      omega
    · split at hvalue
      · rename_i hupper
        have hrange : c.val ≥ 'A'.val ∧ c.val ≤ 'Z'.val := of_decide_eq_true hupper
        have hlow : 65 ≤ c.toNat := UInt32.le_iff_toNat_le.1 hrange.1
        have hhigh : c.toNat ≤ 90 := UInt32.le_iff_toNat_le.1 hrange.2
        omega
      · omega

theorem exists_ascii_of_isSome_digit? {radix : Nat} {c : Char} (hradix : radix ≤ 36)
    (h : (digit? radix c).isSome = true) : ∃ i : Fin 128, c = Char.ofNat i := by
  have hrange := toNat_range_of_isSome_digit? hradix h
  exact ⟨⟨c.toNat, by omega⟩, (Char.ofNat_toNat c).symm⟩

theorem isSome_digit?_iff {c : Char} : (digit? 16 c).isSome = true ↔ IsHexDigit c := by
  have table : ∀ i : Fin 128,
      (digit? 16 (Char.ofNat i)).isSome = true ↔ IsHexDigit (Char.ofNat i) := by decide
  constructor
  · intro h
    obtain ⟨i, rfl⟩ := exists_ascii_of_isSome_digit? (by decide) h
    exact (table i).1 h
  · intro h
    obtain ⟨i, rfl⟩ := exists_ascii_of_isHexDigit h
    exact (table i).2 h

theorem isHexDigit_of_mem_hex {width n : Nat} {c : Char} (h : c ∈ (hex width n).toList) :
    IsHexDigit c := by
  obtain ⟨d, hd, rfl⟩ := exists_digit_of_mem_hex h
  exact isSome_digit?_iff.1 (by rw [digit?_upperDigit hd]; rfl)

theorem toUpper_of_digit? {c : Char} {d : Nat} (h : digit? 16 c = some d) :
    c.toUpper = upperDigit d := by
  have table : ∀ i : Fin 128, ∀ d ∈ digit? 16 (Char.ofNat i),
      (Char.ofNat i).toUpper = upperDigit d := by decide
  obtain ⟨i, rfl⟩ := exists_ascii_of_isSome_digit? (by decide) (Option.isSome_of_eq_some h)
  exact table i d h

/-! ### Numerals within a line -/

theorem isBlank_of_isSome_digit? {c : Char} (h : (digit? 16 c).isSome = true) :
    Text.isBlank c = false := by
  obtain ⟨hlow, hhigh⟩ := toNat_range_of_isSome_digit? (by decide) h
  simp only [Text.isBlank, Text.blanks, CharacterClass.contains, List.any_cons, List.any_nil,
    Bool.or_eq_false_iff, Bool.and_eq_false_iff, decide_eq_false_iff_not, and_true]
  omega

theorem isBlank_of_mem_hex {width n : Nat} {c : Char} (h : c ∈ (hex width n).toList) :
    Text.isBlank c = false := by
  exact isBlank_of_isSome_digit? (isSome_digit?_iff.2 (isHexDigit_of_mem_hex h))

theorem notMem_hex {c : Char} (h : ∀ d : Fin 16, c ≠ upperDigit d) (width n : Nat) :
    c ∉ (hex width n).toList := by
  intro hmem
  obtain ⟨d, hd, heq⟩ := exists_digit_of_mem_hex hmem
  exact h ⟨d, hd⟩ heq

theorem notMem_toDigits {c : Char} (h : c.isDigit = false) (n : Nat) : c ∉ Nat.toDigits 10 n := by
  intro hmem
  rw [Nat.isDigit_of_mem_toDigits (by decide) (by decide) hmem] at h
  cases h

theorem notMem_column {c : Char} (hblank : c ≠ ' ') (h : c.isDigit = false) (width n : Nat) :
    c ∉ (column width n).toList := by
  intro hmem
  rcases isDigit_of_mem_column hmem with heq | hdigit
  · exact hblank heq
  · rw [hdigit] at h
    cases h

theorem newline_notMem_hex (width n : Nat) : '\n' ∉ (hex width n).toList :=
  notMem_hex (by decide) width n

theorem newline_notMem_column (width n : Nat) : '\n' ∉ (column width n).toList :=
  notMem_column (by decide) (by decide) width n

theorem newline_notMem_toDigits (n : Nat) : '\n' ∉ Nat.toDigits 10 n :=
  notMem_toDigits (by decide) n

/-! ### Columns -/

theorem head?_column (width n : Nat) :
    ∃ c, (column width n).toList.head? = some c ∧ (c = ' ' ∨ c.isDigit = true) := by
  have hne : (column width n).toList ≠ [] := by
    rw [column, String.toList_ofList, List.leftpad]
    simp [Nat.toDigits_ne_nil]
  exact ⟨_, List.head?_eq_some_head hne, isDigit_of_mem_column (List.head_mem hne)⟩

/-- The number without the blanks in front of it. -/
theorem dropWhile_column (width n : Nat) :
    (column width n).toList.dropWhile (· == ' ') = Nat.toDigits 10 n := by
  have hdigits : (Nat.toDigits 10 n).dropWhile (· == ' ') = Nat.toDigits 10 n := by
    have hno : ' ' ∉ Nat.toDigits 10 n := notMem_toDigits (by decide) n
    cases hn : Nat.toDigits 10 n with
    | nil => rfl
    | cons c cs =>
      rw [hn] at hno
      refine List.dropWhile_cons_of_neg fun heq => hno ?_
      rw [← beq_iff_eq.1 heq]
      exact List.mem_cons_self
  have hpad : ∀ c ∈ List.replicate (width - (Nat.toDigits 10 n).length) ' ', (c == ' ') = true :=
    fun c hc => beq_iff_eq.2 (List.eq_of_mem_replicate hc)
  rw [column, String.toList_ofList, List.leftpad, List.dropWhile_append_of_pos hpad, hdigits]

theorem toDigits_inj {m n : Nat} (h : Nat.toDigits 10 m = Nat.toDigits 10 n) : m = n := by
  have hread := congrArg (Nat.ofDigitChars 10 · 0) h
  simpa only [Nat.ofDigitChars_ten_toDigits] using hread

theorem column_inj {width m n : Nat} (h : column width m = column width n) : m = n := by
  apply toDigits_inj
  rw [← dropWhile_column width m, ← dropWhile_column width n, h]

end ByteMachine.Numeral

import ByteMachine.Proofs.Token
import ByteMachine.Text.Integer
import Mathlib.Data.Nat.Digits.Defs

/-! The value of digits, by the place that they stand in. Every way to read digits comes to it: a
range of integers takes those whose value it holds, and the value of a hexadecimal numeral is its
number, whatever its width. -/

namespace ByteMachine

namespace Numeral

/-- The number that digits denote, the most significant first. -/
def value (radix : Nat) (digits : List Char) : Nat :=
  Nat.ofDigits radix (digits.reverse.map digitValue)

theorem value_nil (radix : Nat) : value radix [] = 0 := rfl

theorem value_cons (radix : Nat) (c : Char) (cs : List Char) :
    value radix (c :: cs) = digitValue c * radix ^ cs.length + value radix cs := by
  rw [value, List.reverse_cons, List.map_append, Nat.ofDigits_append, List.length_map,
    List.length_reverse, List.map_singleton, Nat.ofDigits_singleton, value]
  ring

theorem digit?_eq_some_iff {radix : Nat} {c : Char} {d : Nat} :
    digit? radix c = some d ↔ digitValue c = d ∧ d < radix := by
  unfold digit?
  split
  · rename_i h
    simp only [Option.some.injEq]
    exact ⟨fun heq => ⟨heq, heq ▸ h⟩, And.left⟩
  · rename_i h
    exact iff_of_false (fun hno => by cases hno) fun ⟨heq, hlt⟩ => h (heq ▸ hlt)

end Numeral

/-- Digits are appended to those that were read before. -/
theorem Token.eq_value_of_readDigits {cs : List Char} {position start n : Nat}
    (h : readDigits position start cs = .ok n) :
    n = start * 16 ^ cs.length + Numeral.value 16 cs := by
  induction cs generalizing position start with
  | nil =>
    cases h
    simp [Numeral.value_nil]
  | cons c cs ih =>
    rw [readDigits] at h
    split at h
    · cases h
    · rename_i d hd
      obtain ⟨rfl, -⟩ := Numeral.digit?_eq_some_iff.1 hd
      rw [ih h, Numeral.value_cons, List.length_cons, pow_succ]
      ring

theorem Numeral.value_hex (width n : Nat) : value 16 (hex width n).toList = n := by
  have hread := Token.eq_value_of_readDigits (Token.readDigits_hex 0 width n)
  rwa [Nat.zero_mul, Nat.zero_add, eq_comm] at hread

namespace Text.IntegerRange

open Numeral

variable {range : IntegerRange} {radix : Nat}

/-! ### Digits -/

/-- Digits never make a value smaller, so all values on the way are in the range if the last is. -/
theorem readDigits_eq_ok_iff {cs : List Char} {start n : Int} (hstart : 0 ≤ start)
    (hrange : start ≤ range.greatest) :
    range.readDigits radix false start cs = .ok n ↔
      (∀ c ∈ cs, (digit? radix c).isSome = true) ∧
        n = start * radix ^ cs.length + value radix cs ∧ n ≤ range.greatest := by
  induction cs generalizing start with
  | nil =>
    simp only [readDigits, value_nil, Except.ok.injEq, List.length_nil, pow_zero, mul_one,
      Nat.cast_zero, add_zero, List.not_mem_nil, false_implies, implies_true, true_and]
    exact ⟨fun h => ⟨h.symm, h ▸ hrange⟩, fun h => h.1.symm⟩
  | cons c cs ih =>
    rw [readDigits]
    cases hd : digit? radix c with
    | none =>
      refine iff_of_false (fun h => by cases h) fun h => ?_
      have hc := h.1 c List.mem_cons_self
      rw [hd] at hc
      cases hc
    | some d =>
      obtain ⟨rfl, hlt⟩ := digit?_eq_some_iff.1 hd
      have hnext : 0 ≤ start * radix + digitValue c := by positivity
      have hvalue : start * radix ^ (c :: cs).length + value radix (c :: cs) =
          (start * radix + digitValue c) * radix ^ cs.length + value radix cs := by
        rw [value_cons, List.length_cons, pow_succ]
        push_cast
        ring
      have hgrows : start * radix + digitValue c ≤
          (start * radix + digitValue c) * radix ^ cs.length + value radix cs := by
        have hpow : (1 : Int) ≤ (radix : Int) ^ cs.length := by
          exact_mod_cast Nat.one_le_pow _ _ (by omega)
        exact le_add_of_le_of_nonneg (le_mul_of_one_le_right hnext hpow) (Int.natCast_nonneg _)
      rw [hvalue, List.forall_mem_cons, hd]
      simp only [Option.isSome_some, true_and, Bool.false_eq_true, if_false]
      split
      · rename_i hgreatest
        refine iff_of_false (fun h => by cases h) fun ⟨_, hn, hle⟩ => ?_
        omega
      · rename_i hgreatest
        exact ih hnext (not_lt.1 hgreatest)

/-! ### Signs -/

theorem read_plus {digits : List Char} (h : digits ≠ []) :
    range.read radix ('+' :: digits) = range.readDigits radix false 0 digits := by
  cases digits with
  | nil => exact absurd rfl h
  | cons c cs => rfl

theorem read_minus (h : 0 ≤ range.least) (digits : List Char) :
    range.read radix ('-' :: digits) = .error .badDigit := by
  cases digits with
  | nil => rfl
  | cons c cs => exact if_neg (not_lt.2 h)

theorem read_unsigned {c : Char} (hplus : c ≠ '+') (hminus : c ≠ '-') (cs : List Char) :
    range.read radix (c :: cs) = range.readDigits radix false 0 (c :: cs) := by
  unfold read
  split <;> simp_all

/-- A sign is no digit. -/
theorem ne_sign_of_isSome_digit? (hradix : radix ≤ 36) {c : Char}
    (h : (digit? radix c).isSome = true) : c ≠ '+' ∧ c ≠ '-' := by
  have hrange := toNat_range_of_isSome_digit? hradix h
  constructor
  · rintro rfl
    exact absurd hrange.1 (by decide)
  · rintro rfl
    exact absurd hrange.1 (by decide)

/-- Where there are no negative numbers, a text is read if it is digits, after a plus sign or none,
whose value is in the range. -/
theorem read_eq_ok_iff (hleast : 0 ≤ range.least) (hgreatest : 0 ≤ range.greatest)
    (hradix : radix ≤ 36) {cs : List Char} {n : Int} :
    range.read radix cs = .ok n ↔
      ∃ sign digits, cs = sign ++ digits ∧ (sign = [] ∨ sign = ['+']) ∧ digits ≠ [] ∧
        (∀ c ∈ digits, (digit? radix c).isSome = true) ∧ n = value radix digits ∧
        n ≤ range.greatest := by
  have hdigits (digits : List Char) : range.readDigits radix false 0 digits = .ok n ↔
      (∀ c ∈ digits, (digit? radix c).isSome = true) ∧ n = value radix digits ∧
        n ≤ range.greatest := by
    rw [readDigits_eq_ok_iff (le_refl 0) hgreatest, zero_mul, zero_add]
  constructor
  · intro h
    cases cs with
    | nil => cases h
    | cons c cs =>
      by_cases hplus : c = '+'
      · subst hplus
        have hne : cs ≠ [] := by
          rintro rfl
          cases h
        rw [read_plus hne, hdigits] at h
        exact ⟨['+'], cs, rfl, .inr rfl, hne, h⟩
      · have hminus : c ≠ '-' := by
          rintro rfl
          rw [read_minus hleast] at h
          cases h
        rw [read_unsigned hplus hminus, hdigits] at h
        exact ⟨[], c :: cs, rfl, .inl rfl, List.cons_ne_nil _ _, h⟩
  · rintro ⟨sign, digits, rfl, rfl | rfl, hne, h⟩
    · cases digits with
      | nil => exact absurd rfl hne
      | cons c cs =>
        obtain ⟨hplus, hminus⟩ := ne_sign_of_isSome_digit? hradix (h.1 c List.mem_cons_self)
        rw [List.nil_append, read_unsigned hplus hminus, hdigits]
        exact h
    · rw [List.singleton_append, read_plus hne, hdigits]
      exact h

end Text.IntegerRange

end ByteMachine

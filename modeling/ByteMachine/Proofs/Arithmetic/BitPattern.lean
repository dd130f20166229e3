import ByteMachine.Proofs.Arithmetic.Byte
import ByteMachine.Proofs.Arithmetic.Exact
import Mathlib.Data.Rat.Floor
import Mathlib.Tactic.Linarith
import Mathlib.Tactic.Positivity
import Mathlib.Tactic.Ring

/-! The numbers that bit patterns of single precision stand for, as rationals. A product with a
power of two keeps the significand, so it is exact up to the end of the range, and what lies beyond
it does not matter to a conversion that clamps. Hence a pattern is converted to fixed point as its
exact number is. -/

namespace ByteMachine

namespace Single

/-! ### Patterns and their numbers -/

def signField (bits : UInt32) : Bool := bits.toBitVec.msb

def exponentField (bits : UInt32) : Nat := (bits.toBitVec.extractLsb' 23 8).toNat

def fractionField (bits : UInt32) : Nat := (bits.toBitVec.extractLsb' 0 23).toNat

/-- The number that a pattern stands for, unless its exponent is the greatest one. The exponent is
biased by 127, and only the least one goes without the leading one of the significand. -/
def exactValue (bits : UInt32) : ℚ :=
  let sign : ℚ := if signField bits then -1 else 1
  let fraction : ℚ := fractionField bits / 2 ^ 23
  if exponentField bits = 0 then sign * fraction * 2 ^ (-126 : ℤ)
  else sign * (1 + fraction) * 2 ^ ((exponentField bits : ℤ) - 127)

/-- The integer next to a number on the way to zero. -/
def towardZero (x : ℚ) : ℤ := if x < 0 then ⌈x⌉ else ⌊x⌋

/-- How many whole sixteenths a pattern counts, as an integer of 32 bits. The patterns with the
greatest exponent are the infinities, whose fraction is zero, and those that are no number. -/
def sixteenths (bits : UInt32) : ℤ :=
  if exponentField bits = 255 then
    if fractionField bits = 0 then if signField bits then -2 ^ 31 else 2 ^ 31 - 1
    else 0
  else clamp32 (towardZero (16 * exactValue bits))

/-! ### Fields -/

theorem signField_eq (bits : UInt32) : signField bits = decide (signBit ≤ bits.toNat) :=
  bits.toBitVec.msb_eq_decide

theorem exponentField_eq (bits : UInt32) : exponentField bits = bits.toNat / hidden % 256 := by
  rw [exponentField, BitVec.extractLsb'_toNat, Nat.shiftRight_eq_div_pow]
  rfl

theorem fractionField_eq (bits : UInt32) : fractionField bits = bits.toNat % hidden := by
  rw [fractionField, BitVec.extractLsb'_toNat, Nat.shiftRight_zero]
  rfl

theorem fractionField_lt (bits : UInt32) : fractionField bits < hidden := BitVec.isLt _

theorem ofBits_eq (bits : UInt32) :
    ofBits bits =
      if exponentField bits = 255 then
        if fractionField bits = 0 then .infinite (signField bits) else .nan
      else if exponentField bits = 0 then .finite (signField bits) (fractionField bits)
      else .finite (signField bits)
        ((hidden + fractionField bits) * 2 ^ (exponentField bits - 1)) := by
  rw [signField_eq, exponentField_eq, fractionField_eq]
  rfl

/-- The significand of a finite pattern, which has 24 bits at most. -/
def significand (bits : UInt32) : Nat :=
  if exponentField bits = 0 then fractionField bits else hidden + fractionField bits

theorem significand_lt (bits : UInt32) : significand bits < 2 ^ 24 := by
  have := fractionField_lt bits
  unfold significand
  unfold hidden at this ⊢
  split <;> omega

/-- The least exponent and the next one have the same unit. -/
theorem ofBits_of_finite {bits : UInt32} (h : exponentField bits ≠ 255) :
    ofBits bits = .finite (signField bits) (significand bits * 2 ^ (exponentField bits - 1)) := by
  rw [ofBits_eq, if_neg h, significand]
  split
  · rename_i hzero
    rw [hzero, Nat.zero_sub, pow_zero, mul_one]
  · rfl

theorem cast_one : (one : ℚ) = 2 ^ 149 := by
  rw [one, Nat.pow_eq]
  push_cast
  rfl

theorem cast_signedUnits (negative : Bool) (n : Nat) :
    (signedUnits negative n : ℚ) = (if negative then -1 else 1) * n := by
  cases negative <;> simp [signedUnits]

theorem exactValue_eq (bits : UInt32) :
    exactValue bits =
      signedUnits (signField bits) (significand bits * 2 ^ (exponentField bits - 1)) / one := by
  rw [exactValue, cast_signedUnits, cast_one, significand]
  cases h : exponentField bits with
  | zero =>
    rw [if_pos rfl, if_pos rfl]
    push_cast
    ring
  | succ e =>
    have hscale : (2 : ℚ) ^ (((e + 1 : ℕ) : ℤ) - 127) = 2 ^ e / 2 ^ 126 := by
      have hexponent : ((e + 1 : ℕ) : ℤ) - 127 = (e : ℤ) - (126 : ℕ) := by
        push_cast
        ring
      rw [hexponent, zpow_sub₀ two_ne_zero, zpow_natCast, zpow_natCast]
    rw [if_neg (Nat.succ_ne_zero e), if_neg (Nat.succ_ne_zero e), hscale, hidden,
      Nat.add_sub_cancel]
    push_cast
    ring

/-! ### Toward zero -/

theorem towardZero_neg (x : ℚ) : towardZero (-x) = -towardZero x := by
  unfold towardZero
  rcases lt_trichotomy x 0 with h | rfl | h
  · rw [if_neg (by linarith), if_pos h, Int.floor_neg]
  · simp
  · rw [if_pos (by linarith), if_neg (by linarith), Int.ceil_neg]

theorem towardZero_natCast_div (n d : Nat) : towardZero ((n : ℚ) / d) = (n / d : Nat) := by
  have hnonneg : (0 : ℚ) ≤ (n : ℚ) / d := by positivity
  rw [towardZero, if_neg (not_lt.2 hnonneg), Rat.floor_natCast_div_natCast]
  rfl

theorem towardZero_signedUnits_div (negative : Bool) (n d : Nat) :
    towardZero (signedUnits negative n / d) = signedUnits negative (n / d) := by
  cases negative with
  | false => exact towardZero_natCast_div n d
  | true =>
    have hneg : ((signedUnits true n : ℤ) : ℚ) / d = -((n : ℚ) / d) := by
      simp [signedUnits, neg_div]
    rw [hneg, towardZero_neg, towardZero_natCast_div]
    rfl

/-- Multiplying a finite pattern by a power of two multiplies its number, as far as conversion to
an integer can tell. -/
theorem toInt32_scaleUp_ofBits {bits : UInt32} (h : exponentField bits ≠ 255) (k : Nat) :
    toInt32 ((ofBits bits).scaleUp k) = clamp32 (towardZero (2 ^ k * exactValue bits)) := by
  have hnumber : 2 ^ k * exactValue bits =
      signedUnits (signField bits) (significand bits * 2 ^ (exponentField bits - 1 + k)) / one := by
    rw [exactValue_eq, cast_signedUnits, cast_signedUnits]
    push_cast
    ring
  rw [ofBits_of_finite h, toInt32_scaleUp _ _ _ (significand_lt bits), hnumber,
    towardZero_signedUnits_div]

/-! ### Patterns of numbers -/

theorem exactValue_of_finite {bits : UInt32} {negative : Bool} {units : Nat}
    (h : ofBits bits = .finite negative units) :
    exactValue bits = signedUnits negative units / one := by
  have hexponent : exponentField bits ≠ 255 := by
    intro hgreatest
    rw [ofBits_eq, if_pos hgreatest] at h
    split at h <;> cases h
  rw [ofBits_of_finite hexponent] at h
  cases h
  exact exactValue_eq bits

theorem fields_of_code (negative : Bool) {code : Nat} (h : code < signBit) :
    let bits := UInt32.ofNat ((if negative then signBit else 0) + code)
    signField bits = negative ∧ exponentField bits = code / hidden ∧
      fractionField bits = code % hidden := by
  intro bits
  have hbits : bits.toNat = (if negative then signBit else 0) + code := by
    refine UInt32.toNat_ofNat_of_lt' ?_
    unfold signBit at h ⊢
    simp only [UInt32.size]
    split <;> omega
  rw [signField_eq, exponentField_eq, fractionField_eq, hbits]
  unfold signBit at h
  unfold signBit hidden
  cases negative with
  | false =>
    simp only [Bool.false_eq_true, if_false, decide_eq_false_iff_not]
    omega
  | true =>
    simp only [if_true, decide_eq_true_eq]
    omega

theorem div_spacing_lt (units : Nat) : units / 2 ^ spacing units < 2 ^ 24 := by
  rw [Nat.div_lt_iff_lt_mul (Nat.two_pow_pos _), ← Nat.pow_add]
  by_cases hzero : units = 0
  · rw [hzero]
    exact Nat.two_pow_pos _
  · refine (Nat.log2_lt hzero).1 ?_
    unfold spacing
    omega

theorem le_div_spacing {units : Nat} (h : spacing units ≠ 0) :
    2 ^ 23 ≤ units / 2 ^ spacing units := by
  have hzero : units ≠ 0 := by
    rintro rfl
    exact h rfl
  rw [Nat.le_div_iff_mul_le (Nat.two_pow_pos _), ← Nat.pow_add]
  refine (Nat.le_log2 hzero).1 ?_
  unfold spacing at h ⊢
  omega

/-- Every magnitude in the range has a pattern. -/
theorem ofBits_toBits (negative : Bool) {units : Nat} (h : Exact units) :
    ofBits (toBits (.finite negative units)) = .finite negative units := by
  obtain ⟨hdvd, hlt⟩ := h
  have hsplit : units / 2 ^ spacing units * 2 ^ spacing units = units := Nat.div_mul_cancel hdvd
  have hspacing : spacing units ≤ 253 := by
    unfold overflow at hlt
    -- keeps the power from being evaluated
    generalize hlimit : 277 = limit at hlt
    exact spacing_le hlt (by omega)
  have hbelow := div_spacing_lt units
  have hleading : spacing units ≠ 0 → 2 ^ 23 ≤ units / 2 ^ spacing units := le_div_spacing
  rw [toBits, magnitudeBits, Nat.pow_eq]
  generalize units / 2 ^ spacing units = q at hsplit hbelow hleading ⊢
  generalize spacing units = k at hsplit hspacing hleading ⊢
  have hcode : k * hidden + q < signBit := by
    unfold hidden signBit
    omega
  obtain ⟨hsign, hexponent, hfraction⟩ := fields_of_code negative hcode
  rw [ofBits_eq, hsign, hexponent, hfraction, ← hsplit]
  by_cases hsmall : q < hidden
  · -- only the least spacing has significands without the leading bit
    have hk : k = 0 := by
      unfold hidden at hsmall
      omega
    rw [hk, Nat.zero_mul, Nat.zero_add, Nat.div_eq_of_lt hsmall, Nat.mod_eq_of_lt hsmall]
    simp
  · have hlarge : hidden ≤ q := Nat.not_lt.1 hsmall
    have hquotient : (k * hidden + q) / hidden = k + 1 := by
      unfold hidden at hlarge ⊢
      omega
    have hrest : hidden + (k * hidden + q) % hidden = q := by
      unfold hidden at hlarge ⊢
      omega
    rw [hquotient, hrest, if_neg (by omega), if_neg (Nat.succ_ne_zero k), Nat.add_sub_cancel]

end Single

namespace Fixed

/-- A pattern is converted to the low eight bits of its whole sixteenths. -/
theorem ofSingle_ofBits (bits : UInt32) :
    ofSingle (.ofBits bits) = UInt8.ofInt (Single.sixteenths bits) := by
  have hsixteenths : ((Single.ofBits bits).scaleUp 4).toInt32 = Single.sixteenths bits := by
    unfold Single.sixteenths
    split
    · rename_i h
      rw [Single.ofBits_eq, if_pos h]
      split <;> rfl
    · rename_i h
      have hscale : (2 : ℚ) ^ 4 = 16 := by norm_num
      rw [Single.toInt32_scaleUp_ofBits h, hscale]
  rw [ofSingle, hsixteenths]
  rfl

theorem ofSingle_toSingle (b : Byte) : ofSingle (toSingle b) = b := by
  have hb : b.toNat < 2 ^ 24 := Nat.lt_trans b.toNat_lt (by decide)
  rw [toSingle_eq, ofSingle_finite hb, UInt8.ofNat_toNat]

theorem ofBits_toBits_toSingle (b : Byte) :
    Single.ofBits (Single.toBits (toSingle b)) = toSingle b := by
  have hb : b.toNat < 2 ^ 24 := Nat.lt_trans b.toNat_lt (by decide)
  rw [toSingle_eq, Single.ofBits_toBits false (Single.exact_mul_pow hb (by decide))]

theorem exactValue_toSingle (b : Byte) :
    Single.exactValue (Single.toBits (toSingle b)) = b.toNat / 16 := by
  have hbits := ofBits_toBits_toSingle b
  rw [Single.exactValue_of_finite (hbits.trans (toSingle_eq b)), Single.cast_signedUnits,
    Single.cast_one]
  push_cast
  norm_num
  ring

theorem add_eq_addSigned (a b : Byte) : add a b = Byte.addSigned a b := by
  rw [add_eq, Byte.addSigned_eq_ofNat]

end Fixed

end ByteMachine

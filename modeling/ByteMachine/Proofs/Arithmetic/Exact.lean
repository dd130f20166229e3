import ByteMachine.Arithmetic.Fixed
import Mathlib.Algebra.Group.Int.Defs
import Mathlib.Algebra.Group.Nat.Defs

/-! Arithmetic that rounding leaves alone. A magnitude whose significand fits in 24 bits is a value
of its own, and an operation whose exact result has such a magnitude returns that result. Only a
product may leave the range, which conversion to an integer clamps anyway. The sums of fixed point
arithmetic are far below the limit, so they are sums of integers. -/

namespace ByteMachine

namespace Single

/-! ### Exact magnitudes -/

/-- The magnitude of some finite value. -/
def Exact (units : Nat) : Prop := 2 ^ spacing units ∣ units ∧ units < overflow

theorem mul_pow_lt {m : Nat} (j : Nat) (hm : m < 2 ^ 24) : m * 2 ^ j < 2 ^ (24 + j) := by
  rw [Nat.pow_add]
  exact Nat.mul_lt_mul_of_pos_right hm (Nat.two_pow_pos j)

theorem spacing_le {units limit k : Nat} (h : units < 2 ^ limit) (hk : limit ≤ 24 + k) :
    spacing units ≤ k := by
  unfold spacing
  by_cases hzero : units = 0
  · rw [hzero, Nat.log2_zero]
    omega
  · have := (Nat.log2_lt hzero).2 h
    omega

theorem spacing_mul_pow_le {m : Nat} (j : Nat) (hm : m < 2 ^ 24) : spacing (m * 2 ^ j) ≤ j :=
  spacing_le (mul_pow_lt j hm) (Nat.le_refl _)

theorem lt_overflow {units k : Nat} (h : units < 2 ^ k) (hk : k ≤ 277) : units < overflow := by
  unfold overflow
  -- keeps the power from being evaluated
  generalize 277 = limit at hk ⊢
  exact Nat.lt_of_lt_of_le h (Nat.pow_le_pow_right Nat.two_pos hk)

theorem spacing_dvd_mul_pow {m : Nat} (j : Nat) (hm : m < 2 ^ 24) :
    2 ^ spacing (m * 2 ^ j) ∣ m * 2 ^ j :=
  Nat.dvd_trans (Nat.pow_dvd_pow 2 (spacing_mul_pow_le j hm)) (Nat.dvd_mul_left _ _)

theorem exact_mul_pow {m j : Nat} (hm : m < 2 ^ 24) (hj : j ≤ 253) : Exact (m * 2 ^ j) :=
  ⟨spacing_dvd_mul_pow j hm, lt_overflow (mul_pow_lt j hm) (by omega)⟩

theorem nearest_mul (q : Nat) {den : Nat} (h : 0 < den) : nearest (q * den) den = q := by
  rw [nearest, Nat.mul_mod_left, Nat.mul_div_cancel q h]
  exact if_pos h

/-- A multiple of its own spacing is not rounded, but it may lie beyond the range. -/
theorem round_of_dvd (negative : Bool) {units den : Nat} (h : 2 ^ spacing units ∣ units)
    (hden : 0 < den) :
    round negative (units * den) den =
      if units < overflow then .finite negative units else .infinite negative := by
  obtain ⟨q, hq⟩ := h
  have hpos : 0 < den * 2 ^ spacing units := Nat.mul_pos hden (Nat.two_pow_pos _)
  have hnum : units * den = q * (den * 2 ^ spacing units) := by
    rw [Nat.mul_comm den, ← Nat.mul_assoc, Nat.mul_comm q, ← hq]
  have hnearest : nearest (units * den) (den * 2 ^ spacing units) * 2 ^ spacing units = units := by
    rw [hnum, nearest_mul q hpos, Nat.mul_comm, ← hq]
  unfold round
  dsimp only
  rw [Nat.mul_div_cancel units hden]
  simp only [Nat.pow_eq]
  rw [hnearest]

theorem round_of_exact (negative : Bool) {units den : Nat} (h : Exact units) (hden : 0 < den) :
    round negative (units * den) den = .finite negative units := by
  rw [round_of_dvd negative h.1 hden, if_pos h.2]

/-! ### Operations -/

theorem ofNat_eq {n : Nat} (h : n < 2 ^ 24) : ofNat n = .finite false (n * one) := by
  have := round_of_exact false (exact_mul_pow h (show 149 ≤ 253 by decide)) Nat.one_pos
  rwa [Nat.mul_one] at this

theorem scaleDown_finite (negative : Bool) {units : Nat} (k : Nat) (h : Exact units) :
    (finite negative (units * 2 ^ k)).scaleDown k = .finite negative units := by
  rw [scaleDown, Nat.pow_eq]
  exact round_of_exact negative h (Nat.two_pow_pos k)

theorem add_finite {m n : Nat} (h : Exact (m + n)) :
    finite false m + finite false n = .finite false (m + n) := by
  have hround := round_of_exact false h Nat.one_pos
  rw [Nat.mul_one] at hround
  have hnegative : (if (m : Int) + n = 0 then false && false else decide ((m : Int) + n < 0)) =
      false := by
    split
    · rfl
    · exact decide_eq_false (by omega)
  have habs : ((m : Int) + n).natAbs = m + n := by omega
  show add (.finite false m) (.finite false n) = _
  simp only [add, signedUnits, Bool.false_eq_true, if_false, hnegative, habs, hround]

/-! ### Conversion to integers -/

/-- The nearest integer of 32 bits. -/
def clamp32 (n : Int) : Int := max (-2 ^ 31) (min (2 ^ 31 - 1) n)

theorem clamp32_natCast {n : Nat} (h : n < 2 ^ 31) : clamp32 n = n := by
  unfold clamp32
  omega

/-- A magnitude beyond the range is beyond the integers too, so it is clamped as its infinity. -/
theorem toInt32_round (negative : Bool) {units : Nat} (h : 2 ^ spacing units ∣ units) :
    toInt32 (round negative units 1) = clamp32 (signedUnits negative (units / one)) := by
  have hround := round_of_dvd negative h Nat.one_pos
  rw [Nat.mul_one] at hround
  rw [hround]
  split
  · rfl
  · rename_i hlarge
    have hquotient : 2 ^ 31 ≤ units / one := by
      have hone : 0 < one := Nat.two_pow_pos 149
      have hpow : 2 ^ 31 * one = 2 ^ 180 := (Nat.pow_add 2 31 149).symm
      rw [Nat.le_div_iff_mul_le hone, hpow]
      exact Nat.not_lt.1 fun hsmall => hlarge (lt_overflow hsmall (by decide))
    cases negative with
    | false =>
      simp only [toInt32, clamp32, signedUnits, Bool.false_eq_true, if_false]
      omega
    | true =>
      simp only [toInt32, clamp32, signedUnits, if_true]
      omega

/-- The product with a power of two need not be in the range. -/
theorem toInt32_scaleUp (negative : Bool) {m : Nat} (j k : Nat) (hm : m < 2 ^ 24) :
    toInt32 ((finite negative (m * 2 ^ j)).scaleUp k) =
      clamp32 (signedUnits negative (m * 2 ^ (j + k) / one)) := by
  rw [scaleUp, Nat.pow_eq, Nat.mul_assoc, ← Nat.pow_add]
  exact toInt32_round negative (spacing_dvd_mul_pow (j + k) hm)

end Single

namespace Fixed

theorem toSingle_eq (b : Byte) : toSingle b = .finite false (b.toNat * 2 ^ 145) := by
  have hb : b.toNat < 2 ^ 24 := Nat.lt_trans b.toNat_lt (by decide)
  have hunits : b.toNat * Single.one = b.toNat * 2 ^ 145 * 2 ^ 4 := by
    rw [Nat.mul_assoc, ← Nat.pow_add]
    rfl
  rw [toSingle, Single.ofNat_eq hb, hunits]
  exact Single.scaleDown_finite false 4 (Single.exact_mul_pow hb (by decide))

theorem ofSingle_finite {n : Nat} (h : n < 2 ^ 24) :
    ofSingle (.finite false (n * 2 ^ 145)) = UInt8.ofNat n := by
  have hone : 0 < Single.one := Nat.two_pow_pos 149
  have hunits : n * 2 ^ (145 + 4) / Single.one = n := Nat.mul_div_cancel n hone
  have hclamp : Single.clamp32 (Single.signedUnits false n) = n :=
    Single.clamp32_natCast (Nat.lt_trans h (by decide))
  have hmod : ((n : Int) % 256).toNat = n % 256 := by omega
  rw [ofSingle, Single.toInt32_scaleUp false 145 4 h, hunits, hclamp, Byte.ofSigned, hmod]
  exact UInt8.ofNat_mod_size

/-- The sum in single precision is the sum of the bytes. -/
theorem add_eq (a b : Byte) : add a b = UInt8.ofNat (a.toNat + b.toNat) := by
  have ha := a.toNat_lt
  have hb := b.toNat_lt
  have hsum : a.toNat + b.toNat < 2 ^ 24 := by omega
  rw [add, toSingle_eq, toSingle_eq, Single.add_finite, ← Nat.add_mul, ofSingle_finite hsum]
  rw [← Nat.add_mul]
  exact Single.exact_mul_pow hsum (by decide)

end Fixed

end ByteMachine

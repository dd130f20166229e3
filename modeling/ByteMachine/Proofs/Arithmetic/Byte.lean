import ByteMachine.Arithmetic.Byte
import Mathlib.Algebra.Group.Nat.Defs
import Mathlib.Data.Nat.ModEq

/-! The arithmetic of bytes on their bits: the signed reading is that of two's complement, and the
rotation by division is the rotation of eight bits, so that two rotations are one. -/

namespace ByteMachine.Byte

theorem signed_eq_toInt (b : Byte) : signed b = b.toInt8.toInt := b.toBitVec.toInt_eq_toNat_bmod.symm

theorem addSigned_eq (a b : Byte) :
    addSigned a b = UInt8.ofInt (a.toInt8.toInt + b.toInt8.toInt) := by
  rw [addSigned, signed_eq_toInt, signed_eq_toInt]
  rfl

/-- Modulo 256 the readings of a byte are the same, and so are their sums. -/
theorem addSigned_eq_ofNat (a b : Byte) : addSigned a b = UInt8.ofNat (a.toNat + b.toNat) := by
  have hsum : (signed a + signed b) % 256 = ((a.toNat + b.toNat) % 256 : Nat) := by
    unfold signed
    have ha : (Int.bmod a.toNat 256) % 256 = (a.toNat : Int) % 256 := Int.bmod_emod
    have hb : (Int.bmod b.toNat 256) % 256 = (b.toNat : Int) % 256 := Int.bmod_emod
    omega
  rw [addSigned, ofSigned, hsum, Int.toNat_natCast]
  exact UInt8.ofNat_mod_size

/-- The bits that leave at the bottom do not meet those that move down. -/
theorem div_add_mod_mul (n : Nat) {k : Nat} (hn : n < 256) (hk : k < 8) :
    n / 2 ^ k + n % 2 ^ k * 2 ^ (8 - k) = n >>> k ||| n <<< (8 - k) % 2 ^ 8 := by
  have hpow : 2 ^ k * 2 ^ (8 - k) = 2 ^ 8 := by
    rw [← Nat.pow_add, Nat.add_sub_cancel' (Nat.le_of_lt hk)]
  have hlow : n / 2 ^ k < 2 ^ (8 - k) := by
    rw [Nat.div_lt_iff_lt_mul (Nat.two_pow_pos k), Nat.mul_comm, hpow]
    exact hn
  have hhigh : n <<< (8 - k) % 2 ^ 8 = 2 ^ (8 - k) * (n % 2 ^ k) := by
    rw [Nat.shiftLeft_eq, ← hpow, Nat.mul_mod_mul_right, Nat.mul_comm]
  rw [hhigh, Nat.shiftRight_eq_div_pow, Nat.or_comm, ← Nat.two_pow_add_eq_or_of_lt hlow,
    Nat.add_comm, Nat.mul_comm]

theorem rotateRight_eq (b : Byte) (steps : Nat) :
    rotateRight b steps = UInt8.ofBitVec (b.toBitVec.rotateRight steps) := by
  have hk : steps % 8 < 8 := Nat.mod_lt _ (by decide)
  have hsum := div_add_mod_mul b.toNat b.toNat_lt hk
  rw [← UInt8.toNat_toBitVec b, ← BitVec.toNat_rotateRight] at hsum
  unfold rotateRight
  simp only [Nat.pow_eq]
  rw [← UInt8.toNat_toBitVec b, hsum]
  exact UInt8.ofNat_toNat

/-! ### Rotations one after the other -/

/-- Every bit comes from the place that is `steps` higher, all round. -/
theorem getLsbD_rotateRight_eq (x : BitVec 8) (steps : Nat) {i : Nat} (h : i < 8) :
    (x.rotateRight steps).getLsbD i = x.getLsbD ((i + steps) % 8) := by
  rw [BitVec.getLsbD_rotateRight]
  by_cases hlow : i < 8 - steps % 8
  · have hplace : steps % 8 + i = (i + steps) % 8 := by omega
    rw [decide_eq_true hlow, cond_true, hplace]
  · have hplace : i - (8 - steps % 8) = (i + steps) % 8 := by omega
    rw [decide_eq_false hlow, cond_false, decide_eq_true h, Bool.true_and, hplace]

theorem rotateRight_rotateRight (b : Byte) {s t u : Nat} (h : u ≡ s + t [MOD 8]) :
    rotateRight (rotateRight b s) t = rotateRight b u := by
  have hbits : (b.toBitVec.rotateRight s).rotateRight t = b.toBitVec.rotateRight u := by
    apply BitVec.eq_of_getLsbD_eq
    intro i hi
    have hplace : ((i + t) % 8 + s) % 8 = (i + u) % 8 := by
      unfold Nat.ModEq at h
      omega
    rw [getLsbD_rotateRight_eq _ t hi, getLsbD_rotateRight_eq _ s (Nat.mod_lt _ (by decide)),
      getLsbD_rotateRight_eq _ u hi, hplace]
  rw [rotateRight_eq, rotateRight_eq, rotateRight_eq, hbits]

theorem rotateRight_zero (b : Byte) : rotateRight b 0 = b := by
  rw [rotateRight_eq, BitVec.rotateRight_def]
  simp

theorem rotateRight_mod (b : Byte) (steps : Nat) :
    rotateRight b (steps % 8) = rotateRight b steps := by
  rw [rotateRight, rotateRight, Nat.mod_mod]

end ByteMachine.Byte

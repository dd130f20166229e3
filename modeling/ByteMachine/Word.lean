/-! Bytes, sixteen-bit instruction words and the fields of a word. The four highest bits are the
opcode; the register fields `A`, `B` and `C` of four bits each follow. The immediate takes the eight
lowest bits, which are those of `B` and `C`. Fields are read by division, so that each fact about
them is arithmetic on `Nat`. -/

namespace ByteMachine

/-- A cell's content; a signed reading of it is two's complement. -/
abbrev Byte := UInt8

/-- An instruction word. -/
abbrev Word := UInt16

namespace Word

def opcode (word : Word) : Nat := word.toNat / 4096

def regA (word : Word) : Nat := word.toNat / 256 % 16

def regB (word : Word) : Nat := word.toNat / 16 % 16

def regC (word : Word) : Nat := word.toNat % 16

def immediate (word : Word) : Byte := UInt8.ofNat (word.toNat % 256)

/-- The word with the given fields. The immediate shares its bits with `B` and `C`, so a caller
leaves either it or them at zero. -/
def ofFields (opcode a b c immediate : Nat) : Word :=
  UInt16.ofNat (opcode * 4096 + a * 256 + b * 16 + c + immediate)

theorem opcode_lt (word : Word) : opcode word < 16 := by
  have := word.toNat_lt
  unfold opcode
  omega

theorem regA_lt (word : Word) : regA word < 16 := Nat.mod_lt _ (by decide)

theorem regB_lt (word : Word) : regB word < 16 := Nat.mod_lt _ (by decide)

theorem regC_lt (word : Word) : regC word < 16 := Nat.mod_lt _ (by decide)

theorem toNat_ofFields {op a b c imm : Nat} (hop : op < 16) (ha : a < 16)
    (hlow : b * 16 + c + imm < 256) :
    (ofFields op a b c imm).toNat = op * 4096 + a * 256 + (b * 16 + c + imm) := by
  rw [ofFields, UInt16.toNat_ofNat_of_lt' (by simp only [UInt16.size]; omega)]
  omega

theorem opcode_ofFields {op a b c imm : Nat} (hop : op < 16) (ha : a < 16)
    (hlow : b * 16 + c + imm < 256) : opcode (ofFields op a b c imm) = op := by
  rw [opcode, toNat_ofFields hop ha hlow]
  omega

theorem regA_ofFields {op a b c imm : Nat} (hop : op < 16) (ha : a < 16)
    (hlow : b * 16 + c + imm < 256) : regA (ofFields op a b c imm) = a := by
  rw [regA, toNat_ofFields hop ha hlow]
  omega

theorem regB_ofFields {op a b c imm : Nat} (hop : op < 16) (ha : a < 16) (hb : b < 16)
    (hc : c + imm < 16) : regB (ofFields op a b c imm) = b := by
  rw [regB, toNat_ofFields hop ha (by omega)]
  omega

theorem regC_ofFields {op a b c imm : Nat} (hop : op < 16) (ha : a < 16) (hb : b < 16)
    (hc : c + imm < 16) : regC (ofFields op a b c imm) = c + imm := by
  rw [regC, toNat_ofFields hop ha (by omega)]
  omega

theorem toNat_immediate (word : Word) : (immediate word).toNat = regB word * 16 + regC word := by
  have : (immediate word).toNat = word.toNat % 256 := by
    rw [immediate, UInt8.toNat_ofNat_of_lt' (by simp only [UInt8.size]; omega)]
  rw [this, regB, regC]
  omega

theorem toNat_immediate_ofFields {op a b c imm : Nat} (hop : op < 16) (ha : a < 16)
    (hlow : b * 16 + c + imm < 256) :
    (immediate (ofFields op a b c imm)).toNat = b * 16 + c + imm := by
  rw [toNat_immediate, regB, regC, toNat_ofFields hop ha hlow]
  omega

end Word

end ByteMachine

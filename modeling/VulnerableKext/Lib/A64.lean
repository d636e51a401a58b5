import VulnerableKext.Lib.BitField

/-!
# Instruction words

The encodings of a few A64 instructions, each put together from its fields, from the top of
the word to its bottom.
-/

namespace VulnerableKext.A64

/-- An instruction with its operands.  The offset of `stp` counts double words. -/
inductive Insn where
  /-- `ADRP Xd, #(imm << 12)` -/
  | adrp (d : BitVec 5) (imm : BitVec 21)
  /-- `ADD Xd, Xn, #imm` -/
  | addImm (d n : BitVec 5) (imm : BitVec 12)
  /-- `SUB Xd, Xn, #imm` -/
  | subImm (d n : BitVec 5) (imm : BitVec 12)
  /-- `STP Xt, Xu, [Xn, #(8 * imm)]` -/
  | stp (t u n : BitVec 5) (imm : BitVec 7)
  /-- `MOV Xd, Xm` -/
  | mov (d m : BitVec 5)
  /-- `NOP` -/
  | nop
deriving DecidableEq

/-- The instruction word. -/
def encode : Insn → BitVec 32
  | .adrp d imm => 0b1#1 ++ imm.extractLsb' 0 2 ++ 0b10000#5 ++ imm.extractLsb' 2 19 ++ d
  | .addImm d n imm => 0b1001000100#10 ++ imm ++ n ++ d
  | .subImm d n imm => 0b1101000100#10 ++ imm ++ n ++ d
  | .stp t u n imm => 0b1010100100#10 ++ imm ++ u ++ n ++ t
  | .mov d m => 0b10101010000#11 ++ m ++ 0b000000#6 ++ 0b11111#5 ++ d
  | .nop => 0xD503201F#32

/-! ## Fields -/

/-- The field of the first register. -/
def rd (w : BitVec 32) : BitVec 5 := w.extractLsb' 0 5

/-- The field of the second register. -/
def rn (w : BitVec 32) : BitVec 5 := w.extractLsb' 5 5

/-- The immediate of an arithmetic instruction. -/
def imm12 (w : BitVec 32) : BitVec 12 := w.extractLsb' 10 12

/-- The immediate of an `ADRP`, whose two parts lie in separate fields. -/
def imm21 (w : BitVec 32) : BitVec 21 := w.extractLsb' 5 19 ++ w.extractLsb' 29 2

section Fields

open BitVec (extractLsb'_append_eq_of_le extractLsb'_append_eq_right)

variable (d n : BitVec 5) (imm : BitVec 12)

@[simp] lemma rd_adrp (imm : BitVec 21) : rd (encode (.adrp d imm)) = d :=
  extractLsb'_append_eq_right

@[simp] lemma imm21_adrp (imm : BitVec 21) : imm21 (encode (.adrp d imm)) = imm := by
  have hhi : (encode (.adrp d imm)).extractLsb' 5 19 = imm.extractLsb' 2 19 :=
    (extractLsb'_append_eq_of_le (le_refl 5)).trans extractLsb'_append_eq_right
  have hlo : (encode (.adrp d imm)).extractLsb' 29 2 = imm.extractLsb' 0 2 :=
    (extractLsb'_append_eq_of_le (show 5 ≤ 29 by decide)).trans <|
      (extractLsb'_append_eq_of_le (show 19 ≤ 24 by decide)).trans <|
        (extractLsb'_append_eq_of_le (le_refl 5)).trans extractLsb'_append_eq_right
  rw [imm21, hhi, hlo]
  exact BitVec.extractLsb'_append_extractLsb'

@[simp] lemma rd_addImm : rd (encode (.addImm d n imm)) = d := extractLsb'_append_eq_right

@[simp] lemma rn_addImm : rn (encode (.addImm d n imm)) = n :=
  (extractLsb'_append_eq_of_le (le_refl 5)).trans extractLsb'_append_eq_right

@[simp] lemma imm12_addImm : imm12 (encode (.addImm d n imm)) = imm :=
  (extractLsb'_append_eq_of_le (show 5 ≤ 10 by decide)).trans <|
    (extractLsb'_append_eq_of_le (le_refl 5)).trans extractLsb'_append_eq_right

end Fields

end VulnerableKext.A64

import VulnerableKext.Kext.Load
import VulnerableKext.Lib.A64

/-!
# Reading instructions

The helpers that the kernel patches are written with: `bits`, `MATCH` and
`RESOLVE_ADRP_ADD`.  An instruction stream is a pointer into memory, and `insn[i]` is the
word at the `i`-th place before or after it.
-/

namespace VulnerableKext.Patch

open Memory Kext A64 BitField

/-- `bits`: extract bits from an integer.  The shifts of a signed integer are the arithmetic
shifts of a two's complement machine. -/
def bits (x : BitVec 64) (sign hi lo shift : ℕ) : BitVec 64 :=
  let d := 64 - (hi - lo + 1)
  if sign ≠ 0 then ((x.sshiftRight lo) <<< d).sshiftRight (d - shift)
  else ((x >>> lo) <<< d) >>> (d - shift)

/-- `MATCH`: test whether the instruction matches the specified pattern. -/
def matchInsn (insn match' mask : BitVec 32) : Bool := insn &&& mask = match'

/-- `&insn[i]` -/
def insnPtr (insn : ℕ) (i : ℤ) : ℕ := ((insn + 4 * i) % 2 ^ 64).toNat

/-- `insn[i]` -/
def insnAt (m : Mem) (insn : ℕ) (i : ℤ) : BitVec 32 := BitVec.ofNat 32 (word m (insnPtr insn i) 4)

/-- `RESOLVE_ADRP_ADD`: resolve an ADRP/ADD instruction sequence to the pointer to the target
value; 0 is `NULL`. -/
def resolveAdrpAdd (k : KernelLayout) (m : Mem) (insn : ℕ) : ℕ :=
  let adrp := (insnAt m insn 0).setWidth 64
  let add := (insnAt m insn 1).setWidth 64
  -- all registers must match, and SP is disallowed
  let reg0 := (bits adrp 0 4 0 0).setWidth 32
  let reg1 := (bits add 0 4 0 0).setWidth 32
  let reg2 := (bits add 0 9 5 0).setWidth 32
  if reg0 ≠ reg1 ∨ reg1 ≠ reg2 ∨ reg0 = 0x1f#32 then 0
  else
    let pc := BitVec.ofNat 64 (k.vaForPtr (insnPtr insn 0))
    let imm0 := bits adrp 1 23 5 (12 + 2) ||| bits adrp 0 30 29 12
    let imm1 := bits add 0 21 10 0
    let target := (pc &&& ~~~0xFFF#64) + imm0 + imm1
    k.ptrForVa target.toNat

/-! ## Extracting bits -/

section Bits

variable {hi lo shift : ℕ}

lemma bits_unsigned (x : BitVec 64) (hs : shift + (hi - lo + 1) ≤ 64) :
    bits x 0 hi lo shift = (x.extractLsb' lo (hi - lo + 1)).setWidth 64 <<< shift := by
  have hd : 64 - (hi - lo + 1) + (hi - lo + 1) = 64 := by omega
  rw [bits, if_neg (not_not.2 rfl), ushiftRight_field x hd (by omega)]

lemma bits_signed (x : BitVec 64) {sign : ℕ} (hsign : sign ≠ 0) (hlo : lo ≤ hi) (hhi : hi < 64)
    (hs : shift + (hi - lo + 1) ≤ 64) :
    bits x sign hi lo shift = (x.extractLsb' lo (hi - lo + 1)).signExtend 64 <<< shift := by
  have hd : 64 - (hi - lo + 1) + (hi - lo + 1) = 64 := by omega
  rw [bits, if_pos hsign, sshiftRight_field x (Nat.succ_pos _) (by omega) hd (by omega)]

/-- The double shift cuts out the field, extends it and moves it to its place. -/
lemma bits_eq (x : BitVec 64) (sign : ℕ) (hlo : lo ≤ hi) (hhi : hi < 64)
    (hs : shift + (hi - lo + 1) ≤ 64) :
    bits x sign hi lo shift =
      BitVec.ofInt 64 (fieldValue x (sign ≠ 0) hi lo * 2 ^ shift) := by
  rw [fieldValue]
  rcases Nat.eq_zero_or_pos sign with rfl | hpos
  · rw [bits_unsigned x hs, setWidth_shiftLeft_eq_ofInt _ _ (by omega)]
    rfl
  · rw [bits_signed x hpos.ne' hlo hhi hs, signExtend_shiftLeft_eq_ofInt,
      decide_eq_true hpos.ne', if_pos rfl]
    rfl

end Bits

/-- Register numbers are compared as integers. -/
lemma bits_register (w : BitVec 32) {lo : ℕ} (h : lo + 5 ≤ 32) :
    (bits (w.setWidth 64) 0 (lo + 4) lo 0).setWidth 32 = (w.extractLsb' lo 5).setWidth 32 := by
  have hlen : lo + 4 - lo + 1 = 5 := by omega
  rw [bits_unsigned _ (by omega), hlen, BitVec.shiftLeft_zero,
    BitVec.extractLsb'_setWidth_of_le (by omega), BitVec.setWidth_setWidth_of_le _ (by decide)]

lemma setWidth_inj {a b : BitVec 5} : a.setWidth 32 = b.setWidth 32 ↔ a = b := by
  constructor
  · intro h
    simpa using congrArg (BitVec.setWidth 5) h
  · rintro rfl
    rfl

/-! ## Resolving a target -/

/-- The address of the target: the page of the program counter, moved by the signed number of
pages in the first instruction, and the offset in the second. -/
def adrpAddTarget (pc : ℕ) (adrp add : BitVec 32) : ℕ :=
  (((pc - pc % 4096 : ℕ) + 4096 * (imm21 adrp).toInt + (imm12 add).toNat) % 2 ^ 64 : ℤ).toNat

/-- The two parts of the number of pages are put together, the upper one with its sign. -/
lemma bits_page (adrp : BitVec 32) :
    bits (adrp.setWidth 64) 1 23 5 (12 + 2) ||| bits (adrp.setWidth 64) 0 30 29 12 =
      BitVec.ofInt 64 (4096 * (imm21 adrp).toInt) := by
  have himm : (imm21 adrp).toInt =
      2 ^ 2 * (adrp.extractLsb' 5 19).toInt + (adrp.extractLsb' 29 2).toNat := by
    rw [imm21, BitVec.toInt_append, if_neg (by decide)]
  rw [bits_signed _ one_ne_zero (by decide) (by decide) (by decide),
    bits_unsigned _ (by decide),
    BitVec.extractLsb'_setWidth_of_le (by decide), BitVec.extractLsb'_setWidth_of_le (by decide)]
  rw [or_eq_add_of_split (k := 14)]
  · rw [setWidth_shiftLeft_eq_ofInt _ _ (by decide), signExtend_shiftLeft_eq_ofInt,
      ← BitVec.ofInt_add, himm]
    congr 1
    ring
  · intro i hi
    rw [BitVec.getLsbD_shiftLeft, decide_eq_true hi]
    simp
  · intro i hi
    rw [BitVec.getLsbD_shiftLeft, BitVec.getLsbD_setWidth,
      BitVec.getLsbD_of_ge _ (i - 12) (by omega), Bool.and_false, Bool.and_false]

lemma saForPtr_mod (k : KernelLayout) (ptr : ℕ) : k.saForPtr (ptr % 2 ^ 64) = k.saForPtr ptr := by
  rw [KernelLayout.saForPtr, KernelLayout.saForPtr, sub64, sub64]
  omega

/-- The sum is taken modulo the word size, so a negative number of pages goes backward. -/
lemma toNat_target {pc : ℕ} (hpc : pc < 2 ^ 64) (adrp add : BitVec 32) :
    ((BitVec.ofNat 64 pc &&& ~~~0xFFF#64) +
        (bits (adrp.setWidth 64) 1 23 5 (12 + 2) ||| bits (adrp.setWidth 64) 0 30 29 12) +
        bits (add.setWidth 64) 0 21 10 0).toNat =
      adrpAddTarget pc adrp add := by
  have hpage : BitVec.ofNat 64 pc &&& ~~~0xFFF#64 = BitVec.ofInt 64 ((pc - pc % 4096 : ℕ) : ℤ) := by
    have hmask : (0xFFF#64 : BitVec 64) = BitVec.ofNat 64 (2 ^ 12 - 1) := by decide
    apply BitVec.eq_of_toNat_eq
    rw [hmask, toNat_and_not_mask _ (by decide), BitVec.ofInt_natCast, BitVec.toNat_ofNat,
      BitVec.toNat_ofNat, Nat.mod_eq_of_lt hpc,
      Nat.mod_eq_of_lt (lt_of_le_of_lt (Nat.sub_le _ _) hpc)]
    norm_num
  have hoff : bits (add.setWidth 64) 0 21 10 0 = BitVec.ofInt 64 (imm12 add).toNat := by
    rw [bits_unsigned _ (by decide), BitVec.extractLsb'_setWidth_of_le (by decide),
      setWidth_shiftLeft_eq_ofInt _ _ (by decide), pow_zero, mul_one]
    rfl
  rw [hpage, bits_page, hoff, ← BitVec.ofInt_add, ← BitVec.ofInt_add, BitVec.toNat_ofInt]
  rfl

/-- The pointer to the target when the registers match, and `NULL` otherwise. -/
lemma resolveAdrpAdd_eq (k : KernelLayout) (m : Mem) (insn : ℕ) :
    resolveAdrpAdd k m insn =
      if rd (insnAt m insn 0) = rd (insnAt m insn 1) ∧
          rd (insnAt m insn 1) = rn (insnAt m insn 1) ∧ rd (insnAt m insn 0) ≠ 31 then
        k.ptrForVa (adrpAddTarget (k.vaForPtr insn) (insnAt m insn 0) (insnAt m insn 1))
      else 0 := by
  have hreg0 : (bits ((insnAt m insn 0).setWidth 64) 0 4 0 0).setWidth 32 =
      (rd (insnAt m insn 0)).setWidth 32 := bits_register _ (by decide)
  have hreg1 : (bits ((insnAt m insn 1).setWidth 64) 0 4 0 0).setWidth 32 =
      (rd (insnAt m insn 1)).setWidth 32 := bits_register _ (by decide)
  have hreg2 : (bits ((insnAt m insn 1).setWidth 64) 0 9 5 0).setWidth 32 =
      (rn (insnAt m insn 1)).setWidth 32 := bits_register _ (by decide)
  have hsp : (0x1f#32 : BitVec 32) = (31#5).setWidth 32 := by decide
  have hpc : k.vaForPtr (insnPtr insn 0) = k.vaForPtr insn := by
    have hptr : insnPtr insn 0 = insn % 2 ^ 64 := by
      rw [insnPtr]
      omega
    rw [hptr, KernelLayout.vaForPtr, saForPtr_mod]
    rfl
  rw [resolveAdrpAdd]
  dsimp only
  rw [hreg0, hreg1, hreg2, hsp, hpc]
  simp only [ne_eq, setWidth_inj]
  by_cases hregs : rd (insnAt m insn 0) = rd (insnAt m insn 1) ∧
      rd (insnAt m insn 1) = rn (insnAt m insn 1) ∧ rd (insnAt m insn 0) ≠ 31
  · obtain ⟨h01, h12, hne⟩ := hregs
    have hlt : k.vaForPtr insn < 2 ^ 64 := Nat.mod_lt _ (by decide)
    rw [if_neg, if_pos ⟨h01, h12, hne⟩, toNat_target hlt]
    rintro (h | h | h)
    · exact h h01
    · exact h h12
    · exact hne h
  · rw [if_neg hregs, if_pos]
    by_contra hall
    push Not at hall
    exact hregs hall

/-- `bits` extracts a field, and the pair of an `ADRP` and an `ADD` is resolved to the pointer
to the address that the two instructions compute. -/
theorem bits_and_resolveAdrpAdd :
    (∀ (x : BitVec 64) (sign hi lo shift : ℕ), lo ≤ hi → hi < 64 →
      shift + (hi - lo + 1) ≤ 64 →
      bits x sign hi lo shift = BitVec.ofInt 64 (fieldValue x (sign ≠ 0) hi lo * 2 ^ shift)) ∧
    ∀ (k : KernelLayout) (m : Mem) (insn : ℕ) (d d' n : BitVec 5) (pages : BitVec 21)
      (off : BitVec 12), insnAt m insn 0 = encode (.adrp d pages) →
      insnAt m insn 1 = encode (.addImm d' n off) →
      resolveAdrpAdd k m insn =
        if d = d' ∧ d' = n ∧ d ≠ 31 then
          k.ptrForVa (((k.vaForPtr insn - k.vaForPtr insn % 4096 : ℕ) + 4096 * pages.toInt +
            off.toNat) % 2 ^ 64 : ℤ).toNat
        else 0 := by
  refine ⟨fun x sign hi lo shift => bits_eq x sign, ?_⟩
  intro k m insn d d' n pages off hadrp hadd
  rw [resolveAdrpAdd_eq, adrpAddTarget, hadrp, hadd, rd_adrp, rd_addImm, rn_addImm, imm21_adrp,
    imm12_addImm]

/-- A target one page before the code: `ADRP X1, #-0x1000` and `ADD X1, X1, #0x10`. -/
theorem bits_and_resolveAdrpAdd_backward :
    bits 0xF0F0#64 1 7 4 12 = BitVec.ofInt 64 (-0x1000) ∧
    resolveAdrpAdd ⟨0x2000, 0⟩ (storeWord (storeWord (fun _ => 0) 0x5008 4 0xF0FFFFE1) 0x500c 4
      0x91004021) 0x5008 = 0x4010 := by
  obtain ⟨hbits, hresolve⟩ := bits_and_resolveAdrpAdd
  constructor
  · rw [hbits _ _ _ _ _ (by decide) (by decide) (by decide)]
    decide
  · rw [hresolve ⟨0x2000, 0⟩ _ 0x5008 1 1 1 (-1) 0x10 (by decide +kernel) (by decide +kernel)]
    decide +kernel

end VulnerableKext.Patch

import Mathlib

/-!
# Bit fields

A field of a machine word is cut out of it by two shifts: the first one moves the field to
the top of the word and drops what is above it, the second one moves it down to where it is
wanted.  Both shifts down are logical or both are arithmetic, and accordingly the field is
extended by zeros or by its sign.
-/

namespace VulnerableKext.BitField

variable {n : ℕ}

/-- The value of the field `x[hi:lo]`, as a signed or as an unsigned number. -/
def fieldValue (x : BitVec n) (signed : Bool) (hi lo : ℕ) : ℤ :=
  if signed then (x.extractLsb hi lo).toInt else (x.extractLsb hi lo).toNat

section Shifts

variable {lo w d shift : ℕ}

/-- The field of `w` bits from `lo` on by logical shifts is extended by zeros. -/
lemma ushiftRight_field (x : BitVec n) (hd : d + w = n) (hs : shift ≤ d) :
    ((x >>> lo) <<< d) >>> (d - shift) = (x.extractLsb' lo w).setWidth n <<< shift := by
  apply BitVec.eq_of_getLsbD_eq
  intro i hi
  simp only [BitVec.getLsbD_ushiftRight, BitVec.getLsbD_shiftLeft, BitVec.getLsbD_setWidth,
    BitVec.getLsbD_extractLsb', hi, decide_true, Bool.true_and]
  rcases Nat.lt_or_ge i shift with hlt | hge
  · have hbelow : d - shift + i < d := by omega
    simp only [hlt, hbelow, decide_true, Bool.not_true, Bool.and_false, Bool.false_and]
  · -- from `shift` on, bit `i` is bit `i - shift` of the field
    have hidx : lo + (d - shift + i - d) = lo + (i - shift) := by omega
    have hwidth : d - shift + i < n ↔ i - shift < w := by omega
    have habove : ¬ d - shift + i < d := by omega
    have hlt : i - shift < n := by omega
    simp only [hidx, hwidth, habove, hlt, Nat.not_lt.2 hge, decide_true, decide_false,
      Bool.not_false, Bool.and_true, Bool.true_and]

/-- The sign of a field is its top bit. -/
lemma msb_extractLsb' (x : BitVec n) (hw : 0 < w) :
    (x.extractLsb' lo w).msb = x.getLsbD (lo + (w - 1)) := by
  rw [BitVec.msb_eq_getLsbD_last, BitVec.getLsbD_extractLsb', decide_eq_true (by omega),
    Bool.true_and]

/-- The field of `w` bits from `lo` on by arithmetic shifts is extended by its sign. -/
lemma sshiftRight_field (x : BitVec n) (hw : 0 < w) (hlo : lo + w ≤ n) (hd : d + w = n)
    (hs : shift ≤ d) :
    ((x.sshiftRight lo) <<< d).sshiftRight (d - shift) =
      (x.extractLsb' lo w).signExtend n <<< shift := by
  have hbit : ∀ j < w, ((x.sshiftRight lo) <<< d).getLsbD (d + j) = x.getLsbD (lo + j) := by
    intro j hj
    rw [BitVec.getLsbD_shiftLeft, BitVec.getLsbD_sshiftRight, Nat.add_sub_cancel_left,
      if_pos (by omega), decide_eq_true (by omega), decide_eq_false (by omega),
      decide_eq_false (by omega)]
    rfl
  have hmsb : ((x.sshiftRight lo) <<< d).msb = x.getLsbD (lo + (w - 1)) := by
    rw [BitVec.msb_eq_getLsbD_last, ← hbit (w - 1) (by omega)]
    congr 1
    omega
  apply BitVec.eq_of_getLsbD_eq
  intro i hi
  rw [BitVec.getLsbD_sshiftRight, hmsb, BitVec.getLsbD_shiftLeft ((x.extractLsb' lo w).signExtend n),
    BitVec.getLsbD_signExtend, msb_extractLsb' x hw, BitVec.getLsbD_extractLsb']
  simp only [hi, Nat.not_le.2 hi, decide_true, decide_false, Bool.not_false, Bool.true_and]
  rcases Nat.lt_or_ge i shift with hlt | hge
  · rw [if_pos (by omega), BitVec.getLsbD_shiftLeft, decide_eq_true hlt,
      decide_eq_true (show d - shift + i < d by omega)]
    simp only [Bool.not_true, Bool.and_false, Bool.false_and]
  · rw [decide_eq_false (Nat.not_lt.2 hge), decide_eq_true (show i - shift < n by omega)]
    simp only [Bool.not_false, Bool.true_and]
    -- bit `i` is inside of the field, or one of the copies of its sign
    rcases Nat.lt_or_ge (i - shift) w with hin | hout
    · rw [if_pos (by omega), if_pos hin, decide_eq_true hin, Bool.true_and, ← hbit _ hin]
      congr 1
      omega
    · rw [if_neg (by omega), if_neg (by omega)]

lemma setWidth_shiftLeft_eq_ofInt (y : BitVec w) (shift : ℕ) (hw : w ≤ n) :
    y.setWidth n <<< shift = BitVec.ofInt n (y.toNat * 2 ^ shift) := by
  apply BitVec.eq_of_toNat_eq
  have hy : y.toNat < 2 ^ n := lt_of_lt_of_le y.isLt (Nat.pow_le_pow_right (by decide) hw)
  have hcast : ((y.toNat : ℤ) * 2 ^ shift) = ((y.toNat * 2 ^ shift : ℕ) : ℤ) := by push_cast; rfl
  rw [BitVec.toNat_shiftLeft, BitVec.toNat_setWidth, Nat.mod_eq_of_lt hy, Nat.shiftLeft_eq, hcast,
    BitVec.ofInt_natCast, BitVec.toNat_ofNat]

lemma signExtend_shiftLeft_eq_ofInt (y : BitVec w) (shift : ℕ) :
    y.signExtend n <<< shift = BitVec.ofInt n (y.toInt * 2 ^ shift) := by
  have hpow : BitVec.ofInt n (2 ^ shift) = BitVec.twoPow n shift := by
    have hcast : (2 ^ shift : ℤ) = ((2 ^ shift : ℕ) : ℤ) := by push_cast; rfl
    apply BitVec.eq_of_toNat_eq
    rw [hcast, BitVec.ofInt_natCast, BitVec.toNat_ofNat, BitVec.toNat_twoPow]
  rw [BitVec.ofInt_mul, hpow, BitVec.mul_twoPow_eq_shiftLeft]
  rfl

end Shifts

/-! ## Words put together from fields -/

/-- Two words without a common bit are put together by an addition. -/
lemma or_eq_add_of_split {x y : BitVec n} {k : ℕ} (hx : ∀ i < k, x.getLsbD i = false)
    (hy : ∀ i, k ≤ i → y.getLsbD i = false) : x ||| y = x + y := by
  refine (BitVec.add_eq_or_of_and_eq_zero x y ?_).symm
  apply BitVec.eq_of_getLsbD_eq
  intro i _
  rw [BitVec.getLsbD_and, BitVec.getLsbD_zero]
  rcases Nat.lt_or_ge i k with hlt | hge
  · rw [hx i hlt, Bool.false_and]
  · rw [hy i hge, Bool.and_false]

/-- A word is what a mask clears in it and what the mask keeps of it. -/
lemma and_not_add_and (x m : BitVec n) : (x &&& ~~~m) + (x &&& m) = x := by
  rw [BitVec.add_eq_or_of_and_eq_zero]
  all_goals
    apply BitVec.eq_of_getLsbD_eq
    intro i hi
    simp only [BitVec.getLsbD_or, BitVec.getLsbD_and, BitVec.getLsbD_not, BitVec.getLsbD_zero, hi,
      decide_true, Bool.true_and]
    cases x.getLsbD i <;> cases m.getLsbD i <;> rfl

/-- Clearing the low `k` bits of a word rounds it down to a multiple of `2 ^ k`. -/
lemma toNat_and_not_mask (x : BitVec n) {k : ℕ} (hk : k ≤ n) :
    (x &&& ~~~ BitVec.ofNat n (2 ^ k - 1)).toNat = x.toNat - x.toNat % 2 ^ k := by
  have hlt : 2 ^ k - 1 < 2 ^ n :=
    lt_of_lt_of_le (Nat.sub_lt (Nat.two_pow_pos k) Nat.one_pos)
      (Nat.pow_le_pow_right (by decide) hk)
  have hmask : (x &&& BitVec.ofNat n (2 ^ k - 1)).toNat = x.toNat % 2 ^ k := by
    rw [BitVec.toNat_and, BitVec.toNat_ofNat, Nat.mod_eq_of_lt hlt, Nat.and_two_pow_sub_one_eq_mod]
  have hadd := congrArg BitVec.toNat (and_not_add_and x (BitVec.ofNat n (2 ^ k - 1)))
  have hle := Nat.mod_le x.toNat (2 ^ k)
  have hx := x.isLt
  have hcleared := (x &&& ~~~ BitVec.ofNat n (2 ^ k - 1)).isLt
  rw [BitVec.toNat_add, hmask] at hadd
  -- the sum does not wrap around, since what was cleared is a part of the word
  generalize (x &&& ~~~ BitVec.ofNat n (2 ^ k - 1)).toNat = a at hadd hcleared ⊢
  rcases Nat.lt_or_ge (a + x.toNat % 2 ^ k) (2 ^ n) with hsum | hsum
  · rw [Nat.mod_eq_of_lt hsum] at hadd
    omega
  · rw [Nat.mod_eq_sub_mod hsum, Nat.mod_eq_of_lt (by omega)] at hadd
    omega

/-! ## Masked patterns -/

/-- A pattern whose mask leaves out exactly the field of `w` bits from `lo` on is matched by
the words that differ from it in that field only. -/
lemma and_eq_iff_exists_field {v m : BitVec n} (lo w : ℕ)
    (hm : ∀ i < n, m.getLsbD i = !(decide (lo ≤ i) && decide (i < lo + w)))
    (hv : ∀ i < n, lo ≤ i → i < lo + w → v.getLsbD i = false) (x : BitVec n) :
    x &&& m = v ↔ ∃ f : BitVec w, x = v ||| f.setWidth n <<< lo := by
  have hf : ∀ (f : BitVec w) (i : ℕ), i < n → (f.setWidth n <<< lo).getLsbD i =
      (!decide (i < lo) && f.getLsbD (i - lo)) := by
    intro f i hi
    rw [BitVec.getLsbD_shiftLeft, BitVec.getLsbD_setWidth, decide_eq_true hi,
      decide_eq_true (show i - lo < n by omega), Bool.true_and, Bool.true_and]
  constructor
  · rintro rfl
    refine ⟨x.extractLsb' lo w, BitVec.eq_of_getLsbD_eq fun i hi => ?_⟩
    rw [BitVec.getLsbD_or, BitVec.getLsbD_and, hf _ i hi, hm i hi, BitVec.getLsbD_extractLsb']
    -- below the field, in it and above it
    rcases Nat.lt_or_ge i lo with hlt | hge
    · simp [hlt, Nat.not_le.2 hlt]
    · rcases Nat.lt_or_ge i (lo + w) with hin | hout
      · simp [hge, hin, show i - lo < w by omega, Nat.add_sub_cancel' hge]
      · simp [Nat.not_lt.2 hout, show ¬ i - lo < w by omega]
  · rintro ⟨f, rfl⟩
    refine BitVec.eq_of_getLsbD_eq fun i hi => ?_
    rw [BitVec.getLsbD_and, BitVec.getLsbD_or, hf f i hi, hm i hi]
    rcases Nat.lt_or_ge i lo with hlt | hge
    · simp [hlt, Nat.not_le.2 hlt]
    · rcases Nat.lt_or_ge i (lo + w) with hin | hout
      · simp [hge, hin, hv i hi hge hin]
      · simp [Nat.not_lt.2 hout, BitVec.getLsbD_of_ge f (i - lo) (by omega)]

end VulnerableKext.BitField

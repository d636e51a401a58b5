import VulnerableKext.Patch.Instructions
import VulnerableKext.Host.TextParser

/-!
# Patching the prologue of OSKext::initWithPrelinkedInfoDict()

The patch goes backward from a matched instruction to the prologue of the function that the
instruction is in, and clears the register that the argument X2 is saved to.  The engine that
patches are given to is not part of the repository: what a patch is, and `xnu_pf_disable_patch`,
are parameters.
-/

namespace VulnerableKext.Patch

open Memory Kext A64 BitField
open Host (ascii)

/-- `strcmp(target, str) == 0` -/
def strcmpEq (m : Mem) (target : ℕ) : List UInt8 → Bool
  | [] => m target == 0
  | c :: str => m target == c && strcmpEq m (target + 1) str

/-- Either of the instructions that signal the prologue:
```
SUB  SP, SP, #0xNNN
STP  X28, X27, [SP,#0xNNN]
```
-/
def isPrologue (insn : BitVec 32) : Bool :=
  matchInsn insn 0xD10003FF#32 0xFFF01FFF#32 || matchInsn insn 0xA9006FFC#32 0xFFC0FFFF#32

/-- The instruction that saves argument X2: `MOV Xn, X2`. -/
def isMovXnX2 (insn : BitVec 32) : Bool := matchInsn insn 0xAA0203E0#32 0xFFFFFFE0#32

def MAX_SEARCH : ℤ := 30

/-- The search backward from `insn[i]` until we get the prologue; `x2Insn` is the instruction that
MOVs from X2, once it is recorded.  There is no result when the limit is exceeded. -/
def searchPrologue (m : Mem) (insn : ℕ) (i : ℤ) (x2Insn : Option ℕ) : Option (Option ℕ) :=
  if i < -MAX_SEARCH then none
  else if isPrologue (insnAt m insn i) then some x2Insn
  else if isMovXnX2 (insnAt m insn i) then searchPrologue m insn (i - 1) (some (insnPtr insn i))
  else searchPrologue m insn (i - 1) x2Insn
termination_by (i + MAX_SEARCH + 1).toNat
decreasing_by all_goals (simp only [MAX_SEARCH] at *; omega)

/-- Called to patch the OSKext::initWithPrelinkedInfoDict() function. -/
def oskextInitPatch {XnuPfPatch : Type} (xnuPfDisablePatch : XnuPfPatch → XnuPfPatch)
    (k : KernelLayout) (patch : XnuPfPatch) (m : Mem) (insn : ℕ) : Bool × XnuPfPatch × Mem :=
  let target := resolveAdrpAdd k m (insnPtr insn 2)
  if target = 0 then (false, patch, m)
  else if strcmpEq m target (ascii "_PrelinkBundlePath") = false then (false, patch, m)
  else
    match searchPrologue m insn 0 none with
    | some (some x2Insn) =>
      let patched := BitVec.ofNat 32 (word m x2Insn 4) ||| 0x001F0000#32
      (true, xnuPfDisablePatch patch, storeWord m x2Insn 4 patched.toNat)
    | _ => (false, patch, m)

/-! ## The patterns -/

/-- The prologue allocates a frame, or saves the first two registers into one. -/
lemma isPrologue_iff (w : BitVec 32) : isPrologue w = true ↔
    (∃ x : BitVec 7, w = encode (.subImm 31 31 (0#2 ++ x ++ 0#3))) ∨
      ∃ y : BitVec 6, w = encode (.stp 28 27 31 (y ++ 0#1)) := by
  have hsub : ∀ x : BitVec 7, 0xD10003FF#32 ||| x.setWidth 32 <<< 13 =
      encode (.subImm 31 31 (0#2 ++ x ++ 0#3)) := by
    decide
  have hstp : ∀ y : BitVec 6, 0xA9006FFC#32 ||| y.setWidth 32 <<< 16 =
      encode (.stp 28 27 31 (y ++ 0#1)) := by
    decide
  rw [isPrologue, Bool.or_eq_true, matchInsn, matchInsn, decide_eq_true_iff, decide_eq_true_iff,
    and_eq_iff_exists_field 13 7 (by decide) (by decide),
    and_eq_iff_exists_field 16 6 (by decide) (by decide)]
  simp only [hsub, hstp]

lemma isMovXnX2_iff (w : BitVec 32) : isMovXnX2 w = true ↔ ∃ d, w = encode (.mov d 2) := by
  rw [isMovXnX2, matchInsn, decide_eq_true_iff,
    and_eq_iff_exists_field 0 5 (by decide) (by decide)]
  have henc : ∀ d : BitVec 5, 0xAA0203E0#32 ||| d.setWidth 32 <<< 0 = encode (.mov d 2) := by
    decide
  simp only [henc]

/-- No instruction matches both of two patterns that differ where both masks look. -/
lemma not_matchInsn_both {w v v' mask mask' : BitVec 32} (h : v &&& mask' ≠ v' &&& mask) :
    ¬ (matchInsn w v mask = true ∧ matchInsn w v' mask' = true) := by
  rintro ⟨hv, hv'⟩
  rw [matchInsn, decide_eq_true_iff] at hv hv'
  rw [← hv, ← hv', BitVec.and_assoc, BitVec.and_assoc, BitVec.and_comm mask] at h
  exact h rfl

/-- The three patterns exclude each other, so the order in which they are tested is of no
consequence. -/
lemma patterns_exclusive (w : BitVec 32) :
    ¬ (matchInsn w 0xD10003FF#32 0xFFF01FFF#32 = true ∧
      matchInsn w 0xA9006FFC#32 0xFFC0FFFF#32 = true) ∧
    ¬ (isPrologue w = true ∧ isMovXnX2 w = true) := by
  refine ⟨not_matchInsn_both (by decide), ?_⟩
  rintro ⟨hp, hm⟩
  rcases Bool.or_eq_true _ _ ▸ hp with hsub | hstp
  · exact not_matchInsn_both (by decide) ⟨hsub, hm⟩
  · exact not_matchInsn_both (by decide) ⟨hstp, hm⟩

/-- The rewrite of the `MOV` turns its source into the zero register. -/
lemma mov_or (d : BitVec 5) : encode (.mov d 2) ||| 0x001F0000#32 = encode (.mov d 31) := by
  revert d
  decide

/-- The two instructions differ in the field of the source register only. -/
lemma getLsbD_mov (d : BitVec 5) {b : ℕ} (hb : b < 16 ∨ 21 ≤ b) :
    (encode (.mov d 31)).getLsbD b = (encode (.mov d 2)).getLsbD b := by
  have hmask : (0x001F0000#32).getLsbD b = false := by
    have hfield : 0x001F0000#32 = (31#5).setWidth 32 <<< 16 := by decide
    rw [hfield, BitVec.getLsbD_shiftLeft, BitVec.getLsbD_setWidth]
    rcases hb with hlt | hge
    · rw [decide_eq_true hlt, Bool.not_true, Bool.and_false, Bool.false_and]
    · rw [BitVec.getLsbD_of_ge _ (b - 16) (by omega), Bool.and_false, Bool.and_false]
  rw [← mov_or, BitVec.getLsbD_or, hmask, Bool.or_false]

lemma strcmpEq_iff (m : Mem) (a : ℕ) (s : List UInt8) :
    strcmpEq m a s = true ↔ HoldsAt m a (s ++ [0]) := by
  induction s generalizing a with
  | nil =>
    rw [strcmpEq, beq_iff_eq, List.nil_append, holdsAt_cons]
    exact (and_iff_left nofun).symm
  | cons c s ih =>
    rw [strcmpEq, Bool.and_eq_true, beq_iff_eq, ih, List.cons_append, holdsAt_cons]

/-! ## The search -/

/-- The nearest prologue instruction at or before `insn[-n]` is `insn[-j]`. -/
structure NearestPrologue (m : Mem) (insn n j : ℕ) : Prop where
  le : n ≤ j
  limit : j ≤ 30
  prologue : isPrologue (insnAt m insn (-j)) = true
  nearest : ∀ i, n ≤ i → i < j → isPrologue (insnAt m insn (-i)) = false

/-- The `MOV Xn, X2` in `insn[-j+1], …, insn[-n]` that is closest to `insn[-j]` is `insn[-i]`. -/
structure ClosestMov (m : Mem) (insn n j i : ℕ) : Prop where
  le : n ≤ i
  lt : i < j
  mov : isMovXnX2 (insnAt m insn (-i)) = true
  closest : ∀ i', i < i' → i' < j → isMovXnX2 (insnAt m insn (-i')) = false

/-- What is recorded between `insn[-n]` and the prologue `insn[-j]`, when it was `x2Insn` before:
the closest `MOV`, if there is one. -/
def Recorded (m : Mem) (insn n j : ℕ) (x2Insn r : Option ℕ) : Prop :=
  (∃ i, ClosestMov m insn n j i ∧ r = some (insnPtr insn (-i))) ∨
    ((∀ i, n ≤ i → i < j → isMovXnX2 (insnAt m insn (-i)) = false) ∧ r = x2Insn)

section Search

variable {m : Mem} {insn n j : ℕ} {x2Insn r : Option ℕ}

lemma nearestPrologue_succ_iff (h : isPrologue (insnAt m insn (-n)) = false) :
    NearestPrologue m insn (n + 1) j ↔ NearestPrologue m insn n j := by
  constructor
  · intro hj
    refine ⟨by have := hj.le; omega, hj.limit, hj.prologue, fun i hi hij => ?_⟩
    rcases Nat.eq_or_lt_of_le hi with rfl | hlt
    · exact h
    · exact hj.nearest i hlt hij
  · intro hj
    have hne : n ≠ j := by
      rintro rfl
      exact absurd hj.prologue (by rw [h]; decide)
    exact ⟨lt_of_le_of_ne hj.le hne, hj.limit, hj.prologue, fun i hi => hj.nearest i (by omega)⟩

lemma NearestPrologue.unique {j' : ℕ} (h : NearestPrologue m insn n j)
    (h' : NearestPrologue m insn n j') : j = j' := by
  by_contra hne
  rcases Nat.lt_or_gt_of_ne hne with hlt | hlt
  · exact absurd h.prologue (by rw [h'.nearest j h.le hlt]; decide)
  · exact absurd h'.prologue (by rw [h.nearest j' h'.le hlt]; decide)

lemma ClosestMov.of_succ {i : ℕ} (h : ClosestMov m insn (n + 1) j i) : ClosestMov m insn n j i :=
  ⟨by have := h.le; omega, h.lt, h.mov, h.closest⟩

/-- A `MOV` is recorded until a later one is met. -/
lemma recorded_succ_of_mov (hj : n < j) (h : isMovXnX2 (insnAt m insn (-n)) = true) :
    Recorded m insn (n + 1) j (some (insnPtr insn (-n))) r ↔ Recorded m insn n j x2Insn r := by
  constructor
  · rintro (⟨i, hi, rfl⟩ | ⟨hnone, rfl⟩)
    · exact Or.inl ⟨i, hi.of_succ, rfl⟩
    · exact Or.inl ⟨n, ⟨le_rfl, hj, h, hnone⟩, rfl⟩
  · rintro (⟨i, hi, rfl⟩ | ⟨hnone, -⟩)
    · rcases Nat.eq_or_lt_of_le hi.le with rfl | hlt
      · exact Or.inr ⟨hi.closest, rfl⟩
      · exact Or.inl ⟨i, ⟨hlt, hi.lt, hi.mov, hi.closest⟩, rfl⟩
    · exact absurd h (by rw [hnone n le_rfl hj]; decide)

lemma recorded_succ_of_not_mov (h : isMovXnX2 (insnAt m insn (-n)) = false) :
    Recorded m insn (n + 1) j x2Insn r ↔ Recorded m insn n j x2Insn r := by
  constructor
  · rintro (⟨i, hi, rfl⟩ | ⟨hnone, rfl⟩)
    · exact Or.inl ⟨i, hi.of_succ, rfl⟩
    · refine Or.inr ⟨fun i hi hij => ?_, rfl⟩
      rcases Nat.eq_or_lt_of_le hi with rfl | hlt
      · exact h
      · exact hnone i hlt hij
  · rintro (⟨i, hi, rfl⟩ | ⟨hnone, rfl⟩)
    · have hne : n ≠ i := by
        rintro rfl
        exact absurd hi.mov (by rw [h]; decide)
      exact Or.inl ⟨i, ⟨lt_of_le_of_ne hi.le hne, hi.lt, hi.mov, hi.closest⟩, rfl⟩
    · exact Or.inr ⟨fun i hi => hnone i (by omega), rfl⟩

/-- The search ends at the nearest prologue within the limit, with what is recorded there. -/
lemma searchPrologue_eq_some_iff (hn : n ≤ 31) :
    searchPrologue m insn (-n) x2Insn = some r ↔
      ∃ j, NearestPrologue m insn n j ∧ Recorded m insn n j x2Insn r := by
  -- the induction is on the number of instructions that are left
  obtain ⟨left, hleft⟩ : ∃ left, n + left = 31 := ⟨31 - n, by omega⟩
  induction left generalizing n x2Insn with
  | zero =>
    rw [searchPrologue, if_pos (by simp only [MAX_SEARCH]; omega)]
    constructor
    · nofun
    · rintro ⟨j, hj, -⟩
      have h₁ := hj.le
      have h₂ := hj.limit
      omega
  | succ left ih =>
    have hnext : -(n : ℤ) - 1 = -((n + 1 : ℕ) : ℤ) := by push_cast; ring
    rw [searchPrologue, if_neg (by simp only [MAX_SEARCH]; omega), hnext]
    by_cases hp : isPrologue (insnAt m insn (-n)) = true
    · rw [if_pos hp]
      constructor
      · rintro ⟨⟩
        exact ⟨n, ⟨le_rfl, by omega, hp, fun i hi hin => by omega⟩,
          Or.inr ⟨fun i hi hin => by omega, rfl⟩⟩
      · rintro ⟨j, hj, hr⟩
        -- the prologue is the instruction itself, so nothing lies in between
        obtain rfl : n = j := by
          by_contra hne
          exact absurd hp (by rw [hj.nearest n le_rfl (lt_of_le_of_ne hj.le hne)]; decide)
        rcases hr with ⟨i, hi, -⟩ | ⟨-, rfl⟩
        · exact absurd hi.lt (Nat.not_lt.2 hi.le)
        · rfl
    · rw [if_neg hp]
      rw [Bool.not_eq_true] at hp
      have hstep : ∀ x, (∀ j, n < j → (Recorded m insn (n + 1) j x r ↔ Recorded m insn n j x2Insn r)) →
          (searchPrologue m insn (-(n + 1 : ℕ)) x = some r ↔
            ∃ j, NearestPrologue m insn n j ∧ Recorded m insn n j x2Insn r) := by
        intro x hx
        rw [ih (by omega) (by omega)]
        refine exists_congr fun j => ?_
        rw [← nearestPrologue_succ_iff hp]
        exact and_congr_right fun hj => hx j hj.le
      by_cases hm : isMovXnX2 (insnAt m insn (-n)) = true
      · rw [if_pos hm]
        exact hstep _ fun j hj => recorded_succ_of_mov hj hm
      · rw [if_neg hm]
        exact hstep _ fun j _ => recorded_succ_of_not_mov (Bool.not_eq_true _ ▸ hm)

lemma exists_closestMov_iff :
    (∃ i, ClosestMov m insn 0 j i) ↔ ∃ i < j, isMovXnX2 (insnAt m insn (-(i : ℕ))) = true := by
  constructor
  · rintro ⟨i, hi⟩
    exact ⟨i, hi.lt, hi.mov⟩
  · rintro ⟨i, hij, hi⟩
    let P : ℕ → Prop := fun i => isMovXnX2 (insnAt m insn (-i)) = true
    have hle : i ≤ j - 1 := by omega
    have hg : P (Nat.findGreatest P (j - 1)) := Nat.findGreatest_spec hle hi
    have hgj := Nat.findGreatest_le (P := P) (j - 1)
    refine ⟨Nat.findGreatest P (j - 1), Nat.zero_le _, by omega, hg, fun i' hi' hlt => ?_⟩
    have hnot : ¬ P i' := Nat.findGreatest_is_greatest hi' (by omega)
    exact Bool.not_eq_true _ ▸ hnot

end Search

/-! ## The patch -/

/-- The instructions at `insn[2]` resolve to the string. -/
def ResolvesToPath (k : KernelLayout) (m : Mem) (insn : ℕ) : Prop :=
  resolveAdrpAdd k m (insnPtr insn 2) ≠ 0 ∧
    HoldsAt m (resolveAdrpAdd k m (insnPtr insn 2)) (ascii "_PrelinkBundlePath" ++ [0])

/-- The memory after the instruction at `x2Insn` is patched. -/
def patchMov (m : Mem) (x2Insn : ℕ) : Mem :=
  storeWord m x2Insn 4 (BitVec.ofNat 32 (word m x2Insn 4) ||| 0x001F0000#32).toNat

section Patch

variable {XnuPfPatch : Type} (xnuPfDisablePatch : XnuPfPatch → XnuPfPatch) (k : KernelLayout)
  (patch : XnuPfPatch) (m : Mem) (insn : ℕ)

lemma oskextInitPatch_of_search {x2Insn : ℕ} (hres : ResolvesToPath k m insn)
    (hs : searchPrologue m insn 0 none = some (some x2Insn)) :
    oskextInitPatch xnuPfDisablePatch k patch m insn =
      (true, xnuPfDisablePatch patch, patchMov m x2Insn) := by
  obtain ⟨hne, hstr⟩ := hres
  rw [oskextInitPatch]
  dsimp only
  rw [if_neg hne, (strcmpEq_iff _ _ _).2 hstr, if_neg (by decide), hs]
  rfl

/-- In every other case the patch gives up. -/
lemma oskextInitPatch_of_not
    (h : ¬ (ResolvesToPath k m insn ∧ ∃ p, searchPrologue m insn 0 none = some (some p))) :
    oskextInitPatch xnuPfDisablePatch k patch m insn = (false, patch, m) := by
  rw [oskextInitPatch]
  dsimp only
  split_ifs with hnull hstr
  · rfl
  · rfl
  · rw [Bool.not_eq_false, strcmpEq_iff] at hstr
    have hsearch : ∀ p, searchPrologue m insn 0 none ≠ some (some p) := fun p hp =>
      h ⟨⟨hnull, hstr⟩, p, hp⟩
    match hs : searchPrologue m insn 0 none with
    | none => rfl
    | some none => rfl
    | some (some p) => exact absurd hs (hsearch p)

lemma searchPrologue_zero_iff (p : ℕ) :
    searchPrologue m insn 0 none = some (some p) ↔
      ∃ j i, NearestPrologue m insn 0 j ∧ ClosestMov m insn 0 j i ∧ p = insnPtr insn (-i) := by
  have h : searchPrologue m insn (-(0 : ℕ)) none = some (some p) ↔
      ∃ j, NearestPrologue m insn 0 j ∧ Recorded m insn 0 j none (some p) :=
    searchPrologue_eq_some_iff (Nat.zero_le 31)
  rw [Nat.cast_zero, neg_zero] at h
  rw [h]
  constructor
  · rintro ⟨j, hj, ⟨i, hi, hp⟩ | ⟨-, hp⟩⟩
    · exact ⟨j, i, hj, hi, Option.some.inj hp⟩
    · cases hp
  · rintro ⟨j, i, hj, hi, rfl⟩
    exact ⟨j, hj, Or.inl ⟨i, hi, rfl⟩⟩

/-- The patched word, with the instruction that it was. -/
lemma insnAt_patchMov {i : ℤ} {d : BitVec 5} (h : insnAt m insn i = encode (.mov d 2)) :
    insnAt (patchMov m (insnPtr insn i)) insn i = encode (.mov d 31) := by
  have hword : BitVec.ofNat 32 (word m (insnPtr insn i) 4) = encode (.mov d 2) := h
  have hlt : (encode (.mov d 31)).toNat < 256 ^ 4 := (encode (.mov d 31)).isLt
  rw [insnAt, patchMov, word_storeWord, hword, mov_or, Nat.mod_eq_of_lt hlt, BitVec.ofNat_toNat,
    BitVec.setWidth_eq]

/-- The patch either leaves everything as it is, or changes the `MOV` that saves X2 next to the
prologue into one from the zero register, and no other byte of memory. -/
theorem oskextInitPatch_patches_mov :
    ((oskextInitPatch xnuPfDisablePatch k patch m insn).1 = true ↔
      ResolvesToPath k m insn ∧
        ∃ j, NearestPrologue m insn 0 j ∧ ∃ i < j, isMovXnX2 (insnAt m insn (-(i : ℕ))) = true) ∧
    (oskextInitPatch xnuPfDisablePatch k patch m insn = (false, patch, m) ∨
      ∃ j i d m', NearestPrologue m insn 0 j ∧ ClosestMov m insn 0 j i ∧
        oskextInitPatch xnuPfDisablePatch k patch m insn = (true, xnuPfDisablePatch patch, m') ∧
        insnAt m insn (-i) = encode (.mov d 2) ∧ insnAt m' insn (-i) = encode (.mov d 31) ∧
        insnAt m' insn (-i) ≠ insnAt m insn (-i) ∧
        (∀ b, b < 16 ∨ 21 ≤ b →
          (insnAt m' insn (-i)).getLsbD b = (insnAt m insn (-i)).getLsbD b) ∧
        ∀ a, a < insnPtr insn (-i) ∨ insnPtr insn (-i) + 4 ≤ a → m' a = m a) := by
  have hne : ∀ d : BitVec 5, encode (.mov d 31) ≠ encode (.mov d 2) := by decide
  by_cases h : ResolvesToPath k m insn ∧ ∃ p, searchPrologue m insn 0 none = some (some p)
  · obtain ⟨hres, p, hp⟩ := h
    obtain ⟨j, i, hj, hi, rfl⟩ := (searchPrologue_zero_iff m insn p).1 hp
    obtain ⟨d, hd⟩ := (isMovXnX2_iff _).1 hi.mov
    have heq := oskextInitPatch_of_search xnuPfDisablePatch k patch m insn hres hp
    have hnew := insnAt_patchMov m insn hd
    refine ⟨?_, Or.inr ⟨j, i, d, _, hj, hi, heq, hd, hnew, ?_, ?_, ?_⟩⟩
    · rw [heq]
      exact ⟨fun _ => ⟨hres, j, hj, i, hi.lt, hi.mov⟩, fun _ => rfl⟩
    · rw [hnew, hd]
      exact hne d
    · rw [hnew, hd]
      exact fun b hb => getLsbD_mov d hb
    · intro a ha
      exact storeWord_apply_of_out ha
  · have heq := oskextInitPatch_of_not xnuPfDisablePatch k patch m insn h
    refine ⟨?_, Or.inl heq⟩
    rw [heq]
    constructor
    · nofun
    · rintro ⟨hres, j, hj, hmov⟩
      -- the search would have recorded the closest of these instructions
      obtain ⟨i, hi⟩ := exists_closestMov_iff.2 hmov
      exact absurd ⟨hres, _, (searchPrologue_zero_iff m insn _).2 ⟨j, i, hj, hi, rfl⟩⟩ h

end Patch

/-- A function that allocates a frame, saves X2 and uses the string. -/
def smallStream : Mem :=
  let insns : List (BitVec 32) := [
    encode (.subImm 31 31 0x60), -- SUB  SP, SP, #0x60
    encode (.mov 19 2), -- MOV  X19, X2
    0xF9400008#32, -- LDR  X8, [X0]
    0xF9408108#32, -- LDR  X8, [X8,#0x100]
    encode (.adrp 1 0), -- ADRP X1, #0
    encode (.addImm 1 1 0x100)] -- ADD  X1, X1, #0x100
  storeBytes (storeBytes (fun _ => 0) 0x10000 (insns.flatMap fun w => Bytes.leBytes 4 w.toNat))
    0x10100 (ascii "_PrelinkBundlePath")

/-- The kernel is mapped where its addresses say. -/
def smallLayout : KernelLayout := ⟨0xfffffff007004000, 0⟩

/-- The patch, whose only field says whether it is matched, fires and is disabled, and X19 is
cleared. -/
theorem oskextInitPatch_patches_small :
    ∃ m', oskextInitPatch (fun _ => false) smallLayout true smallStream 0x10008 =
        (true, false, m') ∧
      insnAt smallStream 0x10008 (-1) = encode (.mov 19 2) ∧
      insnAt m' 0x10008 (-1) = encode (.mov 19 31) := by
  have hstring : strcmpEq smallStream (resolveAdrpAdd smallLayout smallStream (insnPtr 0x10008 2))
      (ascii "_PrelinkBundlePath") = true := by
    decide +kernel
  have hres : ResolvesToPath smallLayout smallStream 0x10008 :=
    ⟨by decide +kernel, (strcmpEq_iff _ _ _).1 hstring⟩
  have hprologue : NearestPrologue smallStream 0x10008 0 2 := by
    refine ⟨by decide, by decide, by decide +kernel, fun i _ hi => ?_⟩
    interval_cases i
    · decide +kernel
    · decide +kernel
  obtain ⟨hiff, hpatched⟩ :=
    oskextInitPatch_patches_mov (fun _ => false) smallLayout true smallStream 0x10008
  have htrue := hiff.2 ⟨hres, 2, hprologue, 1, by decide, by decide +kernel⟩
  rcases hpatched with hfalse | ⟨j, i, d, m', hj, hi, heq, hold, hnew, -⟩
  · rw [hfalse] at htrue
    cases htrue
  · obtain rfl : j = 2 := hj.unique hprologue
    obtain rfl : i = 1 := by
      have hlt := hi.lt
      interval_cases i
      · exact absurd hi.mov (by decide +kernel)
      · rfl
    have hword : insnAt smallStream 0x10008 (-1) = encode (.mov 19 2) := by decide +kernel
    have hd : ∀ d, encode (.mov 19 2) = encode (.mov d 2) → d = 19 := by decide
    rw [Nat.cast_one] at hold hnew
    obtain rfl := hd d (hword.symm.trans hold)
    exact ⟨m', heq, hold, hnew⟩

end VulnerableKext.Patch

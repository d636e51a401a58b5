import VulnerableKext.Lib.MaskPatch
import VulnerableKext.Patch.OskextInit
import VulnerableKext.Patch.XnuPf

/-!
# The kernel patches

Before the kernel is booted, three patches are applied to its text.  Two of them replace the
instructions that lock the memory of the kernel down, and the third one is the patch of
OSKext::initWithPrelinkedInfoDict().  With any engine that behaves as `XnuPf.Spec` says, the lockdown
is gone when the kernel is booted.
-/

namespace VulnerableKext.Patch

open Memory Kext A64 BitField
open Host (ascii)

variable {XnuPfPatch XnuPfPatchset : Type}

/-- Store a NOP to `insn[i]`, for each of the given `i`. -/
def storeNops (m : Mem) (insn : ℕ) (is : List ℕ) : Mem :=
  is.foldl (fun m (i : ℕ) => storeWord m (insnPtr insn i) 4 0xD503201F) m

/-- Called to patch the KTRR MMU lockdown instruction sequence. -/
def ktrrMmuPatch : PatchCallback XnuPfPatch := fun patch m insn =>
  (true, patch, storeNops m insn [0, 2, 4])

/-- Called to patch the KTRR AMCC lockdown instruction sequence. -/
def ktrrAmccPatch : PatchCallback XnuPfPatch := fun patch m insn =>
  (true, patch, storeNops m insn [0, 2, 3, 4])

def ktrrMmuMatch : List (BitVec 32) := [
  0xD51CF260#32, -- MSR  s3_4_c15_c2_3, Xn
  0x00000000#32, -- ?
  0xD51CF280#32, -- MSR  s3_4_c15_c2_4, Xn
  0x00000000#32, -- ?
  0xD51CF240#32] -- MSR  s3_4_c15_c2_2, Xn

def ktrrMmuMask : List (BitVec 32) :=
  [0xFFFFFFE0#32, 0x00000000#32, 0xFFFFFFE0#32, 0x00000000#32, 0xFFFFFFE0#32]

def ktrrAmccMatch : List (BitVec 32) := [
  0xB907EC00#32, -- STR  Wn, [Xn,#0x7EC]
  0xD5033FDF#32, -- ISB
  0xD51CF260#32, -- MSR  s3_4_c15_c2_3, Xn
  0xD51CF280#32, -- MSR  s3_4_c15_c2_4, Xn
  0xD51CF240#32] -- MSR  s3_4_c15_c2_2, Xn

def ktrrAmccMask : List (BitVec 32) :=
  [0xFFFFFC00#32, 0xFFFFFFFF#32, 0xFFFFFFE0#32, 0xFFFFFFE0#32, 0xFFFFFFE0#32]

def OSKextInitMatch : List (BitVec 32) := [
  0xF9400000#32, -- LDR  Xn, [Xn]
  0xF9400000#32, -- LDR  Xn, [Xn,#0xNNN]
  0x90000001#32, -- ADRP X1, #0xNNN
  0x91000021#32, -- ADD  X1, X1, #0xNNN
  0xAA0003E0#32, -- MOV  X0, Xn
  0xD63F0000#32] -- BLR  Xn

def OSKextInitMask : List (BitVec 32) :=
  [0xFFFFFC00#32, 0xFFFF0000#32, 0x9F00001F#32, 0xFFC003FF#32, 0xFFE0FFFF#32, 0xFFFFFC1F#32]

def ktrrMmu : Maskmatch XnuPfPatch :=
  ⟨ascii "KTRR MMU lockdown", ktrrMmuMatch, ktrrMmuMask, true, ktrrMmuPatch⟩

def ktrrAmcc : Maskmatch XnuPfPatch :=
  ⟨ascii "KTRR AMCC lockdown", ktrrAmccMatch, ktrrAmccMask, true, ktrrAmccPatch⟩

section KextloadPatch

variable (xnuPf : XnuPf XnuPfPatch XnuPfPatchset) (k : KernelLayout)

def OSKextInit : Maskmatch XnuPfPatch :=
  ⟨ascii "OSKext::initWithPrelinkedInfoDict", OSKextInitMatch, OSKextInitMask, true,
    oskextInitPatch xnuPf.disablePatch k⟩

/-- Apply the kernel patches to the `n` words of `__TEXT_EXEC` at `base`. -/
def kextloadPatch (base n : ℕ) (m : Mem) : Option Mem :=
  let patchset := xnuPf.patchsetCreate
  let patchset := xnuPf.maskmatch patchset ktrrMmu
  let patchset := xnuPf.maskmatch patchset ktrrAmcc
  let patchset := xnuPf.maskmatch patchset (OSKextInit xnuPf k)
  xnuPf.apply (xnuPf.emit patchset) base n m

end KextloadPatch

/-! ## The text as words -/

/-- The word at the `x`-th place from `o` on. -/
def textWord (m : Mem) (o x : ℕ) : BitVec 32 := BitVec.ofNat 32 (word m (o + 4 * x) 4)

/-- The `n` words of the text, with what may be read in front of them and behind them. -/
structure TextRange (base n : ℕ) : Prop where
  before : 120 ≤ base
  fits : base + 4 * (n + 5) ≤ 2 ^ 64

section Words

variable {m : Mem} {base n o x y insn p : ℕ} {i : ℤ}

lemma insnPtr_insnPtr (base : ℕ) (p i : ℤ) : insnPtr (insnPtr base p) i = insnPtr base (p + i) := by
  simp only [insnPtr]
  omega

lemma insnAt_insnPtr (m : Mem) (base : ℕ) (p i : ℤ) :
    insnAt m (insnPtr base p) i = insnAt m base (p + i) := by
  rw [insnAt, insnAt, insnPtr_insnPtr]

lemma TextRange.insnPtr_eq (h : TextRange base n) (hlo : -30 ≤ i) (hhi : i < n + 5) :
    insnPtr base i = base - 120 + 4 * (i + 30).toNat := by
  have hbefore := h.before
  have hfits := h.fits
  simp only [insnPtr]
  omega

lemma TextRange.insnAt_eq (h : TextRange base n) (hlo : -30 ≤ i) (hhi : i < n + 5) (m : Mem) :
    insnAt m base i = textWord m (base - 120) (i + 30).toNat := by
  rw [insnAt, textWord, h.insnPtr_eq hlo hhi]

lemma textWord_storeWord (m : Mem) (o x y : ℕ) (b : BitVec 32) :
    textWord (storeWord m (o + 4 * x) 4 b.toNat) o y = if y = x then b else textWord m o y := by
  split_ifs with heq
  · subst heq
    have hlt : b.toNat < 256 ^ 4 := b.isLt
    rw [textWord, word_storeWord, Nat.mod_eq_of_lt hlt, BitVec.ofNat_toNat, BitVec.setWidth_eq]
  · rw [textWord, word_storeWord_of_apart, textWord]
    rcases Nat.lt_or_gt_of_ne heq with hlt | hlt
    · exact Or.inr (by omega)
    · exact Or.inl (by omega)

/-- The NOPs are stored, and nothing else changes. -/
lemma TextRange.storeNops (h : TextRange base n) (hp : p < n) {js : List ℕ} (hjs : ∀ j ∈ js, j < 5)
    (m : Mem) : (∀ x, (∃ j ∈ js, x = p + 30 + j) →
        textWord (storeNops m (insnPtr base p) js) (base - 120) x = encode .nop) ∧
      (∀ x, (¬ ∃ j ∈ js, x = p + 30 + j) →
        textWord (storeNops m (insnPtr base p) js) (base - 120) x = textWord m (base - 120) x) ∧
      ∀ a, a < base ∨ base + 4 * (n + 5) ≤ a → storeNops m (insnPtr base p) js a = m a := by
  have hbefore := h.before
  have hfits := h.fits
  induction js using List.reverseRecOn with
  | nil => exact ⟨by simp, fun x _ => rfl, fun a _ => rfl⟩
  | append_singleton js j ih =>
    obtain ⟨hnops, hkept, hout⟩ := ih fun j hj => hjs j (List.mem_append_left _ hj)
    have hj := hjs j (by simp)
    have hptr : insnPtr (insnPtr base p) j = base - 120 + 4 * (p + 30 + j) := by
      rw [insnPtr_insnPtr, h.insnPtr_eq (by omega) (by omega)]
      omega
    have hstore : Patch.storeNops m (insnPtr base p) (js ++ [j]) =
        storeWord (Patch.storeNops m (insnPtr base p) js) (base - 120 + 4 * (p + 30 + j)) 4
          (encode .nop).toNat := by
      rw [Patch.storeNops, List.foldl_append, List.foldl_cons, List.foldl_nil, hptr]
      rfl
    rw [hstore]
    refine ⟨fun x hx => ?_, fun x hx => ?_, fun a ha => ?_⟩
    · rw [textWord_storeWord]
      split_ifs with heq
      · rfl
      · obtain ⟨j', hj', rfl⟩ := hx
        rcases List.mem_append.1 hj' with hj' | hj'
        · exact hnops _ ⟨j', hj', rfl⟩
        · exact absurd (by rw [List.mem_singleton.1 hj']) heq
    · rw [textWord_storeWord, if_neg fun heq => hx ⟨j, by simp, heq⟩]
      exact hkept x fun ⟨j', hj', heq⟩ => hx ⟨j', List.mem_append_left _ hj', heq⟩
    · rw [storeWord_apply_of_out (by omega)]
      exact hout a ha

end Words

/-! ## The lockdown sequences -/

section Lockdown

open MaskPatch

def mmuLockdown : MaskPatch.Patch 32 := ⟨ktrrMmuMatch.zip ktrrMmuMask, [0, 2, 4]⟩

def amccLockdown : MaskPatch.Patch 32 := ⟨ktrrAmccMatch.zip ktrrAmccMask, [0, 2, 3, 4]⟩

/-- The patches that remove the lockdown, in the order of the patch set. -/
def lockdowns : List (MaskPatch.Patch 32) := [mmuLockdown, amccLockdown]

/-- What the third patch does to a word: `MOV Xn, X2` becomes `MOV Xn, XZR`. -/
def ClearsX2 (a b : BitVec 32) : Prop := ∃ d, a = encode (.mov d 2) ∧ b = encode (.mov d 31)

/-- Sequences that overlap do not lose an instruction to each other, and the third patch touches
none of them. -/
lemma independent_lockdowns : Independent lockdowns (encode .nop) ClearsX2 := by
  have hsource : ∀ d, Unseen lockdowns (encode (.mov d 2)) := by decide +kernel
  have htarget : ∀ d, Unseen lockdowns (encode (.mov d 31)) := by decide +kernel
  have hne : ∀ d, encode (.mov d 2) ≠ encode .nop := by decide +kernel
  have honce : ∀ d d', encode (.mov d 31) ≠ encode (.mov d' 2) := by decide +kernel
  refine ⟨?_, ?_, ?_, ?_, ?_, ?_, ?_⟩
  · decide +kernel
  · decide +kernel
  · decide +kernel
  · rintro _ _ ⟨d, rfl, rfl⟩
    exact hsource d
  · rintro _ _ ⟨d, rfl, rfl⟩
    exact htarget d
  · rintro _ _ ⟨d, rfl, rfl⟩
    exact hne d
  · rintro _ _ _ ⟨d, rfl, rfl⟩ ⟨d', heq, -⟩
    exact honce d d' heq

/-- The words of a pattern are compared one by one, wherever they have been read. -/
lemma matchesWords_iff {matches' masks : List (BitVec 32)} {r : MaskPatch.Patch 32}
    (hq : matches'.zip masks = r.pattern) {words t : ℕ → BitVec 32} {x : ℕ}
    (hwords : ∀ j < r.pattern.length, words j = t (x + j)) :
    matchesWords matches' masks words = true ↔ r.Matches t x := by
  rw [matchesWords, hq, List.all_eq_true]
  constructor
  · intro hall j e he
    -- the pattern is indexed as the words are
    have hmatch := hall (e, j) (List.mem_zipIdx_iff_getElem?.2 he)
    rw [hwords j (List.getElem?_eq_some_iff.1 he).1] at hmatch
    exact of_decide_eq_true hmatch
  · rintro hmatches ⟨e, j⟩ hmem
    have he := List.mem_zipIdx_iff_getElem?.1 hmem
    show matchInsn (words j) e.1 e.2 = true
    rw [hwords j (List.getElem?_eq_some_iff.1 he).1]
    exact decide_eq_true (hmatches j e he)

lemma length_lockdowns : ∀ r ∈ lockdowns, r.pattern.length = 5 := by decide

/-- The words behind a place of the text. -/
lemma TextRange.insnAt_behind {base n p j : ℕ} (h : TextRange base n) (hp : p < n) (hj : j < 5)
    (m : Mem) : insnAt m (insnPtr base p) j = textWord m (base - 120) (p + 30 + j) := by
  rw [insnAt_insnPtr, h.insnAt_eq (by omega) (by omega)]
  congr 1
  omega

/-- A pattern is looked for in the words of the text. -/
lemma TextRange.matchesAt_iff {base n p : ℕ} (h : TextRange base n) (hp : p < n) (m : Mem)
    {r : MaskPatch.Patch 32} (hr : r ∈ lockdowns) {matches' masks : List (BitVec 32)}
    (hq : matches'.zip masks = r.pattern) :
    matchesAt matches' masks m (insnPtr base p) = true ↔
      r.Matches (textWord m (base - 120)) (p + 30) := by
  refine matchesWords_iff hq fun j hj => ?_
  rw [length_lockdowns r hr] at hj
  exact h.insnAt_behind hp hj m

end Lockdown

/-! ## One place -/

/-- The third patch leaves everything as it is, or changes one word in front of the match. -/
lemma TextRange.oskextInitPatch {base n p : ℕ} (h : TextRange base n) (hp : p < n)
    (xnuPfDisablePatch : XnuPfPatch → XnuPfPatch) (k : KernelLayout) (patch : XnuPfPatch) (m : Mem) :
    (Patch.oskextInitPatch xnuPfDisablePatch k patch m (insnPtr base p)).2 = (patch, m) ∨
      ∃ x m', x < n + 30 ∧
      (Patch.oskextInitPatch xnuPfDisablePatch k patch m (insnPtr base p)).2 =
        (xnuPfDisablePatch patch, m') ∧
      ClearsX2 (textWord m (base - 120) x) (textWord m' (base - 120) x) ∧
      (∀ y, y ≠ x → textWord m' (base - 120) y = textWord m (base - 120) y) ∧
      ∀ a, a < base - 120 ∨ base + 4 * (n + 5) ≤ a → m' a = m a := by
  have hbefore := h.before
  have hfits := h.fits
  by_cases hfound : ResolvesToPath k m (insnPtr base p) ∧
      ∃ x, searchPrologue m (insnPtr base p) 0 none = some (some x)
  · right
    obtain ⟨hres, x, hx⟩ := hfound
    obtain ⟨j, i, hj, hi, rfl⟩ := (searchPrologue_zero_iff m _ x).1 hx
    obtain ⟨d, hd⟩ := (isMovXnX2_iff _).1 hi.mov
    have hlt := hi.lt
    have hlimit := hj.limit
    have hptr : insnPtr (insnPtr base p) (-i) = base - 120 + 4 * (p + 30 - i) := by
      rw [insnPtr_insnPtr, h.insnPtr_eq (by omega) (by omega)]
      omega
    have hword (m : Mem) : insnAt m (insnPtr base p) (-i) = textWord m (base - 120) (p + 30 - i) := by
      rw [insnAt, textWord, hptr]
    have hnew := insnAt_patchMov m _ hd
    rw [hword] at hd hnew
    rw [oskextInitPatch_of_search xnuPfDisablePatch k patch m _ hres hx]
    refine ⟨p + 30 - i, _, by omega, rfl, ⟨d, hd, hnew⟩, fun y hy => ?_, fun a ha => ?_⟩
    · rw [patchMov, hptr, textWord_storeWord, if_neg hy]
    · rw [patchMov, hptr]
      exact storeWord_apply_of_out (by omega)
  · left
    rw [oskextInitPatch_of_not xnuPfDisablePatch k patch m _ hfound]

/-! ## Runs of the engine -/

section Runs

open MaskPatch

/-- The places at which the patches that remove the lockdown have been tried. -/
def places (vs : List (ℕ × ℕ)) : List (MaskPatch.Patch 32 × ℕ) :=
  vs.filterMap fun v => lockdowns[v.1]?.map fun r => (r, v.2 + 30)

/-- What holds between two places.  The third patch is tried until it has changed a word. -/
structure PatchInv (shouldMatch : XnuPfPatch → Bool) (base n : ℕ) (m₀ : Mem) (vs : List (ℕ × ℕ))
    (moved : Option ℕ) (s : Trial XnuPfPatch) : Prop where
  enabled : s.patches.map shouldMatch = [true, true, moved.isNone]
  patched : Patched (encode .nop) ClearsX2 (textWord m₀ (base - 120)) (places vs)
    (textWord s.mem (base - 120))
  past : ∀ m ∈ s.past, ∀ x, Had (encode .nop) ClearsX2 (textWord m₀ (base - 120)) (places vs) x
    (textWord m (base - 120) x)
  kept : ∀ x, ¬ Fired (textWord m₀ (base - 120)) (places vs) x → moved ≠ some x →
    textWord s.mem (base - 120) x = textWord m₀ (base - 120) x
  moved : ∀ x, moved = some x → x < n + 30 ∧
    ClearsX2 (textWord m₀ (base - 120) x) (textWord s.mem (base - 120) x)
  outside : ∀ a, a < base - 120 ∨ base + 4 * (n + 5) ≤ a → s.mem a = m₀ a

variable {shouldMatch : XnuPfPatch → Bool} {base n p i : ℕ} {m₀ : Mem} {vs : List (ℕ × ℕ)}
  {moved : Option ℕ} {s s' : Trial XnuPfPatch} {patch patch' : XnuPfPatch}
  {r : MaskPatch.Patch 32} {q : Maskmatch XnuPfPatch} {words : ℕ → BitVec 32}

lemma places_append_singleton (hr : lockdowns[i]? = some r) :
    places (vs ++ [(i, p)]) = places vs ++ [(r, p + 30)] := by
  simp [places, List.filterMap_append, hr]

lemma places_append_none (hr : lockdowns[i]? = none) : places (vs ++ [(i, p)]) = places vs := by
  simp [places, List.filterMap_append, hr]

lemma mem_lockdowns_of_mem_places {v : MaskPatch.Patch 32 × ℕ} (hv : v ∈ places vs) :
    v.1 ∈ lockdowns := by
  obtain ⟨u, -, hu⟩ := List.mem_filterMap.1 hv
  obtain ⟨r, hr, rfl⟩ := Option.map_eq_some_iff.1 hu
  exact List.mem_of_getElem? hr

/-- A patch is as enabled as before. -/
lemma map_set_of_eq {patches : List XnuPfPatch} {b : Bool}
    (hi : (patches.map shouldMatch)[i]? = some b) (hb : shouldMatch patch' = b) :
    (patches.set i patch').map shouldMatch = patches.map shouldMatch := by
  obtain ⟨hlt, heq⟩ := List.getElem?_eq_some_iff.1 hi
  rw [List.map_set, hb, ← heq, List.set_getElem_self]

section Lockdown

variable (h : PatchInv shouldMatch base n m₀ vs moved s) (hrange : TextRange base n) (hp : p < n)
  (hr : lockdowns[i]? = some r) (hq : q.matches'.zip q.masks = r.pattern)
  (hread : ReadAhead s.past (insnPtr base p) words)
include h hrange hp hr hq hread

/-- The words that have been read ahead, as words of a text. -/
lemma PatchInv.reads : (∀ j < r.pattern.length, Had (encode .nop) ClearsX2
      (textWord m₀ (base - 120)) (places vs) (p + 30 + j) (words (p + 30 + j - (p + 30)))) ∧
    (matchesWords q.matches' q.masks words = true ↔
      r.Matches (fun x => words (x - (p + 30))) (p + 30)) := by
  have hback (j : ℕ) : p + 30 + j - (p + 30) = j := Nat.add_sub_cancel_left _ _
  refine ⟨fun j hj => ?_, matchesWords_iff hq fun j _ => by rw [hback]⟩
  rw [length_lockdowns r (List.mem_of_getElem? hr)] at hj
  obtain ⟨m, hm, hword⟩ := hread j
  rw [hback, hword, hrange.insnAt_behind hp hj]
  exact h.past m hm _

/-- One of the patches that remove the lockdown matches. -/
lemma PatchInv.fire (hmatch : matchesWords q.matches' q.masks words = true) :
    r.Matches (textWord m₀ (base - 120)) (p + 30) := by
  obtain ⟨hhad, hiff⟩ := h.reads hrange hp hr hq hread
  exact matches_of_had independent_lockdowns (List.mem_of_getElem? hr) hhad (hiff.1 hmatch)

/-- One of the patches that remove the lockdown is tried, and does not match. -/
lemma PatchInv.skip (hnot : ¬ matchesWords q.matches' q.masks words = true) :
    PatchInv shouldMatch base n m₀ (vs ++ [(i, p)]) moved s := by
  obtain ⟨hhad, hiff⟩ := h.reads hrange hp hr hq hread
  have hbefore : r.Matches (textWord m₀ (base - 120)) (p + 30) → (r, p + 30) ∈ places vs :=
    mem_of_not_matches independent_lockdowns (List.mem_of_getElem? hr) hhad
      (fun v hv => mem_lockdowns_of_mem_places hv) fun hm => hnot (hiff.2 hm)
  refine ⟨h.enabled, ?_, fun m hm x => ?_, fun x hx => ?_, h.moved, h.outside⟩
  · rw [places_append_singleton hr]
    exact h.patched.skip hbefore
  · rw [places_append_singleton hr]
    exact (h.past m hm x).append_singleton _
  · rw [places_append_singleton hr, fired_append_singleton, not_or] at hx
    exact h.kept x hx.1

/-- One of the patches that remove the lockdown matches, and its NOPs are stored. -/
lemma PatchInv.lockdown
    (hcallback : ∀ patch m insn, q.callback patch m insn = (true, patch, storeNops m insn r.targets))
    (hmatch : matchesWords q.matches' q.masks words = true)
    (hi : (s.patches.map shouldMatch)[i]? = some true)
    (hpatch : shouldMatch patch = true)
    (hpatch' : shouldMatch patch' =
      shouldMatch (q.callback patch s.mem (insnPtr base p)).2.1) :
    PatchInv shouldMatch base n m₀ (vs ++ [(i, p)]) moved ⟨s.patches.set i patch',
      (q.callback patch s.mem (insnPtr base p)).2.2 :: s.past,
      (q.callback patch s.mem (insnPtr base p)).2.2⟩ := by
  rw [hcallback] at hpatch' ⊢
  have hmem := List.mem_of_getElem? hr
  have hm₀ := h.fire hrange hp hr hq hread hmatch
  have hjs : ∀ r ∈ lockdowns, ∀ j ∈ r.targets, j < 5 := by decide
  obtain ⟨hnops, hkept, hout⟩ := hrange.storeNops hp (hjs r hmem) s.mem
  have hpatched : Patched (encode .nop) ClearsX2 (textWord m₀ (base - 120))
      (places vs ++ [(r, p + 30)])
      (textWord (storeNops s.mem (insnPtr base p) r.targets) (base - 120)) :=
    h.patched.fire hm₀ hnops hkept
  rw [← places_append_singleton hr] at hpatched
  refine ⟨?_, hpatched, fun m hm x => ?_, fun x hx hne => ?_, fun x hx => ?_, fun a ha => ?_⟩
  · rw [map_set_of_eq hi (hpatch'.trans hpatch)]
    exact h.enabled
  · rcases List.mem_cons.1 hm with rfl | hm
    · exact hpatched.had x
    · rw [places_append_singleton hr]
      exact (h.past m hm x).append_singleton _
  · rw [places_append_singleton hr, fired_append_singleton, not_or] at hx
    exact (hkept x fun ht => hx.2 ⟨hm₀, ht⟩).trans (h.kept x hx.1 hne)
  · obtain ⟨hlt, hclears⟩ := h.moved x hx
    refine ⟨hlt, ?_⟩
    -- the word that the third patch has changed is in none of the sequences
    have hnot : ¬ r.Targets (p + 30) x := by
      intro ht
      have hfired : Fired (textWord m₀ (base - 120)) [(r, p + 30)] x :=
        ⟨_, List.mem_singleton.2 rfl, hm₀, ht⟩
      refine hfired.not_unseen independent_lockdowns (fun v hv => ?_)
        (independent_lockdowns.source _ _ hclears)
      rw [List.mem_singleton.1 hv]
      exact hmem
    show ClearsX2 _ (textWord (storeNops s.mem (insnPtr base p) r.targets) (base - 120) x)
    rwa [hkept x hnot]
  · have hout' := hout a (by omega)
    exact hout'.trans (h.outside a ha)

end Lockdown

/-- A patch is tried that does nothing to the memory. -/
lemma PatchInv.same (h : PatchInv shouldMatch base n m₀ vs moved s) (hi : lockdowns[i]? = none) :
    PatchInv shouldMatch base n m₀ (vs ++ [(i, p)]) moved s := by
  have hplaces : places (vs ++ [(i, p)]) = places vs := places_append_none hi
  refine ⟨h.enabled, ?_, ?_, ?_, h.moved, h.outside⟩
  · rw [hplaces]
    exact h.patched
  · rw [hplaces]
    exact h.past
  · rw [hplaces]
    exact h.kept

/-- The third patch matches. -/
lemma PatchInv.oskextInit (h : PatchInv shouldMatch base n m₀ vs none s) (hrange : TextRange base n)
    (hp : p < n) {xnuPfDisablePatch : XnuPfPatch → XnuPfPatch}
    (hdisable : ∀ patch, shouldMatch (xnuPfDisablePatch patch) = false) (k : KernelLayout)
    (hpatch : shouldMatch patch = true)
    (hpatch' : shouldMatch patch' = shouldMatch
      (oskextInitPatch xnuPfDisablePatch k patch s.mem (insnPtr base p)).2.1) :
    ∃ moved', PatchInv shouldMatch base n m₀ (vs ++ [(2, p)]) moved' ⟨s.patches.set 2 patch',
      (oskextInitPatch xnuPfDisablePatch k patch s.mem (insnPtr base p)).2.2 :: s.past,
      (oskextInitPatch xnuPfDisablePatch k patch s.mem (insnPtr base p)).2.2⟩ := by
  have hplaces : places (vs ++ [(2, p)]) = places vs := places_append_none rfl
  have hi : (s.patches.map shouldMatch)[2]? = some true := by
    rw [h.enabled]
    rfl
  rcases hrange.oskextInitPatch hp xnuPfDisablePatch k patch s.mem with heq |
    ⟨x, m', hlt, heq, hclears, hkept, hout⟩
  · refine ⟨none, ?_⟩
    rw [heq] at hpatch' ⊢
    have hsame := h.same (p := p) (i := 2) rfl
    refine ⟨?_, hsame.patched, fun m hm x => ?_, hsame.kept, hsame.moved, hsame.outside⟩
    · rw [map_set_of_eq hi (hpatch'.trans hpatch)]
      exact h.enabled
    · rcases List.mem_cons.1 hm with rfl | hm
      · exact hsame.patched.had x
      · exact hsame.past m hm x
  · refine ⟨some x, ?_⟩
    rw [heq] at hpatch' ⊢
    -- one word is exchanged, and no sequence has been found there before
    have hswap : ∀ y, textWord m' (base - 120) y = textWord s.mem (base - 120) y ∨
        ClearsX2 (textWord s.mem (base - 120) y) (textWord m' (base - 120) y) := by
      intro y
      by_cases hy : y = x
      · exact Or.inr (hy ▸ hclears)
      · exact Or.inl (hkept y hy)
    have hnot : ¬ Fired (textWord m₀ (base - 120)) (places vs) x := fun hf =>
      independent_lockdowns.ne _ _ hclears (h.patched.fired x hf)
    have hpatched : Patched (encode .nop) ClearsX2 (textWord m₀ (base - 120)) (places vs)
        (textWord m' (base - 120)) :=
      h.patched.exchange independent_lockdowns hswap
    refine ⟨?_, ?_, fun m hm y => ?_, fun y hy hne => ?_, fun y hy => ?_, fun a ha => ?_⟩
    · rw [List.map_set, h.enabled, hpatch', hdisable]
      rfl
    · rw [hplaces]
      exact hpatched
    · rw [hplaces]
      rcases List.mem_cons.1 hm with rfl | hm
      · exact hpatched.had y
      · exact h.past m hm y
    · rw [hplaces] at hy
      have hyx : y ≠ x := fun heq => hne (by rw [heq])
      exact (hkept y hyx).trans (h.kept y hy (Option.some_ne_none y).symm)
    · obtain rfl : x = y := Option.some.inj hy
      refine ⟨hlt, ?_⟩
      rw [← h.kept x hnot (Option.some_ne_none x).symm]
      exact hclears
    · exact (hout a ha).trans (h.outside a ha)

/-- The patches of `kextload_patch`. -/
def kextloadPatches (xnuPf : XnuPf XnuPfPatch XnuPfPatchset) (k : KernelLayout) :
    List (Maskmatch XnuPfPatch) :=
  [ktrrMmu, ktrrAmcc, OSKextInit xnuPf k]

variable {xnuPf : XnuPf XnuPfPatch XnuPfPatchset} {k : KernelLayout}

lemma kextloadPatches_cases (h : (kextloadPatches xnuPf k)[i]? = some q) :
    i = 0 ∧ q = ktrrMmu ∨ i = 1 ∧ q = ktrrAmcc ∨ i = 2 ∧ q = OSKextInit xnuPf k := by
  match i, h with
  | 0, rfl => exact Or.inl ⟨rfl, rfl⟩
  | 1, rfl => exact Or.inr (Or.inl ⟨rfl, rfl⟩)
  | 2, rfl => exact Or.inr (Or.inr ⟨rfl, rfl⟩)

variable (hdisable : ∀ patch, shouldMatch (xnuPf.disablePatch patch) = false)
include hdisable

/-- Whatever is tried next, the invariant is kept. -/
lemma PatchInv.try (h : PatchInv shouldMatch base n m₀ vs moved s) (hrange : TextRange base n)
    {v : ℕ × ℕ} (hv : v.2 < n) (htry : Try shouldMatch (kextloadPatches xnuPf k) base s v s') :
    ∃ moved', PatchInv shouldMatch base n m₀ (vs ++ [v]) moved' s' := by
  obtain ⟨i, p⟩ := v
  cases htry with
  | fire q patch patch' words hq hpatch henabled hread hmatch hkept =>
    have hi : (s.patches.map shouldMatch)[i]? = some true := by
      rw [List.getElem?_map, hpatch, Option.map_some, henabled]
    rcases kextloadPatches_cases hq with ⟨rfl, rfl⟩ | ⟨rfl, rfl⟩ | ⟨rfl, rfl⟩
    · exact ⟨moved, h.lockdown (r := mmuLockdown) hrange hv rfl rfl hread (fun _ _ _ => rfl) hmatch
        hi henabled hkept⟩
    · exact ⟨moved, h.lockdown (r := amccLockdown) hrange hv rfl rfl hread (fun _ _ _ => rfl) hmatch
        hi henabled hkept⟩
    -- the third patch is still enabled, so that it has not changed anything yet
    · have hnone : moved = none := by
        rw [h.enabled] at hi
        exact Option.isNone_iff_eq_none.1 (Option.some.inj hi)
      subst hnone
      exact h.oskextInit hrange hv hdisable k henabled hkept
  | skip q patch words hq hpatch hread hnot =>
    have hi : (s.patches.map shouldMatch)[i]? = some (shouldMatch patch) := by
      rw [List.getElem?_map, hpatch, Option.map_some]
    rw [h.enabled] at hi
    rcases kextloadPatches_cases hq with ⟨rfl, rfl⟩ | ⟨rfl, rfl⟩ | ⟨rfl, rfl⟩
    · have henabled : true = shouldMatch patch := Option.some.inj hi
      exact ⟨moved, h.skip (r := mmuLockdown) hrange hv rfl rfl hread fun hm =>
        hnot ⟨henabled.symm, hm⟩⟩
    · have henabled : true = shouldMatch patch := Option.some.inj hi
      exact ⟨moved, h.skip (r := amccLockdown) hrange hv rfl rfl hread fun hm =>
        hnot ⟨henabled.symm, hm⟩⟩
    · exact ⟨moved, h.same rfl⟩

/-- The invariant holds at any time. -/
lemma patchInv_tries {patches : List XnuPfPatch}
    (hlen : patches.length = (kextloadPatches xnuPf k).length)
    (henabled : ∀ patch ∈ patches, shouldMatch patch = true) (hrange : TextRange base n)
    (hvs : ∀ v ∈ vs, v.2 < n)
    (htries : Tries shouldMatch (kextloadPatches xnuPf k) base ⟨patches, [m₀], m₀⟩ vs s) :
    ∃ moved, PatchInv shouldMatch base n m₀ vs moved s := by
  induction htries with
  | nil =>
    refine ⟨none, ?_, patched_nil, fun m hm x => ?_, fun _ _ _ => rfl, ?_, fun _ _ => rfl⟩
    -- at first the three patches are enabled
    · have hlength : (patches.map shouldMatch).length = 3 := (List.length_map _).trans hlen
      refine List.eq_replicate_iff.2 ⟨hlength, fun b hb => ?_⟩
      obtain ⟨patch, hmem, rfl⟩ := List.mem_map.1 hb
      exact henabled patch hmem
    · rw [List.mem_singleton.1 hm]
      exact patched_nil.had x
    · intro x hx
      cases hx
  | snoc h hv ih =>
    obtain ⟨moved, hinv⟩ := ih fun v hv' => hvs v (List.mem_append_left _ hv')
    exact hinv.try hdisable hrange (hvs _ (by simp)) hv

end Runs

/-! ## The pre-boot hook -/

/-- `insn[i]` is one of the instructions that lock the kernel down, in a sequence that begins in the
text. -/
def Locked (m : Mem) (base n : ℕ) (i : ℤ) : Prop := ∃ p : ℕ, p < n ∧
  (matchesAt ktrrMmuMatch ktrrMmuMask m (insnPtr base p) = true ∧
      (∃ j ∈ [0, 2, 4], i = p + (j : ℕ)) ∨
    matchesAt ktrrAmccMatch ktrrAmccMask m (insnPtr base p) = true ∧
      ∃ j ∈ [0, 2, 3, 4], i = p + (j : ℕ))

/-- The memory `m'` is `m` without the lockdown, and with at most one `MOV Xn, X2` cleared. -/
structure Unlocked (base n : ℕ) (m m' : Mem) : Prop where
  nops : ∀ i, Locked m base n i → insnAt m' base i = encode .nop
  others : ∃ moved : Option ℤ,
    (∀ i, moved = some i → -30 ≤ i ∧ i < n ∧ ClearsX2 (insnAt m base i) (insnAt m' base i)) ∧
      ∀ i : ℤ, -30 ≤ i → i < n + 5 → ¬ Locked m base n i → moved ≠ some i →
        insnAt m' base i = insnAt m base i
  outside : ∀ a, a < base - 120 ∨ base + 4 * (n + 5) ≤ a → m' a = m a
  gone : ∀ p : ℕ, p < n → matchesAt ktrrMmuMatch ktrrMmuMask m' (insnPtr base p) = false ∧
    matchesAt ktrrAmccMatch ktrrAmccMask m' (insnPtr base p) = false

/-- What the hooks change before the kernel is booted. -/
structure Preboot where
  mem : Mem
  ramdiskSize : ℕ

/-- The state in which the patches are applied: the next hook in the chain has run, unless it is
disabled. -/
def Preboot.next (disableCheckra1nKernelPatches : Bool) (nextPrebootHook : Option (Preboot → Preboot))
    (s : Preboot) : Preboot :=
  if disableCheckra1nKernelPatches then { s with ramdiskSize := 0 }
  else
    match nextPrebootHook with
    | none => s
    | some hook => hook s

/-- The pre-boot hook for loading kernel extensions. -/
def kextloadPrebootHook (xnuPf : XnuPf XnuPfPatch XnuPfPatchset)
    (disableCheckra1nKernelPatches : Bool) (nextPrebootHook : Option (Preboot → Preboot))
    (k : KernelLayout) (base n : ℕ) (s : Preboot) : Option Preboot :=
  let s' := s.next disableCheckra1nKernelPatches nextPrebootHook
  (kextloadPatch xnuPf k base n s'.mem).map fun mem => { s' with mem }

section Hook

open MaskPatch

variable {base n : ℕ} {m m₀ : Mem} {vs : List (ℕ × ℕ)} {moved : Option ℕ} {i : ℤ}
  {shouldMatch : XnuPfPatch → Bool} {s : Trial XnuPfPatch}

lemma Locked.bounds (h : Locked m base n i) : 0 ≤ i ∧ i < n + 4 := by
  obtain ⟨p, hp, ⟨-, j, hj, rfl⟩ | ⟨-, j, hj, rfl⟩⟩ := h
  · have hlt : ∀ j ∈ [0, 2, 4], j < 5 := by decide
    have hj' := hlt j hj
    omega
  · have hlt : ∀ j ∈ [0, 2, 3, 4], j < 5 := by decide
    have hj' := hlt j hj
    omega

lemma mem_places {r : MaskPatch.Patch 32} {k p : ℕ} (hr : lockdowns[k]? = some r) (h : (k, p) ∈ vs) :
    (r, p + 30) ∈ places vs :=
  List.mem_filterMap.2 ⟨_, h, by rw [hr]; rfl⟩

/-- When every place has been tried, what is overwritten is what locks the kernel down. -/
lemma TextRange.fired_iff (h : TextRange base n) (hvs : ∀ v ∈ vs, v.2 < n)
    (hcovers : ∀ k < 2, ∀ p < n, (k, p) ∈ vs) (hlo : -30 ≤ i) :
    Fired (textWord m (base - 120)) (places vs) (i + 30).toNat ↔ Locked m base n i := by
  have hmmu {p : ℕ} (hp : p < n) : matchesAt ktrrMmuMatch ktrrMmuMask m (insnPtr base p) = true ↔
      mmuLockdown.Matches (textWord m (base - 120)) (p + 30) :=
    h.matchesAt_iff hp m (by decide) rfl
  have hamcc {p : ℕ} (hp : p < n) : matchesAt ktrrAmccMatch ktrrAmccMask m (insnPtr base p) = true ↔
      amccLockdown.Matches (textWord m (base - 120)) (p + 30) :=
    h.matchesAt_iff hp m (by decide) rfl
  constructor
  · rintro ⟨v, hv, hm, j, hj, hx⟩
    obtain ⟨⟨k, p⟩, hmem, hk⟩ := List.mem_filterMap.1 hv
    have hp := hvs _ hmem
    obtain ⟨r, hr, rfl⟩ := Option.map_eq_some_iff.1 hk
    have hi : i = p + (j : ℕ) := by
      change (i + 30).toNat = p + 30 + j at hx
      omega
    match k, hr with
    | 0, rfl => exact ⟨p, hp, Or.inl ⟨(hmmu hp).2 hm, j, hj, hi⟩⟩
    | 1, rfl => exact ⟨p, hp, Or.inr ⟨(hamcc hp).2 hm, j, hj, hi⟩⟩
  · rintro ⟨p, hp, ⟨hm, j, hj, rfl⟩ | ⟨hm, j, hj, rfl⟩⟩
    · refine ⟨_, mem_places (r := mmuLockdown) rfl (hcovers 0 (by decide) p hp), (hmmu hp).1 hm,
        j, hj, ?_⟩
      show ((p : ℤ) + (j : ℕ) + 30).toNat = p + 30 + j
      omega
    · refine ⟨_, mem_places (r := amccLockdown) rfl (hcovers 1 (by decide) p hp), (hamcc hp).1 hm,
        j, hj, ?_⟩
      show ((p : ℤ) + (j : ℕ) + 30).toNat = p + 30 + j
      omega

/-- The engine has tried everything. -/
lemma PatchInv.unlocked (h : PatchInv shouldMatch base n m₀ vs moved s) (hrange : TextRange base n)
    (hvs : ∀ v ∈ vs, v.2 < n) (hcovers : ∀ k < 2, ∀ p < n, (k, p) ∈ vs) :
    Unlocked base n m₀ s.mem := by
  refine ⟨fun i hi => ?_, ⟨moved.map fun x : ℕ => (x : ℤ) - 30, fun i hi => ?_,
    fun i hlo hhi hlocked hne => ?_⟩, h.outside, fun p hp => ⟨?_, ?_⟩⟩
  · obtain ⟨hlo, hhi⟩ := hi.bounds
    rw [hrange.insnAt_eq (by omega) (by omega)]
    exact h.patched.fired _ ((hrange.fired_iff hvs hcovers (by omega)).2 hi)
  · obtain ⟨x, hx, rfl⟩ := Option.map_eq_some_iff.1 hi
    obtain ⟨hlt, hclears⟩ := h.moved x hx
    have htoNat : ((x : ℤ) - 30 + 30).toNat = x := by omega
    refine ⟨by omega, by omega, ?_⟩
    rw [hrange.insnAt_eq (by omega) (by omega), hrange.insnAt_eq (by omega) (by omega), htoNat]
    exact hclears
  · rw [hrange.insnAt_eq hlo hhi, hrange.insnAt_eq hlo hhi]
    refine h.kept _ ?_ ?_
    · rwa [hrange.fired_iff hvs hcovers hlo]
    · intro hmoved
      refine hne ?_
      rw [hmoved, Option.map_some]
      congr 1
      omega
  · rw [← Bool.not_eq_true, hrange.matchesAt_iff hp s.mem (r := mmuLockdown) (by decide) rfl]
    exact h.patched.not_matches independent_lockdowns (by decide)
      (mem_places rfl (hcovers 0 (by decide) p hp)) (by decide)
  · rw [← Bool.not_eq_true, hrange.matchesAt_iff hp s.mem (r := amccLockdown) (by decide) rfl]
    exact h.patched.not_matches independent_lockdowns (by decide)
      (mem_places rfl (hcovers 1 (by decide) p hp)) (by decide)

/-- What the patches make of the text. -/
lemma kextloadPatch_unlocks {xnuPf : XnuPf XnuPfPatch XnuPfPatchset}
    {added : XnuPfPatchset → List (Maskmatch XnuPfPatch)} (hspec : xnuPf.Spec added shouldMatch)
    {k : KernelLayout} (hrange : TextRange base n) (h : kextloadPatch xnuPf k base n m₀ = some m) :
    Unlocked base n m₀ m := by
  obtain ⟨patches, vs, s, hlen, henabled, htries, rfl, hvs, hcovers⟩ :=
    hspec.apply _ base n m₀ m h
  have hadded : added (xnuPf.emit (xnuPf.maskmatch (xnuPf.maskmatch
      (xnuPf.maskmatch xnuPf.patchsetCreate ktrrMmu) ktrrAmcc) (OSKextInit xnuPf k))) =
      kextloadPatches xnuPf k := by
    rw [hspec.emit, hspec.maskmatch, hspec.maskmatch, hspec.maskmatch, hspec.create]
    rfl
  rw [hadded] at hlen htries hcovers
  obtain ⟨moved, hinv⟩ := patchInv_tries hspec.disable hlen henabled hrange hvs htries
  exact hinv.unlocked hrange hvs fun i hi => hcovers i (hi.trans (by decide : 2 < 3))

/-- Whatever the engine does within its specification, the lockdown is gone when the kernel is booted,
and nothing else has changed but one `MOV` in front of a match of the third patch. -/
theorem kextloadPrebootHook_unlocks {xnuPf : XnuPf XnuPfPatch XnuPfPatchset}
    {added : XnuPfPatchset → List (Maskmatch XnuPfPatch)} (hspec : xnuPf.Spec added shouldMatch)
    (disableCheckra1nKernelPatches : Bool) (nextPrebootHook : Option (Preboot → Preboot))
    (k : KernelLayout) (hrange : TextRange base n) {s s' : Preboot}
    (h : kextloadPrebootHook xnuPf disableCheckra1nKernelPatches nextPrebootHook k base n s =
      some s') :
    Unlocked base n (s.next disableCheckra1nKernelPatches nextPrebootHook).mem s'.mem := by
  obtain ⟨m, hm, rfl⟩ := Option.map_eq_some_iff.1 h
  exact kextloadPatch_unlocks hspec hrange hm

end Hook

/-! ## A small text -/

/-- An AMCC lockdown, an MMU lockdown with two other instructions in it, and the function that is
patched, with the string that it uses. -/
def smallText : Mem :=
  let insns : List (BitVec 32) := [
    0xB907EC41#32, 0xD5033FDF#32, 0xD51CF263#32, 0xD51CF284#32, 0xD51CF245#32,
    0xD51CF260#32, 0xAA0203E8#32, 0xD51CF281#32, 0xD5033FDF#32, 0xD51CF242#32,
    encode (.subImm 31 31 0x60), encode (.mov 19 2), 0xF9400008#32, 0xF9400108#32,
    encode (.adrp 1 0), encode (.addImm 1 1 0x100), encode (.mov 0 8), 0xD63F0100#32]
  storeBytes (storeBytes (fun _ => 0) 0x10000 (insns.flatMap fun w => Bytes.leBytes 4 w.toNat))
    0x10100 (ascii "_PrelinkBundlePath")

lemma locked_smallText : ∀ i ∈ [0, 2, 3, 4, 5, 7, 9], Locked smallText 0x10000 18 i := by
  have hamcc : matchesAt ktrrAmccMatch ktrrAmccMask smallText (insnPtr 0x10000 (0 : ℕ)) = true := by
    decide +kernel
  have hmmu : matchesAt ktrrMmuMatch ktrrMmuMask smallText (insnPtr 0x10000 (5 : ℕ)) = true := by
    decide +kernel
  intro i hi
  have hi' : (∃ j ∈ [0, 2, 3, 4], i = ((0 : ℕ) : ℤ) + (j : ℕ)) ∨
      ∃ j ∈ [0, 2, 4], i = ((5 : ℕ) : ℤ) + (j : ℕ) := by
    revert i
    decide
  rcases hi' with hi' | hi'
  · exact ⟨0, by decide, Or.inr ⟨hamcc, hi'⟩⟩
  · exact ⟨5, by decide, Or.inl ⟨hmmu, hi'⟩⟩

/-- The plain engine does not panic: all three patches fire. -/
lemma kextloadPatch_smallText :
    (kextloadPatch plainXnuPf smallLayout 0x10000 18 smallText).isSome := by
  decide +kernel

theorem kextloadPrebootHook_unlocks_small :
    ∃ s', kextloadPrebootHook plainXnuPf false none smallLayout 0x10000 18 ⟨smallText, 0⟩ = some s' ∧
      [0, 2, 3, 4, 5, 7, 9].map (fun i : ℤ => insnAt s'.mem 0x10000 i) =
        List.replicate 7 (encode .nop) := by
  obtain ⟨m, hm⟩ := Option.isSome_iff_exists.1 kextloadPatch_smallText
  have hhook : kextloadPrebootHook plainXnuPf false none smallLayout 0x10000 18 ⟨smallText, 0⟩ =
      some ⟨m, 0⟩ := by
    have hnext : Preboot.next false none ⟨smallText, 0⟩ = ⟨smallText, 0⟩ := rfl
    rw [kextloadPrebootHook, hnext, hm]
    rfl
  refine ⟨_, hhook, List.map_eq_replicate_iff.2 fun i hi => ?_⟩
  exact (kextloadPrebootHook_unlocks spec_plainXnuPf false none smallLayout
    ⟨by decide, by decide⟩ hhook).nops i (locked_smallText i hi)

end VulnerableKext.Patch

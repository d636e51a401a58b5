import VulnerableKext.Patch.Instructions

/-!
# The patch engine

The kernel is patched by `xnu_pf`, an engine of PongoOS that is declared in `pongo.h` and is not
part of the repository.  A patch set is filled with patterns and callbacks, and applied to a range of
words: every patch is tried at every word, in an order of the engine's own, and the callback of a
patch that matches may change the memory, and disable the patch.  The words that a patch is compared
with have been read ahead, so that they may have changed since.

`XnuPf` is the interface of the engine, and `XnuPf.Spec` is what the patches rely on.
-/

namespace VulnerableKext.Patch

open Memory

variable {XnuPfPatch XnuPfPatchset : Type}

/-- A callback gets the patch and the place of the match. -/
abbrev PatchCallback (XnuPfPatch : Type) : Type := XnuPfPatch → Mem → ℕ → Bool × XnuPfPatch × Mem

/-- What `xnu_pf_maskmatch` is called with.  The arrays hold 32-bit words in 64-bit integers. -/
structure Maskmatch (XnuPfPatch : Type) where
  name : List UInt8
  matches' : List (BitVec 32)
  masks : List (BitVec 32)
  required : Bool
  callback : PatchCallback XnuPfPatch

/-- The words match under the masks. -/
def matchesWords (matches' masks : List (BitVec 32)) (words : ℕ → BitVec 32) : Bool :=
  (matches'.zip masks).zipIdx.all fun e => matchInsn (words e.2) e.1.1 e.1.2

/-- The words from `insn` on match. -/
def matchesAt (matches' masks : List (BitVec 32)) (m : Mem) (insn : ℕ) : Bool :=
  matchesWords matches' masks fun j => insnAt m insn j

/-- The functions of the engine.  A range is given by its address and its number of words; there is
no result when the engine panics. -/
structure XnuPf (XnuPfPatch XnuPfPatchset : Type) where
  patchsetCreate : XnuPfPatchset
  maskmatch : XnuPfPatchset → Maskmatch XnuPfPatch → XnuPfPatchset
  emit : XnuPfPatchset → XnuPfPatchset
  apply : XnuPfPatchset → (base n : ℕ) → Mem → Option Mem
  disablePatch : XnuPfPatch → XnuPfPatch

/-! ## Trying patches -/

/-- An engine that is applied: its patches, the memory, and the memories since the start, from
which words may have been read ahead. -/
structure Trial (XnuPfPatch : Type) where
  patches : List XnuPfPatch
  past : List Mem
  mem : Mem

/-- Each of the words from `insn` on has been read at some time. -/
def ReadAhead (past : List Mem) (insn : ℕ) (words : ℕ → BitVec 32) : Prop :=
  ∀ j, ∃ m ∈ past, words j = insnAt m insn j

section Tries

variable (shouldMatch : XnuPfPatch → Bool) (qs : List (Maskmatch XnuPfPatch)) (base : ℕ)

/-- The patch `v.1` is tried at the word `v.2`: when it is to be matched and the words match, its
callback is called, and else nothing happens.  The engine keeps books in its patches. -/
inductive Try (s : Trial XnuPfPatch) (v : ℕ × ℕ) : Trial XnuPfPatch → Prop
  | fire (q : Maskmatch XnuPfPatch) (patch patch' : XnuPfPatch) (words : ℕ → BitVec 32)
      (hq : qs[v.1]? = some q) (hpatch : s.patches[v.1]? = some patch)
      (henabled : shouldMatch patch = true) (hread : ReadAhead s.past (insnPtr base v.2) words)
      (hmatch : matchesWords q.matches' q.masks words = true)
      (hkept : shouldMatch patch' =
        shouldMatch (q.callback patch s.mem (insnPtr base v.2)).2.1) :
      Try s v ⟨s.patches.set v.1 patch',
        (q.callback patch s.mem (insnPtr base v.2)).2.2 :: s.past,
        (q.callback patch s.mem (insnPtr base v.2)).2.2⟩
  | skip (q : Maskmatch XnuPfPatch) (patch : XnuPfPatch) (words : ℕ → BitVec 32)
      (hq : qs[v.1]? = some q) (hpatch : s.patches[v.1]? = some patch)
      (hread : ReadAhead s.past (insnPtr base v.2) words)
      (hnot : ¬ (shouldMatch patch = true ∧ matchesWords q.matches' q.masks words = true)) : Try s v s

/-- The patches are tried at the places `vs`, one after the other. -/
inductive Tries (s : Trial XnuPfPatch) : List (ℕ × ℕ) → Trial XnuPfPatch → Prop
  | nil : Tries s [] s
  | snoc {vs : List (ℕ × ℕ)} {v : ℕ × ℕ} {s₁ s' : Trial XnuPfPatch} (h : Tries s vs s₁)
      (hv : Try shouldMatch qs base s₁ v s') : Tries s (vs ++ [v]) s'

end Tries

/-- The behaviour of the engine: a patch set holds what has been added to it, a disabled patch is not
matched, and `xnu_pf_apply` begins with patches that are matched, and tries each of them at
each word of the range. -/
structure XnuPf.Spec (xnuPf : XnuPf XnuPfPatch XnuPfPatchset)
    (added : XnuPfPatchset → List (Maskmatch XnuPfPatch)) (shouldMatch : XnuPfPatch → Bool) :
    Prop where
  create : added xnuPf.patchsetCreate = []
  maskmatch : ∀ patchset q, added (xnuPf.maskmatch patchset q) = added patchset ++ [q]
  emit : ∀ patchset, added (xnuPf.emit patchset) = added patchset
  disable : ∀ patch, shouldMatch (xnuPf.disablePatch patch) = false
  apply : ∀ patchset base n m m', xnuPf.apply patchset base n m = some m' →
    ∃ patches vs s, patches.length = (added patchset).length ∧
      (∀ patch ∈ patches, shouldMatch patch = true) ∧
      Tries shouldMatch (added patchset) base ⟨patches, [m], m⟩ vs s ∧ s.mem = m' ∧
      (∀ v ∈ vs, v.2 < n) ∧ ∀ i < (added patchset).length, ∀ p < n, (i, p) ∈ vs

/-! ## A plain engine -/

/-- The books that an engine keeps about a patch. -/
structure PlainPatch where
  hasFired : Bool
  shouldMatch : Bool
deriving DecidableEq, Repr

/-- A patch is tried on the memory as it is. -/
def plainTry (qs : List (Maskmatch PlainPatch)) (base : ℕ) (s : List PlainPatch × Mem) (v : ℕ × ℕ) :
    List PlainPatch × Mem :=
  match qs[v.1]?, s.1[v.1]? with
  | some q, some patch =>
    if patch.shouldMatch && matchesAt q.matches' q.masks s.2 (insnPtr base v.2) then
      let result := q.callback patch s.2 (insnPtr base v.2)
      let patch' := { result.2.1 with hasFired := result.2.1.hasFired || result.1 }
      (s.1.set v.1 patch', result.2.2)
    else s
  | _, _ => s

/-- The words are visited in order, and the patches are tried in order at each of them. -/
def plainVisits (count n : ℕ) : List (ℕ × ℕ) :=
  (List.range n).flatMap fun p => (List.range count).map fun i => (i, p)

/-- An engine without anything special.  It panics when a required patch has not fired. -/
def plainXnuPf : XnuPf PlainPatch (List (Maskmatch PlainPatch)) where
  patchsetCreate := []
  maskmatch patchset q := patchset ++ [q]
  emit patchset := patchset
  apply patchset base n m :=
    let s := (plainVisits patchset.length n).foldl (plainTry patchset base)
      (patchset.map fun _ => ⟨false, true⟩, m)
    if (patchset.zip s.1).all fun e => !e.1.required || e.2.hasFired then some s.2 else none
  disablePatch patch := { patch with shouldMatch := false }

lemma length_plainTry (qs : List (Maskmatch PlainPatch)) (base : ℕ) (s : List PlainPatch × Mem)
    (v : ℕ × ℕ) : (plainTry qs base s v).1.length = s.1.length := by
  rw [plainTry]
  split
  · split_ifs
    · exact List.length_set
    · rfl
  · rfl

lemma mem_plainVisits {count n : ℕ} {v : ℕ × ℕ} :
    v ∈ plainVisits count n ↔ v.1 < count ∧ v.2 < n := by
  simp only [plainVisits, List.mem_flatMap, List.mem_map, List.mem_range]
  constructor
  · rintro ⟨p, hp, i, hi, rfl⟩
    exact ⟨hi, hp⟩
  · rintro ⟨hi, hp⟩
    exact ⟨v.2, hp, v.1, hi, rfl⟩

/-- One step of the plain engine. -/
lemma try_plainTry (base : ℕ) {qs : List (Maskmatch PlainPatch)} {s : Trial PlainPatch} {v : ℕ × ℕ}
    (hv : v.1 < qs.length) (hlen : s.patches.length = qs.length) (hpast : s.mem ∈ s.past) :
    ∃ s', Try PlainPatch.shouldMatch qs base s v s' ∧ s'.mem ∈ s'.past ∧
      (s'.patches, s'.mem) = plainTry qs base (s.patches, s.mem) v := by
  have hq : qs[v.1]? = some qs[v.1] := List.getElem?_eq_getElem hv
  have hpatch : s.patches[v.1]? = some s.patches[v.1] := List.getElem?_eq_getElem (hlen ▸ hv)
  have hread : ReadAhead s.past (insnPtr base v.2) fun j => insnAt s.mem (insnPtr base v.2) j :=
    fun j => ⟨s.mem, hpast, rfl⟩
  rw [plainTry, hq, hpatch]
  dsimp only
  split_ifs with hmatch
  · rw [Bool.and_eq_true] at hmatch
    let result := qs[v.1].callback s.patches[v.1] s.mem (insnPtr base v.2)
    exact ⟨_, .fire _ _ ⟨result.2.1.hasFired || result.1, result.2.1.shouldMatch⟩ _ hq hpatch
      hmatch.1 hread hmatch.2 rfl, List.mem_cons_self, rfl⟩
  · rw [Bool.and_eq_true] at hmatch
    exact ⟨s, .skip _ _ _ hq hpatch hread hmatch, hpast, rfl⟩

lemma tries_plain (base : ℕ) {qs : List (Maskmatch PlainPatch)} {s : Trial PlainPatch}
    {vs : List (ℕ × ℕ)} (hvs : ∀ v ∈ vs, v.1 < qs.length) (hlen : s.patches.length = qs.length)
    (hpast : s.mem ∈ s.past) :
    ∃ s', Tries PlainPatch.shouldMatch qs base s vs s' ∧ s'.mem ∈ s'.past ∧
      s'.patches.length = qs.length ∧
      (s'.patches, s'.mem) = vs.foldl (plainTry qs base) (s.patches, s.mem) := by
  induction vs using List.reverseRecOn with
  | nil => exact ⟨s, .nil, hpast, hlen, rfl⟩
  | append_singleton vs v ih =>
    obtain ⟨s₁, htries, hpast₁, hlen₁, hfold⟩ := ih fun v' hv' => hvs v' (List.mem_append_left _ hv')
    obtain ⟨s', htry, hpast', heq⟩ := try_plainTry base (hvs v (by simp)) hlen₁ hpast₁
    refine ⟨s', htries.snoc htry, hpast', ?_, ?_⟩
    · have hlength := length_plainTry qs base (s₁.patches, s₁.mem) v
      rw [← heq] at hlength
      exact hlength.trans hlen₁
    · rw [List.foldl_append, ← hfold]
      exact heq

/-- The plain engine behaves as the patches rely on. -/
theorem spec_plainXnuPf : plainXnuPf.Spec (fun patchset => patchset) PlainPatch.shouldMatch := by
  refine ⟨rfl, fun _ _ => rfl, fun _ => rfl, fun _ => rfl, fun patchset base n m m' h => ?_⟩
  have hlen : (patchset.map fun _ => (⟨false, true⟩ : PlainPatch)).length = patchset.length :=
    List.length_map _
  have hvs : ∀ v ∈ plainVisits patchset.length n, v.1 < patchset.length :=
    fun v hv => (mem_plainVisits.1 hv).1
  obtain ⟨s, htries, -, -, hfold⟩ := tries_plain base
    (s := ⟨patchset.map fun _ => ⟨false, true⟩, [m], m⟩) hvs hlen (List.mem_singleton.2 rfl)
  refine ⟨_, _, s, hlen, fun patch hpatch => ?_, htries, ?_,
    fun v hv => (mem_plainVisits.1 hv).2, fun i hi p hp => mem_plainVisits.2 ⟨hi, hp⟩⟩
  · obtain ⟨_, -, rfl⟩ := List.mem_map.1 hpatch
    rfl
  · simp only [plainXnuPf, ← hfold] at h
    split_ifs at h
    exact Option.some.inj h

end VulnerableKext.Patch

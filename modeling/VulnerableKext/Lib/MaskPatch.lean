import Mathlib

/-!
# Patches with masked patterns

A patch looks for a sequence of words that match under masks, and overwrites some of them with a
fixed word.  An engine tries a set of patches at many places, in an order of its own.

When the fixed word matches wildcards only, and no two matches reach into the constrained words of
each other, the order does not matter: what is overwritten is what has matched at the start.  This
remains so when other words are exchanged in between, if the patches do not look at them, and when
the words that are compared have been read some time before.
-/

namespace VulnerableKext.MaskPatch

variable {w : ℕ}

/-- A word matches under a mask. -/
def WordMatches (a : BitVec w) (e : BitVec w × BitVec w) : Prop := a &&& e.2 = e.1

instance (a : BitVec w) (e : BitVec w × BitVec w) : Decidable (WordMatches a e) :=
  inferInstanceAs (Decidable (_ = _))

/-- What matches a wildcard does not matter. -/
lemma WordMatches.wildcard {a : BitVec w} {e : BitVec w × BitVec w} (h : WordMatches a e)
    (he : e.2 = 0) (b : BitVec w) : WordMatches b e := by
  simpa [WordMatches, he] using h

/-- Two conditions that a word can not meet at once. -/
def Clash (e e' : BitVec w × BitVec w) : Prop := e.1 &&& e'.2 ≠ e'.1 &&& e.2

instance (e e' : BitVec w × BitVec w) : Decidable (Clash e e') := inferInstanceAs (Decidable (_ ≠ _))

lemma Clash.not_wordMatches {e e' : BitVec w × BitVec w} (h : Clash e e') {a : BitVec w}
    (ha : WordMatches a e) : ¬ WordMatches a e' := by
  intro ha'
  refine h ?_
  rw [← show a &&& e.2 = e.1 from ha, ← show a &&& e'.2 = e'.1 from ha', BitVec.and_assoc,
    BitVec.and_assoc, BitVec.and_comm e.2]

/-- There is a condition, and it constrains the word. -/
def Constrained (o : Option (BitVec w × BitVec w)) : Prop := ∃ e ∈ o, e.2 ≠ 0

instance (o : Option (BitVec w × BitVec w)) : Decidable (Constrained o) :=
  Option.decidableExistsMem o

/-- There is no condition, or it is a wildcard. -/
def Free (o : Option (BitVec w × BitVec w)) : Prop := ∀ e ∈ o, e.2 = 0

instance (o : Option (BitVec w × BitVec w)) : Decidable (Free o) := Option.decidableForallMem o

/-- Pairs of a match and a mask, and the places of the words that are overwritten. -/
structure Patch (w : ℕ) where
  pattern : List (BitVec w × BitVec w)
  targets : List ℕ
deriving DecidableEq

namespace Patch

/-- The text matches at the place `p`. -/
def Matches (r : Patch w) (t : ℕ → BitVec w) (p : ℕ) : Prop :=
  ∀ j e, r.pattern[j]? = some e → WordMatches (t (p + j)) e

/-- The words that are overwritten at the place `p`. -/
def Targets (r : Patch w) (p x : ℕ) : Prop := ∃ j ∈ r.targets, x = p + j

/-- The patch `r'`, at the place `s` behind the place of `r`, does not match where `r` matches, or
neither of the two overwrites what is constrained in the other. -/
def Separate (r r' : Patch w) (s : ℕ) : Prop :=
  (∃ q ∈ (r.pattern.drop s).zip r'.pattern, Clash q.1 q.2) ∨
    (∀ j ∈ r.targets, s ≤ j → Free r'.pattern[j - s]?) ∧
      ∀ j ∈ r'.targets, Free r.pattern[s + j]?

instance (r r' : Patch w) (s : ℕ) : Decidable (r.Separate r' s) :=
  @instDecidableOr _ _
    (List.decidableBEx (fun q => Clash q.1 q.2) ((r.pattern.drop s).zip r'.pattern)) inferInstance

variable {r r' : Patch w} {t : ℕ → BitVec w} {p s : ℕ}

lemma not_matches_of_clash (h : ∃ q ∈ (r.pattern.drop s).zip r'.pattern, Clash q.1 q.2)
    (hr : r.Matches t p) : ¬ r'.Matches t (p + s) := by
  intro hr'
  obtain ⟨⟨e, e'⟩, hmem, hclash⟩ := h
  obtain ⟨j, hj⟩ := List.mem_iff_getElem?.1 hmem
  obtain ⟨he, he'⟩ := List.getElem?_zip_eq_some.1 hj
  rw [List.getElem?_drop] at he
  refine hclash.not_wordMatches (hr _ _ he) ?_
  rw [← Nat.add_assoc]
  exact hr' _ _ he'

end Patch

/-! ## Independent patches -/

/-- A word at which none of the patches looks. -/
def Unseen (R : List (Patch w)) (a : BitVec w) : Prop :=
  ∀ r ∈ R, ∀ e ∈ r.pattern, WordMatches a e → e.2 = 0

-- words are searched for in the lists, and not among all words
instance (R : List (Patch w)) (a : BitVec w) : Decidable (Unseen R a) :=
  @List.decidableBAll (Patch w) (fun r => ∀ e ∈ r.pattern, WordMatches a e → e.2 = 0)
    (fun r => List.decidableBAll (fun e => WordMatches a e → e.2 = 0) r.pattern) R

/-- The patches do not interfere with each other when they overwrite with `c`, nor with what
exchanges one word for another. -/
structure Independent (R : List (Patch w)) (c : BitVec w) (swap : BitVec w → BitVec w → Prop) :
    Prop where
  constrained : ∀ r ∈ R, ∀ j ∈ r.targets, Constrained r.pattern[j]?
  separate : ∀ r ∈ R, ∀ r' ∈ R, ∀ s < r.pattern.length, (s = 0 ∧ r = r') ∨ r.Separate r' s
  fixed : Unseen R c
  source : ∀ a b, swap a b → Unseen R a
  target : ∀ a b, swap a b → Unseen R b
  ne : ∀ a b, swap a b → a ≠ c
  once : ∀ a b b', swap a b → ¬ swap b b'

section Independent

variable {R : List (Patch w)} {c : BitVec w} {swap : BitVec w → BitVec w → Prop} {r r' : Patch w}
  {t t₀ t' : ℕ → BitVec w} {p p' x : ℕ} {vs : List (Patch w × ℕ)}

/-- A match does not overwrite what is constrained in another match. -/
lemma Independent.apart (h : Independent R c swap) (hr : r ∈ R) (hr' : r' ∈ R) (hm : r.Matches t p)
    (hm' : r'.Matches t p') {j : ℕ} {e : BitVec w × BitVec w} (he : r'.pattern[j]? = some e)
    (ht : r.Targets p (p' + j)) : (r, p) = (r', p') ∨ e.2 = 0 := by
  obtain ⟨i, hi, heq⟩ := ht
  obtain ⟨_, hin, -⟩ := h.constrained r hr i hi
  replace hin : i < r.pattern.length := (List.getElem?_eq_some_iff.1 hin).1
  have hj : j < r'.pattern.length := (List.getElem?_eq_some_iff.1 he).1
  rcases Nat.le_total p p' with hle | hle
  · -- the other match is behind
    obtain ⟨s, rfl⟩ := Nat.exists_eq_add_of_le hle
    rcases h.separate r hr r' hr' s (by omega) with ⟨rfl, rfl⟩ | hclash | ⟨hafter, -⟩
    · exact Or.inl rfl
    · exact absurd hm' (Patch.not_matches_of_clash hclash hm)
    · refine Or.inr (hafter i hi (by omega) e ?_)
      rw [show i - s = j by omega]
      exact he
  · obtain ⟨s, rfl⟩ := Nat.exists_eq_add_of_le hle
    rcases h.separate r' hr' r hr s (by omega) with ⟨rfl, rfl⟩ | hclash | ⟨-, hbefore⟩
    · exact Or.inl rfl
    · exact absurd hm (Patch.not_matches_of_clash hclash hm')
    · refine Or.inr (hbefore i hi e ?_)
      rw [show s + i = j by omega]
      exact he

/-! ## Runs of an engine -/

/-- A word that is overwritten by what has been tried so far, if it has matched at the start. -/
def Fired (t₀ : ℕ → BitVec w) (vs : List (Patch w × ℕ)) (x : ℕ) : Prop :=
  ∃ v ∈ vs, v.1.Matches t₀ v.2 ∧ v.1.Targets v.2 x

/-- The text `t` is what `t₀` has become after the patches have been tried at the places `vs`. -/
structure Patched (c : BitVec w) (swap : BitVec w → BitVec w → Prop) (t₀ : ℕ → BitVec w)
    (vs : List (Patch w × ℕ)) (t : ℕ → BitVec w) : Prop where
  fired : ∀ x, Fired t₀ vs x → t x = c
  kept : ∀ x, ¬ Fired t₀ vs x → t x = t₀ x ∨ swap (t₀ x) (t x)

lemma patched_nil : Patched c swap t₀ [] t₀ := by
  refine ⟨?_, fun x _ => Or.inl rfl⟩
  rintro x ⟨v, hv, -⟩
  cases hv

/-- What is overwritten has been looked at. -/
lemma Fired.not_unseen (hf : Fired t₀ vs x) (h : Independent R c swap) (hvs : ∀ v ∈ vs, v.1 ∈ R) :
    ¬ Unseen R (t₀ x) := by
  intro hunseen
  obtain ⟨v, hv, hm, j, hj, rfl⟩ := hf
  obtain ⟨e, he, hne⟩ := h.constrained v.1 (hvs v hv) j hj
  exact hne (hunseen v.1 (hvs v hv) e (List.mem_of_getElem? he) (hm j e he))

lemma fired_append_singleton : Fired t₀ (vs ++ [(r, p)]) x ↔
    Fired t₀ vs x ∨ r.Matches t₀ p ∧ r.Targets p x := by
  constructor
  · rintro ⟨v, hv, hm, hx⟩
    rcases List.mem_append.1 hv with hv | hv
    · exact Or.inl ⟨v, hv, hm, hx⟩
    · obtain rfl := List.mem_singleton.1 hv
      exact Or.inr ⟨hm, hx⟩
  · rintro (⟨v, hv, hm, hx⟩ | ⟨hm, hx⟩)
    · exact ⟨v, List.mem_append_left _ hv, hm, hx⟩
    · exact ⟨(r, p), by simp, hm, hx⟩

/-- A value that the word at `x` has had since the start: the one at the start, the fixed word once
it is overwritten, or what it has been exchanged for. -/
def Had (c : BitVec w) (swap : BitVec w → BitVec w → Prop) (t₀ : ℕ → BitVec w)
    (vs : List (Patch w × ℕ)) (x : ℕ) (a : BitVec w) : Prop :=
  a = t₀ x ∨ (Fired t₀ vs x ∧ a = c) ∨ swap (t₀ x) a

lemma Patched.had (ht : Patched c swap t₀ vs t) (x : ℕ) : Had c swap t₀ vs x (t x) := by
  by_cases hf : Fired t₀ vs x
  · exact Or.inr (Or.inl ⟨hf, ht.fired x hf⟩)
  · rcases ht.kept x hf with heq | hswap
    · exact Or.inl heq
    · exact Or.inr (Or.inr hswap)

lemma Had.append_singleton {a : BitVec w} (h : Had c swap t₀ vs x a) (v : Patch w × ℕ) :
    Had c swap t₀ (vs ++ [v]) x a := by
  rcases h with heq | ⟨⟨v', hv', hfired⟩, heq⟩ | hswap
  · exact Or.inl heq
  · exact Or.inr (Or.inl ⟨⟨v', List.mem_append_left _ hv', hfired⟩, heq⟩)
  · exact Or.inr (Or.inr hswap)

section Reads

variable (h : Independent R c swap) (hr : r ∈ R)
  (hreads : ∀ j < r.pattern.length, Had c swap t₀ vs (p + j) (t (p + j)))
include h hr hreads

/-- What matches words that have been read at any time has matched at the start. -/
lemma matches_of_had (hm : r.Matches t p) : r.Matches t₀ p := by
  intro j e he
  have hword := hm j e he
  have hmem := List.mem_of_getElem? he
  rcases hreads j (List.getElem?_eq_some_iff.1 he).1 with heq | ⟨-, heq⟩ | hswap
  · rwa [heq] at hword
  · rw [heq] at hword
    exact hword.wildcard (h.fixed r hr e hmem hword) _
  · exact hword.wildcard (h.target _ _ hswap r hr e hmem hword) _

/-- What has matched at the start matches words that have been read at any time, until it is
tried. -/
lemma mem_of_not_matches (hvs : ∀ v ∈ vs, v.1 ∈ R) (hnot : ¬ r.Matches t p) (hm : r.Matches t₀ p) :
    (r, p) ∈ vs := by
  simp only [Patch.Matches, not_forall] at hnot
  obtain ⟨j, e, he, hword⟩ := hnot
  have hword₀ := hm j e he
  have hmem := List.mem_of_getElem? he
  rcases hreads j (List.getElem?_eq_some_iff.1 he).1 with heq | ⟨hf, -⟩ | hswap
  · rw [heq] at hword
    exact absurd hword₀ hword
  · obtain ⟨⟨r', p'⟩, hv, hm', hx⟩ := hf
    rcases h.apart (hvs _ hv) hr hm' hm he hx with heq | hzero
    · exact heq ▸ hv
    · exact absurd (hword₀.wildcard hzero _) hword
  · exact absurd (hword₀.wildcard (h.source _ _ hswap r hr e hmem hword₀) _) hword

end Reads

/-- A patch is tried, and matches. -/
lemma Patched.fire (ht : Patched c swap t₀ vs t) (hm : r.Matches t₀ p)
    (hfire : ∀ x, r.Targets p x → t' x = c) (hkeep : ∀ x, ¬ r.Targets p x → t' x = t x) :
    Patched c swap t₀ (vs ++ [(r, p)]) t' := by
  refine ⟨fun x hx => ?_, fun x hx => ?_⟩
  · by_cases htarget : r.Targets p x
    · exact hfire x htarget
    · rcases fired_append_singleton.1 hx with hx | ⟨-, hx⟩
      · exact (hkeep x htarget).trans (ht.fired x hx)
      · exact absurd hx htarget
  · rw [fired_append_singleton, not_or] at hx
    rw [hkeep x fun htarget => hx.2 ⟨hm, htarget⟩]
    exact ht.kept x hx.1

/-- A patch is tried, and does not match, or has been tried before. -/
lemma Patched.skip (ht : Patched c swap t₀ vs t) (hnot : r.Matches t₀ p → (r, p) ∈ vs) :
    Patched c swap t₀ (vs ++ [(r, p)]) t := by
  have hfired (x : ℕ) : Fired t₀ (vs ++ [(r, p)]) x ↔ Fired t₀ vs x := by
    rw [fired_append_singleton]
    refine ⟨?_, Or.inl⟩
    rintro (hx | ⟨hm, hx⟩)
    · exact hx
    · exact ⟨_, hnot hm, hm, hx⟩
  refine ⟨fun x hx => ht.fired x ((hfired x).1 hx), fun x hx => ht.kept x ?_⟩
  rwa [hfired] at hx

/-- Some words are exchanged. -/
lemma Patched.exchange (ht : Patched c swap t₀ vs t) (h : Independent R c swap)
    (hswap : ∀ x, t' x = t x ∨ swap (t x) (t' x)) : Patched c swap t₀ vs t' := by
  refine ⟨fun x hx => ?_, fun x hx => ?_⟩
  · rcases hswap x with heq | hs
    · rw [heq, ht.fired x hx]
    · exact absurd (ht.fired x hx) (h.ne _ _ hs)
  · rcases hswap x with heq | hs
    · rw [heq]
      exact ht.kept x hx
    · rcases ht.kept x hx with heq | hs'
      · exact Or.inr (heq ▸ hs)
      · exact absurd hs (h.once _ _ _ hs')

/-- What has been tried does not match any more. -/
lemma Patched.not_matches (ht : Patched c swap t₀ vs t) (h : Independent R c swap) (hr : r ∈ R)
    (hv : (r, p) ∈ vs) (hne : r.targets ≠ []) : ¬ r.Matches t p := by
  intro hm
  obtain ⟨j, hj⟩ := List.exists_mem_of_ne_nil _ hne
  obtain ⟨e, he, hconstrained⟩ := h.constrained r hr j hj
  have hword := hm j e he
  have hm₀ := matches_of_had h hr (fun j _ => ht.had (p + j)) hm
  rw [ht.fired _ ⟨_, hv, hm₀, j, hj, rfl⟩] at hword
  exact hconstrained (h.fixed r hr e (List.mem_of_getElem? he) hword)

end Independent

end VulnerableKext.MaskPatch

import VulnerableKext.Lib.Bytes

/-!
# Sequences of stores

A sequence of stores into a byte string, as data: where each store goes and what it
stores.  `perform` carries it out, and `Fills` says that it stores every byte of a set of
positions once.
-/

namespace VulnerableKext.Bytes

structure Write where
  off : ℕ
  bytes : List UInt8
deriving DecidableEq, Repr

namespace Write

variable (w : Write)

/-- The position behind the last byte. -/
def stop : ℕ := w.off + w.bytes.length

/-- The positions of the bytes that are stored. -/
def range : Set ℕ := Set.Ico w.off w.stop

lemma mem_range {i : ℕ} : i ∈ w.range ↔ w.off ≤ i ∧ i < w.off + w.bytes.length := Iff.rfl

/-- A store in front of a range or behind it. -/
lemma disjoint_Ico {a b : ℕ} (h : w.stop ≤ a ∨ b ≤ w.off) : Disjoint w.range (Set.Ico a b) :=
  Set.Ico_disjoint_Ico.2 (by omega)

end Write

/-- Carry out the stores, which must lie inside the string. -/
def perform (l : List UInt8) (ws : List Write) : Option (List UInt8) :=
  ws.foldlM (fun l w => store l w.off w.bytes) l

section Perform

variable {l l' : List UInt8} {w : Write} {ws vs : List Write}

@[simp] lemma perform_nil (l : List UInt8) : perform l [] = some l := rfl

lemma perform_cons (l : List UInt8) (w : Write) (ws : List Write) :
    perform l (w :: ws) = (store l w.off w.bytes).bind fun l => perform l ws := rfl

lemma perform_append (l : List UInt8) (ws vs : List Write) :
    perform l (ws ++ vs) = (perform l ws).bind fun l => perform l vs := by
  rw [perform, List.foldlM_append]
  rfl

lemma length_of_perform (h : perform l ws = some l') : l'.length = l.length := by
  induction ws generalizing l with
  | nil =>
    obtain rfl : l = l' := Option.some.inj h
    rfl
  | cons w ws ih =>
    rw [perform_cons] at h
    obtain ⟨l₁, h₁, h₂⟩ := Option.bind_eq_some_iff.1 h
    rw [ih h₂, length_of_store h₁]

/-- Stores inside the string can be carried out. -/
lemma perform_isSome (h : ∀ w ∈ ws, w.stop ≤ l.length) : ∃ l', perform l ws = some l' := by
  induction ws generalizing l with
  | nil => exact ⟨l, rfl⟩
  | cons w ws ih =>
    obtain ⟨l₁, h₁⟩ : ∃ l₁, store l w.off w.bytes = some l₁ := ⟨_, if_pos (h w (by simp))⟩
    have hlen := length_of_store h₁
    obtain ⟨l', hl'⟩ := ih fun v hv => (h v (by simp [hv])).trans_eq hlen.symm
    exact ⟨l', by rw [perform_cons, h₁, Option.bind_some, hl']⟩

/-- A byte that no store meets. -/
lemma getElem?_perform_of_out {i : ℕ} (h : perform l ws = some l')
    (hi : ∀ w ∈ ws, i < w.off ∨ w.stop ≤ i) : l'[i]? = l[i]? := by
  induction ws generalizing l with
  | nil =>
    obtain rfl : l = l' := Option.some.inj h
    rfl
  | cons w ws ih =>
    rw [perform_cons] at h
    obtain ⟨l₁, h₁, h₂⟩ := Option.bind_eq_some_iff.1 h
    have hw : i < w.off ∨ w.off + w.bytes.length ≤ i := hi w (by simp)
    rw [ih h₂ fun v hv => hi v (by simp [hv]), getElem?_store h₁, if_neg (by omega)]

lemma window_perform_of_out {a n : ℕ} (h : perform l ws = some l')
    (hd : ∀ w ∈ ws, w.stop ≤ a ∨ a + n ≤ w.off) : window l' a n = window l a n := by
  induction ws generalizing l with
  | nil =>
    obtain rfl : l = l' := Option.some.inj h
    rfl
  | cons w ws ih =>
    rw [perform_cons] at h
    obtain ⟨l₁, h₁, h₂⟩ := Option.bind_eq_some_iff.1 h
    rw [ih h₂ fun v hv => hd v (by simp [hv]), window_store_of_apart h₁ (hd w (by simp))]

/-- Each of a sequence of stores that do not meet can be read back. -/
lemma window_perform (h : perform l ws = some l')
    (hd : ws.Pairwise fun v w => v.stop ≤ w.off ∨ w.stop ≤ v.off) (hw : w ∈ ws) :
    window l' w.off w.bytes.length = some w.bytes := by
  induction ws generalizing l with
  | nil => cases hw
  | cons v ws ih =>
    rw [perform_cons] at h
    obtain ⟨l₁, h₁, h₂⟩ := Option.bind_eq_some_iff.1 h
    obtain ⟨hv, hws⟩ := List.pairwise_cons.1 hd
    rcases List.mem_cons.1 hw with rfl | hmem
    · rw [window_perform_of_out h₂ fun u hu => (hv u hu).symm, window_store_self h₁]
    · exact ih h₂ hws hmem

end Perform

/-! ## Filling a set of positions -/

/-- The stores meet exactly the positions of `S`, and no position twice. -/
structure Fills (ws : List Write) (S : Set ℕ) : Prop where
  mem_iff : ∀ i, i ∈ S ↔ ∃ w ∈ ws, i ∈ w.range
  disjoint : ws.Pairwise fun v w => Disjoint v.range w.range

namespace Fills

variable {w : Write} {ws vs : List Write} {S T : Set ℕ}

lemma congr (h : Fills ws S) (hS : ∀ i, i ∈ T ↔ i ∈ S) : Fills ws T :=
  ⟨fun i => (hS i).trans (h.mem_iff i), h.disjoint⟩

lemma nil : Fills [] (∅ : Set ℕ) := ⟨by simp, .nil⟩

/-- Stores for two sets that do not meet. -/
lemma append (hw : Fills ws S) (hv : Fills vs T) (hd : Disjoint S T) :
    Fills (ws ++ vs) (S ∪ T) := by
  refine ⟨fun i => ?_, List.pairwise_append.2 ⟨hw.disjoint, hv.disjoint, ?_⟩⟩
  · rw [Set.mem_union, hw.mem_iff, hv.mem_iff]
    simp only [List.mem_append, or_and_right, exists_or]
  · intro w hwmem v hvmem
    rw [Set.disjoint_left]
    intro i hi hi'
    exact Set.disjoint_left.1 hd ((hw.mem_iff i).2 ⟨w, hwmem, hi⟩)
      ((hv.mem_iff i).2 ⟨v, hvmem, hi'⟩)

lemma singleton (w : Write) : Fills [w] w.range := ⟨by simp, List.pairwise_singleton _ _⟩

lemma cons (hw : Fills ws S) (hd : Disjoint w.range S) : Fills (w :: ws) (w.range ∪ S) :=
  (singleton w).append hw hd

/-- One more store directly in front of a filled range. -/
lemma cons_Ico {b : ℕ} (hw : Fills ws (Set.Ico w.stop b)) (hb : w.stop ≤ b) :
    Fills (w :: ws) (Set.Ico w.off b) := by
  have hle : w.off ≤ w.stop := Nat.le_add_right _ _
  have hd : Disjoint w.range (Set.Ico w.stop b) := by
    rw [Set.disjoint_left]
    intro i hi hi'
    exact absurd hi.2 (not_lt.2 hi'.1)
  rw [← Set.Ico_union_Ico_eq_Ico hle hb]
  exact hw.cons hd

end Fills

end VulnerableKext.Bytes

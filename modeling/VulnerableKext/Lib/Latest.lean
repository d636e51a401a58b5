import Mathlib.Order.Nat
import Mathlib.Tactic.SplitIfs
import Mathlib.Tactic.Push

/-!
# Values that are used as flags

A loop keeps the value of the latest match, and uses it as the flag that says whether there has
been one: a default value stands for none.  A loop that stops when the flag is set at a match gets
through with one match that sets the flag, and before it any number of matches that do not.
-/

namespace VulnerableKext.Latest

universe u

variable {α : Type u} {P : ℕ → Prop} [DecidablePred P] {v : ℕ → α} {d a : α} {i n : ℕ}

/-- The value of the latest match below `n`. -/
def latest (P : ℕ → Prop) [DecidablePred P] (v : ℕ → α) (d : α) : ℕ → α
  | 0 => d
  | n + 1 => if P n then v n else latest P v d n

/-- The flag is not set when no match sets it. -/
lemma latest_eq_default (h : ∀ j < n, P j → v j = d) : latest P v d n = d := by
  induction n with
  | zero => rfl
  | succ n ih =>
    rw [latest]
    split_ifs with hP
    · exact h n (Nat.lt_succ_self n) hP
    · exact ih fun j hj => h j (by omega)

/-- The latest match is the last one. -/
lemma latest_eq_of_last (hi : i < n) (hP : P i) (h : ∀ j, i < j → j < n → ¬ P j) :
    latest P v d n = v i := by
  induction n with
  | zero => omega
  | succ n ih =>
    rw [latest]
    rcases Nat.lt_succ_iff_lt_or_eq.1 hi with hlt | rfl
    · rw [if_neg (h n hlt (Nat.lt_succ_self n))]
      exact ih hlt fun j hj hjn => h j hj (by omega)
    · rw [if_pos hP]

/-- When the loop gets through, a match sets no flag or is the last one. -/
lemma match_cases (h : ∀ i < n, P i → latest P v d i = d) (hi : i < n) (hP : P i) :
    v i = d ∨ (latest P v d n = v i ∧ ∀ j, i < j → j < n → ¬ P j) := by
  induction n with
  | zero => omega
  | succ n ih =>
    rcases Nat.lt_succ_iff_lt_or_eq.1 hi with hlt | rfl
    · rcases ih (fun j hj => h j (by omega)) hlt with hv | ⟨hv, hlast⟩
      · exact Or.inl hv
      · by_cases hn : P n
        · -- the flag of the earlier match is seen here
          exact Or.inl (hv.symm.trans (h n (Nat.lt_succ_self n) hn))
        · refine Or.inr ⟨by rw [latest, if_neg hn, hv], fun j hj hjn => ?_⟩
          rcases Nat.lt_succ_iff_lt_or_eq.1 hjn with hjlt | rfl
          · exact hlast j hj hjlt
          · exact hn
    · exact Or.inr ⟨by rw [latest, if_pos hP], fun j hj hjn => by omega⟩

/-- The loop gets through with the flag `a` exactly when one match has it, and all others come
before it and set no flag. -/
theorem passes_iff (ha : a ≠ d) :
    ((∀ i < n, P i → latest P v d i = d) ∧ latest P v d n = a) ↔
      ∃ i < n, P i ∧ v i = a ∧ ∀ j < n, P j → j = i ∨ (j < i ∧ v j = d) := by
  constructor
  · rintro ⟨hflag, hlatest⟩
    have hmatch : ∃ i < n, P i ∧ v i ≠ d := by
      by_contra hno
      push Not at hno
      exact ha (hlatest ▸ latest_eq_default hno)
    obtain ⟨i, hi, hP, hv⟩ := hmatch
    obtain ⟨hvi, hlast⟩ := (match_cases hflag hi hP).resolve_left hv
    refine ⟨i, hi, hP, hvi.symm.trans hlatest, fun j hj hPj => ?_⟩
    rcases lt_trichotomy j i with hlt | rfl | hgt
    · rcases match_cases hflag hj hPj with hvj | ⟨-, hnone⟩
      · exact Or.inr ⟨hlt, hvj⟩
      · exact absurd hP (hnone i hlt hi)
    · exact Or.inl rfl
    · exact absurd hPj (hlast j hgt hj)
  · rintro ⟨i, hi, hP, rfl, hothers⟩
    refine ⟨fun k hk hPk => latest_eq_default fun j hj hPj => ?_, latest_eq_of_last hi hP ?_⟩
    · have hki : k ≤ i := (hothers k hk hPk).elim (fun heq => heq.le) fun hlt => hlt.1.le
      rcases hothers j (by omega) hPj with rfl | ⟨-, hvj⟩
      · omega
      · exact hvj
    · intro j hij hj hPj
      rcases hothers j hj hPj with rfl | ⟨hlt, -⟩
      · omega
      · omega

/-- When every match sets the flag, there is one match. -/
lemma passes_iff_of_flags (ha : a ≠ d) (hv : ∀ i, v i ≠ d) :
    ((∀ i < n, P i → latest P v d i = d) ∧ latest P v d n = a) ↔
      ∃ i < n, P i ∧ v i = a ∧ ∀ j < n, P j → j = i := by
  simp only [passes_iff ha, hv, and_false, or_false]

end VulnerableKext.Latest

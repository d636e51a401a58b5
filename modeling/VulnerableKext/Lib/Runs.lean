import Mathlib.Data.List.Induction

/-!
# Runs

A run carries out one request after the other, and ends early when a step has no result.
What holds at the start, and is led by every step from the requests so far to one more,
holds at the end of the run.
-/

namespace VulnerableKext.Runs

variable {σ ρ : Type*} {step : σ → ρ → Option σ} {P : List ρ → σ → Prop} {s : σ} {all : List ρ}

lemma foldlM_append_singleton (step : σ → ρ → Option σ) (s : σ) (rs : List ρ) (r : ρ) :
    (rs ++ [r]).foldlM step s = (rs.foldlM step s).bind fun s' => step s' r := by
  simp

/-- When every step of a run is defined and keeps an invariant, the run is defined and keeps it. -/
theorem foldlM_of_invariant (hstart : P [] s)
    (hstep : ∀ rs r s, rs ++ [r] <+: all → P rs s → ∃ s', step s r = some s' ∧ P (rs ++ [r]) s') :
    ∃ s', all.foldlM step s = some s' ∧ P all s' := by
  -- the statement for a prefix
  have hrun : ∀ rs, rs <+: all → ∃ s', rs.foldlM step s = some s' ∧ P rs s' := by
    intro rs
    induction rs using List.reverseRecOn with
    | nil => exact fun _ => ⟨s, rfl, hstart⟩
    | append_singleton rs r ih =>
      intro hle
      obtain ⟨s₁, hs₁, hP⟩ := ih ((List.prefix_append rs [r]).trans hle)
      obtain ⟨s', hs', hP'⟩ := hstep rs r s₁ hle hP
      exact ⟨s', by rw [foldlM_append_singleton, hs₁, Option.bind_some, hs'], hP'⟩
  exact hrun all (List.prefix_rfl)

end VulnerableKext.Runs

import Mathlib.Tactic.Common

/-!
# Total correctness of stateful programs

A program with unbounded loops is a function of its state that may give nothing: each loop
has a limit on its iterations, the fuel, and gives nothing when it is exceeded.  A total
correctness statement says that the program comes to its end, and in which states.
-/

namespace VulnerableKext.Total

variable {σ : Type} {α β γ : Type}

/-- A program over the state `σ`. -/
abbrev Program (σ α : Type) : Type := StateT σ Option α

/-- From `s` the program comes to its end, with a result and a state that satisfy `Q`. -/
def Ends (x : Program σ α) (s : σ) (Q : α → σ → Prop) : Prop := ∃ a s', x s = some (a, s') ∧ Q a s'

section Rules

variable {x : Program σ α} {f : α → Program σ β} {s : σ} {Q : α → σ → Prop} {R : β → σ → Prop}

lemma ends_pure {a : α} (h : Q a s) : Ends (pure a : Program σ α) s Q := ⟨a, s, rfl, h⟩

lemma Ends.mono {Q' : α → σ → Prop} (h : Ends x s Q) (hQ : ∀ a s', Q a s' → Q' a s') :
    Ends x s Q' := by
  obtain ⟨a, s', hx, hq⟩ := h
  exact ⟨a, s', hx, hQ a s' hq⟩

lemma Ends.bind (hx : Ends x s Q) (hf : ∀ a s', Q a s' → Ends (f a) s' R) :
    Ends (x >>= f) s R := by
  obtain ⟨a, s', hx, hq⟩ := hx
  obtain ⟨b, s'', hf, hr⟩ := hf a s' hq
  refine ⟨b, s'', ?_, hr⟩
  change (x s).bind (fun r => f r.1 r.2) = _
  rw [hx, Option.bind_some, hf]

lemma ends_get_bind {f : σ → Program σ β} (h : Ends (f s) s R) :
    Ends ((get : Program σ σ) >>= f) s R := h

lemma Ends.ite {c : Prop} [Decidable c] {y : Program σ α} (hx : c → Ends x s Q)
    (hy : ¬ c → Ends y s Q) : Ends (if c then x else y) s Q := by
  split_ifs with hc
  · exact hx hc
  · exact hy hc

/-- A program has one result only. -/
lemma Ends.of_eq {a : α} {s' : σ} (h : Ends x s Q) (hx : x s = some (a, s')) : Q a s' := by
  obtain ⟨b, t, hb, hq⟩ := h
  obtain ⟨rfl, rfl⟩ := Prod.mk.inj (Option.some.inj (hb.symm.trans hx))
  exact hq

end Rules

/-! ## Loops -/

/-- How an iteration ends: the loop goes on with new values of its variables, or it is left. -/
inductive Iteration (β γ : Type) where
  | next (b : β)
  | exit (c : γ)

section Iteration

variable {s : σ} {P : β → σ → Prop} {Q : γ → σ → Prop}

/-- The two ways out of an iteration, in the form that the rule for loops asks for. -/
lemma ends_next {b : β} (h : P b s) :
    Ends (pure (.next b) : Program σ (Iteration β γ)) s fun r s' =>
      (∀ b', r = .next b' → P b' s') ∧ ∀ c, r = .exit c → Q c s' := by
  refine ends_pure ⟨?_, ?_⟩
  · rintro b' ⟨⟩
    exact h
  · rintro c ⟨⟩

lemma ends_exit {c : γ} (h : Q c s) :
    Ends (pure (.exit c) : Program σ (Iteration β γ)) s fun r s' =>
      (∀ b, r = .next b → P b s') ∧ ∀ c', r = .exit c' → Q c' s' := by
  refine ends_pure ⟨?_, ?_⟩
  · rintro b ⟨⟩
  · rintro c' ⟨⟩
    exact h

end Iteration

/-- `for (;;)` with at most `fuel` iterations. -/
def loop (body : β → Program σ (Iteration β γ)) : (fuel : ℕ) → β → Program σ γ
  | 0, _ => fun _ => none
  | fuel + 1, b => do
    match ← body b with
    | .next b => loop body fuel b
    | .exit c => return c

/-- A loop whose iterations keep an invariant and decrease a variant comes to its end, provided
that the fuel exceeds the variant. -/
lemma ends_loop {body : β → Program σ (Iteration β γ)} {Q : γ → σ → Prop}
    (I : β → σ → Prop) (variant : β → σ → ℕ)
    (hnext : ∀ b s, I b s → Ends (body b) s fun r s' =>
      (∀ b', r = .next b' → I b' s' ∧ variant b' s' < variant b s) ∧ ∀ c, r = .exit c → Q c s')
    {fuel : ℕ} {b : β} {s : σ} (h : I b s) (hfuel : variant b s < fuel) :
    Ends (loop body fuel b) s Q := by
  induction fuel generalizing b s with
  | zero => omega
  | succ fuel ih =>
    refine (hnext b s h).bind ?_
    rintro (b' | c) s' ⟨hgo, hexit⟩
    · obtain ⟨hI, hlt⟩ := hgo b' rfl
      exact ih hI (by omega)
    · exact ends_pure (hexit c rfl)

end VulnerableKext.Total

import Mathlib

/-!
# Checked computations

The one law about `Except` that an argument by cases on where a computation
stopped needs, in both directions, and a rule for what the errors of a computation
say.
-/

namespace VulnerableKext.Checked

universe u v

variable {ε : Type u} {α β : Type v}

/-- A computation succeeds when every part of it does. -/
lemma bind_eq_ok_iff {x : Except ε α} {f : α → Except ε β} {b : β} :
    (x >>= f) = .ok b ↔ ∃ a, x = .ok a ∧ f a = .ok b := by
  cases x with
  | error e => simp [bind, Except.bind]
  | ok a => simp [bind, Except.bind]

/-- A computation stops in its first part or in what follows it. -/
lemma bind_eq_error_iff {x : Except ε α} {f : α → Except ε β} {e : ε} :
    (x >>= f) = .error e ↔ x = .error e ∨ ∃ a, x = .ok a ∧ f a = .error e := by
  cases x with
  | error e => simp [bind, Except.bind]
  | ok a => simp [bind, Except.bind]

lemma pure_eq_ok_iff {a b : α} : (pure a : Except ε α) = .ok b ↔ a = b := by
  simp [pure, Except.pure]

/-- A check that stops the computation when it fails. -/
def guard (c : Prop) [Decidable c] (e : ε) : Except ε Unit := if c then .ok () else .error e

lemma guard_eq_ok_iff {c : Prop} [Decidable c] {e : ε} {u : Unit} :
    guard c e = .ok u ↔ c := by
  unfold guard
  split_ifs with h <;> simp [h]

lemma guard_eq_error_iff {c : Prop} [Decidable c] {e e' : ε} :
    guard c e = .error e' ↔ ¬ c ∧ e = e' := by
  unfold guard
  split_ifs with h <;> simp [h]

/-! ## What the errors say -/

/-- Every error of a computation has the property `P`. -/
def ErrorsIn (P : ε → Prop) (x : Except ε α) : Prop := ∀ e, x = .error e → P e

section ErrorsIn

variable {P : ε → Prop}

lemma errorsIn_ok (a : α) : ErrorsIn P (.ok a : Except ε α) := by
  intro e he
  cases he

lemma errorsIn_error {e : ε} (h : P e) : ErrorsIn P (.error e : Except ε α) := by
  intro e' he
  cases he
  exact h

lemma errorsIn_guard {c : Prop} [Decidable c] {e : ε} (h : ¬ c → P e) :
    ErrorsIn P (guard c e) := by
  intro e' he
  obtain ⟨hc, rfl⟩ := guard_eq_error_iff.1 he
  exact h hc

/-- The rule for a sequence, where the second part may use that the first one has succeeded. -/
lemma ErrorsIn.bind {x : Except ε α} {f : α → Except ε β} (hx : ErrorsIn P x)
    (hf : ∀ a, x = .ok a → ErrorsIn P (f a)) : ErrorsIn P (x >>= f) := by
  intro e he
  rcases bind_eq_error_iff.1 he with he | ⟨a, ha, he⟩
  · exact hx e he
  · exact hf a ha e he

lemma ErrorsIn.mono {Q : ε → Prop} {x : Except ε α} (h : ErrorsIn P x) (hPQ : ∀ e, P e → Q e) :
    ErrorsIn Q x :=
  fun e he => hPQ e (h e he)

end ErrorsIn

/-! ## Computations that fail -/

/-- The computation stops with an error that has the property `P`. -/
def FailsWith (P : ε → Prop) (x : Except ε α) : Prop := ∃ e, x = .error e ∧ P e

section FailsWith

variable {P : ε → Prop}

lemma not_failsWith_ok (a : α) : ¬ FailsWith P (.ok a : Except ε α) := by
  rintro ⟨e, he, -⟩
  cases he

lemma not_failsWith_pure (a : α) : ¬ FailsWith P (pure a : Except ε α) := not_failsWith_ok a

lemma failsWith_error_iff {e : ε} : FailsWith P (.error e : Except ε α) ↔ P e := by
  constructor
  · rintro ⟨e', he, h⟩
    rwa [Except.error.inj he]
  · exact fun h => ⟨e, rfl, h⟩

lemma failsWith_guard_iff {c : Prop} [Decidable c] {e : ε} :
    FailsWith P (guard c e) ↔ ¬ c ∧ P e := by
  constructor
  · rintro ⟨e', he, h⟩
    obtain ⟨hc, rfl⟩ := guard_eq_error_iff.1 he
    exact ⟨hc, h⟩
  · exact fun ⟨hc, h⟩ => ⟨e, guard_eq_error_iff.2 ⟨hc, rfl⟩, h⟩

lemma failsWith_elim_iff {o : Option α} {e : ε} :
    FailsWith P (o.elim (.error e) .ok : Except ε α) ↔ o = none ∧ P e := by
  cases o with
  | none =>
    rw [Option.elim_none, failsWith_error_iff, eq_self, true_and]
  | some a => exact iff_of_false (not_failsWith_ok a) (by simp)

/-- A sequence fails in its first part or in what follows it. -/
lemma failsWith_bind_iff {x : Except ε α} {f : α → Except ε β} :
    FailsWith P (x >>= f) ↔ FailsWith P x ∨ ∃ a, x = .ok a ∧ FailsWith P (f a) := by
  constructor
  · rintro ⟨e, he, h⟩
    rcases bind_eq_error_iff.1 he with he | ⟨a, ha, he⟩
    · exact Or.inl ⟨e, he, h⟩
    · exact Or.inr ⟨a, ha, e, he, h⟩
  · rintro (⟨e, he, h⟩ | ⟨a, ha, e, he, h⟩)
    · exact ⟨e, bind_eq_error_iff.2 (Or.inl he), h⟩
    · exact ⟨e, bind_eq_error_iff.2 (Or.inr ⟨a, ha, he⟩), h⟩

/-- An error of another kind is not the one in question. -/
lemma ErrorsIn.not_failsWith {x : Except ε α} (h : ErrorsIn (fun e => ¬ P e) x) :
    ¬ FailsWith P x := by
  rintro ⟨e, he, hP⟩
  exact h e he hP

/-- A loop over entries of `w` bytes fails at the first one that stops it. -/
lemma failsWith_loop_iff {loop : ℕ → ℕ → Except ε α} (passes stops : ℕ → Prop) {w size n a : ℕ}
    (hzero : ∀ a, ¬ FailsWith P (loop 0 a))
    (hsucc : ∀ n a, a + (n + 1) * w ≤ size →
      (FailsWith P (loop (n + 1) a) ↔ stops a ∨ (passes a ∧ FailsWith P (loop n (a + w)))))
    (h : a + n * w ≤ size) :
    FailsWith P (loop n a) ↔ ∃ i < n, (∀ j < i, passes (a + j * w)) ∧ stops (a + i * w) := by
  induction n generalizing a with
  | zero =>
    refine iff_of_false (hzero a) ?_
    rintro ⟨i, hi, -⟩
    omega
  | succ n ih =>
    have hbehind (i : ℕ) : a + w + i * w = a + (i + 1) * w := by ring
    have hrest : a + w + n * w ≤ size := by rwa [hbehind]
    rw [hsucc n a h, ih hrest]
    simp only [hbehind]
    constructor
    · rintro (hstop | ⟨hpass, i, hi, hbefore, hstop⟩)
      · exact ⟨0, Nat.succ_pos n, fun j hj => by omega, by rwa [Nat.zero_mul, Nat.add_zero]⟩
      · refine ⟨i + 1, by omega, fun j hj => ?_, hstop⟩
        cases j with
        | zero => rwa [Nat.zero_mul, Nat.add_zero]
        | succ j => exact hbefore j (by omega)
    · rintro ⟨i, hi, hbefore, hstop⟩
      cases i with
      | zero =>
        rw [Nat.zero_mul, Nat.add_zero] at hstop
        exact Or.inl hstop
      | succ i =>
        have hfirst := hbefore 0 (Nat.succ_pos i)
        rw [Nat.zero_mul, Nat.add_zero] at hfirst
        exact Or.inr ⟨hfirst, i, by omega, fun j hj => hbefore (j + 1) (by omega), hstop⟩

end FailsWith

end VulnerableKext.Checked

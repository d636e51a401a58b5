import Mathlib.Data.List.Basic

/-!
# Programs over shared state

A program whose accesses to a shared state interleave with the rest of the system: before
each of them the state may change in any way.  The program keeps a log of its events, and it
may end early.
-/

namespace VulnerableKext.Shared

variable {σ ε η : Type*} {α β : Type}

/-- What a program has done: the number of its accesses so far, the shared state after the last
one, and the events. -/
structure Run (σ ε : Type*) where
  clock : ℕ
  shared : σ
  log : List ε

/-- A program with the result `α`, which may end early with `η`. -/
def Prog (σ ε η : Type*) (α : Type) : Type _ := Run σ ε → Except η α × Run σ ε

namespace Prog

instance : Monad (Prog σ ε η) where
  pure a := fun r => (.ok a, r)
  bind x f := fun r =>
    match x r with
    | (.ok a, r') => f a r'
    | (.error e, r') => (.error e, r')

/-- End early. -/
def halt (e : η) : Prog σ ε η α := fun r => (.error e, r)

/-- Log an event. -/
def emit (e : ε) : Prog σ ε η Unit := fun r => (.ok (), { r with log := r.log ++ [e] })

/-- One access to the shared state, after the `n`-th change that the rest of the system makes. -/
def access (interfere : ℕ → σ → σ) (f : σ → α × σ × List ε) : Prog σ ε η α := fun r =>
  let (a, s, es) := f (interfere r.clock r.shared)
  (.ok a, ⟨r.clock + 1, s, r.log ++ es⟩)

/-- The events of a run from the state `s`. -/
def events (x : Prog σ ε η α) (s : σ) : List ε := (x ⟨0, s, []⟩).2.log

section Bind

variable {x : Prog σ ε η α} {f : α → Prog σ ε η β} {r r' : Run σ ε} {a : α} {e : η}

lemma bind_ok (h : x r = (.ok a, r')) : (x >>= f) r = f a r' := by
  change (match x r with | (.ok a, r') => f a r' | (.error e, r') => (.error e, r')) = _
  rw [h]

lemma bind_error (h : x r = (.error e, r')) : (x >>= f) r = (.error e, r') := by
  change (match x r with | (.ok a, r') => f a r' | (.error e, r') => (.error e, r')) = _
  rw [h]

end Bind

/-! ## Runs that come to their end -/

/-- From `r` the program comes to its end with the result `a` in `r'`, after the events `es`. -/
def Steps (x : Prog σ ε η α) (r : Run σ ε) (a : α) (es : List ε) (r' : Run σ ε) : Prop :=
  x r = (.ok a, r') ∧ r'.log = r.log ++ es

section Steps

variable {x : Prog σ ε η α} {f : α → Prog σ ε η β} {r r' r'' : Run σ ε} {a : α} {b : β}
  {es es' : List ε}

lemma steps_pure (a : α) (r : Run σ ε) : Steps (pure a : Prog σ ε η α) r a [] r :=
  ⟨rfl, (List.append_nil r.log).symm⟩

lemma steps_emit (e : ε) (r : Run σ ε) :
    Steps (emit e : Prog σ ε η Unit) r () [e] { r with log := r.log ++ [e] } :=
  ⟨rfl, rfl⟩

lemma Steps.bind (hx : Steps x r a es r') (hf : Steps (f a) r' b es' r'') :
    Steps (x >>= f) r b (es ++ es') r'' :=
  ⟨(bind_ok hx.1).trans hf.1, by rw [hf.2, hx.2, List.append_assoc]⟩

/-- The result and the events of a whole call. -/
lemma Steps.outcome {s : σ} (h : Steps x ⟨0, s, []⟩ a es r') :
    (x ⟨0, s, []⟩).1 = .ok a ∧ x.events s = es := by
  rw [events, h.1]
  exact ⟨rfl, h.2⟩

end Steps

/-! ## Properties of every event -/

/-- Every event that the program logs has the property, whatever was done before. -/
def Logs (P : ε → Prop) (x : Prog σ ε η α) : Prop :=
  ∀ r, ∃ es, (x r).2.log = r.log ++ es ∧ ∀ e ∈ es, P e

variable {P : ε → Prop}

lemma logs_pure (a : α) : Logs P (pure a : Prog σ ε η α) :=
  fun r => ⟨[], (List.append_nil r.log).symm, nofun⟩

lemma logs_halt (e : η) : Logs P (halt e : Prog σ ε η α) :=
  fun r => ⟨[], (List.append_nil r.log).symm, nofun⟩

lemma logs_emit {e : ε} (h : P e) : Logs P (emit e : Prog σ ε η Unit) :=
  fun _ => ⟨[e], rfl, List.forall_mem_singleton.2 h⟩

lemma logs_access {interfere : ℕ → σ → σ} {f : σ → α × σ × List ε}
    (h : ∀ s, ∀ e ∈ (f s).2.2, P e) : Logs P (access interfere f : Prog σ ε η α) :=
  fun _ => ⟨_, rfl, h _⟩

/-- The rest of the program is looked at for the results that the first part can give. -/
lemma Logs.bind_of {x : Prog σ ε η α} {f : α → Prog σ ε η β} (hx : Logs P x)
    (hf : ∀ a, (∃ r r', x r = (.ok a, r')) → Logs P (f a)) : Logs P (x >>= f) := by
  intro r
  obtain ⟨es, hlog, hes⟩ := hx r
  match h : x r with
  | (.error e, r') =>
    rw [bind_error h]
    exact ⟨es, by rw [← hlog, h], hes⟩
  | (.ok a, r') =>
    obtain ⟨es', hlog', hes'⟩ := hf a ⟨r, r', h⟩ r'
    refine ⟨es ++ es', ?_, ?_⟩
    · rw [h] at hlog
      rw [bind_ok h, hlog', hlog, List.append_assoc]
    · intro e he
      rcases List.mem_append.1 he with he | he
      · exact hes e he
      · exact hes' e he

lemma Logs.bind {x : Prog σ ε η α} {f : α → Prog σ ε η β} (hx : Logs P x)
    (hf : ∀ a, Logs P (f a)) : Logs P (x >>= f) :=
  hx.bind_of fun a _ => hf a

lemma Logs.ite {c : Prop} [Decidable c] {x y : Prog σ ε η α} (hx : c → Logs P x)
    (hy : ¬ c → Logs P y) : Logs P (if c then x else y) := by
  split_ifs with hc
  · exact hx hc
  · exact hy hc

lemma Logs.events {x : Prog σ ε η α} (h : Logs P x) (s : σ) : ∀ e ∈ x.events s, P e := by
  obtain ⟨es, hlog, hes⟩ := h ⟨0, s, []⟩
  intro e he
  rw [Prog.events, hlog, List.nil_append] at he
  exact hes e he

end Prog

end VulnerableKext.Shared

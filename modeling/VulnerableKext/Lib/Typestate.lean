import VulnerableKext.Lib.Shared

/-!
# Typestates

A protocol says which events may follow each other: `next t e` is the typestate behind the event
`e`, if `e` is allowed in the typestate `t`.  A program obeys the protocol when the events of all
of its runs are allowed, whatever the rest of the system does in between.
-/

namespace VulnerableKext.Typestate

open Shared

variable {σ ε η τ : Type*} {α β : Type} {next : τ → ε → Option τ} {t t' t'' : τ} {es es' : List ε}

/-! ## Sequences of events -/

/-- From the typestate `t` the events are allowed, and lead to `t'`. -/
def Follows (next : τ → ε → Option τ) : τ → List ε → τ → Prop
  | t, [], t' => t = t'
  | t, e :: es, t' => ∃ t₁, next t e = some t₁ ∧ Follows next t₁ es t'

lemma Follows.append (h : Follows next t es t') (h' : Follows next t' es' t'') :
    Follows next t (es ++ es') t'' := by
  induction es generalizing t with
  | nil =>
    cases h
    exact h'
  | cons e es ih =>
    obtain ⟨t₁, h₁, hrest⟩ := h
    exact ⟨t₁, h₁, ih hrest⟩

lemma follows_singleton {e : ε} (h : next t e = some t') : Follows next t [e] t' := ⟨t', h, rfl⟩

/-! ## Programs -/

/-- Started in the typestate `t`, the program obeys the protocol: it comes to its end with a result
and a typestate that satisfy `Q`, or ends early with `E`. -/
def Obeys (next : τ → ε → Option τ) (t : τ) (x : Prog σ ε η α) (Q : α → τ → Prop)
    (E : η → τ → Prop) : Prop :=
  ∀ r, ∃ es t', (x r).2.log = r.log ++ es ∧ Follows next t es t' ∧
    (∀ a, (x r).1 = .ok a → Q a t') ∧ ∀ e, (x r).1 = .error e → E e t'

/-- Run the program for each element of a list. -/
def each {ι : Type} (body : ι → Prog σ ε η α) : List ι → Prog σ ε η (List α)
  | [] => return []
  | i :: is => do
    let a ← body i
    let as ← each body is
    return a :: as

section Rules

variable {x : Prog σ ε η α} {f : α → Prog σ ε η β} {Q Q' : α → τ → Prop} {R : β → τ → Prop}
  {E E' : η → τ → Prop}

lemma obeys_pure {a : α} (h : Q a t) : Obeys next t (pure a : Prog σ ε η α) Q E := by
  intro r
  refine ⟨[], t, (List.append_nil r.log).symm, rfl, ?_, ?_⟩
  · rintro _ ⟨⟩
    exact h
  · rintro _ ⟨⟩

lemma obeys_halt {e : η} (h : E e t) : Obeys next t (Prog.halt e : Prog σ ε η α) Q E := by
  intro r
  refine ⟨[], t, (List.append_nil r.log).symm, rfl, ?_, ?_⟩
  · rintro _ ⟨⟩
  · rintro _ ⟨⟩
    exact h

lemma obeys_emit {e : ε} {Q : Unit → τ → Prop} (h : next t e = some t') (hQ : Q () t') :
    Obeys next t (Prog.emit e : Prog σ ε η Unit) Q E := by
  intro r
  refine ⟨[e], t', rfl, follows_singleton h, ?_, ?_⟩
  · intro a _
    exact hQ
  · rintro _ ⟨⟩

/-- The events of an access, whatever the state is that it finds. -/
lemma obeys_access {interfere : ℕ → σ → σ} {f : σ → α × σ × List ε}
    (h : ∀ s, ∃ t', Follows next t (f s).2.2 t' ∧ Q (f s).1 t') :
    Obeys next t (Prog.access interfere f : Prog σ ε η α) Q E := by
  intro r
  obtain ⟨t', hes, hQ⟩ := h (interfere r.clock r.shared)
  refine ⟨_, t', rfl, hes, ?_, ?_⟩
  · rintro _ ⟨⟩
    exact hQ
  · rintro _ ⟨⟩

lemma Obeys.bind (hx : Obeys next t x Q E) (hf : ∀ a t', Q a t' → Obeys next t' (f a) R E) :
    Obeys next t (x >>= f) R E := by
  intro r
  obtain ⟨es, t', hlog, hes, hok, herror⟩ := hx r
  match h : x r with
  | (.error e, r') =>
    rw [h] at hlog herror
    rw [Prog.bind_error h]
    refine ⟨es, t', hlog, hes, ?_, ?_⟩
    · rintro _ ⟨⟩
    · rintro _ ⟨⟩
      exact herror e rfl
  | (.ok a, r') =>
    rw [h] at hlog hok
    obtain ⟨es', t'', hlog', hes', hres⟩ := hf a t' (hok a rfl) r'
    rw [Prog.bind_ok h]
    exact ⟨es ++ es', t'', by rw [hlog', hlog, List.append_assoc], hes.append hes', hres⟩

/-- The same, when the first part leads to one typestate. -/
lemma Obeys.then_of (hx : Obeys next t x (fun _ t'' => t'' = t') E)
    (hf : ∀ a, Obeys next t' (f a) R E) : Obeys next t (x >>= f) R E := by
  refine hx.bind ?_
  rintro a _ rfl
  exact hf a

lemma Obeys.mono (hx : Obeys next t x Q E) (hQ : ∀ a t', Q a t' → Q' a t')
    (hE : ∀ e t', E e t' → E' e t') : Obeys next t x Q' E' := by
  intro r
  obtain ⟨es, t', hlog, hes, hok, herror⟩ := hx r
  exact ⟨es, t', hlog, hes, fun a ha => hQ a t' (hok a ha), fun e he => hE e t' (herror e he)⟩

lemma Obeys.ite {c : Prop} [Decidable c] {y : Prog σ ε η α} (hx : c → Obeys next t x Q E)
    (hy : ¬ c → Obeys next t y Q E) : Obeys next t (if c then x else y) Q E := by
  split_ifs with hc
  · exact hx hc
  · exact hy hc

/-- A loop keeps a typestate that its body keeps. -/
lemma obeys_each {ι : Type} {body : ι → Prog σ ε η α} {is : List ι} {I : τ → Prop}
    (hbody : ∀ i ∈ is, ∀ t, I t → Obeys next t (body i) (fun _ => I) E) (ht : I t) :
    Obeys next t (each body is) (fun _ => I) E := by
  induction is generalizing t with
  | nil => exact obeys_pure ht
  | cons i is ih =>
    refine (hbody i List.mem_cons_self t ht).bind fun a t' ht' => ?_
    refine (ih (fun j hj => hbody j (List.mem_cons_of_mem i hj)) ht').bind fun as t'' ht'' => ?_
    exact obeys_pure ht''

/-- The events of a whole run. -/
lemma Obeys.run (h : Obeys next t x Q E) (s : σ) : ∃ t', Follows next t (x.events s) t' ∧
    (∀ a, (x ⟨0, s, []⟩).1 = .ok a → Q a t') ∧ ∀ e, (x ⟨0, s, []⟩).1 = .error e → E e t' := by
  obtain ⟨es, t', hlog, hes, hres⟩ := h ⟨0, s, []⟩
  rw [List.nil_append] at hlog
  rw [Prog.events, hlog]
  exact ⟨t', hes, hres⟩

end Rules

end VulnerableKext.Typestate

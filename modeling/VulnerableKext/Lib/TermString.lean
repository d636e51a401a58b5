import VulnerableKext.Lib.Bytes

/-!
# Terminated strings, substring search and string pools

A terminated string is read up to the first terminator.  A pool is a list of
terminated strings laid end to end, to which strings are only ever added at the
end; `intern` returns the offset of a string, adding it when no occurrence is
found.  An occurrence may be the tail of a longer string of the pool, so the
offsets handed out do not describe disjoint pieces; what is stable is only the
string that is read at them (`Denotes`).
-/

namespace VulnerableKext.Term

variable {α : Type*} [DecidableEq α]

/-! ## Reading a terminated string -/

/-- The items before the first terminator, when there is one. -/
def read (z : α) : List α → Option (List α)
  | [] => none
  | a :: l => if a = z then some [] else (read z l).map (a :: ·)

lemma read_append {z : α} {s : List α} (hs : z ∉ s) (t : List α) :
    read z (s ++ z :: t) = some s := by
  induction s with
  | nil => simp [read]
  | cons a s ih =>
    simp only [List.mem_cons, not_or] at hs
    rw [List.cons_append, read, if_neg (Ne.symm hs.1), ih hs.2, Option.map_some]

lemma read_eq_some_iff {z : α} {l s : List α} :
    read z l = some s ↔ z ∉ s ∧ ∃ t, l = s ++ z :: t := by
  constructor
  · intro h
    induction l generalizing s with
    | nil => simp [read] at h
    | cons a l ih =>
      rw [read] at h
      split_ifs at h with ha
      · obtain rfl : [] = s := by simpa using h
        exact ⟨by simp, l, by simp [ha]⟩
      · obtain ⟨s', hs', rfl⟩ := Option.map_eq_some_iff.1 h
        obtain ⟨hz, t, rfl⟩ := ih hs'
        exact ⟨by simp [hz, Ne.symm ha], t, rfl⟩
  · rintro ⟨hz, t, rfl⟩
    exact read_append hz t

lemma read_isSome_iff {z : α} {l : List α} : (read z l).isSome ↔ z ∈ l := by
  induction l with
  | nil => simp [read]
  | cons a l ih =>
    rw [read]
    split_ifs with ha
    · simp [ha]
    · rw [Option.isSome_map, ih, List.mem_cons]
      simp [Ne.symm ha]

/-! ## Searching -/

/-- The position of the first occurrence of `needle`. -/
def find (needle : List α) : List α → Option ℕ
  | [] => if needle = [] then some 0 else none
  | a :: l => if needle <+: a :: l then some 0 else (find needle l).map (· + 1)

lemma prefix_drop_of_find {needle l : List α} {i : ℕ} (h : find needle l = some i) :
    needle <+: l.drop i := by
  induction l generalizing i with
  | nil =>
    rw [find] at h
    split_ifs at h with hn
    subst hn
    simp
  | cons a l ih =>
    rw [find] at h
    split_ifs at h with hp
    · obtain rfl : 0 = i := by simpa using h
      simpa using hp
    · obtain ⟨j, hj, rfl⟩ := Option.map_eq_some_iff.1 h
      simpa using ih hj

/-! ## Pools -/

/-- At offset `off` the pool holds the string `s`, terminated. -/
def Denotes (z : α) (pool : List α) (off : ℕ) (s : List α) : Prop :=
  read z (pool.drop off) = some s

/-- The offset of `s` in the pool, which is extended when `s` does not occur in it. -/
def intern (z : α) (pool s : List α) : ℕ × List α :=
  match find (s ++ [z]) pool with
  | some i => (i, pool)
  | none => (pool.length, pool ++ (s ++ [z]))

section Denotes

variable {z : α} {pool s : List α} {off : ℕ}

lemma Denotes.lt_length (h : Denotes z pool off s) : off < pool.length := by
  obtain ⟨-, t, ht⟩ := read_eq_some_iff.1 h
  by_contra hle
  rw [List.drop_eq_nil_of_le (by omega)] at ht
  simp at ht

/-- What is read at an offset does not change when the pool grows. -/
lemma Denotes.append (h : Denotes z pool off s) (more : List α) :
    Denotes z (pool ++ more) off s := by
  have hlt : off ≤ pool.length := h.lt_length.le
  obtain ⟨hz, t, ht⟩ := read_eq_some_iff.1 h
  refine read_eq_some_iff.2 ⟨hz, t ++ more, ?_⟩
  rw [List.drop_append_of_le_length hlt, ht, List.append_assoc, List.cons_append]

lemma Denotes.mono {pool' : List α} (h : Denotes z pool off s) (hp : pool <+: pool') :
    Denotes z pool' off s := by
  obtain ⟨more, rfl⟩ := hp
  exact h.append more

lemma denotes_of_find (hs : z ∉ s) (h : find (s ++ [z]) pool = some off) :
    Denotes z pool off s := by
  obtain ⟨t, ht⟩ := prefix_drop_of_find h
  exact read_eq_some_iff.2 ⟨hs, t, by rw [← ht, List.append_assoc, List.singleton_append]⟩

lemma denotes_append_self (hs : z ∉ s) :
    Denotes z (pool ++ (s ++ [z])) pool.length s := by
  refine read_eq_some_iff.2 ⟨hs, [], ?_⟩
  simp

lemma prefix_intern (z : α) (pool s : List α) : pool <+: (intern z pool s).2 := by
  unfold intern
  split
  · exact List.prefix_rfl
  · exact List.prefix_append _ _

lemma denotes_intern (pool : List α) (hs : z ∉ s) :
    Denotes z (intern z pool s).2 (intern z pool s).1 s := by
  unfold intern
  split
  · rename_i i hi
    exact denotes_of_find hs hi
  · exact denotes_append_self hs

/-- A pool built by `intern` is empty or ends with a terminator. -/
def Closed (z : α) (pool : List α) : Prop := pool = [] ∨ pool.getLast? = some z

lemma Closed.intern (h : Closed z pool) (s : List α) : Closed z (intern z pool s).2 := by
  unfold Term.intern
  split
  · exact h
  · exact Or.inr (by simp)

end Denotes

end VulnerableKext.Term

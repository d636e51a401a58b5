import VulnerableKext.Lib.TermString
import VulnerableKext.Lib.Bytes

/-!
# Byte-addressed memory

A memory is a function from addresses to bytes, and an object is a range of
addresses.  A program is free to compute any address, so nothing is checked here:
what a store leaves alone is a matter of proof, and the frame lemmas below are the
means for it.

A loop of the form `for (i = 0; i < bound; i++)` whose bound lies in the memory that
the body writes to is `countedLoop`, which reads the bound before every iteration.
-/

namespace VulnerableKext.Memory

open Bytes

/-- A memory, or the contents of one object indexed from its start. -/
abbrev Mem : Type := ℕ → UInt8

/-! ## Words -/

/-- The `n`-byte little-endian word at `a`. -/
def word (m : Mem) (a n : ℕ) : ℕ := leNat ((List.range n).map fun i => m (a + i))

/-- Write the `n` low bytes of `v` at `a`. -/
def storeWord (m : Mem) (a n v : ℕ) : Mem := fun b =>
  if a ≤ b ∧ b < a + n then UInt8.ofNat (v / 256 ^ (b - a)) else m b

/-- Two memories hold the same `n` bytes, at `a` and at `a'`. -/
def Agree (m : Mem) (a : ℕ) (m' : Mem) (a' n : ℕ) : Prop := ∀ i < n, m (a + i) = m' (a' + i)

/-- The ranges of `n` bytes at `a` and of `n'` bytes at `a'` do not meet. -/
def Apart (a n a' n' : ℕ) : Prop := a + n ≤ a' ∨ a' + n' ≤ a

instance (a n a' n' : ℕ) : Decidable (Apart a n a' n') := inferInstanceAs (Decidable (_ ∨ _))

section Word

variable {m m' : Mem} {a a' b n n' v : ℕ}

lemma Apart.symm (h : Apart a n a' n') : Apart a' n' a n := Or.symm h

/-- A part of a range is apart from what the range is apart from. -/
lemma Apart.mono {k : ℕ} (h : Apart a n a' n') (hk : k ≤ n) : Apart a k a' n' :=
  h.imp_left fun hle => (Nat.add_le_add_left hk a).trans hle

lemma word_congr (h : Agree m a m' a' n) : word m a n = word m' a' n := by
  have hmap : (List.range n).map (fun i => m (a + i)) = (List.range n).map fun i => m' (a' + i) :=
    List.map_congr_left fun i hi => h i (List.mem_range.1 hi)
  rw [word, word, hmap]

lemma word_lt (m : Mem) (a n : ℕ) : word m a n < 256 ^ n := by
  simpa [word] using leNat_lt ((List.range n).map fun i => m (a + i))

lemma leBytes_eq_map (n v : ℕ) :
    leBytes n v = (List.range n).map fun i => UInt8.ofNat (v / 256 ^ i) := by
  induction n generalizing v with
  | zero => rfl
  | succ n ih =>
    rw [leBytes, ih, List.range_succ_eq_map, List.map_cons, List.map_map]
    simp only [pow_zero, Nat.div_one, Function.comp_def, Nat.pow_succ', Nat.div_div_eq_div_mul]

lemma storeWord_apply_of_out (h : b < a ∨ a + n ≤ b) : storeWord m a n v b = m b := by
  rw [storeWord, if_neg (by omega)]

/-- What is read back is the stored word. -/
lemma word_storeWord (m : Mem) (a n v : ℕ) : word (storeWord m a n v) a n = v % 256 ^ n := by
  have hmap : (List.range n).map (fun i => storeWord m a n v (a + i)) = leBytes n v := by
    rw [leBytes_eq_map]
    refine List.map_congr_left fun i hi => ?_
    have hlt := List.mem_range.1 hi
    rw [storeWord, if_pos (by omega), Nat.add_sub_cancel_left]
  rw [word, hmap, leNat_leBytes]

/-- The bytes of a word. -/
lemma byte_of_word (m : Mem) (a : ℕ) {n i : ℕ} (hi : i < n) :
    m (a + i) = UInt8.ofNat (word m a n / 256 ^ i) := by
  have hbytes : leBytes n (word m a n) = (List.range n).map fun i => m (a + i) := by
    have h := leBytes_leNat ((List.range n).map fun i => m (a + i))
    rwa [List.length_map, List.length_range] at h
  rw [leBytes_eq_map] at hbytes
  exact (List.map_inj_left.1 hbytes i (List.mem_range.2 hi)).symm

/-- A store does not change a word somewhere else. -/
lemma word_storeWord_of_apart (h : Apart a n a' n') :
    word (storeWord m a n v) a' n' = word m a' n' := by
  refine word_congr fun i hi => storeWord_apply_of_out ?_
  rcases h with h | h
  · exact Or.inr (by omega)
  · exact Or.inl (by omega)

lemma Agree.mono (h : Agree m a m' a' n) (hn : n' ≤ n) : Agree m a m' a' n' :=
  fun i hi => h i (by omega)

/-- Agreement on a range, read at a position inside of it. -/
lemma Agree.word_eq {i k : ℕ} (h : Agree m a m' a' n) (hi : i + k ≤ n) :
    word m (a + i) k = word m' (a' + i) k := by
  refine word_congr fun j hj => ?_
  rw [Nat.add_assoc, Nat.add_assoc]
  exact h (i + j) (by omega)

lemma Agree.trans {m'' : Mem} {a'' : ℕ} (h : Agree m a m' a' n) (h' : Agree m' a' m'' a'' n) :
    Agree m a m'' a'' n :=
  fun i hi => (h i hi).trans (h' i hi)

lemma Agree.refl (m : Mem) (a n : ℕ) : Agree m a m a n := fun _ _ => rfl

end Word

/-! ## Addresses -/

/-- The difference of two 64-bit words. -/
def sub64 (a b : ℕ) : ℕ := (a + (2 ^ 64 - b % 2 ^ 64)) % 2 ^ 64

lemma sub64_of_le {a b : ℕ} (ha : a < 2 ^ 64) (h : b ≤ a) : sub64 a b = a - b := by
  rw [sub64]
  omega

/-! ## Copies -/

/-- `memcpy` between ranges that do not meet. -/
def memcpy (m : Mem) (dst src n : ℕ) : Mem := fun b =>
  if dst ≤ b ∧ b < dst + n then m (src + (b - dst)) else m b

lemma memcpy_apply_of_out {m : Mem} {dst src n b : ℕ} (h : b < dst ∨ dst + n ≤ b) :
    memcpy m dst src n b = m b := by
  rw [memcpy, if_neg (by omega)]

/-! ## Strings -/

/-- The bytes from `a` to the first zero byte, which must be one of the next `n` bytes. -/
def cstring (m : Mem) : (n : ℕ) → (a : ℕ) → Option (List UInt8)
  | 0, _ => none
  | n + 1, a => if m a = 0 then some [] else (cstring m n (a + 1)).map (m a :: ·)

lemma cstring_eq_read (m : Mem) (n a : ℕ) :
    cstring m n a = Term.read 0 ((List.range n).map fun i => m (a + i)) := by
  induction n generalizing a with
  | zero => rfl
  | succ n ih =>
    rw [cstring, ih, List.range_succ_eq_map, List.map_cons, List.map_map, Term.read]
    simp only [Function.comp_def, Nat.add_zero, Nat.succ_eq_add_one, Nat.add_assoc,
      Nat.add_comm 1]

/-- A string that is found does not change when more bytes are looked at. -/
lemma cstring_mono {m : Mem} {n n' a : ℕ} {s : List UInt8} (h : cstring m n a = some s)
    (hn : n ≤ n') : cstring m n' a = some s := by
  induction n generalizing n' a s with
  | zero => simp [cstring] at h
  | succ n ih =>
    obtain ⟨k, rfl⟩ := Nat.exists_eq_add_of_le' hn
    rw [← Nat.add_assoc, cstring]
    rw [cstring] at h
    split_ifs at h ⊢ with h0
    · exact h
    · obtain ⟨s', hs', rfl⟩ := Option.map_eq_some_iff.1 h
      rw [ih hs' (by omega), Option.map_some]

lemma cstring_congr {m m' : Mem} {n a a' : ℕ} (h : Agree m a m' a' n) :
    cstring m n a = cstring m' n a' := by
  rw [cstring_eq_read, cstring_eq_read]
  congr 1
  exact List.map_congr_left fun i hi => h i (List.mem_range.1 hi)

/-- There is a string when one of the bytes is 0. -/
lemma exists_cstring {m : Mem} {n a i : ℕ} (hi : i < n) (h : m (a + i) = 0) :
    ∃ s, cstring m n a = some s ∧ 0 ∉ s := by
  have hmem : 0 ∈ (List.range n).map fun i => m (a + i) :=
    List.mem_map.2 ⟨i, List.mem_range.2 hi, h⟩
  obtain ⟨s, hs⟩ := Option.isSome_iff_exists.1 (Term.read_isSome_iff.2 hmem)
  exact ⟨s, (cstring_eq_read m n a).trans hs, (Term.read_eq_some_iff.1 hs).1⟩

/-- Memory holds the given bytes from `a` on. -/
def HoldsAt (m : Mem) (a : ℕ) (bs : List UInt8) : Prop := ∀ i (h : i < bs.length), m (a + i) = bs[i]

instance (m : Mem) (a : ℕ) (bs : List UInt8) : Decidable (HoldsAt m a bs) :=
  inferInstanceAs (Decidable (∀ i (_ : i < bs.length), _))

/-- Write the given bytes from `a` on. -/
def storeBytes (m : Mem) (a : ℕ) (bs : List UInt8) : Mem := fun b =>
  if a ≤ b ∧ b < a + bs.length then bs.getD (b - a) 0 else m b

section Bytes

variable {m m' : Mem} {a b : ℕ} {bs cs : List UInt8}

lemma storeBytes_apply_of_out (h : b < a ∨ a + bs.length ≤ b) : storeBytes m a bs b = m b := by
  rw [storeBytes, if_neg (by omega)]

lemma holdsAt_storeBytes (m : Mem) (a : ℕ) (bs : List UInt8) : HoldsAt (storeBytes m a bs) a bs := by
  intro i hi
  rw [storeBytes, if_pos (by omega), Nat.add_sub_cancel_left, List.getD_eq_getElem _ _ hi]

lemma HoldsAt.congr (h : HoldsAt m a bs) (hag : Agree m' a m a bs.length) : HoldsAt m' a bs :=
  fun i hi => (hag i hi).trans (h i hi)

lemma holdsAt_append :
    HoldsAt m a (bs ++ cs) ↔ HoldsAt m a bs ∧ HoldsAt m (a + bs.length) cs := by
  constructor
  · intro h
    constructor
    · intro i hi
      rw [h i (by rw [List.length_append]; omega), List.getElem_append_left hi]
    · intro i hi
      rw [Nat.add_assoc, h (bs.length + i) (by rw [List.length_append]; omega),
        List.getElem_append_right (by omega)]
      congr 1
      omega
  · rintro ⟨h₁, h₂⟩ i hi
    rw [List.length_append] at hi
    rcases Nat.lt_or_ge i bs.length with hlt | hge
    · rw [h₁ i hlt, List.getElem_append_left hlt]
    · have h := h₂ (i - bs.length) (by omega)
      rw [List.getElem_append_right hge, ← h]
      congr 1
      omega

lemma holdsAt_cons {c : UInt8} : HoldsAt m a (c :: cs) ↔ m a = c ∧ HoldsAt m (a + 1) cs := by
  have hone : HoldsAt m a [c] ↔ m a = c := by
    constructor
    · intro h
      exact h 0 Nat.one_pos
    · intro h i hi
      obtain rfl : i = 0 := by simpa using hi
      exact h
  have happ : HoldsAt m a ([c] ++ cs) ↔ HoldsAt m a [c] ∧ HoldsAt m (a + 1) cs := holdsAt_append
  rw [← hone]
  exact happ

lemma HoldsAt.store_of_apart (h : HoldsAt m a bs) (hd : Apart a bs.length b cs.length) :
    HoldsAt (storeBytes m b cs) a bs := by
  refine h.congr fun i hi => storeBytes_apply_of_out ?_
  rcases hd with hd | hd
  · exact Or.inl (by omega)
  · exact Or.inr (by omega)

/-- Two stores, the second one directly in front of the first one. -/
lemma storeBytes_append (m : Mem) (a : ℕ) (bs cs : List UInt8) :
    storeBytes m a (bs ++ cs) = storeBytes (storeBytes m (a + bs.length) cs) a bs := by
  funext b
  by_cases hb : a ≤ b ∧ b < a + bs.length
  · rw [storeBytes, storeBytes, if_pos hb, if_pos (by rw [List.length_append]; omega),
      List.getD_append _ _ _ _ (by omega)]
  · refine Eq.trans ?_ (storeBytes_apply_of_out (by omega)).symm
    by_cases hc : a + bs.length ≤ b ∧ b < a + bs.length + cs.length
    · rw [storeBytes, storeBytes, if_pos hc, if_pos (by rw [List.length_append]; omega),
        List.getD_append_right _ _ _ _ (by omega), Nat.sub_sub]
    · rw [storeBytes_apply_of_out (by rw [List.length_append]; omega),
        storeBytes_apply_of_out (by omega)]

/-- A store over a part of a string in memory. -/
lemma HoldsAt.store {off : ℕ} {cs' : List UInt8} (h : HoldsAt m a cs)
    (hs : Bytes.store cs off bs = some cs') : HoldsAt (storeBytes m (a + off) bs) a cs' := by
  intro i hi
  have hlen := length_of_store hs
  have hget := getElem?_store hs i
  rw [List.getElem?_eq_getElem hi] at hget
  split_ifs at hget with hin
  · rw [storeBytes, if_pos (by omega), show a + i - (a + off) = i - off by omega,
      List.getD_eq_getElem?_getD, ← hget, Option.getD_some]
  · rw [List.getElem?_eq_getElem (by omega)] at hget
    rw [storeBytes_apply_of_out (by omega), h i (by omega)]
    exact (Option.some.inj hget).symm

end Bytes

/-! ## Loops whose bound is in memory -/

section Loop

variable {σ : Type*}

/-- `for (i = idx; i < bound; i++) body`, where the bound is read again before every iteration
and `fuel` is a limit that no bound exceeds.  The body may end the program. -/
def countedLoop (bound : σ → ℕ) (body : ℕ → σ → Option σ) : (fuel idx : ℕ) → σ → Option σ
  | 0, _, s => some s
  | fuel + 1, idx, s =>
    if idx < bound s then (body idx s).bind (countedLoop bound body fuel (idx + 1)) else some s

/-- The states in which this loop reads its bound, in order. -/
def countedStates (bound : σ → ℕ) (body : ℕ → σ → Option σ) : (fuel idx : ℕ) → σ → List σ
  | 0, _, _ => []
  | fuel + 1, idx, s =>
    s :: if idx < bound s then (body idx s).elim [] (countedStates bound body fuel (idx + 1)) else []

variable {bound : σ → ℕ} {body : ℕ → σ → Option σ} {P : ℕ → σ → Prop} {n : ℕ}

/-- When an invariant keeps the bound at `n`, the loop runs its body for the indices below `n`. -/
lemma countedLoop_of_invariant {s : σ} {fuel idx : ℕ}
    (hbound : ∀ i s, i ≤ n → P i s → bound s = n)
    (hstep : ∀ i s, i < n → P i s → ∃ s', body i s = some s' ∧ P (i + 1) s')
    (hfuel : n ≤ idx + fuel) (hidx : idx ≤ n) (h : P idx s) :
    ∃ s', countedLoop bound body fuel idx s = some s' ∧ P n s' := by
  induction fuel generalizing idx s with
  | zero =>
    obtain rfl : idx = n := by omega
    exact ⟨s, rfl, h⟩
  | succ fuel ih =>
    rw [countedLoop, hbound idx s hidx h]
    split_ifs with hlt
    · obtain ⟨s₁, hs₁, hP⟩ := hstep idx s hlt h
      obtain ⟨s', hs', hP'⟩ := ih (by omega) hlt hP
      exact ⟨s', by rw [hs₁, Option.bind_some, hs'], hP'⟩
    · obtain rfl : idx = n := by omega
      exact ⟨s, rfl, h⟩

/-- When the states `S 0, S 1, …` have the bound `n` and the body leads from each to the next, the
loop ends in `S n`. -/
lemma countedLoop_eq {S : ℕ → σ} {fuel : ℕ} (hbound : ∀ i ≤ n, bound (S i) = n)
    (hstep : ∀ i < n, body i (S i) = some (S (i + 1))) (hfuel : n ≤ fuel) :
    countedLoop bound body fuel 0 (S 0) = some (S n) := by
  obtain ⟨s, hs, rfl⟩ := countedLoop_of_invariant (P := fun i s => s = S i)
    (fun i s hi h => h ▸ hbound i hi) (fun i s hi h => ⟨_, h ▸ hstep i hi, rfl⟩)
    (show n ≤ 0 + fuel by omega) (Nat.zero_le n) rfl
  exact hs

/-- The bound is read in these states, once before every iteration and once at the end. -/
lemma countedStates_eq {S : ℕ → σ} {fuel idx : ℕ} (hbound : ∀ i ≤ n, bound (S i) = n)
    (hstep : ∀ i < n, body i (S i) = some (S (i + 1))) (hfuel : n < idx + fuel) (hidx : idx ≤ n) :
    countedStates bound body fuel idx (S idx) = (List.range' idx (n + 1 - idx)).map S := by
  induction fuel generalizing idx with
  | zero => omega
  | succ fuel ih =>
    rw [countedStates, hbound idx hidx]
    split_ifs with hlt
    · have hlen : n + 1 - idx = (n + 1 - (idx + 1)) + 1 := by omega
      rw [hstep idx hlt, Option.elim_some, ih (by omega) hlt, hlen, List.range'_succ, List.map_cons]
    · obtain rfl : idx = n := by omega
      rw [Nat.add_sub_cancel_left, List.range'_one, List.map_singleton]

/-- So what it reads does not change. -/
lemma map_countedStates {S : ℕ → σ} {fuel : ℕ} (hbound : ∀ i ≤ n, bound (S i) = n)
    (hstep : ∀ i < n, body i (S i) = some (S (i + 1))) (hfuel : n < fuel) :
    (countedStates bound body fuel 0 (S 0)).map bound = List.replicate (n + 1) n := by
  rw [countedStates_eq hbound hstep (by omega) (Nat.zero_le n), Nat.sub_zero, List.map_map,
    List.eq_replicate_iff]
  refine ⟨by rw [List.length_map, List.length_range'], fun b hb => ?_⟩
  obtain ⟨i, hi, rfl⟩ := List.mem_map.1 hb
  exact hbound i (by rw [List.mem_range'_1] at hi; omega)

end Loop

end VulnerableKext.Memory

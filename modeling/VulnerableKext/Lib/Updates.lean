import VulnerableKext.Lib.Memory
import VulnerableKext.Lib.Writes

/-!
# Changing one part of a memory

Two ways to describe what a loop does to memory.  When everything that it writes lies in
one object, the memory is the old one with a new object put in (`splice`), and what
happens to the object can be studied by itself.  When it updates one word after the other,
wherever they are, the memory is given by the list of the words (`updateWords`).
-/

namespace VulnerableKext.Memory

/-! ## Replacing an object -/

/-- The memory `m` with the `n` bytes at `a` replaced by the first bytes of `obj`. -/
def splice (m : Mem) (a n : ℕ) (obj : Mem) : Mem := fun b =>
  if a ≤ b ∧ b < a + n then obj (b - a) else m b

section Splice

variable {m obj : Mem} {a n b o w v : ℕ}

lemma splice_apply (h : o < n) : splice m a n obj (a + o) = obj o := by
  rw [splice, if_pos (by omega), Nat.add_sub_cancel_left]

lemma splice_apply_of_out (h : b < a ∨ a + n ≤ b) : splice m a n obj b = m b := by
  rw [splice, if_neg (by omega)]

/-- A memory is given by the object that it holds and by what is outside of it. -/
lemma eq_splice {f : Mem} (hin : ∀ x < n, f (a + x) = obj x)
    (hout : ∀ b, b < a ∨ a + n ≤ b → f b = m b) : f = splice m a n obj := by
  funext b
  rw [splice]
  split_ifs with h
  · obtain ⟨x, rfl⟩ := Nat.exists_eq_add_of_le h.1
    rw [Nat.add_sub_cancel_left]
    exact hin x (by omega)
  · exact hout b (by omega)

lemma splice_self (m : Mem) (a n : ℕ) : splice m a n (fun o => m (a + o)) = m :=
  (eq_splice (fun _ _ => rfl) fun _ _ => rfl).symm

/-- Inside of the object its own bytes are read. -/
lemma agree_splice (m : Mem) (a n : ℕ) (obj : Mem) : Agree (splice m a n obj) a obj 0 n := by
  intro o ho
  rw [splice_apply ho, Nat.zero_add]

lemma word_splice (h : o + w ≤ n) : word (splice m a n obj) (a + o) w = word obj o w := by
  rw [(agree_splice m a n obj).word_eq h, Nat.zero_add]

/-- Outside of the object nothing has changed. -/
lemma agree_splice_of_apart {c k : ℕ} (h : Apart a n c k) : Agree (splice m a n obj) c m c k := by
  intro i hi
  refine splice_apply_of_out ?_
  rcases h with h | h
  · exact Or.inr (by omega)
  · exact Or.inl (by omega)

/-- A store into the object is a store into the memory. -/
lemma storeWord_splice (h : o + w ≤ n) :
    storeWord (splice m a n obj) (a + o) w v = splice m a n (storeWord obj o w v) := by
  refine eq_splice (fun x hx => ?_) fun b hb => ?_
  · by_cases hw : o ≤ x ∧ x < o + w
    · rw [storeWord, storeWord, if_pos (by omega), if_pos hw]
      congr 3
      omega
    · rw [storeWord_apply_of_out (by omega), storeWord_apply_of_out (by omega), splice_apply hx]
  · rw [storeWord_apply_of_out (by omega), splice_apply_of_out hb]

/-- A copy into the object from elsewhere. -/
lemma memcpy_splice {src k : ℕ} (h : o + k ≤ n) (hsrc : Apart a n src k) :
    memcpy (splice m a n obj) (a + o) src k =
      splice m a n fun x => if o ≤ x ∧ x < o + k then m (src + (x - o)) else obj x := by
  refine eq_splice (fun x hx => ?_) fun b hb => ?_
  · by_cases hk : o ≤ x ∧ x < o + k
    · rw [memcpy, if_pos (by omega), if_pos hk, show a + x - (a + o) = x - o by omega]
      exact agree_splice_of_apart hsrc (x - o) (by omega)
    · rw [memcpy_apply_of_out (by omega), splice_apply hx, if_neg hk]
  · rw [memcpy_apply_of_out (by omega), splice_apply_of_out hb]

end Splice

/-! ## Updating words -/

/-- Replace the words of `w` bytes at `slot 0`, …, `slot (n - 1)`, one after the other, each by a
function of what is there. -/
def updateWords (w : ℕ) (slot : ℕ → ℕ) (f : ℕ → ℕ → ℕ) (m : Mem) : (n : ℕ) → Mem
  | 0 => m
  | n + 1 =>
    let m := updateWords w slot f m n
    storeWord m (slot n) w (f n (word m (slot n) w))

section UpdateWords

variable {w n k a b : ℕ} {slot : ℕ → ℕ} {f : ℕ → ℕ → ℕ} {m : Mem}

/-- A byte in no slot keeps its value. -/
lemma updateWords_apply_of_out (h : ∀ i < n, b < slot i ∨ slot i + w ≤ b) :
    updateWords w slot f m n b = m b := by
  induction n with
  | zero => rfl
  | succ n ih =>
    rw [updateWords, storeWord_apply_of_out (h n (Nat.lt_succ_self n)),
      ih fun i hi => h i (Nat.lt_succ_of_lt hi)]

lemma agree_updateWords (h : ∀ i < n, Apart (slot i) w a k) :
    Agree (updateWords w slot f m n) a m a k := by
  intro j hj
  refine updateWords_apply_of_out fun i hi => ?_
  rcases h i hi with h | h
  · exact Or.inr (by omega)
  · exact Or.inl (by omega)

lemma word_updateWords_of_apart (h : ∀ i < n, Apart (slot i) w a k) :
    word (updateWords w slot f m n) a k = word m a k :=
  word_congr (agree_updateWords h)

/-- When the slots do not meet, each one is updated once, from its old value. -/
lemma word_updateWords (h : ∀ i < n, ∀ j < n, i ≠ j → Apart (slot i) w (slot j) w) (hk : k < n) :
    word (updateWords w slot f m n) (slot k) w = f k (word m (slot k) w) % 256 ^ w := by
  induction n with
  | zero => omega
  | succ n ih =>
    have hprev : ∀ i < n, ∀ j < n, i ≠ j → Apart (slot i) w (slot j) w :=
      fun i hi j hj => h i (by omega) j (by omega)
    rw [updateWords]
    rcases Nat.lt_succ_iff_lt_or_eq.1 hk with hlt | rfl
    · rw [word_storeWord_of_apart (h n (by omega) k hk (by omega)), ih hprev hlt]
    · have hothers : ∀ i < k, Apart (slot i) w (slot k) w :=
        fun i hi => h i (by omega) k (by omega) (by omega)
      rw [word_storeWord, word_updateWords_of_apart hothers]

end UpdateWords

/-! ## Storing at several places -/

open Bytes (Write perform)

/-- Carry out stores at positions counted from `a`. -/
def storeAll (m : Mem) (a : ℕ) (ws : List Write) : Mem :=
  ws.foldl (fun m w => storeBytes m (a + w.off) w.bytes) m

section StoreAll

variable {m : Mem} {a b : ℕ} {ws : List Write} {l l' : List UInt8}

lemma storeAll_apply_of_out (h : ∀ w ∈ ws, b < a + w.off ∨ a + w.stop ≤ b) :
    storeAll m a ws b = m b := by
  induction ws generalizing m with
  | nil => rfl
  | cons w ws ih =>
    have hw : b < a + w.off ∨ a + (w.off + w.bytes.length) ≤ b := h w (by simp)
    rw [storeAll, List.foldl_cons]
    exact (ih fun v hv => h v (by simp [hv])).trans (storeBytes_apply_of_out (by omega))

/-- Stores into a string in memory. -/
lemma HoldsAt.storeAll (h : HoldsAt m a l) (hs : perform l ws = some l') :
    HoldsAt (storeAll m a ws) a l' := by
  induction ws generalizing m l with
  | nil =>
    obtain rfl : l = l' := Option.some.inj hs
    exact h
  | cons w ws ih =>
    rw [Bytes.perform_cons] at hs
    obtain ⟨l₁, h₁, h₂⟩ := Option.bind_eq_some_iff.1 hs
    exact ih (h.store h₁) h₂

end StoreAll

end VulnerableKext.Memory

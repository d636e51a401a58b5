import Mathlib

/-!
# Byte strings

Little-endian words, windows and stores on finite byte strings.  A window or a
store that leaves the string is refused, so a program written with `window`,
`readLE` and `store` is a program whose accesses are checked.

The laws are stated for strings given as a concatenation, which is the shape a
serialiser leaves behind and a decoder reads back.
-/

namespace VulnerableKext.Bytes

/-! ## Little-endian words -/

/-- The `n` low bytes of `v`, least significant first. -/
def leBytes : ℕ → ℕ → List UInt8
  | 0, _ => []
  | n + 1, v => UInt8.ofNat v :: leBytes n (v / 256)

/-- The number written in a byte string, least significant byte first. -/
def leNat : List UInt8 → ℕ
  | [] => 0
  | b :: l => b.toNat + 256 * leNat l

@[simp] lemma length_leBytes (n v : ℕ) : (leBytes n v).length = n := by
  induction n generalizing v with
  | zero => rfl
  | succ n ih => simp [leBytes, ih]

lemma leNat_leBytes (n v : ℕ) : leNat (leBytes n v) = v % 256 ^ n := by
  induction n generalizing v with
  | zero => simp [leBytes, leNat, Nat.mod_one]
  | succ n ih =>
    have h : (UInt8.ofNat v).toNat = v % 256 := by simp
    rw [leBytes, leNat, ih, h, Nat.pow_succ', Nat.mod_mul]

lemma leNat_leBytes_of_lt {n v : ℕ} (h : v < 256 ^ n) : leNat (leBytes n v) = v := by
  rw [leNat_leBytes, Nat.mod_eq_of_lt h]

lemma leNat_lt (l : List UInt8) : leNat l < 256 ^ l.length := by
  induction l with
  | nil => simp [leNat]
  | cons b l ih =>
    have hb : b.toNat < 256 := b.toNat_lt
    rw [leNat, List.length_cons, Nat.pow_succ']
    omega

lemma leBytes_leNat (l : List UInt8) : leBytes l.length (leNat l) = l := by
  induction l with
  | nil => rfl
  | cons b l ih =>
    have hb : b.toNat < 256 := b.toNat_lt
    have hdiv : (b.toNat + 256 * leNat l) / 256 = leNat l := by omega
    have hmod : UInt8.ofNat (b.toNat + 256 * leNat l) = b := by
      apply UInt8.toNat_inj.1
      simp only [UInt8.toNat_ofNat']
      omega
    rw [List.length_cons, leNat, leBytes, hdiv, ih, hmod]

/-! ## Windows -/

/-- The `n` bytes at offset `off`, when they lie inside the string. -/
def window (l : List UInt8) (off n : ℕ) : Option (List UInt8) :=
  if off + n ≤ l.length then some ((l.drop off).take n) else none

/-- The `n`-byte little-endian word at offset `off`, when it lies inside the string. -/
def readLE (l : List UInt8) (off n : ℕ) : Option ℕ :=
  (window l off n).map leNat

lemma window_eq_some_iff {l w : List UInt8} {off n : ℕ} :
    window l off n = some w ↔ off + n ≤ l.length ∧ w = (l.drop off).take n := by
  unfold window
  split_ifs with h
  · simp [h, eq_comm]
  · simp [h]

lemma window_isSome_iff {l : List UInt8} {off n : ℕ} :
    (window l off n).isSome ↔ off + n ≤ l.length := by
  unfold window
  split_ifs with h <;> simp [h]

lemma length_of_window {l w : List UInt8} {off n : ℕ} (h : window l off n = some w) :
    w.length = n := by
  obtain ⟨hle, rfl⟩ := window_eq_some_iff.1 h
  simp only [List.length_take, List.length_drop]
  omega

/-- The window over the middle part of a concatenation. -/
lemma window_append (a b c : List UInt8) :
    window (a ++ (b ++ c)) a.length b.length = some b := by
  rw [window_eq_some_iff]
  constructor
  · simp
  · simp

lemma window_append_of_eq {l a b c : List UInt8} {off n : ℕ} (hl : l = a ++ (b ++ c))
    (hoff : off = a.length) (hn : n = b.length) : window l off n = some b := by
  subst hl hoff hn
  exact window_append a b c

lemma readLE_append_of_eq {l a c : List UInt8} {off n v : ℕ}
    (hl : l = a ++ (leBytes n v ++ c)) (hoff : off = a.length) (hv : v < 256 ^ n) :
    readLE l off n = some v := by
  rw [readLE, window_append_of_eq hl hoff (length_leBytes n v).symm, Option.map_some,
    leNat_leBytes_of_lt hv]

lemma readLE_eq_some_iff {l : List UInt8} {off n v : ℕ} :
    readLE l off n = some v ↔ off + n ≤ l.length ∧ v = leNat ((l.drop off).take n) := by
  simp only [readLE, Option.map_eq_some_iff, window_eq_some_iff]
  constructor
  · rintro ⟨w, ⟨hle, rfl⟩, rfl⟩
    exact ⟨hle, rfl⟩
  · rintro ⟨hle, rfl⟩
    exact ⟨_, ⟨hle, rfl⟩, rfl⟩

lemma readLE_isSome_iff {l : List UInt8} {off n : ℕ} :
    (readLE l off n).isSome ↔ off + n ≤ l.length := by
  rw [readLE, Option.isSome_map, window_isSome_iff]

lemma readLE_lt {l : List UInt8} {off n v : ℕ} (h : readLE l off n = some v) :
    v < 256 ^ n := by
  obtain ⟨w, hw, rfl⟩ := Option.map_eq_some_iff.1 h
  simpa [length_of_window hw] using leNat_lt w

/-! ## Stores -/

/-- Overwrite the bytes at offset `off` by `bs`, when they lie inside the string. -/
def store (l : List UInt8) (off : ℕ) (bs : List UInt8) : Option (List UInt8) :=
  if off + bs.length ≤ l.length then
    some (l.take off ++ (bs ++ l.drop (off + bs.length)))
  else none

/-- A store over the middle part of a concatenation replaces that part. -/
lemma store_append (a b c bs : List UInt8) (h : bs.length = b.length) :
    store (a ++ (b ++ c)) a.length bs = some (a ++ (bs ++ c)) := by
  have hle : a.length + bs.length ≤ (a ++ (b ++ c)).length := by
    simp only [List.length_append]
    omega
  have htake : (a ++ (b ++ c)).take a.length = a := List.take_left' rfl
  have hdrop : (a ++ (b ++ c)).drop (a.length + bs.length) = c := by
    rw [← List.append_assoc]
    exact List.drop_left' (by simp [h])
  rw [store, if_pos hle, htake, hdrop]

lemma store_append_of_eq {l a b c bs : List UInt8} {off : ℕ} (hl : l = a ++ (b ++ c))
    (hoff : off = a.length) (hb : bs.length = b.length) :
    store l off bs = some (a ++ (bs ++ c)) := by
  subst hl hoff
  exact store_append a b c bs hb

/-- A store directly behind a prefix. -/
lemma store_behind {l a rest bs : List UInt8} {off : ℕ} (hl : l = a ++ rest)
    (hoff : off = a.length) (h : bs.length ≤ rest.length) :
    store l off bs = some (a ++ (bs ++ rest.drop bs.length)) := by
  have hsplit : l = a ++ (rest.take bs.length ++ rest.drop bs.length) := by
    rw [List.take_append_drop, hl]
  exact store_append_of_eq hsplit hoff (by rw [List.length_take, min_eq_left h])

lemma length_of_store {l l' bs : List UInt8} {off : ℕ} (h : store l off bs = some l') :
    l'.length = l.length := by
  unfold store at h
  split_ifs at h with hle
  cases h
  simp only [List.length_append, List.length_take, List.length_drop]
  omega

/-- The bytes after a store. -/
lemma getElem?_store {l l' bs : List UInt8} {off : ℕ} (h : store l off bs = some l') (i : ℕ) :
    l'[i]? = if off ≤ i ∧ i < off + bs.length then bs[i - off]? else l[i]? := by
  unfold store at h
  split_ifs at h with hle
  cases h
  have htake : (l.take off).length = off := by
    rw [List.length_take]
    omega
  rcases Nat.lt_or_ge i off with hlt | hge
  · rw [List.getElem?_append_left (by omega), List.getElem?_take_of_lt hlt, if_neg (by omega)]
  · rw [List.getElem?_append_right (by omega), htake]
    rcases Nat.lt_or_ge i (off + bs.length) with hlt | hge'
    · rw [List.getElem?_append_left (by omega), if_pos ⟨hge, hlt⟩]
    · rw [List.getElem?_append_right (by omega), if_neg (by omega), List.getElem?_drop]
      congr 1
      omega

/-- What has been stored is read back. -/
lemma window_store_self {l l' bs : List UInt8} {off : ℕ} (h : store l off bs = some l') :
    window l' off bs.length = some bs := by
  unfold store at h
  split_ifs at h with hle
  cases h
  refine window_append_of_eq rfl ?_ rfl
  rw [List.length_take]
  omega

/-- A store somewhere else does not change what is read. -/
lemma window_store_of_apart {l l' bs : List UInt8} {off a n : ℕ} (h : store l off bs = some l')
    (hd : off + bs.length ≤ a ∨ a + n ≤ off) : window l' a n = window l a n := by
  have heq : (l'.drop a).take n = (l.drop a).take n := by
    refine List.ext_getElem? fun i => ?_
    rw [List.getElem?_take, List.getElem?_take]
    split_ifs with hi
    · rw [List.getElem?_drop, List.getElem?_drop, getElem?_store h, if_neg (by omega)]
    · rfl
  rw [window, window, length_of_store h, heq]

end VulnerableKext.Bytes

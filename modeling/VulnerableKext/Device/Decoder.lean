import VulnerableKext.Device.SymbolTable
import VulnerableKext.Format
import VulnerableKext.Lib.Checked

/-!
# The decoder of symbol table uploads

The body of `command_kernelcache_symbols` between the search for the UUID and the
link into the chain.  The pointers `_p`, `_data` and `_end` of the source are
offsets into the upload, and the macros `ref`, `get` and `seek` jump to
`parse_error` when they would leave it.  The block returned by `malloc` has
exactly the requested number of bytes; a store outside of it is undefined
behaviour and ends the model's run with `heapOverflow`.
-/

namespace VulnerableKext.Device

open Bytes Checked Format

/-- The ways in which no table is installed. -/
inductive SymbolsError
  /-- "No matching kernelcache". -/
  | noMatchingKernelcache
  /-- "Invalid symbol table": the label `parse_error`. -/
  | invalidSymbolTable
  /-- "Failed to allocate symbol table". -/
  | allocationFailed
  /-- A store outside of the allocated block. -/
  | heapOverflow
deriving DecidableEq, Repr

/-- The macro `ref(s)`. -/
def ref (data : List UInt8) (p s : ℕ) : Except SymbolsError (List UInt8 × ℕ) :=
  match window data p s with
  | some w => .ok (w, p + s)
  | none => .error .invalidSymbolTable

/-- The macro `get(t)` for a type of `n` bytes. -/
def get (data : List UInt8) (p n : ℕ) : Except SymbolsError (ℕ × ℕ) :=
  match readLE data p n with
  | some v => .ok (v, p + n)
  | none => .error .invalidSymbolTable

/-- The macros `addr(o)` and `seek(o)`. -/
def seek (data : List UInt8) (o : ℕ) : Except SymbolsError ℕ :=
  if o ≤ data.length then .ok o else .error .invalidSymbolTable

/-- A store of `n` bytes at offset `off` of a block of `size` bytes. -/
def heapStore (size off n : ℕ) : Except SymbolsError Unit := guard (off + n ≤ size) .heapOverflow

/-- `sizeof(struct kernelcache_symbol_table)`. -/
def sizeofTable : ℕ := 32

/-- The loop over the kernelcache descriptors. -/
def findKernelcache (data : List UInt8) (kernelcacheUuid : Uuid) :
    ℕ → ℕ → Except SymbolsError ℕ
  | 0, _ => .error .noMatchingKernelcache
  | n + 1, p => do
    let (uuid, p) ← ref data p 16
    let (kernelcacheSymbolsOffset, p) ← get data p 4
    if uuid = kernelcacheUuid.toList then seek data kernelcacheSymbolsOffset
    else findKernelcache data kernelcacheUuid n p

/-- The loop that populates the symbol table, from its `i`-th entry on.  `size` is the size of
the block and `count` the number of entries in it. -/
def populate (data : List UInt8) (size count symbolStringsSize : ℕ) :
    ℕ → ℕ → ℕ → Except SymbolsError (List (ℕ × ℕ))
  | 0, _, _ => .ok []
  | n + 1, i, p => do
    let (symbolOffset, p) ← get data p 4
    let (address, p) ← get data p 8
    -- The addition is done in 32 bits.
    guard ((symbolOffset + 1) % 2 ^ 32 ≤ symbolStringsSize) .invalidSymbolTable
    heapStore size (sizeofTable + 8 * i) 8
    heapStore size (sizeofTable + 8 * count + 8 * i) 8
    let entries ← populate data size count symbolStringsSize n (i + 1) p
    return (symbolOffset, address) :: entries

/-- The number of bytes requested from `malloc`, with the wraparound of `size_t`. -/
def allocationSize (size symbolCount symbolStringsOffset : ℕ) : ℕ :=
  let symbolStringsSize := (size + 2 ^ 64 - symbolStringsOffset) % 2 ^ 64
  (sizeofTable + symbolCount * 8 + symbolCount * 8 + symbolStringsSize) % 2 ^ 64

/-- The part of the decoder that fills the allocated block, for the symbol list at `p`. -/
def fillTable (data : List UInt8) (symbolStringsOffset symbolCount p : ℕ) :
    Except SymbolsError KernelcacheSymbolTable := do
  let size := allocationSize data.length symbolCount symbolStringsOffset
  let symbolStringsSize := (data.length + 2 ^ 64 - symbolStringsOffset) % 2 ^ 64
  -- The fields `count`, `symbol` and `address`.
  heapStore size 8 24
  let symbolStrings ← seek data symbolStringsOffset
  guard (1 ≤ symbolStringsSize) .invalidSymbolTable
  guard (data[symbolStrings + symbolStringsSize - 1]? = some 0) .invalidSymbolTable
  let entries ← populate data size symbolCount symbolStringsSize symbolCount 0 p
  let q ← seek data symbolStringsOffset
  let (strings, _) ← ref data q symbolStringsSize
  heapStore size (sizeofTable + 16 * symbolCount) symbolStringsSize
  return { entries, strings }

/-- Decode an upload for the given UUID.  `malloc` says for which sizes an allocation succeeds. -/
def decodeSymbolTable (data : List UInt8) (kernelcacheUuid : Uuid) (malloc : ℕ → Bool) :
    Except SymbolsError KernelcacheSymbolTable := do
  let (kernelcacheCount, p) ← get data 0 4
  let (symbolStringsOffset, p) ← get data p 4
  let p ← findKernelcache data kernelcacheUuid kernelcacheCount p
  let (symbolCount, p) ← get data p 4
  guard (malloc (allocationSize data.length symbolCount symbolStringsOffset)) .allocationFailed
  fillTable data symbolStringsOffset symbolCount p

/-! ## The macros -/

variable {data : List UInt8} {p q n v o : ℕ}

lemma get_eq_ok_iff : get data p n = .ok (v, q) ↔ readLE data p n = some v ∧ q = p + n := by
  unfold get
  cases readLE data p n <;> simp [eq_comm]

lemma ref_eq_ok_iff {w : List UInt8} :
    ref data p n = .ok (w, q) ↔ window data p n = some w ∧ q = p + n := by
  unfold ref
  cases window data p n <;> simp [eq_comm]

lemma seek_eq_ok_iff : seek data o = .ok q ↔ o ≤ data.length ∧ o = q := by
  unfold seek
  split_ifs with h <;> simp [h]

lemma heapStore_eq_ok_iff {size off : ℕ} {u : Unit} :
    heapStore size off n = .ok u ↔ off + n ≤ size := guard_eq_ok_iff

/-! ## The loop over the descriptors -/

/-- The search succeeds at the first descriptor of the UUID, when it is in bounds. -/
lemma findKernelcache_eq_ok_iff {uuid : Uuid} :
    findKernelcache data uuid n p = .ok o ↔
      ∃ i < n, window data (p + 20 * i) 16 = some uuid.toList ∧
        readLE data (p + 20 * i + 16) 4 = some o ∧ o ≤ data.length ∧
        ∀ j < i, window data (p + 20 * j) 16 ≠ some uuid.toList := by
  induction n generalizing p with
  | zero => simp [findKernelcache]
  | succ n ih =>
    simp only [findKernelcache, bind_eq_ok_iff, Prod.exists, ref_eq_ok_iff, get_eq_ok_iff]
    constructor
    · rintro ⟨w, _, ⟨hw, rfl⟩, o', _, ⟨ho, rfl⟩, h⟩
      split_ifs at h with heq
      · obtain ⟨hle, rfl⟩ := seek_eq_ok_iff.1 h
        exact ⟨0, by omega, by simpa [heq] using hw, by simpa using ho, hle, by simp⟩
      · obtain ⟨i, hi, hwi, hoi, hle, hfirst⟩ := ih.1 h
        have hshift (k : ℕ) : p + 16 + 4 + 20 * k = p + 20 * (k + 1) := by ring
        rw [hshift] at hwi hoi
        refine ⟨i + 1, by omega, hwi, hoi, hle, ?_⟩
        intro j hj
        cases j with
        | zero =>
          simpa [hw] using heq
        | succ j =>
          rw [← hshift]
          exact hfirst j (by omega)
    · rintro ⟨i, hi, hwi, hoi, hle, hfirst⟩
      have hin := (readLE_eq_some_iff.1 hoi).1
      obtain ⟨w, hw⟩ : ∃ w, window data p 16 = some w :=
        Option.isSome_iff_exists.1 (window_isSome_iff.2 (by omega))
      obtain ⟨o', ho⟩ : ∃ o', readLE data (p + 16) 4 = some o' :=
        Option.isSome_iff_exists.1 (readLE_isSome_iff.2 (by omega))
      refine ⟨w, _, ⟨hw, rfl⟩, o', _, ⟨ho, rfl⟩, ?_⟩
      cases i with
      | zero =>
        rw [Nat.mul_zero, Nat.add_zero] at hwi hoi
        obtain rfl : w = uuid.toList := Option.some.inj (hw.symm.trans hwi)
        obtain rfl : o' = o := Option.some.inj (ho.symm.trans hoi)
        rw [if_pos rfl]
        exact seek_eq_ok_iff.2 ⟨hle, rfl⟩
      | succ i =>
        have hne : w ≠ uuid.toList := by
          have := hfirst 0 (by omega)
          rw [Nat.mul_zero, Nat.add_zero, hw] at this
          exact fun he => this (by rw [he])
        rw [if_neg hne]
        have hshift (k : ℕ) : p + 16 + 4 + 20 * k = p + 20 * (k + 1) := by ring
        refine ih.2 ⟨i, by omega, by rw [hshift]; exact hwi, by rw [hshift]; exact hoi, hle, ?_⟩
        intro j hj
        rw [hshift]
        exact hfirst (j + 1) (by omega)

/-! ## The loop over the entries -/

/-- In a block that is large enough, the loop collects the entries and stops at the first one
that fails the check of the source. -/
lemma populate_eq_ok_iff {size count ss i : ℕ} {es : List (ℕ × ℕ)}
    (hsize : sizeofTable + 16 * count ≤ size) (hi : i + n ≤ count) :
    populate data size count ss n i p = .ok es ↔
      es.length = n ∧ ∀ k (h : k < es.length),
        entry data (p + 12 * k) = some es[k] ∧ (es[k].1 + 1) % 2 ^ 32 ≤ ss := by
  induction n generalizing i p es with
  | zero =>
    simp only [populate, Except.ok.injEq]
    constructor
    · rintro rfl
      simp
    · rintro ⟨hlen, -⟩
      exact (List.length_eq_zero_iff.1 hlen).symm
  | succ n ih =>
    have hshift (k : ℕ) : p + 4 + 8 + 12 * k = p + 12 * (k + 1) := by ring
    simp only [populate, bind_eq_ok_iff, Prod.exists, get_eq_ok_iff, guard_eq_ok_iff,
      heapStore_eq_ok_iff, pure_eq_ok_iff]
    constructor
    · rintro ⟨off, _, ⟨hoff, rfl⟩, a, _, ⟨ha, rfl⟩, _, hchk, _, -, _, -, es', hes', rfl⟩
      obtain ⟨hlen, hall⟩ := (ih (by omega)).1 hes'
      refine ⟨by simp [hlen], ?_⟩
      intro k hk
      cases k with
      | zero => exact ⟨entry_eq_some_iff.2 ⟨hoff, ha⟩, hchk⟩
      | succ k =>
        rw [← hshift]
        exact hall k (by simpa using hk)
    · rintro ⟨hlen, hall⟩
      match es, hlen with
      | (off, a) :: es', hlen =>
        obtain ⟨he, hchk⟩ := hall 0 (by simp)
        obtain ⟨hoff, ha⟩ := entry_eq_some_iff.1 he
        refine ⟨off, _, ⟨hoff, rfl⟩, a, _, ⟨ha, rfl⟩, (), hchk, (), by omega, (), by omega, es',
          (ih (by omega)).2 ⟨by simpa using hlen, ?_⟩, rfl⟩
        intro k hk
        rw [hshift]
        exact hall (k + 1) (by simpa using hk)

/-! ## The whole decoder -/

lemma allocationSize_of_le {size count off : ℕ} (hsize : size < 2 ^ 32) (hcount : count < 2 ^ 32)
    (hoff : off ≤ size) :
    (size + 2 ^ 64 - off) % 2 ^ 64 = size - off ∧
      allocationSize size count off = sizeofTable + 16 * count + (size - off) := by
  have hss : (size + 2 ^ 64 - off) % 2 ^ 64 = size - off := by omega
  refine ⟨hss, ?_⟩
  simp only [allocationSize, hss, sizeofTable]
  omega

/-- The check that the string area ends with a zero byte. -/
lemma last_byte_iff {off : ℕ} (hoff : off ≤ data.length) (hpos : 1 ≤ data.length - off) :
    data[off + (data.length - off) - 1]? = some 0 ↔ (data.drop off).getLast? = some 0 := by
  rw [List.getLast?_eq_getElem?, List.getElem?_drop, List.length_drop]
  have h : off + (data.length - off) - 1 = off + (data.length - off - 1) := by omega
  rw [h]

lemma length_pos_of_getLast? {l : List UInt8} {b : UInt8} (h : l.getLast? = some b) :
    0 < l.length := by
  cases l with
  | nil => simp at h
  | cons => simp

lemma fillTable_eq_ok_iff {count off : ℕ} {t : KernelcacheSymbolTable}
    (hdata : data.length < 2 ^ 32) (hcount : count < 2 ^ 32) :
    fillTable data off count p = .ok t ↔
      off ≤ data.length ∧ t.strings = data.drop off ∧ t.strings.getLast? = some 0 ∧
        t.entries.length = count ∧ ∀ k (h : k < t.entries.length),
          entry data (p + 12 * k) = some t.entries[k] ∧
            (t.entries[k].1 + 1) % 2 ^ 32 ≤ t.strings.length := by
  obtain ⟨es, strings⟩ := t
  simp only [fillTable, bind_eq_ok_iff, Prod.exists, seek_eq_ok_iff, guard_eq_ok_iff,
    heapStore_eq_ok_iff, ref_eq_ok_iff, pure_eq_ok_iff, KernelcacheSymbolTable.mk.injEq]
  constructor
  · rintro ⟨_, -, _, ⟨hoff, rfl⟩, _, hpos, _, hlast, es', hes', _, ⟨-, rfl⟩, w, _, ⟨hw, -⟩, _, -,
      rfl, rfl⟩
    obtain ⟨hss, halloc⟩ := allocationSize_of_le hdata hcount hoff
    rw [hss] at hpos hlast hes' hw
    have hstr : w = data.drop off := by
      rw [(window_eq_some_iff.1 hw).2, ← List.length_drop, List.take_length]
    rw [populate_eq_ok_iff (by omega) (by omega)] at hes'
    subst hstr
    refine ⟨hoff, rfl, (last_byte_iff hoff hpos).1 hlast, hes'.1, ?_⟩
    intro k hk
    rw [List.length_drop]
    exact hes'.2 k hk
  · rintro ⟨hoff, rfl, hlast, hlen, hall⟩
    have hpos : 1 ≤ data.length - off := by
      have := length_pos_of_getLast? hlast
      rw [List.length_drop] at this
      omega
    obtain ⟨hss, halloc⟩ := allocationSize_of_le hdata hcount hoff
    rw [hss]
    refine ⟨(), by simp only [halloc, sizeofTable]; omega, off, ⟨hoff, rfl⟩, (), hpos, (),
      (last_byte_iff hoff hpos).2 hlast, es, ?_, off, ⟨hoff, rfl⟩, data.drop off, _,
      ⟨?_, rfl⟩, (), by omega, rfl, rfl⟩
    · rw [populate_eq_ok_iff (by omega) (by omega)]
      refine ⟨hlen, fun k hk => ?_⟩
      rw [← List.length_drop]
      exact hall k hk
    · rw [window_eq_some_iff]
      refine ⟨by omega, ?_⟩
      rw [← List.length_drop, List.take_length]

/-- The number of bytes that a table takes. -/
def KernelcacheSymbolTable.blockSize (t : KernelcacheSymbolTable) : ℕ :=
  sizeofTable + 16 * t.entries.length + t.strings.length

/-- The decoder succeeds on the uploads that are framed as documented, whose entries pass the bounds
check of the source and for whose table there is memory. -/
lemma decode_eq_ok_iff {uuid : Uuid} {malloc : ℕ → Bool} {t : KernelcacheSymbolTable}
    (hdata : data.length < 2 ^ 32) :
    decodeSymbolTable data uuid malloc = .ok t ↔
      Framed data uuid t.entries t.strings ∧
        (∀ e ∈ t.entries, (e.1 + 1) % 2 ^ 32 ≤ t.strings.length) ∧ malloc t.blockSize := by
  have hblock {so : ℕ} (hcount : t.entries.length < 2 ^ 32) (hle : so ≤ data.length)
      (hstr : t.strings = data.drop so) :
      allocationSize data.length t.entries.length so = t.blockSize := by
    rw [KernelcacheSymbolTable.blockSize, hstr, List.length_drop]
    exact (allocationSize_of_le hdata hcount hle).2
  simp only [decodeSymbolTable, bind_eq_ok_iff, Prod.exists, get_eq_ok_iff, guard_eq_ok_iff,
    findKernelcache_eq_ok_iff]
  constructor
  · rintro ⟨n, _, ⟨hn, rfl⟩, so, _, ⟨hso, rfl⟩, o, ⟨i, hi, hwi, hoi, -, hfirst⟩, count, _,
      ⟨hc, rfl⟩, _, hmalloc, h⟩
    have hcount : count < 2 ^ 32 := readLE_lt hc
    obtain ⟨hle, hstr, hlast, rfl, hall⟩ := (fillTable_eq_ok_iff hdata hcount).1 h
    refine ⟨⟨n, so, i, o, hn, hso, hi, ⟨hwi, hoi, hfirst⟩, ⟨hc, ?_⟩, hle, hstr, hlast⟩, ?_, ?_⟩
    · exact fun k hk => (hall k hk).1
    · intro e he
      obtain ⟨k, hk, rfl⟩ := List.getElem_of_mem he
      exact (hall k hk).2
    · rwa [hblock hcount hle hstr] at hmalloc
  · rintro ⟨⟨n, so, i, o, hn, hso, hi, ⟨hwi, hoi, hfirst⟩, ⟨hc, hes⟩, hle, hstr, hlast⟩, hchk,
      hmalloc⟩
    have hcount : t.entries.length < 2 ^ 32 := readLE_lt hc
    have ho : o ≤ data.length := by
      have := (readLE_eq_some_iff.1 hc).1
      omega
    refine ⟨n, _, ⟨hn, rfl⟩, so, _, ⟨hso, rfl⟩, o, ⟨i, hi, hwi, hoi, ho, hfirst⟩,
      t.entries.length, _, ⟨hc, rfl⟩, (), by rwa [hblock hcount hle hstr],
      (fillTable_eq_ok_iff hdata hcount).2 ⟨hle, hstr, hlast, rfl, ?_⟩⟩
    intro k hk
    exact ⟨hes k hk, hchk _ (List.getElem_mem hk)⟩

/-- The format leaves no choice: an upload says one thing about a UUID. -/
lemma framed_unique {uuid : Uuid} {es es' : List (ℕ × ℕ)} {strings strings' : List UInt8}
    (h : Framed data uuid es strings) (h' : Framed data uuid es' strings') :
    es = es' ∧ strings = strings' := by
  obtain ⟨n, so, i, o, -, hso, -, ⟨hwi, hoi, hfirst⟩, ⟨hc, hes⟩, -, rfl, -⟩ := h
  obtain ⟨n', so', i', o', -, hso', -, ⟨hwi', hoi', hfirst'⟩, ⟨hc', hes'⟩, -, rfl, -⟩ := h'
  obtain rfl : so = so' := Option.some.inj (hso.symm.trans hso')
  obtain rfl : i = i' := by
    rcases Nat.lt_trichotomy i i' with hlt | heq | hgt
    · exact absurd hwi (hfirst' i hlt)
    · exact heq
    · exact absurd hwi' (hfirst i' hgt)
  obtain rfl : o = o' := Option.some.inj (hoi.symm.trans hoi')
  have hlen : es.length = es'.length := Option.some.inj (hc.symm.trans hc')
  refine ⟨List.ext_getElem hlen fun k hk hk' => ?_, rfl⟩
  exact Option.some.inj ((hes k hk).symm.trans (hes' k hk'))

/-- Offsets inside the string area are strings that end inside it. -/
lemma sound_of_inside {t : KernelcacheSymbolTable} (hlast : t.strings.getLast? = some 0)
    (h : ∀ e ∈ t.entries, e.1 < t.strings.length) : t.Sound := by
  intro e he
  have hlt := h e he
  rw [KernelcacheSymbolTable.nameAt, Term.read_isSome_iff]
  have hmem : (t.strings.drop e.1).getLast? = some 0 := by
    rw [List.getLast?_drop, if_neg (by omega), hlast]
  exact List.mem_of_getLast? hmem

end VulnerableKext.Device

import VulnerableKext.Device.SymbolCommands

/-!
# The stores of the decoder

`symbol_strings_size` is the difference of the upload size and of an offset that has not
been checked yet.  When the offset lies behind the upload the difference wraps around, and
so may the sum that is requested from `malloc`; the fields of the table are written before
the offset is looked at.  A request for fewer bytes than these fields take is the only way
to a store outside of the block: once the offset has passed its check, the sum is what the
table needs.
-/

namespace VulnerableKext.Device

open Bytes Checked Format

variable {data : List UInt8} {uuid : Uuid} {malloc : ℕ → Bool}

/-- The allocator grants a block that does not even hold the fields of the table. -/
def GrantsShortBlock (data : List UInt8) (uuid : Uuid) (malloc : ℕ → Bool) : Prop :=
  ∃ n stringsOffset i o count, readLE data 0 4 = some n ∧ readLE data 4 4 = some stringsOffset ∧
    i < n ∧ DescriptorAt data uuid i o ∧ readLE data o 4 = some count ∧
    malloc (allocationSize data.length count stringsOffset) ∧
    allocationSize data.length count stringsOffset < sizeofTable

lemma get_ne_heapOverflow {p n : ℕ} : get data p n ≠ .error .heapOverflow := by
  unfold get
  cases readLE data p n <;> simp

lemma ref_ne_heapOverflow {p n : ℕ} : ref data p n ≠ .error .heapOverflow := by
  unfold ref
  cases window data p n <;> simp

lemma seek_ne_heapOverflow {o : ℕ} : seek data o ≠ .error .heapOverflow := by
  unfold seek
  split_ifs <;> simp

lemma findKernelcache_ne_heapOverflow {n p : ℕ} :
    findKernelcache data uuid n p ≠ .error .heapOverflow := by
  induction n generalizing p with
  | zero => simp [findKernelcache]
  | succ n ih =>
    intro h
    simp only [findKernelcache, bind_eq_error_iff, ref_ne_heapOverflow, get_ne_heapOverflow,
      false_or, Prod.exists] at h
    obtain ⟨w, q, -, o, q', -, h⟩ := h
    split_ifs at h
    · exact seek_ne_heapOverflow h
    · exact ih h

/-- In a block that is large enough, the loop over the entries stores inside of it. -/
lemma populate_ne_heapOverflow {size count ss n i p : ℕ} (hsize : sizeofTable + 16 * count ≤ size)
    (hi : i + n ≤ count) : populate data size count ss n i p ≠ .error .heapOverflow := by
  induction n generalizing i p with
  | zero => simp [populate]
  | succ n ih =>
    intro h
    simp only [populate, bind_eq_error_iff, get_ne_heapOverflow, guard_eq_error_iff, heapStore,
      false_or, Prod.exists, reduceCtorEq, and_false, and_true, pure, Except.pure, exists_false,
      or_false, guard_eq_ok_iff] at h
    obtain ⟨_, _, _, _, _, _, _, _, h | ⟨_, _, h | ⟨_, _, h⟩⟩⟩ := h
    · omega
    · omega
    · exact ih (by omega) h

/-- A block that holds the fields of the table holds everything that is stored in it. -/
lemma fillTable_ne_heapOverflow {count off p : ℕ} (hdata : data.length < 2 ^ 32)
    (hcount : count < 2 ^ 32) (hsize : sizeofTable ≤ allocationSize data.length count off) :
    fillTable data off count p ≠ .error .heapOverflow := by
  intro h
  simp only [fillTable, bind_eq_error_iff, heapStore, guard_eq_error_iff, seek_ne_heapOverflow,
    ref_ne_heapOverflow, false_or, Prod.exists, reduceCtorEq, and_false, and_true, pure,
    Except.pure, exists_false, or_false, seek_eq_ok_iff, guard_eq_ok_iff] at h
  rcases h with h | ⟨_, -, q, ⟨hoff, -⟩, _, -, _, -, h⟩
  · simp only [sizeofTable] at h hsize
    omega
  · obtain ⟨hss, halloc⟩ := allocationSize_of_le hdata hcount hoff
    rw [hss, halloc] at h
    rcases h with h | ⟨_, _, _, _, _, _, _, h⟩
    · exact populate_ne_heapOverflow (by omega) (by omega) h
    · omega

/-- The decoder stores outside of its block only in a block that is too short for the fields. -/
lemma grantsShortBlock_of_heapOverflow (hdata : data.length < 2 ^ 32)
    (h : decodeSymbolTable data uuid malloc = .error .heapOverflow) :
    GrantsShortBlock data uuid malloc := by
  simp only [decodeSymbolTable, bind_eq_error_iff, get_ne_heapOverflow, guard_eq_error_iff,
    findKernelcache_ne_heapOverflow, false_or, Prod.exists, reduceCtorEq, and_false, get_eq_ok_iff,
    findKernelcache_eq_ok_iff, guard_eq_ok_iff] at h
  obtain ⟨n, _, ⟨hn, rfl⟩, so, _, ⟨hso, rfl⟩, o, ⟨i, hi, hwi, hoi, -, hfirst⟩, count, _, ⟨hc, rfl⟩,
    _, hm, h⟩ := h
  refine ⟨n, so, i, o, count, hn, hso, hi, ⟨hwi, hoi, hfirst⟩, hc, hm, ?_⟩
  by_contra hle
  exact fillTable_ne_heapOverflow hdata (readLE_lt hc) (by omega) h

/-- A string area inside the upload rules a short block out. -/
lemma not_grantsShortBlock {stringsOffset : ℕ} (hdata : data.length < 2 ^ 32)
    (hso : readLE data 4 4 = some stringsOffset) (hle : stringsOffset ≤ data.length) :
    ¬ GrantsShortBlock data uuid malloc := by
  rintro ⟨n, so, i, o, count, -, hso', -, -, hc, -, hshort⟩
  obtain rfl : stringsOffset = so := Option.some.inj (hso.symm.trans hso')
  rw [(allocationSize_of_le hdata (readLE_lt hc) hle).2] at hshort
  omega

/-! ## Short requests -/

/-- Whatever the decoder stores into its block lies inside of the bytes that it has requested. -/
def StoresInside (data : List UInt8) (uuid : Uuid) (malloc : ℕ → Bool) : Prop :=
  decodeSymbolTable data uuid malloc ≠ .error .heapOverflow

/-- The strings are said to start at most 32 bytes behind the place where they would start if
the two arrays of the table came directly behind the upload, and `malloc` grants what is left of
these 32 bytes. -/
def StringsBehindUpload (data : List UInt8) (uuid : Uuid) (malloc : ℕ → Bool) : Prop :=
  ∃ n stringsOffset i o count, readLE data 0 4 = some n ∧ readLE data 4 4 = some stringsOffset ∧
    i < n ∧ DescriptorAt data uuid i o ∧ readLE data o 4 = some count ∧
    data.length + 16 * count < stringsOffset ∧
    stringsOffset ≤ data.length + 16 * count + sizeofTable ∧
    malloc (data.length + 16 * count + sizeofTable - stringsOffset)

/-- The request is short in this case only, and then it is short by what is missing. -/
lemma allocationSize_lt_iff {size count off : ℕ} (hsize : size < 2 ^ 32) (hcount : count < 2 ^ 32)
    (hoff : off < 2 ^ 32) :
    allocationSize size count off < sizeofTable ↔
      size + 16 * count < off ∧ off ≤ size + 16 * count + sizeofTable := by
  simp only [allocationSize, sizeofTable]
  omega

lemma allocationSize_of_short {size count off : ℕ} (hlt : size + 16 * count < off)
    (hle : off ≤ size + 16 * count + sizeofTable) (hoff : off < 2 ^ 32) :
    allocationSize size count off = size + 16 * count + sizeofTable - off := by
  simp only [allocationSize, sizeofTable] at hle ⊢
  omega

lemma grantsShortBlock_iff (hdata : data.length < 2 ^ 32) :
    GrantsShortBlock data uuid malloc ↔ StringsBehindUpload data uuid malloc := by
  constructor
  · rintro ⟨n, so, i, o, count, hn, hso, hi, hdesc, hc, hm, hshort⟩
    obtain ⟨hlt, hle⟩ := (allocationSize_lt_iff hdata (readLE_lt hc) (readLE_lt hso)).1 hshort
    rw [allocationSize_of_short hlt hle (readLE_lt hso)] at hm
    exact ⟨n, so, i, o, count, hn, hso, hi, hdesc, hc, hlt, hle, hm⟩
  · rintro ⟨n, so, i, o, count, hn, hso, hi, hdesc, hc, hlt, hle, hm⟩
    refine ⟨n, so, i, o, count, hn, hso, hi, hdesc, hc, ?_, ?_⟩
    · rw [allocationSize_of_short hlt hle (readLE_lt hso)]
      exact hm
    · exact (allocationSize_lt_iff hdata (readLE_lt hc) (readLE_lt hso)).2 ⟨hlt, hle⟩

/-- In a short block the first stores already fall behind the end. -/
lemma heapOverflow_of_grantsShortBlock (h : GrantsShortBlock data uuid malloc) :
    decodeSymbolTable data uuid malloc = .error .heapOverflow := by
  obtain ⟨n, so, i, o, count, hn, hso, hi, ⟨hwi, hoi, hfirst⟩, hc, hm, hshort⟩ := h
  have ho : o ≤ data.length := by
    have hin := (readLE_eq_some_iff.1 hc).1
    omega
  have hfind : findKernelcache data uuid n 8 = .ok o :=
    findKernelcache_eq_ok_iff.2 ⟨i, hi, hwi, hoi, ho, hfirst⟩
  have hfill : fillTable data so count (o + 4) = .error .heapOverflow := by
    refine bind_eq_error_iff.2 (Or.inl (guard_eq_error_iff.2 ⟨?_, rfl⟩))
    simp only [sizeofTable] at hshort
    omega
  refine bind_eq_error_iff.2 (Or.inr ⟨(n, 4), get_eq_ok_iff.2 ⟨hn, rfl⟩, ?_⟩)
  refine bind_eq_error_iff.2 (Or.inr ⟨(so, 8), get_eq_ok_iff.2 ⟨hso, rfl⟩, ?_⟩)
  refine bind_eq_error_iff.2 (Or.inr ⟨o, hfind, ?_⟩)
  refine bind_eq_error_iff.2 (Or.inr ⟨(count, o + 4), get_eq_ok_iff.2 ⟨hc, rfl⟩, ?_⟩)
  exact bind_eq_error_iff.2 (Or.inr ⟨(), guard_eq_ok_iff.2 hm, hfill⟩)

/-- The decoder stays inside of its block except when the strings are said to start there. -/
theorem storesInside_iff (u : Upload) (uuid : Uuid) (malloc : ℕ → Bool) :
    StoresInside u.data uuid malloc ↔ ¬ StringsBehindUpload u.data uuid malloc := by
  rw [StoresInside, ← grantsShortBlock_iff u.length_lt, not_iff_not]
  exact ⟨grantsShortBlock_of_heapOverflow u.length_lt, heapOverflow_of_grantsShortBlock⟩

/-- A table without symbols whose strings start 8 bytes behind the upload: 24 bytes are requested,
and the field `address` is stored behind them. -/
def shortUpload : Upload where
  data := leBytes 4 1 ++ (leBytes 4 40 ++ (leBytes 16 0 ++ (leBytes 4 28 ++ leBytes 4 0)))
  length_lt := by simp

theorem not_storesInside_shortUpload :
    ¬ ∀ (u : Upload) (uuid : Uuid) (malloc : ℕ → Bool), StoresInside u.data uuid malloc := by
  intro h
  exact h shortUpload KernelcacheUuid.initial.uuid (fun n => n = 24) (by decide)

end VulnerableKext.Device

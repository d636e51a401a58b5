import VulnerableKext.Host.KcsInvariant
import VulnerableKext.Lib.Bytes

/-!
# The serialised symbol table

The second half of `kernelcache_symbol_table_generate` writes the state into a block
of the worst-case size, with one cursor for the descriptors and one for the arrays of
symbols.  `layout` is the same blob as one concatenation, and `serialise_eq` says that
the stores produce it.  The block comes from `malloc` with whatever it contains; a
store outside of it and a failing assertion leave no blob.
-/

namespace VulnerableKext.Host

open Bytes

/-- An assertion of the source. -/
def assertThat (c : Prop) [Decidable c] : Option Unit := if c then some () else none

/-- `sizeof` of the two words of the header. -/
def headerSize : ℕ := 8

def kcDescSize : ℕ := 20

def symSize : ℕ := 12

/-- The loop over the symbols of a kernelcache. -/
def writeSyms (blob : List UInt8) (offset : ℕ) : List KcsSym → Option (List UInt8 × ℕ)
  | [] => some (blob, offset)
  | s :: syms => do
    let blob ← store blob offset (leBytes 4 s.off)
    let blob ← store blob (offset + 4) (leBytes 8 s.addr)
    writeSyms blob (offset + 4 + 8) syms

/-- The loop over the kernelcaches. -/
def writeKcs (size : ℕ) (blob : List UInt8) (kcDesc offset : ℕ) :
    List KcsKc → Option (List UInt8 × ℕ)
  | [] => some (blob, offset)
  | kc :: kcs => do
    assertThat (offset % 2 ^ 32 = offset)
    let blob ← store blob kcDesc kc.uuid.toList
    let blob ← store blob (kcDesc + 16) (leBytes 4 offset)
    assertThat (kc.syms.length % 2 ^ 32 = kc.syms.length)
    let blob ← store blob offset (leBytes 4 kc.syms.length)
    let (blob, offset) ← writeSyms blob (offset + 4) kc.syms
    assertThat (offset ≤ size)
    writeKcs size blob (kcDesc + 16 + 4) offset kcs

/-- The size of the block that is allocated, with the wraparound of `size_t`. -/
def KcsState.worstCaseSize (state : KcsState) : ℕ :=
  (headerSize + state.kcs.length * kcDescSize + state.kcs.length * (4 + state.maxsymcnt * symSize) +
    state.symstr.length) % 2 ^ 64

/-- Build the serialised blob.  `malloc` returns a block with its contents. -/
def serialise (malloc : ℕ → Option (List UInt8)) (state : KcsState) : Option (List UInt8) := do
  let size := state.worstCaseSize
  let blob ← malloc size
  let blob ← store blob 0 (leBytes 4 state.kcs.length)
  let (blob, offset) ←
    writeKcs size blob headerSize (headerSize + state.kcs.length * kcDescSize) state.kcs
  assertThat (offset + state.symstr.length ≤ size)
  let blob ← store blob 4 (leBytes 4 offset)
  let blob ← store blob offset state.symstr
  return blob.take (offset + state.symstr.length)

/-- Generate a symbol table. -/
def kernelcacheSymbolTableGenerate (malloc : ℕ → Option (List UInt8))
    (dirs : List (Option (List Dirent))) : Option (List UInt8) :=
  (collectSymbols dirs).bind (serialise malloc)

/-! ## The layout -/

def layoutSyms (syms : List KcsSym) : List UInt8 :=
  syms.flatMap fun s => leBytes 4 s.off ++ leBytes 8 s.addr

def layoutKc (kc : KcsKc) : List UInt8 := leBytes 4 kc.syms.length ++ layoutSyms kc.syms

def layoutKcs (kcs : List KcsKc) : List UInt8 := kcs.flatMap layoutKc

/-- The descriptors of the kernelcaches, whose arrays start at `offset`. -/
def layoutDescs (offset : ℕ) : List KcsKc → List UInt8
  | [] => []
  | kc :: kcs =>
    kc.uuid.toList ++ leBytes 4 offset ++ layoutDescs (offset + (layoutKc kc).length) kcs

/-- Where the arrays of symbols start. -/
def KcsState.symbolsOffset (state : KcsState) : ℕ := headerSize + state.kcs.length * kcDescSize

/-- Where the strings start. -/
def KcsState.stringsOffset (state : KcsState) : ℕ :=
  state.symbolsOffset + (layoutKcs state.kcs).length

/-- The whole blob. -/
def KcsState.layout (state : KcsState) : List UInt8 :=
  leBytes 4 state.kcs.length ++ (leBytes 4 state.stringsOffset ++
    (layoutDescs state.symbolsOffset state.kcs ++ (layoutKcs state.kcs ++ state.symstr)))

variable {kcs : List KcsKc} {state : KcsState}

@[simp] lemma length_layoutSyms (syms : List KcsSym) :
    (layoutSyms syms).length = syms.length * symSize := by
  induction syms with
  | nil => rfl
  | cons s syms ih =>
    rw [layoutSyms, List.flatMap_cons, List.length_append, ← layoutSyms, ih, List.length_append,
      length_leBytes, length_leBytes, List.length_cons, Nat.succ_mul, symSize]
    omega

@[simp] lemma length_layoutKc (kc : KcsKc) :
    (layoutKc kc).length = 4 + kc.syms.length * symSize := by
  rw [layoutKc, List.length_append, length_leBytes, length_layoutSyms]

@[simp] lemma length_layoutDescs (offset : ℕ) (kcs : List KcsKc) :
    (layoutDescs offset kcs).length = kcs.length * kcDescSize := by
  induction kcs generalizing offset with
  | nil => simp [layoutDescs]
  | cons kc kcs ih =>
    rw [layoutDescs, List.length_append, List.length_append, ih, length_leBytes, List.length_cons,
      Nat.succ_mul, List.Vector.toList_length, kcDescSize]
    omega

lemma length_layout (state : KcsState) :
    state.layout.length = state.stringsOffset + state.symstr.length := by
  simp only [KcsState.layout, List.length_append, length_leBytes, length_layoutDescs,
    KcsState.stringsOffset, KcsState.symbolsOffset, headerSize]
  omega

/-- The size of the blob. -/
def KcsState.serialisedSize (state : KcsState) : ℕ :=
  headerSize + state.kcs.length * kcDescSize +
    (state.kcs.map fun kc => 4 + kc.syms.length * symSize).sum + state.symstr.length

lemma length_layout_eq_serialisedSize (state : KcsState) :
    state.layout.length = state.serialisedSize := by
  have hkcs : (layoutKcs state.kcs).length =
      (state.kcs.map fun kc => 4 + kc.syms.length * symSize).sum := by
    rw [layoutKcs, List.length_flatMap]
    exact congrArg List.sum (List.map_congr_left fun kc _ => length_layoutKc kc)
  rw [length_layout, KcsState.stringsOffset, KcsState.symbolsOffset, hkcs, KcsState.serialisedSize]

lemma layoutKcs_cons (kc : KcsKc) (kcs : List KcsKc) :
    layoutKcs (kc :: kcs) = layoutKc kc ++ layoutKcs kcs := rfl

/-! ## The stores -/

lemma assertThat_of {c : Prop} [Decidable c] (h : c) : assertThat c = some () := if_pos h

lemma writeSyms_eq (a rest : List UInt8) {syms : List KcsSym}
    (h : syms.length * symSize ≤ rest.length) :
    writeSyms (a ++ rest) a.length syms =
      some (a ++ (layoutSyms syms ++ rest.drop (syms.length * symSize)),
        a.length + syms.length * symSize) := by
  induction syms generalizing a rest with
  | nil => simp [writeSyms, layoutSyms]
  | cons s syms ih =>
    simp only [List.length_cons, Nat.succ_mul, symSize] at h
    have h₁ : store (a ++ rest) a.length (leBytes 4 s.off) =
        some (a ++ (leBytes 4 s.off ++ rest.drop 4)) :=
      store_behind rfl rfl (by rw [length_leBytes]; omega)
    have h₂ : store (a ++ (leBytes 4 s.off ++ rest.drop 4)) (a.length + 4) (leBytes 8 s.addr) =
        some ((a ++ leBytes 4 s.off) ++ (leBytes 8 s.addr ++ (rest.drop 4).drop 8)) :=
      store_behind (by simp) (by simp) (by rw [length_leBytes, List.length_drop]; omega)
    have hnext := ih (a ++ leBytes 4 s.off ++ leBytes 8 s.addr) ((rest.drop 4).drop 8)
      (by simp only [List.length_drop, symSize]; omega)
    rw [writeSyms, h₁, Option.bind_eq_bind, Option.bind_some, h₂, Option.bind_some]
    simp only [List.length_append, length_leBytes, List.append_assoc, List.drop_drop] at hnext ⊢
    rw [hnext]
    simp only [layoutSyms, List.flatMap_cons, List.append_assoc, List.length_cons, Nat.succ_mul,
      symSize, Option.some.injEq, Prod.mk.injEq, List.append_cancel_left_eq]
    exact ⟨by congr 1; omega, by omega⟩

/-- The two stores that fill the first descriptor of the gap. -/
lemma store_desc (d gap tail : List UInt8) {u w : List UInt8} (hu : u.length = 16)
    (hw : w.length = 4) (hgap : kcDescSize ≤ gap.length) :
    (store (d ++ (gap ++ tail)) d.length u).bind (fun blob => store blob (d.length + 16) w) =
      some (d ++ (u ++ (w ++ (gap.drop kcDescSize ++ tail)))) := by
  have h16 : gap = gap.take 16 ++ gap.drop 16 := (List.take_append_drop 16 gap).symm
  have h20 : gap.drop 16 = (gap.drop 16).take 4 ++ gap.drop 20 := by
    conv_lhs => rw [← List.take_append_drop 4 (gap.drop 16), List.drop_drop]
  simp only [kcDescSize] at hgap ⊢
  have h₁ : store (d ++ (gap ++ tail)) d.length u = some (d ++ (u ++ (gap.drop 16 ++ tail))) := by
    refine store_append_of_eq (b := gap.take 16) ?_ rfl ?_
    · conv_lhs => rw [h16, List.append_assoc]
    · rw [hu, List.length_take]
      omega
  have h₂ : store (d ++ (u ++ (gap.drop 16 ++ tail))) (d.length + 16) w =
      some ((d ++ u) ++ (w ++ (gap.drop 20 ++ tail))) := by
    refine store_append_of_eq (b := (gap.drop 16).take 4) ?_ (by simp [hu]) ?_
    · conv_lhs => rw [h20]
      simp only [List.append_assoc]
    · rw [hw, List.length_take, List.length_drop]
      omega
  rw [h₁, Option.bind_some, h₂, List.append_assoc]

/-- The stores that fill the array of a kernelcache behind a prefix. -/
lemma store_array (a : List UInt8) {rest : List UInt8} {kc : KcsKc}
    (h : (layoutKc kc).length ≤ rest.length) :
    (store (a ++ rest) a.length (leBytes 4 kc.syms.length)).bind
        (fun blob => writeSyms blob (a.length + 4) kc.syms) =
      some (a ++ (layoutKc kc ++ rest.drop (layoutKc kc).length),
        a.length + (layoutKc kc).length) := by
  rw [length_layoutKc] at h ⊢
  have h₁ : store (a ++ rest) a.length (leBytes 4 kc.syms.length) =
      some (a ++ (leBytes 4 kc.syms.length ++ rest.drop 4)) :=
    store_behind rfl rfl (by rw [length_leBytes]; omega)
  have hsyms : kc.syms.length * symSize ≤ (rest.drop 4).length := by
    rw [List.length_drop]
    omega
  have h₂ := writeSyms_eq (a ++ leBytes 4 kc.syms.length) (rest.drop 4) hsyms
  simp only [List.length_append, length_leBytes, List.append_assoc, List.drop_drop] at h₂
  rw [h₁, Option.bind_some, h₂, layoutKc, List.append_assoc, Nat.add_assoc]

/-- One kernelcache: its descriptor is written over the start of the gap and its array behind
the arrays that have been written. -/
lemma writeKcs_cons {size off : ℕ} (d gap arr : List UInt8) {rest : List UInt8} {kc : KcsKc}
    (hgap : kcDescSize ≤ gap.length) (hoff : off = d.length + gap.length + arr.length)
    (hrest : (layoutKc kc).length ≤ rest.length) (hsize : off + (layoutKc kc).length ≤ size)
    (hlt : off + (layoutKc kc).length < 2 ^ 32) :
    writeKcs size (d ++ (gap ++ (arr ++ rest))) d.length off (kc :: kcs) =
      writeKcs size ((d ++ (kc.uuid.toList ++ leBytes 4 off)) ++ (gap.drop kcDescSize ++
          ((arr ++ layoutKc kc) ++ rest.drop (layoutKc kc).length)))
        (d.length + kcDescSize) (off + (layoutKc kc).length) kcs := by
  have hu : kc.uuid.toList.length = 16 := kc.uuid.toList_length
  have hcnt : kc.syms.length < 2 ^ 32 := by
    rw [length_layoutKc, symSize] at hlt
    omega
  have hdesc := store_desc d gap (arr ++ rest) hu (length_leBytes 4 off) hgap
  obtain ⟨b₁, h₁, h₂⟩ := Option.bind_eq_some_iff.1 hdesc
  have harr := store_array (d ++ (kc.uuid.toList ++ (leBytes 4 off ++ (gap.drop kcDescSize ++ arr))))
    hrest
  have hlen : (d ++ (kc.uuid.toList ++ (leBytes 4 off ++ (gap.drop kcDescSize ++ arr)))).length =
      off := by
    simp only [List.length_append, List.length_drop, hu, length_leBytes, kcDescSize] at hgap ⊢
    omega
  rw [hlen] at harr
  obtain ⟨b₂, h₃, h₄⟩ := Option.bind_eq_some_iff.1 harr
  simp only [List.append_assoc] at h₂ h₃ h₄ ⊢
  rw [writeKcs, assertThat_of (by omega), h₁]
  simp only [Option.bind_eq_bind, Option.bind_some]
  rw [h₂, Option.bind_some, assertThat_of (by omega), Option.bind_some, h₃, Option.bind_some, h₄,
    Option.bind_some, assertThat_of hsize, Option.bind_some, kcDescSize]

/-- The cursors of the descriptors and of the arrays advance over the gap and over the rest. -/
lemma writeKcs_eq {size off : ℕ} (d gap arr rest : List UInt8)
    (hgap : gap.length = kcs.length * kcDescSize) (hoff : off = d.length + gap.length + arr.length)
    (hrest : (layoutKcs kcs).length ≤ rest.length) (hsize : off + (layoutKcs kcs).length ≤ size)
    (hlt : off + (layoutKcs kcs).length < 2 ^ 32) :
    writeKcs size (d ++ (gap ++ (arr ++ rest))) d.length off kcs =
      some (d ++ (layoutDescs off kcs ++ (arr ++ (layoutKcs kcs ++
        rest.drop (layoutKcs kcs).length))), off + (layoutKcs kcs).length) := by
  induction kcs generalizing d gap arr rest off with
  | nil =>
    obtain rfl : gap = [] := List.length_eq_zero_iff.1 (by simpa using hgap)
    simp [writeKcs, layoutKcs, layoutDescs]
  | cons kc kcs ih =>
    have hu : kc.uuid.toList.length = 16 := kc.uuid.toList_length
    simp only [layoutKcs_cons, List.length_append, List.length_cons, Nat.succ_mul]
      at hgap hrest hsize hlt
    rw [writeKcs_cons d gap arr (by omega) hoff (by omega) (by omega) (by omega)]
    have hd : (d ++ (kc.uuid.toList ++ leBytes 4 off)).length = d.length + kcDescSize := by
      simp only [List.length_append, hu, length_leBytes, kcDescSize]
    have hdrop : (gap.drop kcDescSize).length = kcs.length * kcDescSize := by
      rw [List.length_drop]
      omega
    rw [← hd, ih _ _ _ _ hdrop ?_ ?_ (by omega) (by omega)]
    · simp only [layoutDescs, layoutKcs_cons, List.append_assoc, List.drop_drop,
        List.length_append, Nat.add_assoc]
    · rw [hd, hdrop, List.length_append]
      omega
    · rw [List.length_drop]
      omega

/-! ## The blob -/

lemma length_layoutKcs_le {m : ℕ} (h : ∀ kc ∈ kcs, kc.syms.length ≤ m) :
    (layoutKcs kcs).length ≤ kcs.length * (4 + m * symSize) := by
  induction kcs with
  | nil => simp [layoutKcs]
  | cons kc kcs ih =>
    have hkc : kc.syms.length * symSize ≤ m * symSize := Nat.mul_le_mul_right _ (h kc (by simp))
    have hrest := ih fun kc' hkc' => h kc' (by simp [hkc'])
    rw [layoutKcs_cons, List.length_append, length_layoutKc, List.length_cons, Nat.succ_mul]
    omega

lemma length_layoutKc_le {kc : KcsKc} (h : kc ∈ kcs) :
    (layoutKc kc).length ≤ (layoutKcs kcs).length := by
  rw [layoutKcs, List.length_flatMap]
  exact List.le_sum_of_mem (List.mem_map.2 ⟨kc, h, rfl⟩)

/-- The worst case does not wrap around, and covers the layout. -/
lemma worstCaseSize_eq {files : List ParsedFile} (hs : state.Holds files)
    (hlt : state.layout.length < 2 ^ 32) :
    state.worstCaseSize = headerSize + state.kcs.length * kcDescSize +
      state.kcs.length * (4 + state.maxsymcnt * symSize) + state.symstr.length := by
  simp only [length_layout, KcsState.stringsOffset, KcsState.symbolsOffset] at hlt
  have hmax : state.maxsymcnt * symSize < 2 ^ 32 := by
    rcases hs.max_le with h0 | ⟨kc, hkc, hle⟩
    · rw [h0]
      norm_num
    · have hlen := length_layoutKc_le hkc
      have hmul : state.maxsymcnt * symSize ≤ kc.syms.length * symSize := Nat.mul_le_mul_right _ hle
      rw [length_layoutKc] at hlen
      omega
  have hcnt : state.kcs.length < 2 ^ 28 := by
    simp only [kcDescSize] at hlt
    omega
  have hprod : state.kcs.length * (4 + state.maxsymcnt * symSize) ≤ 2 ^ 28 * 2 ^ 33 :=
    Nat.mul_le_mul hcnt.le (by omega)
  rw [KcsState.worstCaseSize, Nat.mod_eq_of_lt]
  omega

/-- `malloc` always returns a block of the requested size. -/
def Allocates (malloc : ℕ → Option (List UInt8)) : Prop :=
  ∀ n, ∃ blob, malloc n = some blob ∧ blob.length = n

/-- The stores produce the layout, whatever the block contained. -/
lemma serialise_eq {malloc : ℕ → Option (List UInt8)} {files : List ParsedFile}
    (hmalloc : Allocates malloc) (hs : state.Holds files) (hlt : state.layout.length < 2 ^ 32) :
    serialise malloc state = some state.layout := by
  have hsize := worstCaseSize_eq hs hlt
  obtain ⟨blob, hblob, hlen⟩ := hmalloc state.worstCaseSize
  have hkcs := length_layoutKcs_le hs.le_max
  have hlay := length_layout state
  simp only [KcsState.stringsOffset, KcsState.symbolsOffset] at hlay
  generalize hsz : state.worstCaseSize = size at hsize hblob hlen
  -- the block in pieces: the two words, the gap for the descriptors and the rest
  obtain ⟨w₀, w₁, gap, rest, rfl, hw₀, hw₁, hgap⟩ : ∃ w₀ w₁ gap rest,
      blob = w₀ ++ (w₁ ++ (gap ++ rest)) ∧ w₀.length = 4 ∧ w₁.length = 4 ∧
        gap.length = state.kcs.length * kcDescSize := by
    refine ⟨blob.take 4, (blob.drop 4).take 4, (blob.drop 8).take (state.kcs.length * kcDescSize),
      (blob.drop 8).drop (state.kcs.length * kcDescSize), ?_, ?_, ?_, ?_⟩
    · rw [List.take_append_drop, show blob.drop 8 = (blob.drop 4).drop 4 by rw [List.drop_drop],
        List.take_append_drop, List.take_append_drop]
    all_goals
      simp only [List.length_take, List.length_drop, headerSize] at hsize ⊢
      omega
  simp only [List.length_append, hw₀, hw₁, hgap] at hlen
  simp only [headerSize] at hsize hlay
  have h₁ : store (w₀ ++ (w₁ ++ (gap ++ rest))) 0 (leBytes 4 state.kcs.length) =
      some (leBytes 4 state.kcs.length ++ (w₁ ++ (gap ++ rest))) :=
    store_append_of_eq (a := []) (b := w₀) (by simp) rfl (by rw [length_leBytes, hw₀])
  have hsym : state.symbolsOffset = 8 + state.kcs.length * kcDescSize := rfl
  have hstr : state.stringsOffset = state.symbolsOffset + (layoutKcs state.kcs).length := rfl
  have hhead : (leBytes 4 state.kcs.length ++ w₁).length = headerSize := by
    rw [List.length_append, length_leBytes, hw₁, headerSize]
  have hoff : state.symbolsOffset =
      (leBytes 4 state.kcs.length ++ w₁).length + gap.length + ([] : List UInt8).length := by
    rw [hhead, hgap, List.length_nil, hsym, headerSize, Nat.add_zero]
  have hfit : state.symbolsOffset + (layoutKcs state.kcs).length ≤ size := by omega
  have h₂ := writeKcs_eq (leBytes 4 state.kcs.length ++ w₁) gap [] rest hgap hoff (by omega) hfit
    (by omega)
  simp only [hhead, List.append_assoc, List.nil_append] at h₂
  have h₃ : ∀ tail, store (leBytes 4 state.kcs.length ++ (w₁ ++ tail)) 4
      (leBytes 4 state.stringsOffset) =
        some (leBytes 4 state.kcs.length ++ (leBytes 4 state.stringsOffset ++ tail)) := by
    intro tail
    exact store_append_of_eq rfl (by rw [length_leBytes]) (by rw [length_leBytes, hw₁])
  generalize hpre : leBytes 4 state.kcs.length ++ (leBytes 4 state.stringsOffset ++
    (layoutDescs state.symbolsOffset state.kcs ++ layoutKcs state.kcs)) = pre
  have hlenpre : state.stringsOffset = pre.length := by
    rw [← hpre]
    simp only [List.length_append, length_leBytes, length_layoutDescs]
    omega
  have h₄ : store (leBytes 4 state.kcs.length ++ (leBytes 4 state.stringsOffset ++
      (layoutDescs state.symbolsOffset state.kcs ++ (layoutKcs state.kcs ++
        rest.drop (layoutKcs state.kcs).length)))) state.stringsOffset state.symstr =
      some (pre ++ (state.symstr ++ (rest.drop (layoutKcs state.kcs).length).drop
        state.symstr.length)) := by
    refine store_behind ?_ hlenpre ?_
    · rw [← hpre]
      simp only [List.append_assoc]
    · rw [List.length_drop]
      omega
  rw [serialise, hsz]
  simp only [hblob, Option.bind_eq_bind, Option.bind_some, h₁]
  rw [← KcsState.symbolsOffset, h₂, Option.bind_some, ← KcsState.stringsOffset,
    assertThat_of (by omega), Option.bind_some, h₃, Option.bind_some, h₄]
  have hassoc : pre ++ state.symstr = state.layout := by
    rw [← hpre]
    simp only [KcsState.layout, List.append_assoc]
  rw [← List.append_assoc, hassoc, Option.bind_some, Option.pure_def, ← length_layout,
    List.take_left' rfl]

end VulnerableKext.Host

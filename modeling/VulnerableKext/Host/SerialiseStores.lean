import VulnerableKext.Host.Collected
import VulnerableKext.Host.Serialise
import VulnerableKext.Lib.Writes

/-!
# The stores of the serialiser

The block is allocated for `maxsymcnt` symbols in every kernelcache.  Here the stores that
`serialise` makes are listed one by one: the descriptors and the arrays have a cursor each,
and together with the two words of the header and the strings they fill the blob without
meeting each other.
-/

namespace VulnerableKext.Host

open Bytes

/-! ## The list of the stores -/

def symWrites : ℕ → List KcsSym → List Write
  | _, [] => []
  | offset, s :: syms =>
    ⟨offset, leBytes 4 s.off⟩ :: ⟨offset + 4, leBytes 8 s.addr⟩ :: symWrites (offset + 4 + 8) syms

/-- The stores for the array of a kernelcache. -/
def arrayWrites (offset : ℕ) (kc : KcsKc) : List Write :=
  ⟨offset, leBytes 4 kc.syms.length⟩ :: symWrites (offset + 4) kc.syms

/-- The stores of the loop over the kernelcaches, from the positions of its two cursors. -/
def kcWrites : (kcDesc offset : ℕ) → List KcsKc → List Write
  | _, _, [] => []
  | kcDesc, offset, kc :: kcs =>
    ⟨kcDesc, kc.uuid.toList⟩ :: ⟨kcDesc + 16, leBytes 4 offset⟩ ::
      (arrayWrites offset kc ++ kcWrites (kcDesc + 16 + 4) (offset + (layoutKc kc).length) kcs)

def KcsState.writes (state : KcsState) : List Write :=
  ⟨0, leBytes 4 state.kcs.length⟩ :: (kcWrites headerSize state.symbolsOffset state.kcs ++
    [⟨4, leBytes 4 state.stringsOffset⟩, ⟨state.stringsOffset, state.symstr⟩])

/-- Where the arrays of the kernelcaches start and end. -/
def arrayAreas : ℕ → List KcsKc → List (ℕ × ℕ)
  | _, [] => []
  | offset, kc :: kcs =>
    (offset, offset + (layoutKc kc).length) :: arrayAreas (offset + (layoutKc kc).length) kcs

/-- The header, the descriptors, the arrays and the strings. -/
def KcsState.areas (state : KcsState) : List (ℕ × ℕ) :=
  (0, headerSize) :: (headerSize, state.symbolsOffset) ::
    (arrayAreas state.symbolsOffset state.kcs ++ [(state.stringsOffset, state.serialisedSize)])

variable {state : KcsState} {kcs : List KcsKc} {syms : List KcsSym} {d o size : ℕ}
  {blob : List UInt8} {w : Write}

/-! ## They are the stores of the serialiser -/

lemma writeSyms_eq_perform (blob : List UInt8) (o : ℕ) (syms : List KcsSym) :
    writeSyms blob o syms =
      (perform blob (symWrites o syms)).map fun blob => (blob, o + syms.length * symSize) := by
  induction syms generalizing blob o with
  | nil => simp [writeSyms, symWrites]
  | cons s syms ih =>
    have hstop : o + 4 + 8 + syms.length * symSize = o + (s :: syms).length * symSize := by
      rw [List.length_cons, Nat.succ_mul, symSize]
      omega
    simp only [writeSyms, symWrites, perform_cons, Option.bind_eq_bind, Option.map_bind,
      Function.comp_def, ih, hstop]

lemma writeKcs_eq_perform (hsize : o + (layoutKcs kcs).length ≤ size)
    (hlt : o + (layoutKcs kcs).length < 2 ^ 32) (blob : List UInt8) (d : ℕ) :
    writeKcs size blob d o kcs =
      (perform blob (kcWrites d o kcs)).map fun blob => (blob, o + (layoutKcs kcs).length) := by
  induction kcs generalizing blob d o with
  | nil => simp [writeKcs, kcWrites, layoutKcs]
  | cons kc kcs ih =>
    rw [layoutKcs_cons, List.length_append] at hsize hlt
    have hcnt : kc.syms.length < 2 ^ 32 := by
      rw [length_layoutKc, symSize] at hlt
      omega
    have harr : o + 4 + kc.syms.length * symSize = o + (layoutKc kc).length := by
      rw [length_layoutKc, Nat.add_assoc]
    have hoff : assertThat (o % 2 ^ 32 = o) = some () := assertThat_of (by omega)
    have hsyms : assertThat (kc.syms.length % 2 ^ 32 = kc.syms.length) = some () :=
      assertThat_of (by omega)
    have hend : assertThat (o + (layoutKc kc).length ≤ size) = some () := assertThat_of (by omega)
    have hrest : ∀ blob d, writeKcs size blob d (o + (layoutKc kc).length) kcs =
        (perform blob (kcWrites d (o + (layoutKc kc).length) kcs)).map fun blob =>
          (blob, o + (layoutKc kc).length + (layoutKcs kcs).length) :=
      fun blob d => ih (by omega) (by omega) blob d
    simp only [writeKcs, kcWrites, arrayWrites, List.cons_append, perform_cons, perform_append,
      writeSyms_eq_perform, harr, hoff, hsyms, hend, hrest, Option.bind_eq_bind, Option.bind_some,
      Option.map_bind, Option.bind_map, Function.comp_def, layoutKcs_cons, List.length_append,
      Nat.add_assoc]

/-- The blob fits into the block. -/
lemma serialisedSize_le {files : List ParsedFile} (hs : state.Holds files)
    (hlt : state.serialisedSize < 2 ^ 32) : state.serialisedSize ≤ state.worstCaseSize := by
  rw [← length_layout_eq_serialisedSize] at hlt ⊢
  rw [worstCaseSize_eq hs hlt, length_layout, KcsState.stringsOffset, KcsState.symbolsOffset]
  have hkcs := length_layoutKcs_le hs.le_max
  omega

lemma serialisedSize_eq (state : KcsState) :
    state.serialisedSize = state.stringsOffset + state.symstr.length := by
  rw [← length_layout_eq_serialisedSize, length_layout]

lemma serialise_eq_perform {files : List ParsedFile} (hs : state.Holds files)
    (hlt : state.serialisedSize < 2 ^ 32) (blob : List UInt8) :
    serialise (fun _ => some blob) state =
      (perform blob state.writes).map (List.take state.serialisedSize) := by
  have hle := serialisedSize_le hs hlt
  rw [serialisedSize_eq] at hlt hle
  have hkcs : ∀ blob, writeKcs state.worstCaseSize blob headerSize
      (headerSize + state.kcs.length * kcDescSize) state.kcs =
        (perform blob (kcWrites headerSize state.symbolsOffset state.kcs)).map fun blob =>
          (blob, state.stringsOffset) :=
    fun blob => writeKcs_eq_perform (show state.stringsOffset ≤ _ by omega)
      (show state.stringsOffset < _ by omega) blob headerSize
  have hend : assertThat (state.stringsOffset + state.symstr.length ≤ state.worstCaseSize) =
      some () := assertThat_of hle
  simp only [serialise, KcsState.writes, perform_cons, perform_append, perform_nil, hkcs, hend,
    serialisedSize_eq, Option.bind_eq_bind, Option.bind_some, Option.map_bind, Option.map_some,
    Option.bind_map, Function.comp_def, Option.pure_def]

/-! ## They fill the blob -/

lemma fills_symWrites (o : ℕ) (syms : List KcsSym) :
    Fills (symWrites o syms) (Set.Ico o (o + syms.length * symSize)) := by
  induction syms generalizing o with
  | nil => simpa [symWrites] using Fills.nil
  | cons s syms ih =>
    have hstop : o + 4 + 8 + syms.length * symSize = o + (s :: syms).length * symSize := by
      rw [List.length_cons, Nat.succ_mul, symSize]
      omega
    have hrest := ih (o + 4 + 8)
    rw [hstop] at hrest
    refine Fills.cons_Ico (Fills.cons_Ico ?_ ?_) ?_
    · exact hrest
    · show o + 4 + 8 ≤ _
      omega
    · show o + 4 ≤ _
      omega

lemma fills_arrayWrites (o : ℕ) (kc : KcsKc) :
    Fills (arrayWrites o kc) (Set.Ico o (o + (layoutKc kc).length)) := by
  rw [length_layoutKc, ← Nat.add_assoc]
  exact (fills_symWrites (o + 4) kc.syms).cons_Ico (Nat.le_add_right _ _)

/-- The descriptors and the arrays, when the cursor of the arrays starts behind the
descriptors. -/
lemma fills_kcWrites (hd : d + kcs.length * kcDescSize ≤ o) :
    Fills (kcWrites d o kcs)
      (Set.Ico d (d + kcs.length * kcDescSize) ∪ Set.Ico o (o + (layoutKcs kcs).length)) := by
  induction kcs generalizing d o with
  | nil => simpa [kcWrites, layoutKcs] using Fills.nil
  | cons kc kcs ih =>
    have hu : kc.uuid.toList.length = 16 := kc.uuid.toList_length
    rw [List.length_cons, Nat.succ_mul, kcDescSize] at hd
    have hrest := ih (show d + 16 + 4 + kcs.length * kcDescSize ≤ o + (layoutKc kc).length by
      rw [kcDescSize]; omega)
    rw [kcDescSize] at hrest
    -- the array lies between the descriptors that follow and the arrays that follow
    have harr := (fills_arrayWrites o kc).append hrest (Set.disjoint_union_right.2
      ⟨Set.Ico_disjoint_Ico.2 (by omega), Set.Ico_disjoint_Ico.2 (by omega)⟩)
    have hoff := harr.cons (w := ⟨d + 16, leBytes 4 o⟩) (Set.disjoint_union_right.2
      ⟨Write.disjoint_Ico _ (Or.inl (show d + 16 + 4 ≤ o by omega)), Set.disjoint_union_right.2
        ⟨Write.disjoint_Ico _ (Or.inl (le_refl (d + 16 + 4))),
          Write.disjoint_Ico _ (Or.inl (show d + 16 + 4 ≤ o + (layoutKc kc).length by omega))⟩⟩)
    have huuid : Write.stop ⟨d, kc.uuid.toList⟩ = d + 16 := by rw [Write.stop, hu]
    have hall := hoff.cons (w := ⟨d, kc.uuid.toList⟩) (Set.disjoint_union_right.2
      ⟨Write.disjoint_Ico _ (Or.inl huuid.le), Set.disjoint_union_right.2
        ⟨Write.disjoint_Ico _ (Or.inl (by omega)), Set.disjoint_union_right.2
          ⟨Write.disjoint_Ico _ (Or.inl (by omega)), Write.disjoint_Ico _ (Or.inl (by omega))⟩⟩⟩)
    refine hall.congr fun i => ?_
    simp only [Write.mem_range, hu, length_leBytes, Set.mem_union, Set.mem_Ico, kcDescSize,
      List.length_cons, Nat.succ_mul, layoutKcs_cons, List.length_append]
    omega

lemma fills_writes (state : KcsState) : Fills state.writes (Set.Ico 0 state.serialisedSize) := by
  have hdesc : headerSize ≤ state.symbolsOffset := Nat.le_add_right _ _
  have hsym : state.symbolsOffset ≤ state.stringsOffset := Nat.le_add_right _ _
  have hheader : headerSize = 8 := rfl
  have hkcs : Fills (kcWrites headerSize state.symbolsOffset state.kcs)
      (Set.Ico headerSize state.stringsOffset) := by
    rw [← Set.Ico_union_Ico_eq_Ico hdesc hsym]
    exact fills_kcWrites le_rfl
  -- the second word of the header and the strings lie on both sides of the kernelcaches
  have hstr := (Fills.singleton ⟨state.stringsOffset, state.symstr⟩).cons
    (w := ⟨4, leBytes 4 state.stringsOffset⟩)
    (Write.disjoint_Ico _ (Or.inl (show 4 + 4 ≤ state.stringsOffset by omega)))
  have hboth := hkcs.append hstr (Set.disjoint_union_right.2
    ⟨(Write.disjoint_Ico _ (Or.inl hheader.ge)).symm,
      (Write.disjoint_Ico _ (Or.inr (le_refl state.stringsOffset))).symm⟩)
  have hall := hboth.cons (w := ⟨0, leBytes 4 state.kcs.length⟩) (Set.disjoint_union_right.2
    ⟨Write.disjoint_Ico _ (Or.inl (show 0 + 4 ≤ headerSize by omega)), Set.disjoint_union_right.2
      ⟨Write.disjoint_Ico _ (Or.inl (show 0 + 4 ≤ 4 by omega)),
        Write.disjoint_Ico _ (Or.inl (show 0 + 4 ≤ state.stringsOffset by omega))⟩⟩)
  refine hall.congr fun i => ?_
  rw [serialisedSize_eq]
  simp only [Write.mem_range, length_leBytes, Set.mem_union, Set.mem_Ico]
  omega

/-! ## The areas -/

lemma mem_symWrites (hw : w ∈ symWrites o syms) :
    o ≤ w.off ∧ w.stop ≤ o + syms.length * symSize := by
  induction syms generalizing o with
  | nil => simp [symWrites] at hw
  | cons s syms ih =>
    rw [List.length_cons, Nat.succ_mul, symSize]
    rcases List.mem_cons.1 hw with rfl | hw
    · simp only [Write.stop, length_leBytes]
      omega
    · rcases List.mem_cons.1 hw with rfl | hw
      · simp only [Write.stop, length_leBytes]
        omega
      · have := ih hw
        rw [symSize] at this
        omega

/-- A store of the loop goes into a descriptor or into one of the arrays. -/
lemma mem_kcWrites (hw : w ∈ kcWrites d o kcs) :
    (d ≤ w.off ∧ w.stop ≤ d + kcs.length * kcDescSize) ∨
      ∃ a ∈ arrayAreas o kcs, a.1 ≤ w.off ∧ w.stop ≤ a.2 := by
  induction kcs generalizing d o with
  | nil => simp [kcWrites] at hw
  | cons kc kcs ih =>
    have hu : kc.uuid.toList.length = 16 := kc.uuid.toList_length
    rw [List.length_cons, Nat.succ_mul, kcDescSize]
    simp only [kcWrites, List.mem_cons, List.mem_append] at hw
    rcases hw with rfl | rfl | hw | hw
    · simp only [Write.stop, hu]
      exact Or.inl (by omega)
    · simp only [Write.stop, length_leBytes]
      exact Or.inl (by omega)
    · refine Or.inr ⟨_, List.mem_cons_self, ?_⟩
      rw [length_layoutKc]
      rcases List.mem_cons.1 hw with rfl | hw
      · simp only [Write.stop, length_leBytes]
        omega
      · have := mem_symWrites hw
        omega
    · rcases ih hw with h | ⟨a, ha, h⟩
      · rw [kcDescSize] at h
        exact Or.inl (by omega)
      · exact Or.inr ⟨a, List.mem_cons_of_mem _ ha, h⟩

lemma arrayAreas_bounds : ∀ a ∈ arrayAreas o kcs, o ≤ a.1 ∧ a.2 ≤ o + (layoutKcs kcs).length := by
  induction kcs generalizing o with
  | nil => simp [arrayAreas]
  | cons kc kcs ih =>
    rw [layoutKcs_cons, List.length_append]
    rintro a (_ | ⟨_, ha⟩)
    · exact ⟨le_rfl, by omega⟩
    · have := ih a ha
      omega

lemma arrayAreas_pairwise (o : ℕ) (kcs : List KcsKc) :
    (arrayAreas o kcs).Pairwise fun a b => a.2 ≤ b.1 := by
  induction kcs generalizing o with
  | nil => exact .nil
  | cons kc kcs ih => exact .cons (fun a ha => (arrayAreas_bounds a ha).1) (ih _)

lemma areas_pairwise (state : KcsState) : state.areas.Pairwise fun a b => a.2 ≤ b.1 := by
  have hsym : headerSize ≤ state.symbolsOffset := Nat.le_add_right _ _
  have hstr : state.symbolsOffset ≤ state.stringsOffset := Nat.le_add_right _ _
  have hbehind : ∀ b ∈ arrayAreas state.symbolsOffset state.kcs ++
      [(state.stringsOffset, state.serialisedSize)], state.symbolsOffset ≤ b.1 := by
    intro b hb
    rcases List.mem_append.1 hb with hb | hb
    · exact (arrayAreas_bounds b hb).1
    · rw [List.mem_singleton.1 hb]
      exact hstr
  refine .cons ?_ (.cons hbehind (List.pairwise_append.2
    ⟨arrayAreas_pairwise _ _, List.pairwise_singleton _ _, ?_⟩))
  · rintro b (_ | ⟨_, hb⟩)
    · exact le_rfl
    · exact hsym.trans (hbehind b hb)
  · intro a ha b hb
    rw [List.mem_singleton.1 hb]
    exact (arrayAreas_bounds a ha).2

lemma areas_le (state : KcsState) : ∀ a ∈ state.areas, a.2 ≤ state.serialisedSize := by
  have hsym : headerSize ≤ state.symbolsOffset := Nat.le_add_right _ _
  have hstr : state.symbolsOffset ≤ state.stringsOffset := Nat.le_add_right _ _
  have hend : state.stringsOffset ≤ state.serialisedSize := by
    rw [serialisedSize_eq]
    exact Nat.le_add_right _ _
  intro a ha
  simp only [KcsState.areas, List.mem_cons, List.mem_append, List.not_mem_nil, or_false] at ha
  rcases ha with rfl | rfl | ha | rfl
  · exact hsym.trans (hstr.trans hend)
  · exact hstr.trans hend
  · exact (arrayAreas_bounds a ha).2.trans hend
  · exact le_rfl

lemma mem_writes (hw : w ∈ state.writes) : ∃ a ∈ state.areas, a.1 ≤ w.off ∧ w.stop ≤ a.2 := by
  simp only [KcsState.writes, List.mem_cons, List.mem_append, List.not_mem_nil, or_false] at hw
  rcases hw with rfl | hw | rfl | rfl
  · exact ⟨(0, headerSize), by simp [KcsState.areas], le_rfl, by simp [Write.stop, headerSize]⟩
  · rcases mem_kcWrites hw with h | ⟨a, ha, h⟩
    · exact ⟨(headerSize, state.symbolsOffset), by simp [KcsState.areas], h⟩
    · exact ⟨a, by simp [KcsState.areas, ha], h⟩
  · exact ⟨(0, headerSize), by simp [KcsState.areas], by simp, by simp [Write.stop, headerSize]⟩
  · refine ⟨(state.stringsOffset, state.serialisedSize), by simp [KcsState.areas], le_rfl, ?_⟩
    rw [serialisedSize_eq, Write.stop]

/-! ## The block is large enough -/

/-- The serialiser stays inside of its block: the block holds the largest array for every
kernelcache, the assertions hold, the stores keep to their areas, which do not meet, and together
they store every byte of the blob that is returned once, whatever the block contained. -/
structure KcsState.Fits (state : KcsState) : Prop where
  le_maxsymcnt : ∀ kc ∈ state.kcs, kc.syms.length ≤ state.maxsymcnt
  arrays_le : ∀ a ∈ arrayAreas state.symbolsOffset state.kcs, a.2 ≤ state.worstCaseSize
  strings_le : state.stringsOffset + state.symstr.length ≤ state.worstCaseSize
  inside : ∀ w ∈ state.writes, w.stop ≤ state.worstCaseSize
  areas_apart : state.areas.Pairwise fun a b => a.2 ≤ b.1
  in_area : ∀ w ∈ state.writes, ∃ a ∈ state.areas, a.1 ≤ w.off ∧ w.stop ≤ a.2
  fills : Fills state.writes (Set.Ico 0 state.serialisedSize)
  serialise_eq : ∀ blob, blob.length = state.worstCaseSize → ∃ blob',
    perform blob state.writes = some blob' ∧
      serialise (fun _ => some blob) state = some (blob'.take state.serialisedSize)

/-- Whatever has been collected, also from files that break off, is serialised inside of the
block. -/
theorem collectSymbols_fits {dirs : List (Option (List Dirent))}
    (hcollect : collectSymbols dirs = some state) (hlt : state.serialisedSize < 2 ^ 32) :
    state.Fits := by
  have hsize := serialisedSize_eq state
  have hs := collectSymbols_holds hcollect (by omega)
  have hle := serialisedSize_le hs hlt
  have hstrings : state.stringsOffset ≤ state.worstCaseSize := by omega
  have hinside : ∀ w ∈ state.writes, w.stop ≤ state.worstCaseSize := by
    intro w hw
    obtain ⟨a, ha, -, hstop⟩ := mem_writes hw
    exact hstop.trans ((areas_le state a ha).trans hle)
  refine ⟨hs.le_max, ?_, by omega, hinside, areas_pairwise state, fun w => mem_writes,
    fills_writes state, ?_⟩
  · exact fun a ha => (arrayAreas_bounds a ha).2.trans hstrings
  · intro blob hblob
    obtain ⟨blob', hblob'⟩ := perform_isSome fun w hw => (hinside w hw).trans_eq hblob.symm
    exact ⟨blob', hblob', by rw [serialise_eq_perform hs hlt, hblob', Option.map_some]⟩

theorem collectSymbols_fits_merged : ∃ state,
    collectSymbols mergedDirectories = some state ∧ state.Fits := by
  have hsome : (collectSymbols mergedDirectories).any (·.serialisedSize < 2 ^ 32) = true := by
    decide +kernel
  obtain ⟨state, hstate, hlt⟩ := (Option.any_eq_true _ _).1 hsome
  exact ⟨state, hstate, collectSymbols_fits hstate (of_decide_eq_true hlt)⟩

end VulnerableKext.Host

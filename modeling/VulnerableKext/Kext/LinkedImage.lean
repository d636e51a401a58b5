import VulnerableKext.Kext.RelocationBounds

/-!
# The linked image

The whole way of an accepted upload through `kext_map`, `kext_relocate` and `kext_link`.
The two loops apply the entries that `kext_parse` has validated, and the image that they
leave behind is the specified one, as long as nothing is written over the fields of the
mapped load commands that they read: the counters `nlocrel` and `nextrel` and the offset
`stroff`.  The code does not check this; the fields of the kmod_info, in particular, may be
anywhere in the image.
-/

namespace VulnerableKext.Kext

open Memory Checked Device

/-! ## Entries that are applied -/

/-- The positions in the image of the bounds of the two loops, `nlocrel` and `nextrel`. -/
def boundWords (dp : ℕ) : List ℕ := [dp + 76, dp + 68]

/-- The positions of all fields that are read: when there are names to look up, also `stroff`. -/
def metadataWords (file : Mem) (sp dp : ℕ) : List ℕ :=
  if dysymNextrel file dp = 0 then boundWords dp else (sp + 16) :: boundWords dp

/-- All writes of relocations go to the image, and none of the given words of the image is met by a
write in front of the loop that reads it, nor `nextrel` by `kext_link`. -/
def WritesApart (file : Mem) (info : KextLoadInfo) (dp : ℕ) (ws : List ℕ) : Prop :=
  (∀ a ∈ ws, Apart (kmodOffset info + kmodInfoAddress) 16 a 4) ∧
  (∀ lr ∈ localEntries file dp, info.vmBase ≤ lr.rAddress ∧
    ∀ a ∈ ws, Apart (slotOffset info lr) 8 a 4) ∧
  ∀ er ∈ externalEntries file dp, info.vmBase ≤ er.rAddress ∧
    Apart (slotOffset info er) 8 (dp + 68) 4

instance (file : Mem) (info : KextLoadInfo) (dp : ℕ) (ws : List ℕ) :
    Decidable (WritesApart file info dp ws) := inferInstanceAs (Decidable (_ ∧ _ ∧ _))

lemma WritesApart.mono {file : Mem} {info : KextLoadInfo} {dp : ℕ} {ws ws' : List ℕ}
    (h : WritesApart file info dp ws) (hsub : ws' ⊆ ws) : WritesApart file info dp ws' := by
  obtain ⟨hkmod, hlocal, hexternal⟩ := h
  exact ⟨fun a ha => hkmod a (hsub ha),
    fun lr hlr => ⟨(hlocal lr hlr).1, fun a ha => (hlocal lr hlr).2 a (hsub ha)⟩, hexternal⟩

/-- No write meets a field of the mapped load commands that is read behind it. -/
def MetadataKept (file : Mem) (info : KextLoadInfo) (sp dp : ℕ) : Prop :=
  WritesApart file info dp (metadataWords file sp dp)

instance (file : Mem) (info : KextLoadInfo) (sp dp : ℕ) : Decidable (MetadataKept file info sp dp) :=
  inferInstanceAs (Decidable (WritesApart _ _ _ _))

/-- What `kext_relocate` and `kext_link` do with a mapped image: they visit the validated entries and
no others, and apply each of them; for an external one, the name that was resolved before is looked
up again and its address is found.  Whenever a bound or `stroff` is read, it is that of the file. -/
structure VisitsValidated (k : KernelLayout) (chain : List KernelcacheSymbolTable) (buf : Buffer)
    (sp dp : ℕ) (info₁ : KextLoadInfo) (m₁ m₂ m₃ : Mem) : Prop where
  relocated : kextRelocate k info₁ m₁ = some (m₂, (localEntries buf.byte dp).map .applied)
  linked : ∃ linked : List LinkedSymbol, kextLink k chain info₁ m₂ = some (m₃, linked.map .applied) ∧
    linked.map LinkedSymbol.er = externalEntries buf.byte dp ∧
    ∀ l ∈ linked, externalName buf sp l.er = some l.name ∧
      kernelcacheSymbolTableLookup chain l.name = some l.symbolSa ∧ l.symbolSa ≠ 0
  nlocrel : ∀ b ∈ nlocrelReads k info₁ m₁, b = dysymNlocrel buf.byte dp
  stroff : dysymNextrel buf.byte dp ≠ 0 → symStroff m₂ info₁.symtab = symStroff buf.byte sp
  nextrel : ∀ b ∈ nextrelReads k chain info₁ m₂, b = dysymNextrel buf.byte dp

/-- Only validated entries are applied in the run of the three steps. -/
def AppliesValidated (k : KernelLayout) (chain : List KernelcacheSymbolTable) (buf : Buffer)
    (info : KextLoadInfo) (sp dp : ℕ) (m : Mem) : Prop :=
  ∃ m₁ info₁ m₂ m₃, kextMap k info m = some (m₁, info₁) ∧
    VisitsValidated k chain buf sp dp info₁ m₁ m₂ m₃

/-- The image `im` after relocating and linking. -/
def imageLinked (k : KernelLayout) (chain : List KernelcacheSymbolTable) (info : KextLoadInfo)
    (buf : Buffer) (sp dp : ℕ) (im : Mem) : Mem :=
  storeWord (linkedImage k chain info buf sp dp (imageRelocated k info buf.byte sp dp im)
    (dysymNextrel buf.byte dp)) (dp + 68) 4 0

section Applies

variable {k : KernelLayout} {chain : List KernelcacheSymbolTable} {header sp dp : ℕ} {buf : Buffer}
  {info : KextLoadInfo} {m z im : Mem}

/-- A field that `kext_relocate` neither relocates nor clears. -/
lemma word_imageRelocated {a : ℕ}
    (hslots : ∀ i < dysymNlocrel buf.byte dp,
      Apart (slotOffset info (localEntry buf.byte dp i)) 8 a 4)
    (hdp : Apart (dp + 76) 4 a 4) (hsp : Apart (sp + 12) 4 a 4) :
    word (imageRelocated k info buf.byte sp dp im) a 4 = word im a 4 := by
  rw [imageRelocated, word_storeWord_of_apart hsp, word_storeWord_of_apart hdp, relocatedImage,
    word_updateWords_of_apart hslots]

namespace Accepted

variable (h : Accepted chain header buf info sp dp)
include h

/-- The two tables are described by different commands. -/
lemma symtab_apart_dysymtab : Apart sp 24 dp 80 := by
  obtain ⟨i, -, rfl⟩ := h.symtabAt
  obtain ⟨j, -, rfl⟩ := h.dysymtabAt
  have hne : lcCmd buf.byte (lcPosition buf.byte i) ≠ lcCmd buf.byte (lcPosition buf.byte j) := by
    rw [h.symtab.cmd, h.dysymtab.cmd]
    decide
  have hsp := h.symtab.cmdsize
  have hdp := h.dysymtab.cmdsize
  simp only [sizeofSymtabCommand] at hsp
  simp only [sizeofDysymtabCommand] at hdp
  rcases commands_apart hne with hap | hap
  · exact Or.inl (by omega)
  · exact Or.inr (by omega)

/-- A field of the two tables, when the kmod_info is elsewhere. -/
lemma kextImage_nlocrel (hkmod : Apart (kmodOffset info + kmodInfoAddress) 16 (dp + 76) 4) :
    word (kextImage k info buf.byte z) (dp + 76) 4 = dysymNlocrel buf.byte dp := by
  have hsize := h.dysymtab.cmdsize
  simp only [sizeofDysymtabCommand] at hsize
  have hcmd : lcCmd buf.byte dp ≠ LC_SEGMENT_64 := by
    rw [h.dysymtab.cmd]
    decide
  exact h.word_kextImage h.dysymtabAt hcmd (by omega) hkmod

lemma kextImage_nextrel (hkmod : Apart (kmodOffset info + kmodInfoAddress) 16 (dp + 68) 4) :
    word (kextImage k info buf.byte z) (dp + 68) 4 = dysymNextrel buf.byte dp := by
  have hsize := h.dysymtab.cmdsize
  simp only [sizeofDysymtabCommand] at hsize
  have hcmd : lcCmd buf.byte dp ≠ LC_SEGMENT_64 := by
    rw [h.dysymtab.cmd]
    decide
  exact h.word_kextImage h.dysymtabAt hcmd (by omega) hkmod

lemma kextImage_stroff (hkmod : Apart (kmodOffset info + kmodInfoAddress) 16 (sp + 16) 4) :
    word (kextImage k info buf.byte z) (sp + 16) 4 = symStroff buf.byte sp := by
  have hsize := h.symtab.cmdsize
  simp only [sizeofSymtabCommand] at hsize
  have hcmd : lcCmd buf.byte sp ≠ LC_SEGMENT_64 := by
    rw [h.symtab.cmd]
    decide
  exact h.word_kextImage h.symtabAt hcmd (by omega) hkmod

end Accepted

lemma localEntry_mem {file : Mem} {i : ℕ} (hi : i < dysymNlocrel file dp) :
    localEntry file dp i ∈ localEntries file dp :=
  List.mem_map_of_mem (List.mem_range.2 hi)

lemma externalEntry_mem {file : Mem} {i : ℕ} (hi : i < dysymNextrel file dp) :
    externalEntry file dp i ∈ externalEntries file dp :=
  List.mem_map_of_mem (List.mem_range.2 hi)

/-- What `kext_link` has to show for its entries. -/
lemma Accepted.linked_resolved (h : Accepted chain header buf info sp dp) :
    ((externalEntries buf.byte dp).map (linkedSymbol chain buf sp)).map LinkedSymbol.er =
        externalEntries buf.byte dp ∧
      ∀ l ∈ (externalEntries buf.byte dp).map (linkedSymbol chain buf sp),
        externalName buf sp l.er = some l.name ∧
        kernelcacheSymbolTableLookup chain l.name = some l.symbolSa ∧ l.symbolSa ≠ 0 := by
  constructor
  · rw [List.map_map]
    exact List.map_id' _
  · intro l hl
    obtain ⟨er, her, rfl⟩ := List.mem_map.1 hl
    obtain ⟨i, hi, rfl⟩ := List.mem_map.1 her
    obtain ⟨name, address, hname, haddress, hne, hlinked⟩ :=
      h.externalName_resolved (List.mem_range.1 hi)
    rw [hlinked]
    exact ⟨hname, haddress, hne⟩

lemma nlocrel_mem_boundWords (dp : ℕ) : dp + 76 ∈ boundWords dp := List.mem_cons_self

lemma nextrel_mem_boundWords (dp : ℕ) : dp + 68 ∈ boundWords dp :=
  List.mem_cons_of_mem _ (List.mem_singleton_self _)

lemma boundWords_subset_metadataWords (file : Mem) (sp dp : ℕ) :
    boundWords dp ⊆ metadataWords file sp dp := by
  rw [metadataWords]
  split_ifs
  · exact List.Subset.refl _
  · exact List.subset_cons_self _ _

lemma stroff_mem_metadataWords {file : Mem} (h : dysymNextrel file dp ≠ 0) :
    sp + 16 ∈ metadataWords file sp dp := by
  rw [metadataWords, if_neg h]
  exact List.mem_cons_self

section Steps

variable (h : Accepted chain header buf info sp dp)
include h

/-- The fields behind `kext_relocate`, when no local slot meets them. -/
lemma Accepted.relocated_nextrel (hslots : ∀ lr ∈ localEntries buf.byte dp,
    Apart (slotOffset info lr) 8 (dp + 68) 4) :
    word (imageRelocated k info buf.byte sp dp im) (dp + 68) 4 = word im (dp + 68) 4 := by
  have htables := h.symtab_apart_dysymtab
  exact word_imageRelocated (fun _ hi => hslots _ (localEntry_mem hi)) (Or.inr (by omega))
    (htables.imp (by omega) (by omega))

lemma Accepted.relocated_stroff (hslots : ∀ lr ∈ localEntries buf.byte dp,
    Apart (slotOffset info lr) 8 (sp + 16) 4) :
    word (imageRelocated k info buf.byte sp dp im) (sp + 16) 4 = word im (sp + 16) 4 := by
  have htables := h.symtab_apart_dysymtab
  exact word_imageRelocated (fun _ hi => hslots _ (localEntry_mem hi))
    (htables.symm.imp (by omega) (by omega)) (Or.inl (by omega))

/-- `stroff` when `kext_link` reads it. -/
lemma Accepted.kept_stroff (hkept : MetadataKept buf.byte info sp dp)
    (hne : dysymNextrel buf.byte dp ≠ 0) :
    word (imageRelocated k info buf.byte sp dp (kextImage k info buf.byte z)) (sp + 16) 4 =
      symStroff buf.byte sp := by
  have hmem : sp + 16 ∈ metadataWords buf.byte sp dp := stroff_mem_metadataWords hne
  rw [h.relocated_stroff fun lr hlr => (hkept.2.1 lr hlr).2 _ hmem]
  exact h.kextImage_stroff (hkept.1 _ hmem)

/-- `nextrel` when `kext_link` starts. -/
lemma Accepted.kept_nextrel {ws : List ℕ} (hkept : WritesApart buf.byte info dp ws)
    (hmem : dp + 68 ∈ ws) :
    word (imageRelocated k info buf.byte sp dp (kextImage k info buf.byte z)) (dp + 68) 4 =
      dysymNextrel buf.byte dp := by
  rw [h.relocated_nextrel fun lr hlr => (hkept.2.1 lr hlr).2 _ hmem]
  exact h.kextImage_nextrel (hkept.1 _ hmem)

/-- The loop of `kext_relocate` on an image whose `nlocrel` is not written to. -/
lemma Accepted.kextRelocate_kept (hp : Placed buf info m) (hvm : info.vmSize < 2 ^ 32)
    {ws : List ℕ} (hkept : WritesApart buf.byte info dp ws) (hmem : dp + 76 ∈ ws) :
    kextRelocate k (mappedInfo info sp dp) (splice m info.kext info.vmSize
        (kextImage k info buf.byte z)) = some
      (splice m info.kext info.vmSize (imageRelocated k info buf.byte sp dp
        (kextImage k info buf.byte z)), (localEntries buf.byte dp).map .applied) ∧
    nlocrelReads k (mappedInfo info sp dp) (splice m info.kext info.vmSize
        (kextImage k info buf.byte z)) =
      List.replicate (dysymNlocrel buf.byte dp + 1) (dysymNlocrel buf.byte dp) :=
  h.kextRelocate_eq hp hvm (h.kextImage_nlocrel (hkept.1 _ hmem))
    (fun _ hi => (hkept.2.1 _ (localEntry_mem hi)).1)
    fun _ hi => (hkept.2.1 _ (localEntry_mem hi)).2 _ hmem

/-- The loop of `kext_link` behind it. -/
lemma Accepted.kextLink_kept (hp : Placed buf info m) (hvm : info.vmSize < 2 ^ 32)
    (hkept : MetadataKept buf.byte info sp dp) :
    kextLink k chain (mappedInfo info sp dp) (splice m info.kext info.vmSize
        (imageRelocated k info buf.byte sp dp (kextImage k info buf.byte z))) = some
      (splice m info.kext info.vmSize (imageLinked k chain info buf sp dp
        (kextImage k info buf.byte z)),
        ((externalEntries buf.byte dp).map (linkedSymbol chain buf sp)).map .applied) ∧
    nextrelReads k chain (mappedInfo info sp dp) (splice m info.kext info.vmSize
        (imageRelocated k info buf.byte sp dp (kextImage k info buf.byte z))) =
      List.replicate (dysymNextrel buf.byte dp + 1) (dysymNextrel buf.byte dp) := by
  have hmem := boundWords_subset_metadataWords buf.byte sp dp (nextrel_mem_boundWords dp)
  exact h.kextLink_eq hp hvm (or_iff_not_imp_left.2 fun hne => h.kept_stroff hkept hne)
    (h.kept_nextrel hkept hmem)
    (fun _ hi => (hkept.2.2 _ (externalEntry_mem hi)).1)
    fun _ hi => (hkept.2.2 _ (externalEntry_mem hi)).2

/-- The three steps on an accepted upload whose metadata is kept.  Each of them changes the image and
nothing else. -/
theorem Accepted.steps_image (hp : Placed buf info m) (hvm : info.vmSize < 2 ^ 32)
    (hkept : MetadataKept buf.byte info sp dp) :
    kextMap k info m = some (splice m info.kext info.vmSize
      (kextImage k info buf.byte fun o => m (info.kext + o)), mappedInfo info sp dp) ∧
    kextRelocate k (mappedInfo info sp dp) (splice m info.kext info.vmSize
        (kextImage k info buf.byte fun o => m (info.kext + o))) =
      some (splice m info.kext info.vmSize (imageRelocated k info buf.byte sp dp
        (kextImage k info buf.byte fun o => m (info.kext + o))),
        (localEntries buf.byte dp).map .applied) ∧
    kextLink k chain (mappedInfo info sp dp) (splice m info.kext info.vmSize
        (imageRelocated k info buf.byte sp dp
          (kextImage k info buf.byte fun o => m (info.kext + o)))) =
      some (splice m info.kext info.vmSize (imageLinked k chain info buf sp dp
          (kextImage k info buf.byte fun o => m (info.kext + o))),
        ((externalEntries buf.byte dp).map (linkedSymbol chain buf sp)).map .applied) :=
  ⟨h.kextMap_eq hp hvm, (h.kextRelocate_kept hp hvm hkept
      (boundWords_subset_metadataWords _ _ _ (nlocrel_mem_boundWords dp))).1,
    (h.kextLink_kept hp hvm hkept).1⟩

/-- Only validated entries are applied to an accepted upload whose metadata is kept. -/
theorem Accepted.appliesValidated (hp : Placed buf info m) (hvm : info.vmSize < 2 ^ 32)
    (hkept : MetadataKept buf.byte info sp dp) : AppliesValidated k chain buf info sp dp m := by
  obtain ⟨hmap, hrelocate, hlink⟩ := h.steps_image (k := k) hp hvm hkept
  obtain ⟨her, hresolved⟩ := h.linked_resolved
  have hnlocrel := (h.kextRelocate_kept (k := k) (z := fun o => m (info.kext + o)) hp hvm hkept
    (boundWords_subset_metadataWords _ _ _ (nlocrel_mem_boundWords dp))).2
  have hnextrel := (h.kextLink_kept (k := k) (z := fun o => m (info.kext + o)) hp hvm hkept).2
  have hsp := h.symtab_end
  refine ⟨_, _, _, _, hmap, hrelocate, ⟨_, hlink, her, hresolved⟩, fun b hb => ?_, fun hne => ?_,
    fun b hb => ?_⟩
  · rw [hnlocrel] at hb
    exact List.eq_of_mem_replicate hb
  · rw [symStroff, show (mappedInfo info sp dp).symtab = info.kext + sp from rfl, Nat.add_assoc,
      word_splice (by omega)]
    exact h.kept_stroff hkept hne
  · rw [hnextrel] at hb
    exact List.eq_of_mem_replicate hb

end Steps

variable {allocStatic : ℕ → Option ℕ} {buf' : Buffer} {info' : KextLoadInfo}

/-- Only validated entries are applied, for every upload that is accepted and allocated and whose
writes keep the metadata. -/
theorem kextParse_appliesValidated (hparse : kextParse chain header buf = .ok (buf', info))
    (halloc : kextAlloc allocStatic info = some info') (hp : Placed buf' info' m)
    (hkept : MetadataKept buf'.byte info' (info.symtab - header) (info.dysymtab - header)) :
    AppliesValidated k chain buf' info' (info.symtab - header) (info.dysymtab - header) m := by
  obtain ⟨sp, dp, hacc⟩ := kextParse_accepted hparse
  obtain ⟨kext, size, rfl, -, -, hvm⟩ := kextAlloc_eq_some halloc
  rw [hacc.symtab_sub, hacc.dysymtab_sub] at hkept ⊢
  exact (hacc.alloc kext).appliesValidated hp hvm hkept

end Applies

/-- The kmod_info is at 0x1000 and the slots are at 0x800 and 0x900. -/
theorem kextParse_appliesValidated_small :
    AppliesValidated ⟨0x800000000, 0⟩ smallChain (smallUpload 0 0x1000 0x800 0x900)
      { smallInfo 0 0x1000 with kext := 0x2000000 } 184 104
      (uploaded (smallUpload 0 0x1000 0x800 0x900) 0x1000000) := by
  have hparse := kextParse_small smallAccepted_zero
  have hkept : MetadataKept (smallUpload 0 0x1000 0x800 0x900).byte
      { smallInfo 0 0x1000 with kext := 0x2000000 } 184 104 := by
    decide +kernel
  have hsp : (smallInfo 0 0x1000).symtab - 0x1000000 = 184 := rfl
  have hdp : (smallInfo 0 0x1000).dysymtab - 0x1000000 = 104 := rfl
  rw [← hsp, ← hdp] at hkept ⊢
  exact kextParse_appliesValidated hparse (kextAlloc_small _ _) (placed_small _ _ _ _) hkept

/-- With the kmod_info at 0x20, the upper half of its field `size` is `stroff`: the name that is
looked up is empty, and the external entry is skipped. -/
theorem not_appliesValidated_smallStroff :
    kextParse smallChain 0x1000000 (smallUpload 0 0x20 0x800 0x900) =
        .ok (smallUpload 0 0x20 0x800 0x900, smallInfo 0 0x20) ∧
      kextAlloc smallAlloc (smallInfo 0 0x20) = some { smallInfo 0 0x20 with kext := 0x2000000 } ∧
      Placed (smallUpload 0 0x20 0x800 0x900) { smallInfo 0 0x20 with kext := 0x2000000 }
        (uploaded (smallUpload 0 0x20 0x800 0x900) 0x1000000) ∧
      ¬ AppliesValidated ⟨0x800000000, 0⟩ smallChain (smallUpload 0 0x20 0x800 0x900)
        { smallInfo 0 0x20 with kext := 0x2000000 } 184 104
        (uploaded (smallUpload 0 0x20 0x800 0x900) 0x1000000) := by
  refine ⟨kextParse_small smallAccepted_commands, kextAlloc_small _ _, placed_small _ _ _ _, ?_⟩
  rintro ⟨m₁, info₁, m₂, m₃, hmap, hrelocate, ⟨linked, hlink, -, -⟩, -⟩
  have hrun : ((kextMap ⟨0x800000000, 0⟩ { smallInfo 0 0x20 with kext := 0x2000000 }
      (uploaded (smallUpload 0 0x20 0x800 0x900) 0x1000000)).bind fun s =>
        (kextRelocate ⟨0x800000000, 0⟩ s.2 s.1).bind fun t =>
          (kextLink ⟨0x800000000, 0⟩ smallChain s.2 t.1).map Prod.snd) =
      some [.unresolved ⟨0x800, 1, 3, true⟩ []] := by
    decide +kernel
  rw [hmap, Option.bind_some, hrelocate, Option.bind_some, hlink, Option.map_some] at hrun
  -- the entry is visited, but not applied
  have hlog : linked.map ExternalVisit.applied = [.unresolved ⟨0x800, 1, 3, true⟩ []] :=
    Option.some.inj hrun
  have hvisit :
      ExternalVisit.unresolved ⟨0x800, 1, 3, true⟩ [] ∈ linked.map ExternalVisit.applied := by
    rw [hlog]
    exact List.mem_singleton_self _
  obtain ⟨l, -, hl⟩ := List.mem_map.1 hvisit
  cases hl

/-! ## The contents of the image -/

/-- The slots do not meet each other, nor the header and the load commands. -/
def SlotsDisjoint (file : Mem) (dp : ℕ) : Prop :=
  (localEntries file dp ++ externalEntries file dp).Pairwise
      (fun r r' => Apart r.rAddress 8 r'.rAddress 8) ∧
    ∀ r ∈ localEntries file dp ++ externalEntries file dp,
      sizeofHeader + mhSizeofcmds file 0 ≤ r.rAddress

instance (file : Mem) (dp : ℕ) : Decidable (SlotsDisjoint file dp) :=
  inferInstanceAs (Decidable (_ ∧ _))

/-- The fields that `kext_relocate` and `kext_link` set to 0. -/
def counterWords (sp dp : ℕ) : List ℕ := [dp + 76, dp + 68, sp + 12]

/-- What relocating and linking does to a memory with an image at `kext`: each slot gets its value,
the counters become 0, and everything else stays. -/
structure LinkedAsSpecified (k : KernelLayout) (chain : List KernelcacheSymbolTable) (buf : Buffer)
    (kext sp dp : ℕ) (m m' : Mem) : Prop where
  relocated : ∀ lr ∈ localEntries buf.byte dp, word m' (kext + lr.rAddress) 8 =
    (word m (kext + lr.rAddress) 8 + k.vaForPtr kext) % 2 ^ 64
  linked : ∀ er ∈ externalEntries buf.byte dp, ∃ name address,
    externalName buf sp er = some name ∧ kernelcacheSymbolTableLookup chain name = some address ∧
      word m' (kext + er.rAddress) 8 = k.vaForSa address
  counters : ∀ a ∈ counterWords sp dp, word m' (kext + a) 4 = 0
  others : ∀ b, (∀ r ∈ localEntries buf.byte dp ++ externalEntries buf.byte dp,
      b < kext + r.rAddress ∨ kext + r.rAddress + 8 ≤ b) →
    (∀ a ∈ counterWords sp dp, b < kext + a ∨ kext + a + 4 ≤ b) → m' b = m b

section Contents

variable {k : KernelLayout} {chain : List KernelcacheSymbolTable} {header sp dp : ℕ} {buf : Buffer}
  {info : KextLoadInfo} {m m₁ im : Mem}

/-- Pairwise disjointness, by position. -/
lemma apart_of_pairwise {n : ℕ} {f : ℕ → RelocationInfo} (h : ((List.range n).map f).Pairwise
    fun r r' => Apart r.rAddress 8 r'.rAddress 8) :
    ∀ i < n, ∀ j < n, i ≠ j → Apart (f i).rAddress 8 (f j).rAddress 8 := by
  have hlt (i j : ℕ) (hij : i < j) (hj : j < n) : Apart (f i).rAddress 8 (f j).rAddress 8 := by
    have hget := List.pairwise_iff_getElem.1 h i j (by simp; omega) (by simp; omega) hij
    simpa using hget
  intro i hi j hj hne
  rcases Nat.lt_or_gt_of_ne hne with hij | hij
  · exact hlt i j hij hj
  · exact (hlt j i hij hi).symm

/-- The entries of a disjoint file, with `vm_base` 0. -/
structure SlotsApart (info : KextLoadInfo) (file : Mem) (sp dp : ℕ) : Prop where
  locals : ∀ i < dysymNlocrel file dp, ∀ j < dysymNlocrel file dp, i ≠ j →
    Apart (slotOffset info (localEntry file dp i)) 8 (slotOffset info (localEntry file dp j)) 8
  externals : ∀ i < dysymNextrel file dp, ∀ j < dysymNextrel file dp, i ≠ j →
    Apart (slotOffset info (externalEntry file dp i)) 8 (slotOffset info (externalEntry file dp j)) 8
  between : ∀ i < dysymNlocrel file dp, ∀ j < dysymNextrel file dp,
    Apart (slotOffset info (localEntry file dp i)) 8 (slotOffset info (externalEntry file dp j)) 8
  localBehind : ∀ i < dysymNlocrel file dp, sp + 24 ≤ slotOffset info (localEntry file dp i) ∧
    dp + 80 ≤ slotOffset info (localEntry file dp i)
  externalBehind : ∀ i < dysymNextrel file dp, sp + 24 ≤ slotOffset info (externalEntry file dp i) ∧
    dp + 80 ≤ slotOffset info (externalEntry file dp i)

/-- A local slot of the linked image. -/
lemma SlotsApart.word_local (ha : SlotsApart info buf.byte sp dp) {i : ℕ}
    (hi : i < dysymNlocrel buf.byte dp) :
    word (imageLinked k chain info buf sp dp im) (slotOffset info (localEntry buf.byte dp i)) 8 =
      (word im (slotOffset info (localEntry buf.byte dp i)) 8 +
        sub64 (k.vaForPtr info.kext) info.vmBase) % 2 ^ 64 := by
  obtain ⟨hsp, hdp⟩ := ha.localBehind i hi
  rw [imageLinked, word_storeWord_of_apart (Or.inl (by omega)), linkedImage,
    word_updateWords_of_apart fun j hj => (ha.between i hi j hj).symm, imageRelocated,
    word_storeWord_of_apart (Or.inl (by omega)), word_storeWord_of_apart (Or.inl (by omega)),
    relocatedImage, word_updateWords ha.locals hi]
  exact Nat.mod_mod _ _

/-- An external slot of the linked image. -/
lemma SlotsApart.word_external (ha : SlotsApart info buf.byte sp dp) {i : ℕ}
    (hi : i < dysymNextrel buf.byte dp) :
    word (imageLinked k chain info buf sp dp im) (slotOffset info (externalEntry buf.byte dp i)) 8 =
      k.vaForSa (linkedSymbol chain buf sp (externalEntry buf.byte dp i)).symbolSa := by
  obtain ⟨hsp, hdp⟩ := ha.externalBehind i hi
  rw [imageLinked, word_storeWord_of_apart (Or.inl (by omega)), linkedImage,
    word_updateWords ha.externals hi]
  exact Nat.mod_mod _ _

namespace Accepted

variable (h : Accepted chain header buf info sp dp)
include h

lemma slotsApart (hbase : info.vmBase = 0) (hd : SlotsDisjoint buf.byte dp) :
    SlotsApart info buf.byte sp dp := by
  obtain ⟨hpair, hbehind⟩ := hd
  obtain ⟨hlocals, hexternals, hbetween⟩ := List.pairwise_append.1 hpair
  have hsp := h.symtab_inside
  have hdp := h.dysymtab_inside
  have hslot (r : RelocationInfo) : slotOffset info r = r.rAddress := by
    rw [slotOffset, hbase, Nat.sub_zero]
  refine ⟨fun i hi j hj hne => ?_, fun i hi j hj hne => ?_, fun i hi j hj => ?_, fun i hi => ?_,
    fun i hi => ?_⟩
  · rw [hslot, hslot]
    exact apart_of_pairwise hlocals i hi j hj hne
  · rw [hslot, hslot]
    exact apart_of_pairwise hexternals i hi j hj hne
  · rw [hslot, hslot]
    exact hbetween _ (localEntry_mem hi) _ (externalEntry_mem hj)
  · have hle := hbehind _ (List.mem_append_left _ (localEntry_mem hi))
    rw [hslot]
    omega
  · have hle := hbehind _ (List.mem_append_right _ (externalEntry_mem hi))
    rw [hslot]
    omega

/-- The counters of the linked image. -/
lemma word_imageLinked_counter (ha : SlotsApart info buf.byte sp dp) :
    ∀ a ∈ counterWords sp dp, word (imageLinked k chain info buf sp dp im) a 4 = 0 := by
  have htables := h.symtab_apart_dysymtab
  -- the external slots lie behind both commands
  have hkept (a : ℕ) (hle : a + 4 ≤ sp + 24 ∨ a + 4 ≤ dp + 80) (hne : Apart (dp + 68) 4 a 4) :
      word (imageLinked k chain info buf sp dp im) a 4 =
        word (imageRelocated k info buf.byte sp dp im) a 4 := by
    rw [imageLinked, word_storeWord_of_apart hne, linkedImage, word_updateWords_of_apart]
    intro i hi
    obtain ⟨hsp, hdp⟩ := ha.externalBehind i hi
    exact Or.inr (by omega)
  intro a hmem
  simp only [counterWords, List.mem_cons, List.not_mem_nil, or_false] at hmem
  rcases hmem with rfl | rfl | rfl
  -- `nlocrel`, `nextrel` and `nsyms`
  · rw [hkept _ (Or.inr (by omega)) (Or.inl (by omega)), imageRelocated,
      word_storeWord_of_apart (htables.imp (by omega) (by omega)), word_storeWord, Nat.zero_mod]
  · rw [imageLinked, word_storeWord, Nat.zero_mod]
  · rw [hkept _ (Or.inl (by omega)) (htables.symm.imp (by omega) (by omega)), imageRelocated,
      word_storeWord, Nat.zero_mod]

end Accepted

/-- A byte of the linked image that is in no slot and in no counter. -/
lemma imageLinked_apply {o : ℕ}
    (hlocal : ∀ i < dysymNlocrel buf.byte dp, o < slotOffset info (localEntry buf.byte dp i) ∨
      slotOffset info (localEntry buf.byte dp i) + 8 ≤ o)
    (hexternal : ∀ i < dysymNextrel buf.byte dp, o < slotOffset info (externalEntry buf.byte dp i) ∨
      slotOffset info (externalEntry buf.byte dp i) + 8 ≤ o)
    (hcounter : ∀ a ∈ counterWords sp dp, o < a ∨ a + 4 ≤ o) :
    imageLinked k chain info buf sp dp im o = im o := by
  simp only [counterWords, List.mem_cons, List.not_mem_nil, or_false, forall_eq_or_imp,
    forall_eq] at hcounter
  obtain ⟨hnlocrel, hnextrel, hnsyms⟩ := hcounter
  rw [imageLinked, storeWord_apply_of_out hnextrel, linkedImage, updateWords_apply_of_out hexternal,
    imageRelocated, storeWord_apply_of_out hnsyms, storeWord_apply_of_out hnlocrel, relocatedImage,
    updateWords_apply_of_out hlocal]

/-- With `vm_base` 0, the slide is the load address. -/
lemma sub64_vaForPtr_zero (ptr : ℕ) : sub64 (k.vaForPtr ptr) 0 = k.vaForPtr ptr := by
  have hlt : k.vaForPtr ptr < 2 ^ 64 := Nat.mod_lt _ (by norm_num)
  rw [sub64_of_le hlt (Nat.zero_le _), Nat.sub_zero]

/-- From the image to the memory around it. -/
lemma Accepted.linkedAsSpecified (h : Accepted chain header buf info sp dp)
    (hvm : info.vmSize < 2 ^ 32) (hbase : info.vmBase = 0) (hd : SlotsDisjoint buf.byte dp) :
    LinkedAsSpecified k chain buf info.kext sp dp (splice m info.kext info.vmSize im)
      (splice m info.kext info.vmSize (imageLinked k chain info buf sp dp im)) := by
  have ha := h.slotsApart hbase hd
  have hslot (r : RelocationInfo) : r.rAddress = slotOffset info r := by
    rw [slotOffset, hbase, Nat.sub_zero]
  have hlocalIn (i : ℕ) (hi : i < dysymNlocrel buf.byte dp) := h.localSlot_le hvm hi
  have hexternalIn (i : ℕ) (hi : i < dysymNextrel buf.byte dp) := h.externalSlot_le hvm hi
  have hsp := h.symtab_end
  have hdp := h.dysymtab_end
  refine ⟨fun lr hlr => ?_, fun er her => ?_, fun a hmem => ?_, fun b hslots hcounters => ?_⟩
  · obtain ⟨i, hi, rfl⟩ := List.mem_map.1 hlr
    have hi' := List.mem_range.1 hi
    rw [hslot, word_splice (hlocalIn i hi'), word_splice (hlocalIn i hi'), ha.word_local hi', hbase,
      sub64_vaForPtr_zero]
  · obtain ⟨i, hi, rfl⟩ := List.mem_map.1 her
    have hi' := List.mem_range.1 hi
    obtain ⟨name, address, hname, haddress, -, hlinked⟩ := h.externalName_resolved hi'
    refine ⟨name, address, hname, haddress, ?_⟩
    rw [hslot, word_splice (hexternalIn i hi'), ha.word_external hi', hlinked]
  · have hle : a + 4 ≤ info.vmSize := by
      simp only [counterWords, List.mem_cons, List.not_mem_nil, or_false] at hmem
      rcases hmem with rfl | rfl | rfl <;> omega
    rw [word_splice hle]
    exact h.word_imageLinked_counter ha a hmem
  · by_cases hin : info.kext ≤ b ∧ b < info.kext + info.vmSize
    · obtain ⟨o, rfl⟩ := Nat.exists_eq_add_of_le hin.1
      rw [splice_apply (by omega), splice_apply (by omega)]
      refine imageLinked_apply (fun i hi => ?_) (fun i hi => ?_) fun a hmem => ?_
      · have hout := hslots _ (List.mem_append_left _ (localEntry_mem hi))
        rw [← hslot]
        omega
      · have hout := hslots _ (List.mem_append_right _ (externalEntry_mem hi))
        rw [← hslot]
        omega
      · have hout := hcounters a hmem
        omega
    · rw [splice_apply_of_out (by omega), splice_apply_of_out (by omega)]

/-- The fields that the loops read have been mapped from the file and not been written over. -/
def MetadataMapped (file : Mem) (sp dp : ℕ) (info₁ : KextLoadInfo) (m₁ : Mem) : Prop :=
  dysymNlocrel m₁ info₁.dysymtab = dysymNlocrel file dp ∧
  dysymNextrel m₁ info₁.dysymtab = dysymNextrel file dp ∧
  (dysymNextrel file dp = 0 ∨ symStroff m₁ info₁.symtab = symStroff file sp)

instance (file : Mem) (sp dp : ℕ) (info₁ : KextLoadInfo) (m₁ : Mem) :
    Decidable (MetadataMapped file sp dp info₁ m₁) :=
  inferInstanceAs (Decidable (_ ∧ _ ∧ (_ ∨ _)))

/-- The run of the two loops on a mapped image. -/
lemma Accepted.relocate_link (h : Accepted chain header buf info sp dp) (hp : Placed buf info m)
    (hvm : info.vmSize < 2 ^ 32) (hbase : info.vmBase = 0) (hd : SlotsDisjoint buf.byte dp)
    (hkept : MetadataMapped buf.byte sp dp (mappedInfo info sp dp)
      (splice m info.kext info.vmSize im)) :
    ∃ m₂ relocated linked,
      kextRelocate k (mappedInfo info sp dp) (splice m info.kext info.vmSize im) =
        some (m₂, relocated) ∧
      kextLink k chain (mappedInfo info sp dp) m₂ = some
        (splice m info.kext info.vmSize (imageLinked k chain info buf sp dp im), linked) := by
  have ha := h.slotsApart hbase hd
  have htables := h.symtab_apart_dysymtab
  have hsp := h.symtab_end
  have hdp := h.dysymtab_end
  obtain ⟨hnlocrel, hnextrel, hstroff⟩ := hkept
  have hword (a c : ℕ) (hc : a + c + 4 ≤ info.vmSize) :
      word (splice m info.kext info.vmSize im) (info.kext + a + c) 4 = word im (a + c) 4 := by
    rw [Nat.add_assoc, word_splice hc]
  rw [dysymNlocrel, show (mappedInfo info sp dp).dysymtab = info.kext + dp from rfl,
    hword _ _ (by omega)] at hnlocrel
  rw [dysymNextrel, show (mappedInfo info sp dp).dysymtab = info.kext + dp from rfl,
    hword _ _ (by omega)] at hnextrel
  rw [symStroff, show (mappedInfo info sp dp).symtab = info.kext + sp from rfl,
    hword _ _ (by omega)] at hstroff
  have hlocal (a : ℕ) (hle : a + 4 ≤ sp + 24 ∨ a + 4 ≤ dp + 80) (lr : RelocationInfo)
      (hlr : lr ∈ localEntries buf.byte dp) : Apart (slotOffset info lr) 8 a 4 := by
    obtain ⟨i, hi, rfl⟩ := List.mem_map.1 hlr
    have hbehind := ha.localBehind i (List.mem_range.1 hi)
    exact Or.inr (by omega)
  have hexternal (i : ℕ) (hi : i < dysymNextrel buf.byte dp) :
      Apart (slotOffset info (externalEntry buf.byte dp i)) 8 (dp + 68) 4 := by
    have hbehind := ha.externalBehind i hi
    exact Or.inr (by omega)
  have hnextrel' : word (imageRelocated k info buf.byte sp dp im) (dp + 68) 4 =
      word im (dp + 68) 4 := h.relocated_nextrel (hlocal _ (Or.inr (by omega)))
  have hstroff' : word (imageRelocated k info buf.byte sp dp im) (sp + 16) 4 =
      word im (sp + 16) 4 := h.relocated_stroff (hlocal _ (Or.inl (by omega)))
  exact ⟨_, _, _,
    (h.kextRelocate_eq hp hvm hnlocrel (fun _ _ => hbase ▸ Nat.zero_le _)
      fun _ hi => hlocal (dp + 76) (Or.inr (by omega)) _ (localEntry_mem hi)).1,
    (h.kextLink_eq hp hvm (hstroff.imp_right hstroff'.trans) (hnextrel'.trans hnextrel)
      (fun _ _ => hbase ▸ Nat.zero_le _) hexternal).1⟩

variable {allocStatic : ℕ → Option ℕ} {buf' : Buffer} {info' info₁ : KextLoadInfo}

/-- The linked image is the specified one, for every accepted upload with `vm_base` 0 and disjoint
slots whose mapped counters and string offset are those of the file. -/
theorem kextParse_linkedAsSpecified (hparse : kextParse chain header buf = .ok (buf', info))
    (halloc : kextAlloc allocStatic info = some info') (hp : Placed buf' info' m)
    (hbase : info.vmBase = 0) (hd : SlotsDisjoint buf'.byte (info.dysymtab - header))
    (hmap : kextMap k info' m = some (m₁, info₁))
    (hkept : MetadataMapped buf'.byte (info.symtab - header) (info.dysymtab - header) info₁ m₁) :
    ∃ m₂ m₃ relocated linked, kextRelocate k info₁ m₁ = some (m₂, relocated) ∧
      kextLink k chain info₁ m₂ = some (m₃, linked) ∧
      LinkedAsSpecified k chain buf' info'.kext (info.symtab - header) (info.dysymtab - header) m₁
        m₃ := by
  obtain ⟨sp, dp, hacc⟩ := kextParse_accepted hparse
  obtain ⟨kext, size, rfl, -, -, hvm⟩ := kextAlloc_eq_some halloc
  rw [hacc.dysymtab_sub] at hd
  rw [hacc.symtab_sub, hacc.dysymtab_sub] at hkept ⊢
  have hacc' := hacc.alloc kext
  rw [hacc'.kextMap_eq hp hvm] at hmap
  obtain ⟨rfl, rfl⟩ := Prod.mk.inj (Option.some.inj hmap)
  obtain ⟨m₂, relocated, linked, hrelocate, hlink⟩ :=
    hacc'.relocate_link (k := k) hp hvm hbase hd hkept
  exact ⟨m₂, _, relocated, linked, hrelocate, hlink, hacc'.linkedAsSpecified hvm hbase hd⟩

end Contents

/-- The kmod_info is at 0x1000 and the slots are at 0x800 and 0x900. -/
theorem kextParse_linkedAsSpecified_small :
    ∃ m₁ info₁ m₂ m₃ relocated linked,
      kextMap ⟨0x800000000, 0⟩ { smallInfo 0 0x1000 with kext := 0x2000000 }
        (uploaded (smallUpload 0 0x1000 0x800 0x900) 0x1000000) = some (m₁, info₁) ∧
      kextRelocate ⟨0x800000000, 0⟩ info₁ m₁ = some (m₂, relocated) ∧
      kextLink ⟨0x800000000, 0⟩ smallChain info₁ m₂ = some (m₃, linked) ∧
      LinkedAsSpecified ⟨0x800000000, 0⟩ smallChain (smallUpload 0 0x1000 0x800 0x900) 0x2000000 184
        104 m₁ m₃ := by
  have hparse := kextParse_small smallAccepted_zero
  have hd : SlotsDisjoint (smallUpload 0 0x1000 0x800 0x900).byte 104 := by decide +kernel
  have hsp : (smallInfo 0 0x1000).symtab - 0x1000000 = 184 := rfl
  have hdp : (smallInfo 0 0x1000).dysymtab - 0x1000000 = 104 := rfl
  have hmapped : (kextMap ⟨0x800000000, 0⟩ { smallInfo 0 0x1000 with kext := 0x2000000 }
      (uploaded (smallUpload 0 0x1000 0x800 0x900) 0x1000000)).any (fun s => decide
        (MetadataMapped (smallUpload 0 0x1000 0x800 0x900).byte 184 104 s.2 s.1)) = true := by
    decide +kernel
  obtain ⟨⟨m₁, info₁⟩, hmap, hkept⟩ := (Option.any_eq_true _ _).1 hmapped
  have hkept' := of_decide_eq_true hkept
  rw [← hsp, ← hdp] at hkept' ⊢
  rw [← hdp] at hd
  obtain ⟨m₂, m₃, relocated, linked, hrelocate, hlink, hspec⟩ := kextParse_linkedAsSpecified hparse
    (kextAlloc_small _ _) (placed_small _ _ _ _) rfl hd hmap hkept'
  exact ⟨m₁, info₁, m₂, m₃, relocated, linked, hmap, hrelocate, hlink, hspec⟩

/-- With the kmod_info at 0x20, the upper half of its field `size` is `stroff`, and the external slot
keeps its old value. -/
theorem not_linkedAsSpecified_smallStroff :
    kextParse smallChain 0x1000000 (smallUpload 0 0x20 0x800 0x900) =
        .ok (smallUpload 0 0x20 0x800 0x900, smallInfo 0 0x20) ∧
      kextAlloc smallAlloc (smallInfo 0 0x20) = some { smallInfo 0 0x20 with kext := 0x2000000 } ∧
      Placed (smallUpload 0 0x20 0x800 0x900) { smallInfo 0 0x20 with kext := 0x2000000 }
        (uploaded (smallUpload 0 0x20 0x800 0x900) 0x1000000) ∧
      SlotsDisjoint (smallUpload 0 0x20 0x800 0x900).byte 104 ∧
      ∃ m₁ info₁ m₂ m₃ relocated linked,
        kextMap ⟨0x800000000, 0⟩ { smallInfo 0 0x20 with kext := 0x2000000 }
          (uploaded (smallUpload 0 0x20 0x800 0x900) 0x1000000) = some (m₁, info₁) ∧
        kextRelocate ⟨0x800000000, 0⟩ info₁ m₁ = some (m₂, relocated) ∧
        kextLink ⟨0x800000000, 0⟩ smallChain info₁ m₂ = some (m₃, linked) ∧
        ¬ LinkedAsSpecified ⟨0x800000000, 0⟩ smallChain (smallUpload 0 0x20 0x800 0x900) 0x2000000
          184 104 m₁ m₃ := by
  refine ⟨kextParse_small smallAccepted_commands, kextAlloc_small _ _, placed_small _ _ _ _,
    by decide +kernel, ?_⟩
  have hrun : ((kextMap ⟨0x800000000, 0⟩ { smallInfo 0 0x20 with kext := 0x2000000 }
      (uploaded (smallUpload 0 0x20 0x800 0x900) 0x1000000)).bind fun s =>
        (kextRelocate ⟨0x800000000, 0⟩ s.2 s.1).bind fun t =>
          (kextLink ⟨0x800000000, 0⟩ smallChain s.2 t.1).map fun u =>
            word u.1 (0x2000000 + 0x800) 8) = some 0 := by
    decide +kernel
  obtain ⟨⟨m₁, info₁⟩, hmap, hrun⟩ := Option.bind_eq_some_iff.1 hrun
  obtain ⟨⟨m₂, relocated⟩, hrelocate, hrun⟩ := Option.bind_eq_some_iff.1 hrun
  obtain ⟨⟨m₃, linked⟩, hlink, hslot⟩ := Option.map_eq_some_iff.1 hrun
  refine ⟨m₁, info₁, m₂, m₃, relocated, linked, hmap, hrelocate, hlink, fun hspec => ?_⟩
  have hentry : ⟨0x800, 1, 3, true⟩ ∈ externalEntries (smallUpload 0 0x20 0x800 0x900).byte 104 := by
    decide +kernel
  obtain ⟨name, address, hname, haddress, hvalue⟩ := hspec.linked _ hentry
  have hresolved : (externalName (smallUpload 0 0x20 0x800 0x900) 184 ⟨0x800, 1, 3, true⟩).bind
      (kernelcacheSymbolTableLookup smallChain) = some 0xfffffff007100000 := by
    decide +kernel
  rw [hname, Option.bind_some, haddress] at hresolved
  obtain rfl : address = 0xfffffff007100000 := Option.some.inj hresolved
  rw [hslot] at hvalue
  revert hvalue
  decide

end VulnerableKext.Kext

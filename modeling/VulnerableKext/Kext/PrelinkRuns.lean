import VulnerableKext.Kext.LinkedImage
import VulnerableKext.Kext.ParseReads
import VulnerableKext.Kext.PrelinkDictionary

/-!
# Runs of kextload commands

Every `kextload` command consumes an upload.  It is rejected, or the kernel extension is
mapped, relocated, linked and announced.  Over any number of commands the section
`__PRELINK_INFO.__info` grows by one dictionary for each kernel extension that is
announced, in this order (`runKextload_wellFormed`), as long as the kernel extensions
write to their own images only.  The code does not guarantee this: with a `vm_base` that is
not 0 a relocation may be applied in front of the image.
-/

namespace VulnerableKext.Kext

open Memory Checked Device Host

/-! ## The command -/

/-- What a `kextload` command finds: an upload in the USB buffer at `header`, and the memory that
`alloc_static` has to give. -/
structure KextRequest where
  header : ℕ
  upload : Buffer
  allocStatic : ℕ → Option ℕ

/-- The memory with a file in the USB buffer. -/
def withUpload (m : Mem) (header : ℕ) (buf : Buffer) : Mem := splice m header buf.size buf.byte

/-- Process an upload as a kernel extension.  Beside the new state there is the load information for
which `kext_insert` has been called, which is not part of the program.  After a read outside of the
upload or of the symbol tables nothing is known. -/
def commandKextload (k : KernelLayout) (chain : List KernelcacheSymbolTable) (sect : ℕ)
    (r : KextRequest) (s : LoaderState) : Option (LoaderState × Option KextLoadInfo) :=
  -- "Kext is too small"
  if r.upload.size < 0x4000 then some (⟨withUpload s.mem r.header r.upload, s.kextId⟩, none)
  else
    -- the upload is validated where it is
    let m := withUpload s.mem r.header (patchedUpload r.upload)
    match kextParse chain r.header r.upload with
    | .error e => if e = .fault ∨ e = .tableFault then none else some (⟨m, s.kextId⟩, none)
    | .ok (_, info) =>
      match kextAlloc r.allocStatic info with
      | none => some (⟨m, s.kextId⟩, none)
      | some info => do
        let (m, info) ← kextMap k info m
        let (m, _) ← kextRelocate k info m
        let (m, _) ← kextLink k chain info m
        let s ← kextInsert k info sect ⟨m, s.kextId⟩
        return (s, some info)

/-- A sequence of commands, with the load information of all kernel extensions that reach
`kext_insert`. -/
def runKextload (k : KernelLayout) (chain : List KernelcacheSymbolTable) (sect : ℕ) :
    List KextRequest → LoaderState → Option (LoaderState × List KextLoadInfo)
  | [], s => some (s, [])
  | r :: rs, s => do
    let (s, info) ← commandKextload k chain sect r s
    let (s, infos) ← runKextload k chain sect rs s
    return (s, info.toList ++ infos)

/-- The load information that reaches `kext_insert`, for a request that is rejected neither by
`kext_parse` nor by `kext_alloc`. -/
def insertedInfo (chain : List KernelcacheSymbolTable) (r : KextRequest) : Option KextLoadInfo :=
  if r.upload.size < 0x4000 then none
  else (kextParse chain r.header r.upload).toOption.bind fun s =>
    (kextAlloc r.allocStatic s.2).map fun info =>
      mappedInfo info (s.2.symtab - r.header) (s.2.dysymtab - r.header)

/-! ## What a run relies on -/

/-- The USB buffer and the memory that `alloc_static` gives are apart from each other, from the
section with the room behind it, and from its header. -/
structure KextRequest.Separate (r : KextRequest) (sect start stop : ℕ) : Prop where
  size : r.upload.size < 2 ^ 32
  fits : r.header + r.upload.size < 2 ^ 64
  text : Apart r.header r.upload.size start (stop - start)
  header : Apart r.header r.upload.size sect sizeofSection
  alloc : ∀ n a, r.allocStatic n = some a → a + n < 2 ^ 64 ∧ Apart a n r.header r.upload.size ∧
    Apart a n start (stop - start) ∧ Apart a n sect sizeofSection

/-- What the code does not check: no symbol lies outside of its table, and what is written for an
accepted upload goes to its image and does not meet the bounds of the two loops.  It may meet
`stroff` when names other than those of the upload can be looked up as well. -/
def KextRequest.Sound (chain : List KernelcacheSymbolTable) (r : KextRequest) : Prop :=
  kextParse chain r.header r.upload ≠ .error .tableFault ∧
  ∀ buf info info', kextParse chain r.header r.upload = .ok (buf, info) →
    kextAlloc r.allocStatic info = some info' →
    WritesApart buf.byte info' (info.dysymtab - r.header)
        (boundWords (info.dysymtab - r.header)) ∧
      (MetadataKept buf.byte info' (info.symtab - r.header) (info.dysymtab - r.header) ∨
        ∀ t ∈ chain, t.Sound)

/-- The section and its header have not changed. -/
def SectionKept (sect start stop : ℕ) (m m' : Mem) : Prop :=
  ∀ b, (start ≤ b ∧ b < stop) ∨ (sect ≤ b ∧ b < sect + sizeofSection) → m' b = m b

section Command

variable {k : KernelLayout} {chain : List KernelcacheSymbolTable} {sect start stop : ℕ}
  {r : KextRequest} {s : LoaderState} {m m' m'' : Mem} {info : KextLoadInfo} {text : List UInt8}

namespace SectionKept

lemma trans (h : SectionKept sect start stop m m') (h' : SectionKept sect start stop m' m'') :
    SectionKept sect start stop m m'' :=
  fun b hb => (h' b hb).trans (h b hb)

/-- Replacing an object somewhere else. -/
lemma splice {a n : ℕ} {obj : Mem} (hd : Apart a n start (stop - start))
    (hd' : Apart a n sect sizeofSection) :
    SectionKept sect start stop m (splice m a n obj) := by
  rintro b (hb | hb)
  · refine splice_apply_of_out ?_
    rcases hd with hd | hd
    · exact Or.inr (by omega)
    · exact Or.inl (by omega)
  · refine splice_apply_of_out ?_
    rcases hd' with hd' | hd'
    · exact Or.inr (by omega)
    · exact Or.inl (by omega)

lemma word_eq (h : SectionKept sect start stop m m') {o : ℕ} (ho : o + 8 ≤ sizeofSection) :
    word m' (sect + o) 8 = word m (sect + o) 8 :=
  word_congr fun i hi => h _ (Or.inr (by omega))

lemma sectSize_eq (h : SectionKept sect start stop m m') : sectSize m' sect = sectSize m sect :=
  h.word_eq (by decide)

lemma sectBegin_eq (h : SectionKept sect start stop m m') :
    sectBegin k m' sect = sectBegin k m sect := by
  rw [sectBegin, sectBegin, sectAddr, sectAddr, h.word_eq (by decide)]

end SectionKept

/-- The section is described by its bytes and its header. -/
lemma SectionAt.congr (h : SectionAt k m sect start stop text)
    (hkept : SectionKept sect start stop m m') : SectionAt k m' sect start stop text := by
  have hroom := h.room
  refine ⟨⟨fun i hi => ?_, hroom, fun b hb hb' => ?_⟩, ?_, ?_⟩
  · rw [hkept _ (Or.inl ⟨by omega, by rw [List.length_append] at hi; omega⟩)]
    exact h.holds i hi
  · rw [hkept b (Or.inl ⟨by omega, hb'⟩)]
    exact h.zeros b hb hb'
  · rw [hkept.sectBegin_eq]
    exact h.begins
  · rw [hkept.sectSize_eq]
    exact h.ends

/-- Receiving a file. -/
lemma KextRequest.Separate.withUpload (hsep : r.Separate sect start stop) {buf : Buffer}
    (hbuf : buf.size = r.upload.size) :
    SectionKept sect start stop m (withUpload m r.header buf) := by
  refine SectionKept.splice ?_ ?_
  · rw [hbuf]
    exact hsep.text
  · rw [hbuf]
    exact hsep.header

lemma commandKextload_of_small (h : r.upload.size < 0x4000) :
    commandKextload k chain sect r s =
      some (⟨withUpload s.mem r.header r.upload, s.kextId⟩, none) := by
  rw [commandKextload, if_pos h]

lemma commandKextload_of_error (hsize : ¬ r.upload.size < 0x4000) {e : KextError}
    (hparse : kextParse chain r.header r.upload = .error e)
    (he : ¬ (e = .fault ∨ e = .tableFault)) :
    commandKextload k chain sect r s =
      some (⟨withUpload s.mem r.header (patchedUpload r.upload), s.kextId⟩, none) := by
  rw [commandKextload, if_neg hsize, hparse]
  dsimp only
  rw [if_neg he]

/-- Only one of the two branches behind `kext_parse` is looked at. -/
lemma match_parse {α : Type} (f : KextError → α) (g : KextLoadInfo → α)
    {x : Except KextError (Buffer × KextLoadInfo)} {buf : Buffer} :
    x = .ok (buf, info) → (match x with | .error e => f e | .ok (_, info) => g info) = g info := by
  rintro rfl
  rfl

/-- Behind `kext_parse`, the rest of the command depends on the allocation. -/
lemma commandKextload_of_parse (hsize : ¬ r.upload.size < 0x4000) {buf : Buffer}
    (hparse : kextParse chain r.header r.upload = .ok (buf, info)) :
    commandKextload k chain sect r s =
      (kextAlloc r.allocStatic info).elim
        (some (⟨withUpload s.mem r.header (patchedUpload r.upload), s.kextId⟩, none))
        fun info => do
          let (m, info) ← kextMap k info (withUpload s.mem r.header (patchedUpload r.upload))
          let (m, _) ← kextRelocate k info m
          let (m, _) ← kextLink k chain info m
          let s ← kextInsert k info sect ⟨m, s.kextId⟩
          return (s, some info) := by
  rw [commandKextload, if_neg hsize]
  refine (match_parse _ _ hparse).trans ?_
  cases kextAlloc r.allocStatic info with
  | none => rfl
  | some info => rfl

lemma commandKextload_of_full (hsize : ¬ r.upload.size < 0x4000) {buf : Buffer}
    (hparse : kextParse chain r.header r.upload = .ok (buf, info))
    (halloc : kextAlloc r.allocStatic info = none) :
    commandKextload k chain sect r s =
      some (⟨withUpload s.mem r.header (patchedUpload r.upload), s.kextId⟩, none) := by
  rw [commandKextload_of_parse hsize hparse, halloc, Option.elim_none]

lemma insertedInfo_of_steps (hsize : ¬ r.upload.size < 0x4000) {buf : Buffer}
    {info' : KextLoadInfo} (hparse : kextParse chain r.header r.upload = .ok (buf, info))
    (halloc : kextAlloc r.allocStatic info = some info') :
    insertedInfo chain r =
      some (mappedInfo info' (info.symtab - r.header) (info.dysymtab - r.header)) := by
  have hparsed : (kextParse chain r.header r.upload).toOption = some (buf, info) := by
    rw [hparse]
    rfl
  rw [insertedInfo, if_neg hsize, hparsed, Option.bind_some, halloc, Option.map_some]

/-- A rejected command leaves the upload behind, with the checked names terminated, and nothing
else. -/
lemma commandKextload_rejected_image
    (htable : kextParse chain r.header r.upload ≠ .error .tableFault)
    (hrej : insertedInfo chain r = none) : ∃ buf, buf.size = r.upload.size ∧
      commandKextload k chain sect r s = some (⟨withUpload s.mem r.header buf, s.kextId⟩, none) := by
  by_cases hsmall : r.upload.size < 0x4000
  · exact ⟨_, rfl, commandKextload_of_small hsmall⟩
  rcases hparse : kextParse chain r.header r.upload with e | ⟨buf, info⟩
  · have hfault : e ≠ .fault := by
      rintro rfl
      exact kextParse_ne_fault (by simp only [sizeofHeader]; omega) hparse
    have htable' : e ≠ .tableFault := by
      rintro rfl
      exact htable hparse
    exact ⟨patchedUpload r.upload, rfl,
      commandKextload_of_error hsmall hparse (not_or.2 ⟨hfault, htable'⟩)⟩
  · rcases halloc : kextAlloc r.allocStatic info with _ | info'
    · exact ⟨patchedUpload r.upload, rfl, commandKextload_of_full hsmall hparse halloc⟩
    · rw [insertedInfo_of_steps hsmall hparse halloc] at hrej
      cases hrej

/-- A rejected command leaves the section alone, whatever the rest of the state is. -/
lemma commandKextload_rejected (hsep : r.Separate sect start stop) (hsound : r.Sound chain)
    (hrej : insertedInfo chain r = none) : ∃ m',
    commandKextload k chain sect r s = some (⟨m', s.kextId⟩, none) ∧
      SectionKept sect start stop s.mem m' := by
  obtain ⟨buf, hbuf, hstep⟩ := commandKextload_rejected_image hsound.1 hrej
  exact ⟨_, hstep, hsep.withUpload hbuf⟩

/-- The steps of a command that is not rejected. -/
lemma commandKextload_of_steps {buf : Buffer} {info₀ info₁ : KextLoadInfo} {m₁ m₂ m₃ : Mem}
    {relocated : List LocalVisit} {linked : List ExternalVisit}
    (hsize : ¬ r.upload.size < 0x4000) (hparse : kextParse chain r.header r.upload = .ok (buf, info₀))
    (halloc : kextAlloc r.allocStatic info₀ = some info₁)
    (hmap : kextMap k info₁ (withUpload s.mem r.header (patchedUpload r.upload)) = some (m₁, info))
    (hrelocate : kextRelocate k info m₁ = some (m₂, relocated))
    (hlink : kextLink k chain info m₂ = some (m₃, linked)) :
    commandKextload k chain sect r s =
      (kextInsert k info sect ⟨m₃, s.kextId⟩).map fun s' => (s', some info) := by
  rw [commandKextload_of_parse hsize hparse, halloc, Option.elim_some]
  dsimp only
  rw [hmap, Option.bind_eq_bind, Option.bind_some, hrelocate, Option.bind_eq_bind, Option.bind_some]
  dsimp only
  rw [hlink, Option.bind_eq_bind, Option.bind_some, Option.map_eq_bind]
  rfl

/-- The memory in which `kext_insert` is called: the file has been received, and the linked image put
in its place. -/
def loadedMemory (k : KernelLayout) (chain : List KernelcacheSymbolTable) (r : KextRequest)
    (info : KextLoadInfo) (m : Mem) : Mem :=
  let file := patchedUpload r.upload
  let m := withUpload m r.header file
  splice m info.kext info.vmSize
    (imageLinked k chain info file (info.symtab - r.header) (info.dysymtab - r.header)
      (kextImage k info file.byte fun o => m (info.kext + o)))

/-- The image is a part of the memory that has been allocated, apart from everything else. -/
lemma KextRequest.Separate.image (hsep : r.Separate sect start stop) {info₀ info₁ : KextLoadInfo}
    (halloc : kextAlloc r.allocStatic info₀ = some info₁) :
    info₁.kext + info₁.vmSize < 2 ^ 64 ∧ info₁.vmSize < 2 ^ 32 ∧
      Apart info₁.kext info₁.vmSize r.header r.upload.size ∧
      Apart info₁.kext info₁.vmSize start (stop - start) ∧
      Apart info₁.kext info₁.vmSize sect sizeofSection := by
  obtain ⟨kext, size, rfl, hsize, hle, hvm⟩ := kextAlloc_eq_some halloc
  obtain ⟨hfits, hupload, htext, hheader⟩ := hsep.alloc size kext hsize
  refine ⟨?_, hvm, hupload.mono hle, htext.mono hle, hheader.mono hle⟩
  show kext + info₀.vmSize < 2 ^ 64
  omega

/-- The section is as it was before. -/
lemma KextRequest.Separate.loadedMemory (hsep : r.Separate sect start stop)
    {info₀ info₁ : KextLoadInfo}
    (halloc : kextAlloc r.allocStatic info₀ = some info₁) :
    SectionKept sect start stop m (loadedMemory k chain r info₁ m) := by
  obtain ⟨-, -, -, htext, hheader⟩ := hsep.image halloc
  have hreceived :
      SectionKept sect start stop m (Kext.withUpload m r.header (patchedUpload r.upload)) :=
    hsep.withUpload rfl
  exact hreceived.trans (SectionKept.splice htext hheader)

/-- The upload and the image are where the steps expect them. -/
lemma KextRequest.Separate.placed (hsep : r.Separate sect start stop) {buf : Buffer}
    {info₀ info₁ : KextLoadInfo} (hparse : kextParse chain r.header r.upload = .ok (buf, info₀))
    (halloc : kextAlloc r.allocStatic info₀ = some info₁) :
    Placed buf info₁ (Kext.withUpload m r.header (patchedUpload r.upload)) := by
  obtain ⟨hfits, -, hupload, -, -⟩ := hsep.image halloc
  obtain ⟨sp, dp, haccepted⟩ := kextParse_accepted hparse
  obtain rfl := kextParse_patched hparse
  obtain ⟨kext, size, rfl, -, -, -⟩ := kextAlloc_eq_some halloc
  refine ⟨?_, hsep.size, ?_, hfits, ?_⟩
  · show Agree _ info₀.header _ 0 _
    rw [haccepted.header_eq]
    exact agree_splice _ _ _ _
  · show info₀.header + r.upload.size < 2 ^ 64
    rw [haccepted.header_eq]
    exact hsep.fits
  · show Apart kext info₀.vmSize info₀.header r.upload.size
    rw [haccepted.header_eq]
    exact hupload

/-- An upload that is accepted and allocated and keeps its metadata goes through all steps. -/
lemma commandKextload_image (hsep : r.Separate sect start stop)
    (hsmall : ¬ r.upload.size < 0x4000) {buf : Buffer} {info₀ info₁ : KextLoadInfo}
    (hparse : kextParse chain r.header r.upload = .ok (buf, info₀))
    (halloc : kextAlloc r.allocStatic info₀ = some info₁)
    (hkept : MetadataKept buf.byte info₁ (info₀.symtab - r.header) (info₀.dysymtab - r.header)) :
    commandKextload k chain sect r s =
      (kextInsert k (mappedInfo info₁ (info₁.symtab - r.header) (info₁.dysymtab - r.header)) sect
        ⟨loadedMemory k chain r info₁ s.mem, s.kextId⟩).map fun s' =>
          (s', some (mappedInfo info₁ (info₁.symtab - r.header) (info₁.dysymtab - r.header))) := by
  have hplaced : Placed buf info₁ (withUpload s.mem r.header (patchedUpload r.upload)) :=
    hsep.placed hparse halloc
  obtain ⟨-, hvm, -, -, -⟩ := hsep.image halloc
  obtain ⟨sp, dp, haccepted⟩ := kextParse_accepted hparse
  obtain rfl := kextParse_patched hparse
  obtain ⟨kext, size, rfl, -, -, -⟩ := kextAlloc_eq_some halloc
  have hsp : ({ info₀ with kext } : KextLoadInfo).symtab - r.header = sp := haccepted.symtab_sub
  have hdp : ({ info₀ with kext } : KextLoadInfo).dysymtab - r.header = dp := haccepted.dysymtab_sub
  rw [haccepted.symtab_sub, haccepted.dysymtab_sub] at hkept
  rw [loadedMemory, hsp, hdp]
  obtain ⟨hmap, hrelocate, hlink⟩ := (haccepted.alloc kext).steps_image (k := k) hplaced hvm hkept
  exact commandKextload_of_steps hsmall hparse halloc hmap hrelocate hlink

/-- Also when `stroff` is written over, an upload goes through all steps, and what is written lies
in the USB buffer and in the image. -/
lemma commandKextload_inside (hsep : r.Separate sect start stop) (htables : ∀ t ∈ chain, t.Sound)
    (hsmall : ¬ r.upload.size < 0x4000) {buf : Buffer} {info₀ info₁ : KextLoadInfo}
    (hparse : kextParse chain r.header r.upload = .ok (buf, info₀))
    (halloc : kextAlloc r.allocStatic info₀ = some info₁)
    (hkept : WritesApart buf.byte info₁ (info₀.dysymtab - r.header)
      (boundWords (info₀.dysymtab - r.header)))
    {z : ℕ} (hz : start ≤ z ∧ z < stop) (hstop : stop < 2 ^ 64) (hzero : s.mem z = 0) :
    ∃ im, commandKextload k chain sect r s =
      (kextInsert k (mappedInfo info₁ (info₁.symtab - r.header) (info₁.dysymtab - r.header)) sect
        ⟨splice (withUpload s.mem r.header (patchedUpload r.upload)) info₁.kext info₁.vmSize im,
          s.kextId⟩).map fun s' =>
          (s', some (mappedInfo info₁ (info₁.symtab - r.header) (info₁.dysymtab - r.header))) := by
  have hplaced : Placed buf info₁ (withUpload s.mem r.header (patchedUpload r.upload)) :=
    hsep.placed hparse halloc
  have hreceived : SectionKept sect start stop s.mem
      (withUpload s.mem r.header (patchedUpload r.upload)) := hsep.withUpload rfl
  have hzero' : withUpload s.mem r.header (patchedUpload r.upload) z = 0 :=
    (hreceived z (Or.inl hz)).trans hzero
  obtain ⟨-, hvm, -, htext, -⟩ := hsep.image halloc
  have hout : z < info₁.kext ∨ info₁.kext + info₁.vmSize ≤ z := by
    rcases htext with hd | hd
    · exact Or.inr (by omega)
    · exact Or.inl (by omega)
  obtain ⟨sp, dp, haccepted⟩ := kextParse_accepted hparse
  obtain ⟨kext, size, rfl, -, -, -⟩ := kextAlloc_eq_some halloc
  have hsp : ({ info₀ with kext } : KextLoadInfo).symtab - r.header = sp := haccepted.symtab_sub
  have hdp : ({ info₀ with kext } : KextLoadInfo).dysymtab - r.header = dp := haccepted.dysymtab_sub
  rw [haccepted.dysymtab_sub] at hkept
  rw [hsp, hdp]
  have haccepted' := haccepted.alloc kext
  obtain ⟨im, visits, hlink⟩ := haccepted'.kextLink_inside (k := k) hplaced hvm
    (fun name hname => ⟨_, lookup_eq_resolve hname htables⟩) (by omega) hout hzero'
    (haccepted'.kept_nextrel hkept (nextrel_mem_boundWords dp))
    (fun _ hi => (hkept.2.2 _ (externalEntry_mem hi)).1)
    fun _ hi => (hkept.2.2 _ (externalEntry_mem hi)).2
  exact ⟨im, commandKextload_of_steps hsmall hparse halloc (haccepted'.kextMap_eq hplaced hvm)
    (haccepted'.kextRelocate_kept hplaced hvm hkept (nlocrel_mem_boundWords dp)).1 hlink⟩

/-- An accepted command calls `kext_insert`, with the section as it was before. -/
lemma commandKextload_accepted (hsep : r.Separate sect start stop) (hsound : r.Sound chain)
    {z : ℕ} (hz : start ≤ z ∧ z < stop) (hstop : stop < 2 ^ 64) (hzero : s.mem z = 0)
    (hacc : insertedInfo chain r = some info) : ∃ m',
    commandKextload k chain sect r s =
        (kextInsert k info sect ⟨m', s.kextId⟩).map (fun s' => (s', some info)) ∧
      SectionKept sect start stop s.mem m' ∧ info.vmSize < 2 ^ 64 := by
  rw [insertedInfo] at hacc
  split_ifs at hacc with hsmall
  obtain ⟨⟨buf, info₀⟩, hparse, hacc⟩ := Option.bind_eq_some_iff.1 hacc
  obtain ⟨info₁, halloc, rfl⟩ := Option.map_eq_some_iff.1 hacc
  replace halloc : kextAlloc r.allocStatic info₀ = some info₁ := halloc
  have hparse' : kextParse chain r.header r.upload = .ok (buf, info₀) := by
    cases hcase : kextParse chain r.header r.upload with
    | error e =>
      rw [hcase] at hparse
      cases hparse
    | ok t =>
      rw [hcase] at hparse
      rw [show t = (buf, info₀) from Option.some.inj hparse]
  obtain ⟨hfits, -, -, htext, hheader⟩ := hsep.image halloc
  obtain ⟨hbounds, hnames⟩ := hsound.2 _ _ _ hparse' halloc
  have hsize : (mappedInfo info₁ (info₀.symtab - r.header)
      (info₀.dysymtab - r.header)).vmSize < 2 ^ 64 := by
    show info₁.vmSize < 2 ^ 64
    omega
  have hreceived : SectionKept sect start stop s.mem
      (withUpload s.mem r.header (patchedUpload r.upload)) := hsep.withUpload rfl
  have hsp : info₁.symtab = info₀.symtab := by
    obtain ⟨kext, size, rfl, -, -, -⟩ := kextAlloc_eq_some halloc
    rfl
  have hdp : info₁.dysymtab = info₀.dysymtab := by
    obtain ⟨kext, size, rfl, -, -, -⟩ := kextAlloc_eq_some halloc
    rfl
  rcases hnames with hkept | htables
  · have hstep := commandKextload_image (k := k) (s := s) hsep hsmall hparse' halloc hkept
    rw [hsp, hdp] at hstep
    exact ⟨_, hstep, hsep.loadedMemory halloc, hsize⟩
  · obtain ⟨im, hstep⟩ := commandKextload_inside (k := k) (s := s) hsep htables hsmall hparse' halloc
      hbounds hz hstop hzero
    rw [hsp, hdp] at hstep
    exact ⟨_, hstep, hreceived.trans (SectionKept.splice htext hheader), hsize⟩

end Command

/-! ## The section over a run -/

/-- At the start the section holds a text and the closing tags, followed by zeros, with room behind
it for `n` insertions. -/
structure PrelinkInitial (k : KernelLayout) (sect start stop n : ℕ) (c : List UInt8)
    (s : LoaderState) : Prop where
  text : SectionAt k s.mem sect start stop c
  header : Apart start (stop - start) sect sizeofSection
  stop_lt : stop < 2 ^ 64
  sizeRoom : start + (sectSize s.mem sect + n * prelinkInfoStr.length) ≤ stop
  textRoom : start + (c.length + n * prelinkInfoStr.length + prelinkInfoEnd.length) < stop
  id : s.kextId = 0

/-- The section after the kernel extensions `infos` have been announced: one dictionary for each of
them, in this order, between the text from the start and the closing tags, and their bundle
identifiers are different. -/
structure PrelinkWellFormed (k : KernelLayout) (sect start stop size : ℕ) (c : List UInt8)
    (infos : List KextLoadInfo) (ds : List (List UInt8)) (s : LoaderState) : Prop where
  length : ds.length = infos.length
  text : HoldsAt s.mem start (c ++ (ds.flatten ++ prelinkInfoEnd))
  zeros : ∀ b, start + (c ++ (ds.flatten ++ prelinkInfoEnd)).length ≤ b → b < stop → s.mem b = 0
  begins : sectBegin k s.mem sect = start
  size : sectSize s.mem sect = size + infos.length * prelinkInfoStr.length
  dictionaries : ∀ i info d, infos[i]? = some info → ds[i]? = some d → IsDictionary k info i d
  identifiers : (ds.map bundleIdentifier).Nodup
  id : s.kextId.toNat = infos.length

/-- The run is defined, announces the accepted kernel extensions and leaves a well-formed section
behind; and no rejected command changes the section, its size or the id, in any state. -/
def KeepsPrelinkInfo (k : KernelLayout) (chain : List KernelcacheSymbolTable)
    (sect start stop : ℕ) (c : List UInt8) (s : LoaderState) (reqs : List KextRequest) : Prop :=
  (∃ s' infos ds, runKextload k chain sect reqs s = some (s', infos) ∧
    infos = reqs.filterMap (insertedInfo chain) ∧
    PrelinkWellFormed k sect start stop (sectSize s.mem sect) c infos ds s') ∧
  ∀ r ∈ reqs, insertedInfo chain r = none → ∀ s, ∃ s',
    commandKextload k chain sect r s = some (s', none) ∧ s'.kextId = s.kextId ∧
      sectSize s'.mem sect = sectSize s.mem sect ∧ ∀ b, start ≤ b → b < stop → s'.mem b = s.mem b

section Run

variable {k : KernelLayout} {chain : List KernelcacheSymbolTable} {sect start stop size n : ℕ}
  {c : List UInt8} {r : KextRequest} {reqs : List KextRequest} {s : LoaderState} {m : Mem}
  {info : KextLoadInfo} {infos : List KextLoadInfo}

/-- The dictionaries of the kernel extensions, with their ids. -/
def dictionaries (k : KernelLayout) (infos : List KextLoadInfo) : List (List UInt8) :=
  infos.mapIdx fun i info => dictionary k info i

lemma dictionaries_concat (k : KernelLayout) (infos : List KextLoadInfo) (info : KextLoadInfo) :
    dictionaries k (infos ++ [info]) = dictionaries k infos ++ [dictionary k info infos.length] :=
  List.mapIdx_concat

lemma length_flatten_dictionaries (k : KernelLayout) (infos : List KextLoadInfo) :
    (dictionaries k infos).flatten.length = infos.length * prelinkInfoStr.length := by
  induction infos using List.reverseRecOn with
  | nil =>
    -- the length itself is not computed
    generalize prelinkInfoStr.length = len
    rw [dictionaries, List.mapIdx_nil, List.flatten_nil, List.length_nil, List.length_nil,
      Nat.zero_mul]
  | append_singleton infos info ih =>
    rw [dictionaries_concat, List.flatten_append, List.length_append, ih, List.flatten_singleton,
      length_dictionary, List.length_append, List.length_singleton, Nat.succ_mul]

/-- What holds between two commands.  The size and the text have grown by the same amount. -/
structure PrelinkInv (k : KernelLayout) (sect start stop size : ℕ) (c : List UInt8)
    (infos : List KextLoadInfo) (s : LoaderState) : Prop where
  text : SectionAt k s.mem sect start stop (c ++ (dictionaries k infos).flatten)
  size : sectSize s.mem sect = size + infos.length * prelinkInfoStr.length
  id : s.kextId.toNat = infos.length
  vmSizes : ∀ info ∈ infos, info.vmSize < 2 ^ 64

lemma PrelinkInitial.inv (h : PrelinkInitial k sect start stop n c s) :
    PrelinkInv k sect start stop (sectSize s.mem sect) c [] s := by
  refine ⟨?_, ?_, by rw [h.id]; rfl, by simp⟩
  · rw [dictionaries, List.mapIdx_nil, List.flatten_nil, List.append_nil]
    exact h.text
  · generalize prelinkInfoStr.length = len
    rw [List.length_nil, Nat.zero_mul, Nat.add_zero]

namespace PrelinkInv

variable (h : PrelinkInv k sect start stop size c infos s)
include h

lemma congr (hkept : SectionKept sect start stop s.mem m) :
    PrelinkInv k sect start stop size c infos ⟨m, s.kextId⟩ := by
  refine ⟨h.text.congr hkept, ?_, h.id, h.vmSizes⟩
  rw [hkept.sectSize_eq]
  exact h.size

/-- One insertion.  Outside of the section, only its size is written. -/
lemma kextInsert (hd : Apart start (stop - start) sect sizeofSection) (hstop : stop < 2 ^ 64)
    (hsize : start + (size + (infos.length + 1) * prelinkInfoStr.length) ≤ stop)
    (hroom : start + (c.length + (infos.length + 1) * prelinkInfoStr.length +
      prelinkInfoEnd.length) < stop)
    (hcount : infos.length + 1 ≤ 65536) (hvm : info.vmSize < 2 ^ 64) :
    ∃ s', kextInsert k info sect s = some s' ∧
      PrelinkInv k sect start stop size c (infos ++ [info]) s' ∧
      ∀ b, (b < start ∨ stop ≤ b) → (b < sect + 40 ∨ sect + 48 ≤ b) → s'.mem b = s.mem b := by
  have hflatten := length_flatten_dictionaries k infos
  have hsectSize := h.size
  -- room for one more dictionary, in the size and in the text
  have hsize' : start + sectSize s.mem sect + prelinkInfoStr.length ≤ stop := by
    rw [hsectSize]
    rw [Nat.succ_mul] at hsize
    omega
  have hroom' : start + ((c ++ (dictionaries k infos).flatten).length + prelinkInfoStr.length +
      prelinkInfoEnd.length) < stop := by
    rw [List.length_append, hflatten]
    rw [Nat.succ_mul] at hroom
    omega
  obtain ⟨s', hs', htext, hgrown, hid⟩ := kextInsert_spec info h.text hd hstop hsize' hroom'
  refine ⟨s', hs', ⟨?_, ?_, ?_, fun i hi => ?_⟩,
    fun b => kextInsert_frame info h.text hd hstop hsize' hroom' hs'⟩
  · rw [dictionaries_concat, List.flatten_append, List.flatten_singleton, ← List.append_assoc,
      ← h.id]
    exact htext
  · rw [hgrown, hsectSize, List.length_append, List.length_singleton, Nat.succ_mul]
    omega
  · rw [hid, UInt32.toNat_add, h.id, List.length_append, List.length_singleton, UInt32.toNat_one]
    omega
  · rcases List.mem_append.1 hi with hi | hi
    · exact h.vmSizes i hi
    · rw [List.mem_singleton.1 hi]
      exact hvm

/-- The invariant says that the section is well formed. -/
lemma wellFormed (hcount : infos.length ≤ 65536) :
    PrelinkWellFormed k sect start stop size c infos (dictionaries k infos) s := by
  have hdict : ∀ i info d, infos[i]? = some info → (dictionaries k infos)[i]? = some d →
      IsDictionary k info i d := by
    intro i info d hinfo hd
    rw [dictionaries, List.getElem?_mapIdx, hinfo, Option.map_some] at hd
    obtain rfl := Option.some.inj hd
    obtain ⟨hi, -⟩ := List.getElem?_eq_some_iff.1 hinfo
    exact isDictionary_dictionary (h.vmSizes _ (List.mem_of_getElem? hinfo)) (by omega)
  have htext := h.text.holds
  have hzeros := h.text.zeros
  rw [List.append_assoc] at htext
  refine ⟨List.length_mapIdx, htext, fun b hb hb' => hzeros b ?_ hb', h.text.begins, h.size, hdict,
    ?_, h.id⟩
  · simp only [List.length_append] at hb ⊢
    omega
  · -- the ids are the positions
    have hlen : (dictionaries k infos).length = infos.length := List.length_mapIdx
    rw [List.nodup_iff_getElem?_ne_getElem?]
    intro i j hij hj heq
    rw [List.length_map, hlen] at hj
    have hi : i < infos.length := hij.trans hj
    have hdi := List.getElem?_eq_getElem (hi.trans_eq hlen.symm)
    have hdj := List.getElem?_eq_getElem (hj.trans_eq hlen.symm)
    rw [List.getElem?_map, List.getElem?_map, hdi, hdj] at heq
    have hid := id_eq_of_bundleIdentifier (hdict i _ _ (List.getElem?_eq_getElem hi) hdi)
      (hdict j _ _ (List.getElem?_eq_getElem hj) hdj) (Option.some.inj heq)
    omega

end PrelinkInv

/-- A run keeps the invariant, as long as there is room for all insertions. -/
lemma runKextload_inv (chain : List KernelcacheSymbolTable)
    (h : PrelinkInv k sect start stop size c infos s)
    (hd : Apart start (stop - start) sect sizeofSection) (hstop : stop < 2 ^ 64)
    (hn : infos.length + (reqs.filterMap (insertedInfo chain)).length = n) (hcount : n ≤ 65536)
    (hsize : start + (size + n * prelinkInfoStr.length) ≤ stop)
    (hroom : start + (c.length + n * prelinkInfoStr.length + prelinkInfoEnd.length) < stop)
    (hsep : ∀ r ∈ reqs, r.Separate sect start stop) (hsound : ∀ r ∈ reqs, r.Sound chain) :
    ∃ s', runKextload k chain sect reqs s = some (s', reqs.filterMap (insertedInfo chain)) ∧
      PrelinkInv k sect start stop size c (infos ++ reqs.filterMap (insertedInfo chain)) s' := by
  induction reqs generalizing infos s with
  | nil => exact ⟨s, rfl, by simpa using h⟩
  | cons r rs ih =>
    have hsepRest : ∀ r ∈ rs, r.Separate sect start stop := fun r hr => hsep r (by simp [hr])
    have hsoundRest : ∀ r ∈ rs, r.Sound chain := fun r hr => hsound r (by simp [hr])
    cases hacc : insertedInfo chain r with
    | none =>
      -- the command is rejected
      obtain ⟨m, hstep, hkept⟩ := commandKextload_rejected (k := k) (s := s) (hsep r (by simp))
        (hsound r (by simp)) hacc
      rw [List.filterMap_cons_none hacc] at hn ⊢
      obtain ⟨s', hrun, hinv⟩ := ih (h.congr hkept) hn hsepRest hsoundRest
      refine ⟨s', ?_, hinv⟩
      rw [runKextload, hstep, Option.bind_eq_bind, Option.bind_some]
      dsimp only
      rw [hrun]
      rfl
    | some info =>
      -- one more kernel extension is announced
      have hlt := h.text.room
      obtain ⟨m, hstep, hkept, hvm⟩ := commandKextload_accepted (k := k) (hsep r (by simp))
        (hsound r (by simp)) ⟨Nat.le_add_right _ _, hlt⟩ hstop (h.text.zeros _ le_rfl hlt) hacc
      rw [List.filterMap_cons_some hacc, List.length_cons] at hn
      rw [List.filterMap_cons_some hacc]
      have hmul : (infos.length + 1) * prelinkInfoStr.length ≤ n * prelinkInfoStr.length :=
        Nat.mul_le_mul_right _ (by omega)
      obtain ⟨s₁, hinsert, hinv₁, -⟩ := (h.congr hkept).kextInsert hd hstop (by omega) (by omega)
        (by omega) hvm
      obtain ⟨s', hrun, hinv⟩ := ih hinv₁
        (by rw [List.length_append, List.length_singleton]; omega) hsepRest hsoundRest
      rw [List.append_assoc, List.singleton_append] at hinv
      refine ⟨s', ?_, hinv⟩
      rw [runKextload, hstep, hinsert, Option.map_some, Option.bind_eq_bind, Option.bind_some]
      dsimp only
      rw [hrun]
      rfl

/-- The section stays well formed over every run of commands whose uploads are sound, for every text
in front of the closing tags and up to 65536 insertions. -/
theorem runKextload_wellFormed
    (hn : (reqs.filterMap (insertedInfo chain)).length = n) (hcount : n ≤ 65536)
    (hinit : PrelinkInitial k sect start stop n c s)
    (hsep : ∀ r ∈ reqs, r.Separate sect start stop) (hsound : ∀ r ∈ reqs, r.Sound chain) :
    KeepsPrelinkInfo k chain sect start stop c s reqs := by
  constructor
  · obtain ⟨s', hrun, hinv⟩ := runKextload_inv chain hinit.inv hinit.header hinit.stop_lt
      (by rw [List.length_nil, Nat.zero_add]; exact hn) hcount hinit.sizeRoom hinit.textRoom hsep
      hsound
    rw [List.nil_append] at hinv
    exact ⟨s', _, _, hrun, rfl, hinv.wellFormed (by omega)⟩
  · intro r hr hrej s
    obtain ⟨m, hstep, hkept⟩ := commandKextload_rejected (k := k) (s := s) (hsep r hr) (hsound r hr)
      hrej
    exact ⟨_, hstep, rfl, hkept.sectSize_eq, fun b hb hb' => hkept b (Or.inl ⟨hb, hb'⟩)⟩

end Run

/-! ## Small runs -/

/-- A memory with a section of `size` bytes at `start`, whose address is `addr` and whose header is
at 0x3000000. -/
def sectionMemory (start addr size : ℕ) (text : List UInt8) : Mem :=
  storeWord (storeWord (storeBytes (fun _ => 0) start (text ++ prelinkInfoEnd)) (0x3000000 + 32) 8
    addr) (0x3000000 + 40) 8 size

lemma prelinkInitial_sectionMemory {k : KernelLayout} {start stop addr size n : ℕ}
    {text : List UInt8} (hbegin : k.ptrForVa (addr % 2 ^ 64) = start)
    (hsize : text.length + prelinkInfoEnd.length ≤ size) (hstop : stop < 2 ^ 64)
    (hd : Apart start (stop - start) 0x3000000 sizeofSection)
    (hsizeRoom : start + (size + n * prelinkInfoStr.length) ≤ stop)
    (htextRoom : start + (text.length + n * prelinkInfoStr.length + prelinkInfoEnd.length) < stop) :
    PrelinkInitial k 0x3000000 start stop n text ⟨sectionMemory start addr size text, 0⟩ := by
  have hmul : 0 ≤ n * prelinkInfoStr.length := Nat.zero_le _
  have hheader : Apart start (stop - start) 0x3000000 80 := hd
  have happly (b : ℕ) (hb : start ≤ b) (hb' : b < stop) : sectionMemory start addr size text b =
      storeBytes (fun _ => 0) start (text ++ prelinkInfoEnd) b := by
    have hout : b < 0x3000000 ∨ 0x3000000 + 80 ≤ b := by
      rcases hheader with hd | hd
      · exact Or.inl (by omega)
      · exact Or.inr (by omega)
    rw [sectionMemory, storeWord_apply_of_out (by omega), storeWord_apply_of_out (by omega)]
  have haddr : sectAddr (sectionMemory start addr size text) 0x3000000 = addr % 2 ^ 64 := by
    rw [sectAddr, sectionMemory, word_storeWord_of_apart (Or.inr (by norm_num)), word_storeWord]
    norm_num
  have hsectSize : sectSize (sectionMemory start addr size text) 0x3000000 = size := by
    rw [sectSize, sectionMemory, word_storeWord]
    exact Nat.mod_eq_of_lt (by omega)
  refine ⟨⟨⟨fun i hi => ?_, by omega, fun b hb hb' => ?_⟩, ?_, ?_⟩, hd, hstop, ?_, htextRoom, rfl⟩
  · have hlt : i < text.length + prelinkInfoEnd.length := by
      rw [List.length_append] at hi
      exact hi
    exact (happly (start + i) (by omega) (by omega)).trans (holdsAt_storeBytes _ _ _ i hi)
  · refine (happly b (by omega) hb').trans (storeBytes_apply_of_out (Or.inr ?_))
    rw [List.length_append]
    exact hb
  · rw [sectBegin, haddr, hbegin]
  · rw [hsectSize]
    exact ⟨hsize, by omega⟩
  · show start + (sectSize (sectionMemory start addr size text) 0x3000000 + _) ≤ stop
    rw [hsectSize]
    exact hsizeRoom

/-- The small file. -/
def smallRequest (vmBase kmodInfo external local' : ℕ) : KextRequest :=
  ⟨0x1000000, smallUpload vmBase kmodInfo external local', smallAlloc⟩

section Small

variable {vmBase kmodInfo external local' : ℕ}

lemma smallRequest_size :
    ¬ (smallRequest vmBase kmodInfo external local').upload.size < 0x4000 :=
  lt_irrefl 0x4000

lemma smallRequest_parse (h : SmallAccepted vmBase kmodInfo external local') :
    kextParse smallChain (smallRequest vmBase kmodInfo external local').header
      (smallRequest vmBase kmodInfo external local').upload =
        .ok (smallUpload vmBase kmodInfo external local', smallInfo vmBase kmodInfo) :=
  kextParse_small h

lemma smallRequest_alloc :
    kextAlloc (smallRequest vmBase kmodInfo external local').allocStatic
      (smallInfo vmBase kmodInfo) = some { smallInfo vmBase kmodInfo with kext := 0x2000000 } :=
  kextAlloc_small _ _

lemma smallInfo_symtab : (smallInfo vmBase kmodInfo).symtab - 0x1000000 = 184 :=
  Nat.add_sub_cancel_left _ _

lemma smallInfo_dysymtab : (smallInfo vmBase kmodInfo).dysymtab - 0x1000000 = 104 :=
  Nat.add_sub_cancel_left _ _

/-- It is accepted by `kext_parse` and `kext_alloc`. -/
lemma insertedInfo_small (h : SmallAccepted vmBase kmodInfo external local') :
    insertedInfo smallChain (smallRequest vmBase kmodInfo external local') =
      some (mappedInfo { smallInfo vmBase kmodInfo with kext := 0x2000000 } 184 104) := by
  have hsp : (smallInfo vmBase kmodInfo).symtab -
      (smallRequest vmBase kmodInfo external local').header = 184 := smallInfo_symtab
  have hdp : (smallInfo vmBase kmodInfo).dysymtab -
      (smallRequest vmBase kmodInfo external local').header = 104 := smallInfo_dysymtab
  rw [insertedInfo_of_steps smallRequest_size (smallRequest_parse h) smallRequest_alloc, hsp, hdp]

lemma smallRequest_sound (h : SmallAccepted vmBase kmodInfo external local')
    (hkept : MetadataKept (smallUpload vmBase kmodInfo external local').byte
      { smallInfo vmBase kmodInfo with kext := 0x2000000 } 184 104) :
    (smallRequest vmBase kmodInfo external local').Sound smallChain := by
  have hparse := smallRequest_parse h
  refine ⟨fun hfault => ?_, fun buf info info' hok halloc => ?_⟩
  · rw [hparse] at hfault
    cases hfault
  · obtain ⟨rfl, rfl⟩ := Prod.mk.inj (Except.ok.inj (hparse.symm.trans hok))
    obtain rfl := Option.some.inj (smallRequest_alloc.symm.trans halloc)
    have hsp : (smallInfo vmBase kmodInfo).symtab -
        (smallRequest vmBase kmodInfo external local').header = 184 := smallInfo_symtab
    have hdp : (smallInfo vmBase kmodInfo).dysymtab -
        (smallRequest vmBase kmodInfo external local').header = 104 := smallInfo_dysymtab
    rw [hsp, hdp]
    exact ⟨hkept.mono (boundWords_subset_metadataWords _ _ _), Or.inl hkept⟩

end Small

lemma sound_smallChain : ∀ t ∈ smallChain, t.Sound := by
  intro t ht
  rw [List.mem_singleton.1 ht]
  exact (by decide : ∀ e ∈ [(0, 0xfffffff007100000)],
    (KernelcacheSymbolTable.nameAt ⟨[(0, 0xfffffff007100000)], [95, 102, 0]⟩ e.1).isSome)

/-- Memory for another kernel extension. -/
def laterAlloc (size : ℕ) : Option ℕ := if size ≤ 0x4000 then some 0x2004000 else none

/-- The small file with the kmod_info over the load commands, where `stroff` is written over. -/
def laterRequest : KextRequest := ⟨0x1000000, smallUpload 0 0x20 0x800 0x900, laterAlloc⟩

lemma laterRequest_parse : kextParse smallChain laterRequest.header laterRequest.upload =
    .ok (smallUpload 0 0x20 0x800 0x900, smallInfo 0 0x20) :=
  kextParse_small smallAccepted_commands

lemma laterRequest_alloc : kextAlloc laterRequest.allocStatic (smallInfo 0 0x20) =
    some { smallInfo 0 0x20 with kext := 0x2004000 } := by
  simp [kextAlloc, allocSize, smallInfo, laterRequest, laterAlloc]

lemma insertedInfo_later : insertedInfo smallChain laterRequest =
    some (mappedInfo { smallInfo 0 0x20 with kext := 0x2004000 } 184 104) := by
  have hsize : ¬ laterRequest.upload.size < 0x4000 := lt_irrefl 0x4000
  have hsp : (smallInfo 0 0x20).symtab - laterRequest.header = 184 := smallInfo_symtab
  have hdp : (smallInfo 0 0x20).dysymtab - laterRequest.header = 104 := smallInfo_dysymtab
  rw [insertedInfo_of_steps hsize laterRequest_parse laterRequest_alloc, hsp, hdp]

lemma laterRequest_sound : laterRequest.Sound smallChain := by
  refine ⟨fun hfault => ?_, fun buf info info' hok halloc => ?_⟩
  · rw [laterRequest_parse] at hfault
    cases hfault
  · obtain ⟨rfl, rfl⟩ := Prod.mk.inj (Except.ok.inj (laterRequest_parse.symm.trans hok))
    obtain rfl := Option.some.inj (laterRequest_alloc.symm.trans halloc)
    refine ⟨?_, Or.inr sound_smallChain⟩
    show WritesApart (smallUpload 0 0x20 0x800 0x900).byte
      { smallInfo 0 0x20 with kext := 0x2004000 } 104 (boundWords 104)
    decide +kernel

lemma separate_small {buf : Buffer} {alloc : ℕ → Option ℕ} {start stop : ℕ}
    (hsize : buf.size ≤ 0x4000)
    (hgrants : ∀ n a, alloc n = some a → 0x2000000 ≤ a ∧ a + n ≤ 0x3000000)
    (hstart : Apart 0x1000000 0x4000 start (stop - start))
    (halloc : Apart 0x2000000 0x1000000 start (stop - start)) :
    KextRequest.Separate ⟨0x1000000, buf, alloc⟩ 0x3000000 start stop := by
  refine ⟨?_, ?_, ?_, Or.inl ?_, fun n a ha => ?_⟩
  · exact hsize.trans_lt (by norm_num)
  · show 0x1000000 + buf.size < 2 ^ 64
    omega
  · exact hstart.mono hsize
  · show 0x1000000 + buf.size ≤ 0x3000000
    omega
  · obtain ⟨hlo, hhi⟩ := hgrants n a ha
    refine ⟨by omega, Or.inr ?_, ?_, Or.inl hhi⟩
    · show 0x1000000 + buf.size ≤ a
      omega
    · rcases halloc with hd | hd
      · exact Or.inl (by omega)
      · exact Or.inr (by omega)

lemma smallAlloc_grants (n a : ℕ) (h : smallAlloc n = some a) : 0x2000000 ≤ a ∧ a + n ≤ 0x3000000 := by
  unfold smallAlloc at h
  split_ifs at h with hn
  obtain rfl := Option.some.inj h
  omega

lemma laterAlloc_grants (n a : ℕ) (h : laterAlloc n = some a) : 0x2000000 ≤ a ∧ a + n ≤ 0x3000000 := by
  unfold laterAlloc at h
  split_ifs at h with hn
  obtain rfl := Option.some.inj h
  omega

/-- A request with an upload that is too small. -/
def shortRequest : KextRequest := ⟨0x1000000, ⟨16, fun _ => 0⟩, smallAlloc⟩

lemma shortRequest_sound : shortRequest.Sound smallChain := by
  have hparse : kextParse smallChain shortRequest.header shortRequest.upload =
    .error .notMachO64 := by rfl
  refine ⟨fun hfault => ?_, fun buf info info' hok halloc => ?_⟩
  · rw [hparse] at hfault
    cases hfault
  · rw [hparse] at hok
    cases hok

/-- The section is at 0x4000000 and holds an array.  Between two uploads that are accepted there is one
that is too small. -/
theorem runKextload_wellFormed_small :
    KeepsPrelinkInfo ⟨0x800000000, 0⟩ smallChain 0x3000000 0x4000000 0x4001000 (ascii "<array>")
      ⟨sectionMemory 0x4000000 0xffffffe80b004000 0x20 (ascii "<array>"), 0⟩
      [smallRequest 0 0x1000 0x800 0x900, shortRequest, laterRequest] := by
  have haccepted := smallAccepted_zero
  have hlenText : (ascii "<array>").length = 7 := by decide +kernel
  have hlenStr := length_prelinkInfoStr
  have hlenEnd := length_prelinkInfoEnd
  have hshort : insertedInfo smallChain shortRequest = none := if_pos (by decide)
  have hcount : ([smallRequest 0 0x1000 0x800 0x900, shortRequest, laterRequest].filterMap
      (insertedInfo smallChain)).length = 2 := by
    rw [List.filterMap_cons_some (insertedInfo_small haccepted), List.filterMap_cons_none hshort,
      List.filterMap_cons_some insertedInfo_later]
    rfl
  have hinit : PrelinkInitial ⟨0x800000000, 0⟩ 0x3000000 0x4000000 0x4001000 2 (ascii "<array>")
      ⟨sectionMemory 0x4000000 0xffffffe80b004000 0x20 (ascii "<array>"), 0⟩ :=
    prelinkInitial_sectionMemory (by decide +kernel) (by omega) (by omega) (by decide) (by omega)
      (by omega)
  refine runKextload_wellFormed hcount (by omega) hinit (fun r hr => ?_) fun r hr => ?_
  · simp only [List.mem_cons, List.not_mem_nil, or_false] at hr
    rcases hr with rfl | rfl | rfl
    · exact separate_small le_rfl smallAlloc_grants (by decide) (by decide)
    · exact separate_small (by decide) smallAlloc_grants (by decide) (by decide)
    · exact separate_small le_rfl laterAlloc_grants (by decide) (by decide)
  · simp only [List.mem_cons, List.not_mem_nil, or_false] at hr
    rcases hr with rfl | rfl | rfl
    · exact smallRequest_sound haccepted (by decide +kernel)
    · exact shortRequest_sound
    · exact laterRequest_sound

/-- With `vm_base` 0x1000 the external relocation is applied 0x800 bytes in front of the image.  When
the closing tags are there, they are overwritten, and the kernel extension is not announced. -/
theorem not_keepsPrelinkInfo_smallBase :
    ([smallRequest 0x1000 0x2000 0x800 0x900].filterMap (insertedInfo smallChain)).length = 1 ∧
      PrelinkInitial ⟨0x800000000, 0⟩ 0x3000000 0x1fff800 0x2000000 1 []
        ⟨sectionMemory 0x1fff800 0xffffffe809003800 0x10 [], 0⟩ ∧
      (∀ r ∈ [smallRequest 0x1000 0x2000 0x800 0x900], r.Separate 0x3000000 0x1fff800 0x2000000) ∧
      ¬ KeepsPrelinkInfo ⟨0x800000000, 0⟩ smallChain 0x3000000 0x1fff800 0x2000000 []
        ⟨sectionMemory 0x1fff800 0xffffffe809003800 0x10 [], 0⟩
        [smallRequest 0x1000 0x2000 0x800 0x900] := by
  have haccepted := smallAccepted_below
  have hlenStr := length_prelinkInfoStr
  have hlenEnd := length_prelinkInfoEnd
  refine ⟨?_, ?_, ?_, ?_⟩
  · rw [List.filterMap_cons_some (insertedInfo_small haccepted), List.filterMap_nil,
      List.length_singleton]
  · exact prelinkInitial_sectionMemory (by decide +kernel) (by rw [hlenEnd]; decide) (by omega)
      (by decide) (by omega) (by rw [hlenEnd, hlenStr]; decide)
  · intro r hr
    rw [List.mem_singleton.1 hr]
    exact separate_small le_rfl smallAlloc_grants (by decide) (by decide)
  · rintro ⟨⟨s', infos, ds, hrun, -, hwell⟩, -⟩
    have hpatched := kextParse_patched (kextParse_small haccepted)
    have hsteps : ((kextMap ⟨0x800000000, 0⟩ { smallInfo 0x1000 0x2000 with kext := 0x2000000 }
        (withUpload (sectionMemory 0x1fff800 0xffffffe809003800 0x10 []) 0x1000000
          (smallUpload 0x1000 0x2000 0x800 0x900))).bind fun s =>
        (kextRelocate ⟨0x800000000, 0⟩ s.2 s.1).bind fun t =>
          (kextLink ⟨0x800000000, 0⟩ smallChain s.2 t.1).map fun u =>
            (trimZeros u.1 (sectStop ⟨0x800000000, 0⟩ u.1 0x3000000),
              findTail u.1 (sectBegin ⟨0x800000000, 0⟩ u.1 0x3000000) 0x1fff80f,
              sectSize u.1 0x3000000)) = some (some 0x1fff80f, none, 0x10) := by
      decide +kernel
    obtain ⟨⟨m₁, info⟩, hmap, hsteps⟩ := Option.bind_eq_some_iff.1 hsteps
    obtain ⟨⟨m₂, relocated⟩, hrelocate, hsteps⟩ := Option.bind_eq_some_iff.1 hsteps
    obtain ⟨⟨m₃, linked⟩, hlink, hscan⟩ := Option.map_eq_some_iff.1 hsteps
    obtain ⟨htrim, hfind, hsize⟩ : trimZeros m₃ _ = some 0x1fff80f ∧ findTail m₃ _ _ = none ∧
        sectSize m₃ 0x3000000 = 0x10 := by
      simpa only [Prod.mk.injEq] using hscan
    rw [hpatched] at hmap
    have hinsert : kextInsert ⟨0x800000000, 0⟩ info 0x3000000 ⟨m₃, 0⟩ = some ⟨m₃, 0⟩ :=
      kextInsert_of_missing htrim hfind
    have hcommand : commandKextload ⟨0x800000000, 0⟩ smallChain 0x3000000
        (smallRequest 0x1000 0x2000 0x800 0x900)
        ⟨sectionMemory 0x1fff800 0xffffffe809003800 0x10 [], 0⟩ =
          (kextInsert ⟨0x800000000, 0⟩ info 0x3000000 ⟨m₃, 0⟩).map fun s' => (s', some info) :=
      commandKextload_of_steps smallRequest_size (smallRequest_parse haccepted) smallRequest_alloc
        hmap hrelocate hlink
    rw [hinsert, Option.map_some] at hcommand
    rw [runKextload, hcommand, Option.bind_eq_bind, Option.bind_some] at hrun
    obtain ⟨rfl, rfl⟩ : ⟨m₃, 0⟩ = s' ∧ [info] = infos := Prod.mk.inj (Option.some.inj hrun)
    -- the size has not grown
    have hstart : sectSize (sectionMemory 0x1fff800 0xffffffe809003800 0x10 []) 0x3000000 = 0x10 := by
      decide +kernel
    have hgrown : sectSize m₃ 0x3000000 = _ := hwell.size
    rw [hsize, hstart, List.length_singleton, hlenStr] at hgrown
    omega

end VulnerableKext.Kext

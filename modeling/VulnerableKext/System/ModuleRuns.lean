import VulnerableKext.Kext.LoadedImage
import VulnerableKext.Lib.Runs
import VulnerableKext.System.PongoModule

/-!
# Runs of the module

Symbol tables and kernel extensions may be uploaded in any order.  The module does what it is for
as long as the uploads avoid the defects of the two commands and the allocator gives out
memory that nothing else uses: a rejected upload changes nothing outside of the USB buffer, every
kernel extension is linked against the tables that were there when it came, and its image stays
as it is, whatever is loaded later.
-/

namespace VulnerableKext.System

open Memory Bytes Checked Format Device Kext Runs
open Host (ascii)

/-! ## What a run relies on -/

/-- The request is given the `n` bytes at `a`. -/
def ModuleRequest.Grants (r : ModuleRequest) (n a : ℕ) : Prop :=
  ∃ allocStatic, r.command = .kextload allocStatic ∧ allocStatic n = some a

/-- The USB buffer has `room` bytes, which are apart from the section, from its header and from what is
read of the load commands of the kernel, and these do not change with the section. -/
structure Pongo.Separate (os : Pongo) (room start stop : ℕ) (m : Mem) : Prop where
  fits : os.loaderXferRecvData + room < 2 ^ 64
  text : Apart os.loaderXferRecvData room start (stop - start)
  header : Apart os.loaderXferRecvData room os.prelinkInfoSection sizeofSection
  uuid : ∀ p ∈ uuidReads (os.kernel m),
    Apart os.loaderXferRecvData room (os.layout.mhExecuteHeader + p.1) p.2 ∧
      Apart start (stop - start) (os.layout.mhExecuteHeader + p.1) p.2 ∧
      Apart (os.prelinkInfoSection + 40) 8 (os.layout.mhExecuteHeader + p.1) p.2

/-- The `n` bytes at `a` are not used by the module. -/
structure Pongo.Free (os : Pongo) (room start stop : ℕ) (m : Mem) (a n : ℕ) : Prop where
  fits : a + n < 2 ^ 64
  buffer : Apart a n os.loaderXferRecvData room
  text : Apart a n start (stop - start)
  header : Apart a n os.prelinkInfoSection sizeofSection
  uuid : ∀ p ∈ uuidReads (os.kernel m), Apart a n (os.layout.mhExecuteHeader + p.1) p.2

/-- What the code does not check: a symbol table has neither of the two defects of the decoder, the
allocator gives memory that is free, and what is written for an accepted kernel extension does not
meet the fields that are read behind it. -/
structure ModuleRequest.Admissible (os : Pongo) (room start stop : ℕ) (m : Mem) (r : ModuleRequest) :
    Prop where
  fits : r.upload.data.length ≤ room
  symbols : ∀ malloc, r.command = .kernelcacheSymbols malloc →
    Request.Clean (SymbolState.initial.uuidFor (os.kernel m)) ⟨r.upload, malloc⟩
  grants : ∀ n a, r.Grants n a → os.Free room start stop m a n
  kept : ∀ allocStatic chain buf info info', r.command = .kextload allocStatic →
    kextParse chain os.loaderXferRecvData r.file = .ok (buf, info) →
    kextAlloc allocStatic info = some info' →
    MetadataKept buf.byte info' (info.symtab - os.loaderXferRecvData)
      (info.dysymtab - os.loaderXferRecvData)

/-- The memory that two requests are given is different. -/
def ModuleRequest.GrantsApart (r r' : ModuleRequest) : Prop :=
  ∀ n a n' a', r.Grants n a → r'.Grants n' a' → Apart a n a' n'

lemma Pongo.Free.mono {os : Pongo} {room start stop a n n' : ℕ} {m : Mem}
    (h : os.Free room start stop m a n) (hn : n' ≤ n) : os.Free room start stop m a n' := by
  have hfits := h.fits
  exact ⟨by omega, h.buffer.mono hn, h.text.mono hn, h.header.mono hn,
    fun p hp => (h.uuid p hp).mono hn⟩

/-! ## The kernel extensions that are loaded -/

section Load

variable {chain : List KernelcacheSymbolTable} {header : ℕ} {file : Buffer}
  {allocStatic : ℕ → Option ℕ} {l : LoadedKext}

lemma loadKext_eq_some (h : loadKext chain header file allocStatic = some l) :
    ¬ file.size < 0x4000 ∧ l.chain = chain ∧ ∃ info,
      kextParse chain header file = .ok (l.file, info) ∧ kextAlloc allocStatic info = some l.info := by
  rw [loadKext] at h
  split_ifs at h with hsmall
  obtain ⟨⟨buf, info⟩, hparse, h⟩ := Option.bind_eq_some_iff.1 h
  obtain ⟨info', halloc, rfl⟩ := Option.map_eq_some_iff.1 h
  refine ⟨hsmall, rfl, info, ?_, halloc⟩
  cases hcase : kextParse chain header file with
  | error e =>
    rw [hcase] at hparse
    cases hparse
  | ok t =>
    rw [hcase] at hparse
    exact congrArg _ (Option.some.inj hparse)

lemma loadKext_of_steps (hsmall : ¬ file.size < 0x4000) {buf : Buffer} {info info' : KextLoadInfo}
    (hparse : kextParse chain header file = .ok (buf, info))
    (halloc : kextAlloc allocStatic info = some info') :
    loadKext chain header file allocStatic = some ⟨chain, buf, info'⟩ := by
  have hparsed : (kextParse chain header file).toOption = some (buf, info) := by
    rw [hparse]
    rfl
  rw [loadKext, if_neg hsmall, hparsed, Option.bind_some, halloc, Option.map_some]

/-- It is announced with its address. -/
lemma insertedInfo_eq_none (h : loadKext chain header file allocStatic = none) :
    insertedInfo chain ⟨header, file, allocStatic⟩ = none := by
  by_cases hsmall : file.size < 0x4000
  · rw [insertedInfo, if_pos hsmall]
  · rcases hparse : kextParse chain header file with e | ⟨buf, info⟩
    · rw [insertedInfo, if_neg hsmall, hparse]
      rfl
    · rcases halloc : kextAlloc allocStatic info with _ | info'
      · have hparsed : (kextParse chain header file).toOption = some (buf, info) := by
          rw [hparse]
          rfl
        rw [insertedInfo, if_neg hsmall, hparsed, Option.bind_some, halloc, Option.map_none]
      · rw [loadKext_of_steps hsmall hparse halloc] at h
        cases h

end Load

/-! ## The memory between two requests -/

/-- The bytes that the module has written: the USB buffer, the section, its size, and the images. -/
def Touched (os : Pongo) (room start stop : ℕ) (kexts : List LoadedKext) (b : ℕ) : Prop :=
  (os.loaderXferRecvData ≤ b ∧ b < os.loaderXferRecvData + room) ∨ (start ≤ b ∧ b < stop) ∨
    (os.prelinkInfoSection + 40 ≤ b ∧ b < os.prelinkInfoSection + 48) ∨
    ∃ l ∈ kexts, l.info.kext ≤ b ∧ b < l.info.kext + l.info.vmSize

/-- The memory holds the linked images, as they came out of the memory `m₀` at the start, and one
dictionary for each of them. -/
structure MemoryInv (os : Pongo) (room start stop size : ℕ) (c : List UInt8) (m₀ : Mem)
    (kexts : List LoadedKext) (m : Mem) (kextId : UInt32) : Prop where
  images : ∀ l ∈ kexts, ∀ o < l.info.vmSize, m (l.info.kext + o) = l.image os.layout m₀ o
  prelink : PrelinkInv os.layout os.prelinkInfoSection start stop size c
    (kexts.map LoadedKext.announced) ⟨m, kextId⟩
  others : ∀ b, ¬ Touched os room start stop kexts b → m b = m₀ b

section MemoryInv

variable {os : Pongo} {room start stop size : ℕ} {c : List UInt8} {m m₀ : Mem}
  {kexts : List LoadedKext} {kextId : UInt32} {buf : Buffer} {l : LoadedKext}

/-- Receiving an upload. -/
lemma MemoryInv.withUpload (h : MemoryInv os room start stop size c m₀ kexts m kextId)
    (hsep : os.Separate room start stop m₀)
    (hfree : ∀ l ∈ kexts, os.Free room start stop m₀ l.info.kext l.info.vmSize)
    (hbuf : buf.size ≤ room) :
    MemoryInv os room start stop size c m₀ kexts (withUpload m os.loaderXferRecvData buf) kextId := by
  refine ⟨fun l hl o ho => ?_, h.prelink.congr (SectionKept.splice (hsep.text.mono hbuf)
    (hsep.header.mono hbuf)), fun b hb => ?_⟩
  · exact (agree_splice_of_apart ((hfree l hl).buffer.symm.mono hbuf) o ho).trans
      (h.images l hl o ho)
  · refine Eq.trans (splice_apply_of_out ?_) (h.others b hb)
    by_contra hin
    exact hb (Or.inl (by omega))

/-- The memory at an address that is free, and in no image, has not changed since the start. -/
lemma MemoryInv.eq_of_free (h : MemoryInv os room start stop size c m₀ kexts m kextId) {a n : ℕ}
    (hfree : os.Free room start stop m₀ a n)
    (hkexts : ∀ l ∈ kexts, Apart l.info.kext l.info.vmSize a n) {o : ℕ} (ho : o < n) :
    m (a + o) = m₀ (a + o) := by
  have hbuffer := hfree.buffer
  have htext := hfree.text
  have hheader := hfree.header
  simp only [Apart, sizeofSection] at hbuffer htext hheader
  refine h.others _ ?_
  rintro (hb | hb | hb | ⟨l, hl, hb⟩)
  · omega
  · omega
  · omega
  · have hd := hkexts l hl
    simp only [Apart] at hd
    omega

/-- The UUID of the kernel is what it was at the start. -/
lemma MemoryInv.findUuid_eq (h : MemoryInv os room start stop size c m₀ kexts m kextId)
    (hsep : os.Separate room start stop m₀)
    (hfree : ∀ l ∈ kexts, os.Free room start stop m₀ l.info.kext l.info.vmSize) (u : KernelcacheUuid) :
    kernelcacheFindUuid (os.kernel m) u = kernelcacheFindUuid (os.kernel m₀) u := by
  refine kernelcacheFindUuid_congr (fun p hp j hj => ?_) u
  obtain ⟨hbuffer, htext, hsize⟩ := hsep.uuid p hp
  simp only [Apart] at hbuffer htext hsize
  rw [Pongo.kernel, Pongo.kernel, ← Nat.add_assoc]
  refine h.others _ ?_
  rintro (hb | hb | hb | ⟨l, hl, hb⟩)
  · omega
  · omega
  · omega
  · have hd := (hfree l hl).uuid p hp
    simp only [Apart] at hd
    omega

/-- The tables of a kernel extension that is loaded have been validated. -/
lemma LoadedKext.accepted {chain : List KernelcacheSymbolTable} {header : ℕ} {file : Buffer}
    {allocStatic : ℕ → Option ℕ} (h : loadKext chain header file allocStatic = some l) :
    Accepted l.chain header l.file l.info l.sp l.dp ∧ l.info.vmSize < 2 ^ 32 := by
  obtain ⟨-, rfl, info, hparse, halloc⟩ := loadKext_eq_some h
  obtain ⟨sp, dp, haccepted⟩ := kextParse_accepted hparse
  obtain ⟨kext, size, hinfo, -, -, hvm⟩ := kextAlloc_eq_some halloc
  have haccepted' : Accepted l.chain header l.file l.info sp dp := by
    rw [hinfo]
    exact haccepted.alloc kext
  have hsp : l.sp = sp := by rw [LoadedKext.sp, haccepted'.header_eq, haccepted'.symtab_sub]
  have hdp : l.dp = dp := by rw [LoadedKext.dp, haccepted'.header_eq, haccepted'.dysymtab_sub]
  rw [hsp, hdp]
  refine ⟨haccepted', ?_⟩
  rw [hinfo]
  exact hvm

/-- Everything that the file does not say about an image comes from the place of the image. -/
lemma sameImage_image {k : KernelLayout} {chain : List KernelcacheSymbolTable} {header : ℕ}
    {file : Buffer} {allocStatic : ℕ → Option ℕ} {z z' : Mem}
    (h : loadKext chain header file allocStatic = some l)
    (hz : ∀ o < l.info.vmSize, z (l.info.kext + o) = z' (l.info.kext + o)) :
    SameImage l.info.vmSize (l.image k z) (l.image k z') := by
  obtain ⟨haccepted, hvm⟩ := LoadedKext.accepted h
  exact haccepted.sameImage_imageLinked hvm (SameImage.kextImage hz)

/-- A kernel extension is put into memory that is free, and announced. -/
lemma MemoryInv.load (h : MemoryInv os room start stop size c m₀ kexts m kextId)
    (himage : SameImage l.info.vmSize (l.image os.layout m) (l.image os.layout m₀))
    (hfree : os.Free room start stop m₀ l.info.kext l.info.vmSize)
    (hfrees : ∀ l' ∈ kexts, os.Free room start stop m₀ l'.info.kext l'.info.vmSize)
    (hkexts : ∀ l' ∈ kexts, Apart l'.info.kext l'.info.vmSize l.info.kext l.info.vmSize)
    (hd : Apart start (stop - start) os.prelinkInfoSection sizeofSection) (hstop : stop < 2 ^ 64)
    (hsize : start + (size + (kexts.length + 1) * prelinkInfoStr.length) ≤ stop)
    (hroom : start + (c.length + (kexts.length + 1) * prelinkInfoStr.length +
      prelinkInfoEnd.length) < stop)
    (hcount : kexts.length + 1 ≤ 65536) :
    ∃ s', kextInsert os.layout l.announced os.prelinkInfoSection
        ⟨splice m l.info.kext l.info.vmSize (l.image os.layout m), kextId⟩ = some s' ∧
      MemoryInv os room start stop size c m₀ (kexts ++ [l]) s'.mem s'.kextId := by
  have hlength : (kexts.map LoadedKext.announced).length = kexts.length := List.length_map ..
  have hvm : l.announced.vmSize < 2 ^ 64 := lt_of_le_of_lt (Nat.le_add_left _ _) hfree.fits
  obtain ⟨s', hs', hprelink, hframe⟩ := PrelinkInv.kextInsert
    (h.prelink.congr (SectionKept.splice hfree.text hfree.header)) hd hstop
    (by rw [hlength]; exact hsize)
    (by rw [hlength]; exact hroom) (by rw [hlength]; exact hcount) hvm
  -- an image is not in the section
  have hkept (l' : LoadedKext) (hl' : os.Free room start stop m₀ l'.info.kext l'.info.vmSize) (o : ℕ)
      (ho : o < l'.info.vmSize) : s'.mem (l'.info.kext + o) =
        splice m l.info.kext l.info.vmSize (l.image os.layout m) (l'.info.kext + o) := by
    have htext := hl'.text
    have hheader := hl'.header
    simp only [Apart, sizeofSection] at htext hheader
    exact hframe _ (by omega) (by omega)
  refine ⟨s', hs', fun l' hl' o ho => ?_, ?_, fun b hb => ?_⟩
  · rcases List.mem_append.1 hl' with hl' | hl'
    · rw [hkept l' (hfrees l' hl') o ho, ← h.images l' hl' o ho]
      exact agree_splice_of_apart (hkexts l' hl').symm o ho
    · obtain rfl := List.mem_singleton.1 hl'
      rw [hkept _ hfree o ho, splice_apply ho]
      exact himage o ho
  · rw [List.map_append]
    exact hprelink
  · have hold : ¬ Touched os room start stop kexts b := by
      rintro (hb' | hb' | hb' | ⟨l', hl', hb'⟩)
      · exact hb (Or.inl hb')
      · exact hb (Or.inr (Or.inl hb'))
      · exact hb (Or.inr (Or.inr (Or.inl hb')))
      · exact hb (Or.inr (Or.inr (Or.inr ⟨l', List.mem_append_left _ hl', hb'⟩)))
    simp only [Touched, not_or, List.mem_append, List.mem_singleton, not_exists, not_and] at hb
    obtain ⟨-, htext, hheader, hl⟩ := hb
    have hout := hl l (Or.inr rfl)
    refine (hframe b (by omega) (by omega)).trans ((splice_apply_of_out (by omega)).trans ?_)
    exact h.others b hold

end MemoryInv

/-! ## One request -/

/-- What holds between two requests: the module has the tables and the images that it is meant to
have, and every image lies in memory that one of the requests was given. -/
structure Simulates (os : Pongo) (room start stop size : ℕ) (c : List UInt8) (m₀ : Mem)
    (rs : List ModuleRequest) (a : AbstractModule) (s : ModuleState) : Prop where
  consumed : s.loaderXferRecvCount = 0
  tables : s.kernelcacheSymbolTable = a.tables
  sound : ∀ t ∈ a.tables, t.Sound
  uuid : kernelcacheFindUuid (os.kernel m₀) s.kernelcacheUuid =
    kernelcacheFindUuid (os.kernel m₀) .initial
  memory : MemoryInv os room start stop size c m₀ a.kexts s.mem s.kextId
  granted : ∀ l ∈ a.kexts, ∃ r ∈ rs, ∃ n, r.Grants n l.info.kext ∧ l.info.vmSize ≤ n
  apart : a.kexts.Pairwise fun l l' => Apart l.info.kext l.info.vmSize l'.info.kext l'.info.vmSize

section Step

variable {os : Pongo} {room start stop size n : ℕ} {c : List UInt8} {m₀ : Mem}
  {rs : List ModuleRequest} {a : AbstractModule} {s : ModuleState} {r : ModuleRequest}

lemma received_receive (s : ModuleState) (u : Upload) : (s.receive os u).received os = u.data := by
  refine List.ext_getElem (by simp [ModuleState.received, ModuleState.receive]) fun i hi hi' => ?_
  simp only [ModuleState.received, List.getElem_map, List.getElem_range]
  refine (splice_apply hi').trans ?_
  exact List.getD_eq_getElem _ _ hi'

/-- The command finds what has been received. -/
lemma symbols_receive (s : ModuleState) (u : Upload) :
    (s.receive os u).symbols os = (s.symbols os).receive u := by
  rw [ModuleState.symbols, received_receive]
  rfl

/-- The memory of the images is free, because it was given to the requests so far. -/
lemma Simulates.free (h : Simulates os room start stop size c m₀ rs a s)
    (hrs : ∀ r ∈ rs, r.Admissible os room start stop m₀) :
    ∀ l ∈ a.kexts, os.Free room start stop m₀ l.info.kext l.info.vmSize := by
  intro l hl
  obtain ⟨r, hr, n, hgrants, hle⟩ := h.granted l hl
  exact ((hrs r hr).grants n _ hgrants).mono hle

lemma Simulates.granted_append (h : Simulates os room start stop size c m₀ rs a s)
    (r : ModuleRequest) :
    ∀ l ∈ a.kexts, ∃ r' ∈ rs ++ [r], ∃ k, r'.Grants k l.info.kext ∧ l.info.vmSize ≤ k := by
  intro l hl
  obtain ⟨r', hr', hgrants⟩ := h.granted l hl
  exact ⟨r', List.mem_append_left _ hr', hgrants⟩

/-- The memory that is given to the next request is in none of the images. -/
lemma Simulates.apart_grant (h : Simulates os room start stop size c m₀ rs a s)
    (happart : ∀ r' ∈ rs, r'.GrantsApart r) {k b : ℕ} (hgrants : r.Grants k b) :
    ∀ l ∈ a.kexts, Apart l.info.kext l.info.vmSize b k := by
  intro l hl
  obtain ⟨r', hr', k', hgrants', hle⟩ := h.granted l hl
  exact (happart r' hr' _ _ _ _ hgrants' hgrants).mono hle

/-- Symbols are installed or rejected. -/
lemma Simulates.symbols (h : Simulates os room start stop size c m₀ rs a s)
    (hsep : os.Separate room start stop m₀) (hrs : ∀ r ∈ rs, r.Admissible os room start stop m₀)
    (hr : r.Admissible os room start stop m₀) {malloc : ℕ → Bool}
    (hcommand : r.command = .kernelcacheSymbols malloc) :
    ∃ s', moduleStep os s r = some s' ∧ Simulates os room start stop size c m₀ (rs ++ [r])
      (a.step (SymbolState.initial.uuidFor (os.kernel m₀)) os.loaderXferRecvData r) s' := by
  have hfree := h.free hrs
  have hmemory := h.memory.withUpload hsep hfree
    (show (Buffer.ofBytes r.upload.data).size ≤ room from hr.fits)
  have hfind := hmemory.findUuid_eq hsep hfree
  have huuid : (s.symbols os).uuidFor (os.kernel (s.receive os r.upload).mem) =
      SymbolState.initial.uuidFor (os.kernel m₀) :=
    congrArg KernelcacheUuid.uuid ((hfind _).trans h.uuid)
  have hclean := hr.symbols malloc hcommand
  rw [← huuid] at hclean
  obtain ⟨t, horderly, hsound⟩ := orderly_step hclean
    (show ∀ t ∈ s.kernelcacheSymbolTable, t.Sound by rw [h.tables]; exact h.sound)
  obtain ⟨hchain, hfound, hcount⟩ := step_chain horderly.step_eq
  have hchain' : t.kernelcacheSymbolTable = (decodeSymbolTable r.upload.data
      (SymbolState.initial.uuidFor (os.kernel m₀)) malloc).toOption.toList ++ a.tables := by
    rw [hchain, huuid]
    exact congrArg _ h.tables
  have hstep := horderly.step_eq
  rw [step, ← symbols_receive] at hstep
  refine ⟨{ s.receive os r.upload with
      loaderXferRecvCount := t.loaderXferRecvCount
      kernelcacheSymbolTable := t.kernelcacheSymbolTable
      kernelcacheUuid := t.kernelcacheUuid }, ?_, ?_⟩
  · rw [moduleStep, hcommand, ModuleState.command, hstep, Option.map_some]
  rw [AbstractModule.step_kernelcacheSymbols hcommand]
  refine ⟨hcount, hchain', fun t' ht' => ?_, ?_, hmemory, h.granted_append r, h.apart⟩
  · refine hsound t' ?_
    rw [hchain']
    exact ht'
  · show kernelcacheFindUuid (os.kernel m₀) t.kernelcacheUuid = _
    rw [hfound]
    refine (congrArg _ ((hfind _).trans h.uuid)).trans ?_
    exact kernelcacheFindUuid_idem _ _

/-- The room in front of a loaded kernel extension. -/
lemma ModuleRequest.Admissible.separate (hr : r.Admissible os room start stop m₀)
    (hsep : os.Separate room start stop m₀) {allocStatic : ℕ → Option ℕ}
    (hcommand : r.command = .kextload allocStatic) :
    KextRequest.Separate ⟨os.loaderXferRecvData, r.file, allocStatic⟩ os.prelinkInfoSection start
      stop := by
  have hfits : r.file.size ≤ room := hr.fits
  have hroom := hsep.fits
  refine ⟨r.upload.length_lt, ?_, hsep.text.mono hfits, hsep.header.mono hfits,
    fun k b hgrant => ?_⟩
  · show os.loaderXferRecvData + r.file.size < 2 ^ 64
    omega
  · have hfree := hr.grants k b ⟨allocStatic, hcommand, hgrant⟩
    exact ⟨hfree.fits, (hfree.buffer.symm.mono hfits).symm, hfree.text, hfree.header⟩

/-- The announced addresses are those of the image. -/
lemma kextload_of_loadKext {chain : List KernelcacheSymbolTable} {allocStatic : ℕ → Option ℕ}
    {header sect : ℕ} {file : Buffer} {k : KernelLayout} {l : LoadedKext} {t : LoaderState}
    (hsep : KextRequest.Separate ⟨header, file, allocStatic⟩ sect start stop)
    (hkept : ∀ buf info info', kextParse chain header file = .ok (buf, info) →
      kextAlloc allocStatic info = some info' →
      MetadataKept buf.byte info' (info.symtab - header) (info.dysymtab - header))
    (h : loadKext chain header file allocStatic = some l) :
    commandKextload k chain sect ⟨header, file, allocStatic⟩ t =
      (kextInsert k l.announced sect ⟨splice (withUpload t.mem header l.file) l.info.kext
        l.info.vmSize (l.image k (withUpload t.mem header l.file)), t.kextId⟩).map
          fun t' => (t', some l.announced) := by
  obtain ⟨haccepted, -⟩ := LoadedKext.accepted h
  obtain ⟨hsmall, rfl, info, hparse, halloc⟩ := loadKext_eq_some h
  have hheader : l.info.header = header := haccepted.header_eq
  refine (commandKextload_image hsep hsmall hparse halloc (hkept _ _ _ hparse halloc)).trans ?_
  rw [loadedMemory, LoadedKext.announced, LoadedKext.image, LoadedKext.sp, LoadedKext.dp, hheader,
    kextParse_patched hparse]

lemma moduleStep_kextload {allocStatic : ℕ → Option ℕ} (hcommand : r.command = .kextload allocStatic) :
    moduleStep os s r = (commandKextload os.layout s.kernelcacheSymbolTable os.prelinkInfoSection
      ⟨os.loaderXferRecvData, r.file, allocStatic⟩ ⟨(s.receive os r.upload).mem, s.kextId⟩).map
        fun t => { s.receive os r.upload with
          mem := t.1.mem, loaderXferRecvCount := 0, kextId := t.1.kextId } := by
  rw [moduleStep, hcommand, ModuleState.command, received_receive]
  rfl

/-- A kernel extension is loaded or rejected. -/
lemma Simulates.kextload (h : Simulates os room start stop size c m₀ rs a s)
    (hsep : os.Separate room start stop m₀) (hrs : ∀ r ∈ rs, r.Admissible os room start stop m₀)
    (hr : r.Admissible os room start stop m₀) (happart : ∀ r' ∈ rs, r'.GrantsApart r)
    {allocStatic : ℕ → Option ℕ} (hcommand : r.command = .kextload allocStatic)
    (hd : Apart start (stop - start) os.prelinkInfoSection sizeofSection) (hstop : stop < 2 ^ 64)
    (hsize : start + (size + n * prelinkInfoStr.length) ≤ stop)
    (hroom : start + (c.length + n * prelinkInfoStr.length + prelinkInfoEnd.length) < stop)
    (hcount : n ≤ 65536)
    (hn : (a.step (SymbolState.initial.uuidFor (os.kernel m₀)) os.loaderXferRecvData r).kexts.length ≤
      n) :
    ∃ s', moduleStep os s r = some s' ∧ Simulates os room start stop size c m₀ (rs ++ [r])
      (a.step (SymbolState.initial.uuidFor (os.kernel m₀)) os.loaderXferRecvData r) s' := by
  have hfree := h.free hrs
  have hseparate := hr.separate hsep hcommand
  have hreceived := h.memory.withUpload hsep hfree
    (show (Buffer.ofBytes r.upload.data).size ≤ room from hr.fits)
  have htable := kextParse_ne_tableFault h.sound os.loaderXferRecvData r.file
  rw [AbstractModule.step_kextload hcommand] at hn ⊢
  rw [moduleStep_kextload hcommand, h.tables]
  rcases hload : loadKext a.tables os.loaderXferRecvData r.file allocStatic with _ | l
  · -- the upload is rejected
    obtain ⟨buf, hbuf, hcmd⟩ : ∃ buf : Buffer, buf.size = r.file.size ∧
        commandKextload os.layout a.tables os.prelinkInfoSection
          ⟨os.loaderXferRecvData, r.file, allocStatic⟩ ⟨(s.receive os r.upload).mem, s.kextId⟩ =
            some (⟨withUpload (s.receive os r.upload).mem os.loaderXferRecvData buf, s.kextId⟩,
              none) :=
      commandKextload_rejected_image htable (insertedInfo_eq_none hload)
    rw [hcmd, Option.map_some, Option.toList_none, List.append_nil]
    have hle : buf.size ≤ room := by
      rw [hbuf]
      exact hr.fits
    exact ⟨_, rfl, rfl, h.tables, h.sound, h.uuid, hreceived.withUpload hsep hfree hle,
      h.granted_append r, h.apart⟩
  · -- it is loaded
    rw [hload, Option.toList_some, List.length_append, List.length_singleton] at hn
    obtain ⟨-, -, info, hparse, halloc⟩ := loadKext_eq_some hload
    have hkept := fun buf info info' => hr.kept allocStatic a.tables buf info info' hcommand
    obtain ⟨kext, k, hinfo, hgrant, hle, -⟩ := kextAlloc_eq_some halloc
    have hgrants : r.Grants k l.info.kext := by
      rw [hinfo]
      exact ⟨allocStatic, hcommand, hgrant⟩
    have hle' : l.info.vmSize ≤ k := by
      rw [hinfo]
      exact hle
    have hfree' := (hr.grants k _ hgrants).mono hle'
    have hkexts : ∀ l' ∈ a.kexts, Apart l'.info.kext l'.info.vmSize l.info.kext l.info.vmSize :=
      fun l' hl' => ((h.apart_grant happart hgrants l' hl').symm.mono hle').symm
    have hsize' : l.file.size ≤ room := by
      rw [kextParse_patched hparse]
      exact hr.fits
    have hmemory := hreceived.withUpload hsep hfree hsize'
    have hmul : (a.kexts.length + 1) * prelinkInfoStr.length ≤ n * prelinkInfoStr.length :=
      Nat.mul_le_mul_right _ hn
    obtain ⟨t, hinsert, hloaded⟩ := hmemory.load
      (sameImage_image hload fun o ho => hmemory.eq_of_free hfree' hkexts ho) hfree' hfree hkexts hd
      hstop
      (by omega) (by omega) (by omega)
    have hcmd : commandKextload os.layout a.tables os.prelinkInfoSection
        ⟨os.loaderXferRecvData, r.file, allocStatic⟩ ⟨(s.receive os r.upload).mem, s.kextId⟩ =
          some (t, some l.announced) :=
      (kextload_of_loadKext hseparate hkept hload).trans (congrArg (Option.map _) hinsert)
    rw [hcmd, Option.map_some]
    refine ⟨_, rfl, rfl, h.tables, h.sound, h.uuid, hloaded, fun l' hl' => ?_,
      List.pairwise_append.2 ⟨h.apart, List.pairwise_singleton _ _, fun l' hl' l'' hl'' => ?_⟩⟩
    · rcases List.mem_append.1 hl' with hl' | hl'
      · exact h.granted_append r l' hl'
      · obtain rfl := List.mem_singleton.1 hl'
        exact ⟨r, by simp, k, hgrants, hle'⟩
    · rw [List.mem_singleton.1 hl'']
      exact hkexts l' hl'

/-- Any admissible request. -/
lemma Simulates.step (h : Simulates os room start stop size c m₀ rs a s)
    (hsep : os.Separate room start stop m₀) (hrs : ∀ r ∈ rs, r.Admissible os room start stop m₀)
    (hr : r.Admissible os room start stop m₀) (happart : ∀ r' ∈ rs, r'.GrantsApart r)
    (hd : Apart start (stop - start) os.prelinkInfoSection sizeofSection) (hstop : stop < 2 ^ 64)
    (hsize : start + (size + n * prelinkInfoStr.length) ≤ stop)
    (hroom : start + (c.length + n * prelinkInfoStr.length + prelinkInfoEnd.length) < stop)
    (hcount : n ≤ 65536)
    (hn : (a.step (SymbolState.initial.uuidFor (os.kernel m₀)) os.loaderXferRecvData r).kexts.length ≤
      n) :
    ∃ s', moduleStep os s r = some s' ∧ Simulates os room start stop size c m₀ (rs ++ [r])
      (a.step (SymbolState.initial.uuidFor (os.kernel m₀)) os.loaderXferRecvData r) s' := by
  cases hcommand : r.command with
  | kernelcacheSymbols malloc => exact h.symbols hsep hrs hr hcommand
  | kextload allocStatic =>
    exact h.kextload hsep hrs hr happart hcommand hd hstop hsize hroom hcount hn

end Step

/-! ## Runs -/

/-- The module is in the state that its requests are for.  The tables answer every lookup, each
kernel extension has its linked image in the memory that was given for it and its dictionary in the
section, and everything else is as it was. -/
structure Represents (os : Pongo) (room start stop : ℕ) (c : List UInt8) (m₀ : Mem)
    (a : AbstractModule) (s : ModuleState) : Prop where
  consumed : s.loaderXferRecvCount = 0
  tables : s.kernelcacheSymbolTable = a.tables
  lookup : ∀ name, 0 ∉ name →
    kernelcacheSymbolTableLookup s.kernelcacheSymbolTable name = some (resolve a.tables name)
  images : ∀ l ∈ a.kexts, ∀ o < l.info.vmSize, s.mem (l.info.kext + o) = l.image os.layout m₀ o
  apart : a.kexts.Pairwise fun l l' => Apart l.info.kext l.info.vmSize l'.info.kext l'.info.vmSize
  announced : ∃ ds, PrelinkWellFormed os.layout os.prelinkInfoSection start stop
    (sectSize m₀ os.prelinkInfoSection) c (a.kexts.map LoadedKext.announced) ds ⟨s.mem, s.kextId⟩
  others : ∀ b, ¬ Touched os room start stop a.kexts b → s.mem b = m₀ b

section Run

variable {os : Pongo} {room start stop n : ℕ} {c : List UInt8} {m₀ : Mem} {rs : List ModuleRequest}

/-- An admissible run. -/
lemma runModule_simulates (hsep : os.Separate room start stop m₀)
    (hrs : ∀ r ∈ rs, r.Admissible os room start stop m₀)
    (hgrants : rs.Pairwise ModuleRequest.GrantsApart)
    (hinit : PrelinkInitial os.layout os.prelinkInfoSection start stop n c ⟨m₀, 0⟩)
    (hn : (AbstractModule.run (SymbolState.initial.uuidFor (os.kernel m₀)) os.loaderXferRecvData
      rs).kexts.length ≤ n) (hcount : n ≤ 65536) :
    ∃ s, runModule os (.initial m₀) rs = some s ∧
      Simulates os room start stop (sectSize m₀ os.prelinkInfoSection) c m₀ rs
        (AbstractModule.run (SymbolState.initial.uuidFor (os.kernel m₀)) os.loaderXferRecvData rs)
        s := by
  refine foldlM_of_invariant (P := fun rs s =>
    Simulates os room start stop (sectSize m₀ os.prelinkInfoSection) c m₀ rs
      (AbstractModule.run (SymbolState.initial.uuidFor (os.kernel m₀)) os.loaderXferRecvData rs) s)
    ?_ fun rs' r s hle' h => ?_
  · exact ⟨rfl, rfl, by simp [AbstractModule.run, AbstractModule.initial], rfl,
      ⟨by simp [AbstractModule.run, AbstractModule.initial], hinit.inv, fun _ _ => rfl⟩,
      by simp [AbstractModule.run, AbstractModule.initial],
      by simp [AbstractModule.run, AbstractModule.initial]⟩
  · have hpairs := (List.pairwise_append.1 (hgrants.sublist hle'.sublist)).2.2
    have hle := AbstractModule.kexts_run_prefix (SymbolState.initial.uuidFor (os.kernel m₀))
      os.loaderXferRecvData hle'
    rw [AbstractModule.run_append_singleton] at hle ⊢
    exact h.step hsep (fun r' hr' => hrs r' (hle'.subset (List.mem_append_left _ hr')))
      (hrs r (hle'.subset (by simp))) (fun r' hr' => hpairs r' hr' r (by simp)) hinit.header
      hinit.stop_lt hinit.sizeRoom hinit.textRoom hcount (hle.trans hn)

/-- No table of an admissible run leads a lookup out of it. -/
lemma sound_run (header : ℕ) (hrs : ∀ r ∈ rs, r.Admissible os room start stop m₀) :
    ∀ t ∈ (AbstractModule.run (SymbolState.initial.uuidFor (os.kernel m₀)) header rs).tables,
      t.Sound := by
  induction rs using List.reverseRecOn with
  | nil => exact fun t ht => by cases ht
  | append_singleton rs r ih =>
    have hprev := ih fun r' hr' => hrs r' (List.mem_append_left _ hr')
    have hr := hrs r (by simp)
    rw [AbstractModule.run_append_singleton]
    cases hcommand : r.command with
    | kernelcacheSymbols malloc =>
      rw [AbstractModule.step_kernelcacheSymbols hcommand]
      intro t ht
      rcases List.mem_append.1 ht with ht | ht
      · rcases hdecode : decodeSymbolTable r.upload.data
          (SymbolState.initial.uuidFor (os.kernel m₀)) malloc with e | t'
        · rw [hdecode] at ht
          cases ht
        · rw [hdecode] at ht
          obtain rfl : t = t' := List.mem_singleton.1 ht
          exact sound_of_describes (describes_of_decode (r := ⟨r.upload, malloc⟩)
            (hr.symbols malloc hcommand).noWrap hdecode)
      · exact hprev t ht
    | kextload allocStatic =>
      rw [AbstractModule.step_kextload hcommand]
      exact hprev

/-- Between two requests the module is in the state that its requests are for. -/
lemma Simulates.represents {a : AbstractModule} {s : ModuleState}
    (h : Simulates os room start stop (sectSize m₀ os.prelinkInfoSection) c m₀ rs a s)
    (hcount : a.kexts.length ≤ 65536) : Represents os room start stop c m₀ a s := by
  refine ⟨h.consumed, h.tables, fun name hname => ?_, h.memory.images, h.apart, ?_, h.memory.others⟩
  · rw [h.tables]
    exact lookup_eq_resolve hname h.sound
  · exact ⟨_, h.memory.prelink.wellFormed (by rw [List.length_map]; exact hcount)⟩

/-- Over every sequence of uploads the module does what it is for, as long as every upload avoids the
defects of the two commands, whatever is given by the allocator is free, and the section has room. -/
theorem runModule_represents (hsep : os.Separate room start stop m₀)
    (hrs : ∀ r ∈ rs, r.Admissible os room start stop m₀)
    (hgrants : rs.Pairwise ModuleRequest.GrantsApart)
    (hinit : PrelinkInitial os.layout os.prelinkInfoSection start stop n c ⟨m₀, 0⟩)
    (hn : (AbstractModule.run (SymbolState.initial.uuidFor (os.kernel m₀)) os.loaderXferRecvData
      rs).kexts.length ≤ n) (hcount : n ≤ 65536) :
    ∃ s, runModule os (.initial m₀) rs = some s ∧
      Represents os room start stop c m₀
        (AbstractModule.run (SymbolState.initial.uuidFor (os.kernel m₀)) os.loaderXferRecvData rs)
        s := by
  obtain ⟨s, hs, h⟩ := runModule_simulates hsep hrs hgrants hinit hn hcount
  exact ⟨s, hs, h.represents (hn.trans hcount)⟩

end Run

/-! ## A small run -/

/-- The module of the small run. -/
def smallOs : Pongo := ⟨⟨0x800000000, 0⟩, 0x1000000, 0x3000000⟩

/-- The section is at 0x4000000 and holds an array. -/
def smallMemory : Mem := sectionMemory 0x4000000 0xffffffe80b004000 0x20 (ascii "<array>")

/-- The address of `_f`, for the UUID zero. -/
def smallSymbols : Upload where
  data := leBytes 4 1 ++ (leBytes 4 44 ++ (leBytes 16 0 ++ (leBytes 4 28 ++ (leBytes 4 1 ++
    (leBytes 4 0 ++ (leBytes 8 0xfffffff007100000 ++ [95, 102, 0]))))))
  length_lt := by simp

lemma length_smallFile : (smallFile 0 0x1000 0x800 0x900).length ≤ 0x4000 := by decide +kernel

/-- The small file, which refers to `_f`. -/
def smallKext : Upload where
  data := smallFile 0 0x1000 0x800 0x900 ++
    List.replicate (0x4000 - (smallFile 0 0x1000 0x800 0x900).length) 0
  length_lt := by
    rw [List.length_append, List.length_replicate, Nat.add_sub_cancel' length_smallFile]
    norm_num

/-- The symbols, and then the kernel extension. -/
def smallRequests : List ModuleRequest :=
  [⟨smallSymbols, .kernelcacheSymbols fun _ => true⟩, ⟨smallKext, .kextload smallAlloc⟩]

lemma kernel_smallMemory : smallOs.kernel smallMemory = blankKernel := by
  funext o
  have htext : (ascii "<array>" ++ prelinkInfoEnd).length ≤ 0x100 := by decide +kernel
  show sectionMemory _ _ _ _ (0x800000000 + o) = 0
  rw [sectionMemory, storeWord_apply_of_out (by omega), storeWord_apply_of_out (by omega),
    storeBytes_apply_of_out (by omega)]

/-- A file that is padded with zeros. -/
lemma ofBytes_padded {data : List UInt8} {size : ℕ} (h : data.length ≤ size) :
    Buffer.ofBytes (data ++ List.replicate (size - data.length) 0) =
      ⟨size, fun i => data.getD i 0⟩ := by
  rw [Buffer.ofBytes, List.length_append, List.length_replicate, Nat.add_sub_cancel' h]
  congr 1
  funext i
  rcases Nat.lt_or_ge i data.length with hlt | hge
  · rw [List.getD_append _ _ _ _ hlt]
  · rw [List.getD_append_right _ _ _ _ hge, List.getD_eq_default _ _ hge,
      List.getD_eq_getElem?_getD, List.getElem?_replicate]
    split_ifs
    · rfl
    · rfl

lemma file_smallKext (command : ModuleCommand) :
    ModuleRequest.file ⟨smallKext, command⟩ = smallUpload 0 0x1000 0x800 0x900 :=
  ofBytes_padded length_smallFile

lemma mem_uuidReads_smallMemory {p : ℕ × ℕ} (hp : p ∈ uuidReads (smallOs.kernel smallMemory)) :
    p = (16, 8) := by
  have hn : blankKernel.ncmds = 0 := by decide
  rw [kernel_smallMemory, uuidReads, hn, uuidCommandReads] at hp
  exact List.mem_singleton.1 hp

lemma separate_smallOs : smallOs.Separate 0x4000 0x4000000 0x4001000 smallMemory := by
  refine ⟨by decide, by decide, by decide, fun p hp => ?_⟩
  rw [mem_uuidReads_smallMemory hp]
  decide

lemma free_smallAlloc {n a : ℕ} (h : smallAlloc n = some a) :
    smallOs.Free 0x4000 0x4000000 0x4001000 smallMemory a n := by
  have hgrant : (if n ≤ 0x1000000 then some 0x2000000 else none) = some a := h
  split_ifs at hgrant with hn
  obtain rfl : 0x2000000 = a := Option.some.inj hgrant
  refine ⟨by omega, Or.inr (by decide), Or.inl (by omega), Or.inl ?_, fun p hp => ?_⟩
  · show 0x2000000 + n ≤ 0x3000000
    omega
  · rw [mem_uuidReads_smallMemory hp]
    refine Or.inl ?_
    show 0x2000000 + n ≤ 0x800000000 + 16
    omega

/-- Whatever tables it is checked against, nothing else is found in the file. -/
lemma kextParse_smallKext {chain : List KernelcacheSymbolTable} {buf : Buffer} {info : KextLoadInfo}
    (h : kextParse chain 0x1000000 (smallUpload 0 0x1000 0x800 0x900) = .ok (buf, info)) :
    buf = smallUpload 0 0x1000 0x800 0x900 ∧ info = smallInfo 0 0x1000 :=
  Prod.mk.inj (kextParse_chain h (kextParse_small smallAccepted_zero))

lemma admissible_smallKext : ModuleRequest.Admissible smallOs 0x4000 0x4000000 0x4001000 smallMemory
    ⟨smallKext, .kextload smallAlloc⟩ := by
  refine ⟨?_, fun malloc h => ?_, ?_, ?_⟩
  · show (smallFile 0 0x1000 0x800 0x900 ++ _).length ≤ 0x4000
    rw [List.length_append, List.length_replicate, Nat.add_sub_cancel' length_smallFile]
  · cases h
  · rintro n a ⟨allocStatic, hcommand, hgrant⟩
    obtain rfl := ModuleCommand.kextload.inj hcommand
    exact free_smallAlloc hgrant
  · intro allocStatic chain buf info info' hcommand hparse halloc
    obtain rfl := ModuleCommand.kextload.inj hcommand
    rw [file_smallKext] at hparse
    obtain ⟨rfl, rfl⟩ := kextParse_smallKext hparse
    obtain rfl := Option.some.inj ((kextAlloc_small _ _).symm.trans halloc)
    show MetadataKept _ _ ((smallInfo 0 0x1000).symtab - 0x1000000)
      ((smallInfo 0 0x1000).dysymtab - 0x1000000)
    rw [smallInfo_symtab, smallInfo_dysymtab]
    decide +kernel

lemma framed_smallSymbols : Framed smallSymbols.data KernelcacheUuid.initial.uuid
    [(0, 0xfffffff007100000)] [95, 102, 0] := by
  refine ⟨1, 44, 0, 28, by decide, by decide, by decide, ⟨by decide, by decide, by simp⟩,
    ⟨by decide, fun k hk => ?_⟩, by decide, by decide, by decide⟩
  obtain rfl : k = 0 := by simpa using hk
  exact (by decide : entry smallSymbols.data 32 = some (0, 0xfffffff007100000))

lemma admissible_smallSymbols : ModuleRequest.Admissible smallOs 0x4000 0x4000000 0x4001000 smallMemory
    ⟨smallSymbols, .kernelcacheSymbols fun _ => true⟩ := by
  refine ⟨by decide, fun malloc h => ?_, ?_, ?_⟩
  · rw [kernel_smallMemory, uuidFor_blankKernel]
    have hso : readLE smallSymbols.data 4 4 = some 44 := by decide
    have hle : 44 ≤ smallSymbols.data.length := by decide
    exact ⟨not_grantsShortBlock smallSymbols.length_lt hso hle,
      not_installsWrapped framed_smallSymbols (by decide)⟩
  · rintro n a ⟨_, hcommand, _⟩
    cases hcommand
  · intro allocStatic chain buf info info' hcommand
    cases hcommand

/-- The symbols are installed, and the kernel extension is loaded. -/
lemma run_smallRequests : AbstractModule.run
      (SymbolState.initial.uuidFor (smallOs.kernel smallMemory)) smallOs.loaderXferRecvData smallRequests =
    ⟨smallChain, [⟨smallChain, smallUpload 0 0x1000 0x800 0x900,
      { smallInfo 0 0x1000 with kext := 0x2000000 }⟩]⟩ := by
  have hdecode : decodeSymbolTable smallSymbols.data KernelcacheUuid.initial.uuid (fun _ => true) =
      .ok ⟨[(0, 0xfffffff007100000)], [95, 102, 0]⟩ := by
    decide
  have hload : loadKext smallChain 0x1000000 (smallUpload 0 0x1000 0x800 0x900) smallAlloc =
      some ⟨smallChain, smallUpload 0 0x1000 0x800 0x900,
        { smallInfo 0 0x1000 with kext := 0x2000000 }⟩ :=
    loadKext_of_steps smallRequest_size (kextParse_small smallAccepted_zero) (kextAlloc_small _ _)
  have hsymbols : AbstractModule.step KernelcacheUuid.initial.uuid 0x1000000 .initial
      ⟨smallSymbols, .kernelcacheSymbols fun _ => true⟩ = ⟨smallChain, []⟩ := by
    rw [AbstractModule.step_kernelcacheSymbols rfl, hdecode]
    rfl
  have hkext : AbstractModule.step KernelcacheUuid.initial.uuid 0x1000000 ⟨smallChain, []⟩
      ⟨smallKext, .kextload smallAlloc⟩ = ⟨smallChain, [⟨smallChain,
        smallUpload 0 0x1000 0x800 0x900, { smallInfo 0 0x1000 with kext := 0x2000000 }⟩]⟩ := by
    rw [AbstractModule.step_kextload rfl, file_smallKext]
    exact congrArg (fun l : Option LoadedKext => AbstractModule.mk smallChain ([] ++ l.toList)) hload
  rw [kernel_smallMemory, uuidFor_blankKernel, AbstractModule.run, smallRequests, List.foldl_cons,
    List.foldl_cons, List.foldl_nil]
  show AbstractModule.step _ 0x1000000 (AbstractModule.step _ 0x1000000 _ _) _ = _
  rw [hsymbols, hkext]

theorem runModule_represents_small :
    ∃ s, runModule smallOs (.initial smallMemory) smallRequests = some s ∧
      Represents smallOs 0x4000 0x4000000 0x4001000 (ascii "<array>") smallMemory ⟨smallChain,
        [⟨smallChain, smallUpload 0 0x1000 0x800 0x900, { smallInfo 0 0x1000 with kext := 0x2000000 }⟩]⟩
        s := by
  have hlenText : (ascii "<array>").length = 7 := by decide +kernel
  have hlenStr := length_prelinkInfoStr
  have hlenEnd := length_prelinkInfoEnd
  have hinit : PrelinkInitial smallOs.layout smallOs.prelinkInfoSection 0x4000000 0x4001000 1
      (ascii "<array>") ⟨smallMemory, 0⟩ :=
    prelinkInitial_sectionMemory (by decide +kernel) (by omega) (by omega) (by decide) (by omega)
      (by omega)
  rw [← run_smallRequests]
  refine runModule_represents separate_smallOs ?_ ?_ hinit ?_ (by omega)
  · rintro r (_ | ⟨_, _ | ⟨_, _ | _⟩⟩)
    · exact admissible_smallSymbols
    · exact admissible_smallKext
  · refine List.pairwise_pair.2 ?_
    rintro n a n' a' ⟨_, hcommand, _⟩
    cases hcommand
  · rw [run_smallRequests]
    exact le_rfl

end VulnerableKext.System

import VulnerableKext.System.FileOrder
import VulnerableKext.System.ModuleRuns

/-!
# From symbol files to linked images

The host collects symbol files and uploads the blob that it generates from them, and the
device links kernel extensions against it.  In between there is the binary format, the chain of
tables, and the memory of the device.  Seen from the ends, a pointer of a kernel extension to a
symbol becomes the address that the symbol files give for its name: of all files that have been
uploaded before the kernel extension, for the UUID of the kernelcache, the most recent ones that
know the name.
-/

namespace VulnerableKext.System

open Memory Bytes Checked Format Device Host Kext Runs

/-! ## Tables and symbol files -/

/-- A chain of tables answers as a list of symbols. -/
def Answers (chain : List KernelcacheSymbolTable) (syms : List Host.Symbol) : Prop :=
  ∀ name, 0 ∉ name → (chain.findSome? fun t => t.find? name) = addressIn syms name

/-- The blob that the host generates from files. -/
def Generated (files : List ParsedFile) (data : List UInt8) : Prop :=
  ∃ dirs malloc state, Allocates malloc ∧ collectSymbols dirs = some state ∧
    state.serialisedSize < 2 ^ 32 ∧ files = parsedFiles dirs ∧ (∃ f ∈ files, f.2 ≠ []) ∧
    kernelcacheSymbolTableGenerate malloc dirs = some data

section Generated

variable {files : List ParsedFile} {u : Upload} {uuid : Uuid} {malloc : ℕ → Bool}
  {chain : List KernelcacheSymbolTable} {syms : List Host.Symbol}

lemma addressIn_append {κ β : Type*} [DecidableEq κ] (l l' : List (κ × β)) (k : κ) :
    addressIn (l ++ l') k = (addressIn l k).or (addressIn l' k) := by
  rw [addressIn, List.find?_append, Option.map_or]
  rfl

/-- The blob is the layout of a state that holds the files. -/
lemma Generated.layout (h : Generated files u.data) : ∃ state : KcsState, state.Holds files ∧
    (∀ f ∈ files, ∀ s ∈ f.2, ValidSymbol s) ∧ state.symstr.getLast? = some 0 ∧
    u.data = state.layout := by
  obtain ⟨dirs, malloc, state, hmalloc, hcollect, hsize, rfl, ⟨f, hf, hne⟩, hgenerate⟩ := h
  rw [← length_layout_eq_serialisedSize] at hsize
  have hs : state.Holds (parsedFiles dirs) :=
    collectSymbols_holds hcollect (by rw [length_layout] at hsize; omega)
  refine ⟨state, hs, validSymbol_of_parsedFiles, getLast?_symstr hs hf hne, ?_⟩
  rw [kernelcacheSymbolTableGenerate, hcollect, Option.bind_some,
    serialise_eq hmalloc hs hsize] at hgenerate
  exact (Option.some.inj hgenerate).symm

/-- The blob has neither of the two defects that the device does not notice. -/
lemma Generated.clean (h : Generated files u.data) : Request.Clean uuid ⟨u, malloc⟩ := by
  obtain ⟨state, hs, hvalid, hlast, hu⟩ := h.layout
  have hlt : state.layout.length < 2 ^ 32 := hu ▸ u.length_lt
  have hso := (readLE_header hlt).2
  have hlay := length_layout state
  have hheader : headerSize ≤ state.stringsOffset := by
    rw [KcsState.stringsOffset, KcsState.symbolsOffset]
    omega
  rw [headerSize] at hheader
  rw [← hu] at hso hlay
  have hle : state.stringsOffset ≤ u.data.length := by omega
  refine ⟨not_grantsShortBlock u.length_lt hso hle, ?_⟩
  by_cases hmem : uuid ∈ state.kcs.map KcsKc.uuid
  · obtain ⟨kc, hkc, rfl⟩ := List.mem_map.1 hmem
    obtain ⟨hf, hin⟩ := describes_layout hs hlt hlast hvalid hkc
    have hlen : state.symstr.length < 2 ^ 32 - 1 := by
      rw [hu] at hlay
      omega
    rw [← hu] at hf
    refine not_installsWrapped hf fun e he => ?_
    have hoff : e.1 < state.symstr.length := hin e he
    omega
  · rintro ⟨t, hframed, -⟩
    replace hframed : Framed state.layout uuid t.entries t.strings := by
      rw [← hu]
      exact hframed
    exact not_framed_layout hlt hmem hframed

/-- The table that it is decoded to answers as the files do. -/
lemma Generated.answers (h : Generated files u.data) (hchain : Answers chain syms) :
    Answers ((decodeSymbolTable u.data uuid fun _ => true).toOption.toList ++ chain)
      (symbolsFor uuid files ++ syms) := by
  obtain ⟨state, hs, hvalid, hlast, hu⟩ := h.layout
  have hlt : state.layout.length < 2 ^ 32 := hu ▸ u.length_lt
  intro name hname
  rw [addressIn_append, ← hchain name hname]
  by_cases hmem : uuid ∈ state.kcs.map KcsKc.uuid
  · obtain ⟨kc, hkc, rfl⟩ := List.mem_map.1 hmem
    obtain ⟨hf, hin⟩ := describes_layout hs hlt hlast hvalid hkc
    have hdecode : decodeSymbolTable u.data kc.uuid (fun _ => true) = .ok (tableOf state kc) := by
      rw [decode_granted_iff, hu]
      exact ⟨hf, fun e he => Or.inl (hin e he)⟩
    rw [hdecode, ← find?_eq_addressIn (contents_tableOf hs hkc)]
    show List.findSome? _ (tableOf state kc :: chain) = _
    rw [List.findSome?_cons]
    cases (tableOf state kc).find? name with
    | none => rfl
    | some address => rfl
  · have hdecode : (decodeSymbolTable u.data uuid fun _ => true).toOption = none := by
      rcases hcase : decodeSymbolTable u.data uuid (fun _ => true) with e | t
      · rfl
      · rw [decode_granted_iff, hu] at hcase
        exact absurd hcase.1 (not_framed_layout hlt hmem)
    have hnil : symbolsFor uuid files = [] := symbolsFor_eq_nil (by rwa [← hs.mem_uuid])
    rw [hdecode, hnil]
    rfl

end Generated

/-! ## Kernel extensions and symbol files -/

/-- The image before it is relocated: the contents of the segments, with the new addresses of the
segments and the kmod_info filled in. -/
def LoadedKext.mapped (l : LoadedKext) (k : KernelLayout) (z : Mem) : Mem :=
  kextImage k l.info l.file.byte fun o => z (l.info.kext + o)

/-- In the memory stands the image of a kernel extension whose pointers to symbols are the addresses
that a list of symbols gives, and whose other pointers have been moved by its load address. -/
structure LinkedToSymbols (k : KernelLayout) (syms : List Host.Symbol) (l : LoadedKext) (z m : Mem) :
    Prop where
  relocated : ∀ lr ∈ localEntries l.file.byte l.dp, word m (l.info.kext + lr.rAddress) 8 =
    (word (l.mapped k z) lr.rAddress 8 + k.vaForPtr l.info.kext) % 2 ^ 64
  linked : ∀ er ∈ externalEntries l.file.byte l.dp, ∃ name address,
    externalName l.file l.sp er = some name ∧ addressIn syms name = some address ∧
      word m (l.info.kext + er.rAddress) 8 = k.vaForSa address
  counters : ∀ a ∈ counterWords l.sp l.dp, word m (l.info.kext + a) 4 = 0
  others : ∀ o < l.info.vmSize,
    (∀ r ∈ localEntries l.file.byte l.dp ++ externalEntries l.file.byte l.dp,
      o < r.rAddress ∨ r.rAddress + 8 ≤ o) →
    (∀ a ∈ counterWords l.sp l.dp, o < a ∨ a + 4 ≤ o) → m (l.info.kext + o) = l.mapped k z o

section Linked

variable {k : KernelLayout} {syms : List Host.Symbol} {l : LoadedKext} {z m : Mem}
  {chain : List KernelcacheSymbolTable} {header : ℕ} {file : Buffer} {allocStatic : ℕ → Option ℕ}

/-- A lookup that finds an address finds that of the symbols. -/
lemma Answers.address (h : Answers chain syms) (hsound : ∀ t ∈ chain, t.Sound) {name : List UInt8}
    {address : ℕ} (hname : 0 ∉ name)
    (hlookup : kernelcacheSymbolTableLookup chain name = some address) (hne : address ≠ 0) :
    addressIn syms name = some address := by
  rw [lookup_eq_resolve hname hsound, resolve, h name hname] at hlookup
  cases hfound : addressIn syms name with
  | none =>
    rw [hfound] at hlookup
    exact absurd (Option.some.inj hlookup).symm hne
  | some address' =>
    rw [hfound] at hlookup
    exact hlookup

/-- The image is the specified one, when the slots are disjoint and counted from the image. -/
lemma linkedToSymbols_of_image (hload : loadKext chain header file allocStatic = some l)
    (hanswers : Answers chain syms) (hsound : ∀ t ∈ chain, t.Sound) (hbase : l.info.vmBase = 0)
    (hd : SlotsDisjoint l.file.byte l.dp)
    (himage : ∀ o < l.info.vmSize, m (l.info.kext + o) = l.image k z o) :
    LinkedToSymbols k syms l z m := by
  obtain ⟨h, hvm⟩ := LoadedKext.accepted hload
  obtain ⟨-, hchain, -⟩ := loadKext_eq_some hload
  have ha := h.slotsApart hbase hd
  have hslot (r : RelocationInfo) : r.rAddress = slotOffset l.info r := by
    rw [slotOffset, hbase, Nat.sub_zero]
  have hword {o w : ℕ} (ho : o + w ≤ l.info.vmSize) :
      word m (l.info.kext + o) w = word (l.image k z) o w :=
    word_congr fun i hi => by rw [Nat.add_assoc]; exact himage (o + i) (by omega)
  have hlocalIn (i : ℕ) (hi : i < dysymNlocrel l.file.byte l.dp) := h.localSlot_le hvm hi
  have hexternalIn (i : ℕ) (hi : i < dysymNextrel l.file.byte l.dp) := h.externalSlot_le hvm hi
  have hsp := h.symtab_end
  have hdp := h.dysymtab_end
  refine ⟨fun lr hlr => ?_, fun er her => ?_, fun a hmem => ?_, fun o ho hslots hcounters => ?_⟩
  · obtain ⟨i, hi, rfl⟩ := List.mem_map.1 hlr
    have hi' := List.mem_range.1 hi
    rw [hslot, hword (hlocalIn i hi'), LoadedKext.image, ha.word_local hi', hbase,
      sub64_vaForPtr_zero]
    rfl
  · obtain ⟨i, hi, rfl⟩ := List.mem_map.1 her
    have hi' := List.mem_range.1 hi
    obtain ⟨name, address, hname, haddress, hne, hlinked⟩ := h.externalName_resolved hi'
    rw [hchain] at haddress
    refine ⟨name, address, hname,
      hanswers.address hsound (zero_notMem_string? hname) haddress hne, ?_⟩
    rw [hslot, hword (hexternalIn i hi'), LoadedKext.image, ha.word_external hi', hlinked]
  · have hle : a + 4 ≤ l.info.vmSize := by
      simp only [counterWords, List.mem_cons, List.not_mem_nil, or_false] at hmem
      rcases hmem with rfl | rfl | rfl <;> omega
    rw [hword hle]
    exact h.word_imageLinked_counter ha a hmem
  · rw [himage o ho]
    refine imageLinked_apply (fun i hi => ?_) (fun i hi => ?_) hcounters
    · have hout := hslots _ (List.mem_append_left _ (localEntry_mem hi))
      rwa [hslot] at hout
    · have hout := hslots _ (List.mem_append_right _ (externalEntry_mem hi))
      rwa [hslot] at hout

end Linked

/-! ## Runs -/

/-- What the host uploads: the blob of some files, for which the device has memory, or a kernel
extension. -/
inductive HostRequest
  | symbols (files : List ParsedFile) (blob : Upload)
  | kext (file : Upload) (allocStatic : ℕ → Option ℕ)

namespace HostRequest

def request : HostRequest → ModuleRequest
  | symbols _ blob => ⟨blob, .kernelcacheSymbols fun _ => true⟩
  | kext file allocStatic => ⟨file, .kextload allocStatic⟩

/-- The symbols of the files that have been uploaded, the most recent ones first. -/
def symbolsOf (uuid : Uuid) : HostRequest → List Host.Symbol
  | symbols files _ => symbolsFor uuid files
  | kext _ _ => []

/-- The blob is the one that the host generates, and a kernel extension avoids what the module does
not check. -/
def Admissible (os : Pongo) (room start stop : ℕ) (m : Mem) : HostRequest → Prop
  | symbols files blob => Generated files blob.data ∧ blob.data.length ≤ room
  | kext file allocStatic =>
    ModuleRequest.Admissible os room start stop m ⟨file, .kextload allocStatic⟩

variable {os : Pongo} {room start stop n : ℕ} {c : List UInt8} {m₀ : Mem} {h : HostRequest}
  {hs : List HostRequest} {uuid : Uuid} {header : ℕ}

lemma Admissible.request (hh : h.Admissible os room start stop m₀) :
    h.request.Admissible os room start stop m₀ := by
  cases h with
  | symbols files blob =>
    obtain ⟨hgenerated, hfits⟩ := hh
    refine ⟨hfits, fun malloc _ => hgenerated.clean, ?_, ?_⟩
    · rintro n a ⟨_, hcommand, _⟩
      cases hcommand
    · intro _ _ _ _ _ hcommand
      cases hcommand
  | kext file allocStatic => exact hh

/-- All the symbols that have been uploaded, the most recent files first. -/
def symbolsAfter (uuid : Uuid) (hs : List HostRequest) : List Host.Symbol :=
  hs.reverse.flatMap (symbolsOf uuid)

/-- The tables of the module answer as the files that have been uploaded, at any time. -/
lemma answers_run (hs : List HostRequest)
    (hadmissible : ∀ h ∈ hs, h.Admissible os room start stop m₀) :
    Answers (AbstractModule.run uuid header (hs.map HostRequest.request)).tables
      (symbolsAfter uuid hs) := by
  induction hs using List.reverseRecOn with
  | nil => exact fun _ _ => rfl
  | append_singleton hs h ih =>
    have hprev := ih fun h' hh' => hadmissible h' (List.mem_append_left _ hh')
    have hh := hadmissible h (by simp)
    rw [List.map_append, List.map_singleton, AbstractModule.run_append_singleton, symbolsAfter,
      List.reverse_append, List.reverse_singleton, List.singleton_append, List.flatMap_cons,
      ← symbolsAfter]
    cases h with
    | symbols files blob =>
      rw [AbstractModule.step_kernelcacheSymbols rfl]
      exact hh.1.answers hprev
    | kext file allocStatic =>
      rw [AbstractModule.step_kextload rfl]
      exact hprev

end HostRequest

section EndToEnd

variable {os : Pongo} {room start stop n : ℕ} {c : List UInt8} {m₀ : Mem} {hs : List HostRequest}

lemma admissible_requests (hadmissible : ∀ h ∈ hs, h.Admissible os room start stop m₀) :
    ∀ r ∈ hs.map HostRequest.request, r.Admissible os room start stop m₀ := by
  intro r hr
  obtain ⟨h, hh, rfl⟩ := List.mem_map.1 hr
  exact (hadmissible h hh).request

/-- What has become of a kernel extension that was loaded in the run. -/
lemma linked_of_simulates (hadmissible : ∀ h ∈ hs, h.Admissible os room start stop m₀) {size : ℕ}
    {s : ModuleState} (hsim : Simulates os room start stop size c m₀ (hs.map HostRequest.request)
      (AbstractModule.run (SymbolState.initial.uuidFor (os.kernel m₀)) os.loaderXferRecvData
        (hs.map HostRequest.request)) s) {l : LoadedKext}
    (hl : l ∈ (AbstractModule.run (SymbolState.initial.uuidFor (os.kernel m₀)) os.loaderXferRecvData
      (hs.map HostRequest.request)).kexts) : ∃ before file allocStatic after,
    hs = before ++ .kext file allocStatic :: after ∧
      l.file = patchedUpload (Buffer.ofBytes file.data) ∧
      (l.info.vmBase = 0 → SlotsDisjoint l.file.byte l.dp → LinkedToSymbols os.layout
        (HostRequest.symbolsAfter (SymbolState.initial.uuidFor (os.kernel m₀)) before) l m₀
        s.mem) := by
  obtain ⟨rs, r, rs', allocStatic, hsplit, hcommand, hload⟩ := AbstractModule.exists_of_mem_kexts hl
  obtain ⟨before, rest, rfl, rfl, hrest⟩ := List.map_eq_append_iff.1 hsplit
  obtain ⟨h, after, rfl, rfl, -⟩ := List.map_eq_cons_iff.1 hrest
  have hbefore : ∀ h ∈ before, h.Admissible os room start stop m₀ :=
    fun h hh => hadmissible h (List.mem_append_left _ hh)
  have hsound := sound_run os.loaderXferRecvData (admissible_requests hbefore)
  cases h with
  | symbols files blob => cases hcommand
  | kext file alloc =>
    obtain rfl : alloc = allocStatic := ModuleCommand.kextload.inj hcommand
    obtain ⟨-, -, info, hparse, -⟩ := loadKext_eq_some hload
    refine ⟨before, file, alloc, after, rfl, kextParse_patched hparse, fun hbase hd => ?_⟩
    exact linkedToSymbols_of_image hload (HostRequest.answers_run before hbefore) hsound hbase hd
      (hsim.memory.images l hl)

/-- Over every sequence of uploads, a kernel extension that is loaded stays linked to the addresses
that the symbol files uploaded before it give, most recent first. -/
theorem runModule_linkedToSymbols (hsep : os.Separate room start stop m₀)
    (hadmissible : ∀ h ∈ hs, h.Admissible os room start stop m₀)
    (hgrants : (hs.map HostRequest.request).Pairwise ModuleRequest.GrantsApart)
    (hinit : PrelinkInitial os.layout os.prelinkInfoSection start stop n c ⟨m₀, 0⟩)
    (hn : (AbstractModule.run (SymbolState.initial.uuidFor (os.kernel m₀)) os.loaderXferRecvData
      (hs.map HostRequest.request)).kexts.length ≤ n) (hcount : n ≤ 65536) :
    ∃ s, runModule os (.initial m₀) (hs.map HostRequest.request) = some s ∧
      s.kextId.toNat = (AbstractModule.run (SymbolState.initial.uuidFor (os.kernel m₀))
        os.loaderXferRecvData (hs.map HostRequest.request)).kexts.length ∧
      (∀ name, 0 ∉ name → kernelcacheSymbolTableLookup s.kernelcacheSymbolTable name =
        some ((addressIn (HostRequest.symbolsAfter (SymbolState.initial.uuidFor (os.kernel m₀)) hs)
          name).getD 0)) ∧
      ∀ l ∈ (AbstractModule.run (SymbolState.initial.uuidFor (os.kernel m₀)) os.loaderXferRecvData
        (hs.map HostRequest.request)).kexts, ∃ before file allocStatic after,
        hs = before ++ .kext file allocStatic :: after ∧
        l.file = patchedUpload (Buffer.ofBytes file.data) ∧
        (l.info.vmBase = 0 → SlotsDisjoint l.file.byte l.dp → LinkedToSymbols os.layout
          (HostRequest.symbolsAfter (SymbolState.initial.uuidFor (os.kernel m₀)) before) l m₀
          s.mem) := by
  obtain ⟨s, hrun, hsim⟩ := runModule_simulates hsep (admissible_requests hadmissible) hgrants hinit hn
    hcount
  refine ⟨s, hrun, ?_, fun name hname => ?_, fun l hl => linked_of_simulates hadmissible hsim hl⟩
  · have hid := hsim.memory.prelink.id
    rwa [List.length_map] at hid
  · rw [hsim.tables, lookup_eq_resolve hname hsim.sound, resolve,
      HostRequest.answers_run hs hadmissible name hname]

end EndToEnd

/-! ## A small run -/

/-- A directory with one file, in which `_f` has an address. -/
def smallDirectory : List (Option (List Dirent)) :=
  [some [⟨true, ascii "f.txt", some (ascii ("KERNELCACHE UUID: 00000000-0000-0000-0000-000000000000\n" ++
    "\n_f 0xfffffff007100000\n"))⟩]]

lemma parsedFiles_smallDirectory : parsedFiles smallDirectory =
    [(List.Vector.replicate 16 0, [(ascii "_f", 0xfffffff007100000)])] := by
  decide +kernel

/-- Its blob. -/
lemma generated_smallSymbols : Generated (parsedFiles smallDirectory) smallSymbols.data := by
  refine ⟨smallDirectory, dirtyMalloc,
    ⟨[⟨List.Vector.replicate 16 0, [⟨0, 0xfffffff007100000⟩]⟩], 1, ascii "_f" ++ [0]⟩,
    allocates_dirtyMalloc, by decide +kernel, by decide, rfl, ?_, by decide +kernel⟩
  rw [parsedFiles_smallDirectory]
  exact ⟨_, List.mem_singleton.2 rfl, by simp⟩

/-- The file of symbols, and then the kernel extension. -/
def smallHostRequests : List HostRequest :=
  [.symbols (parsedFiles smallDirectory) smallSymbols, .kext smallKext smallAlloc]

theorem runModule_linkedToSymbols_small :
    ∃ s, runModule smallOs (.initial smallMemory)
        (smallHostRequests.map HostRequest.request) = some s ∧
      LinkedToSymbols smallOs.layout [(ascii "_f", 0xfffffff007100000)] ⟨smallChain,
        smallUpload 0 0x1000 0x800 0x900, { smallInfo 0 0x1000 with kext := 0x2000000 }⟩ smallMemory
        s.mem := by
  have hlenText : (ascii "<array>").length = 7 := by decide +kernel
  have hlenStr := length_prelinkInfoStr
  have hlenEnd := length_prelinkInfoEnd
  have hinit : PrelinkInitial smallOs.layout smallOs.prelinkInfoSection 0x4000000 0x4001000 1
      (ascii "<array>") ⟨smallMemory, 0⟩ :=
    prelinkInitial_sectionMemory (by decide +kernel) (by omega) (by omega) (by decide) (by omega)
      (by omega)
  have hkexts := congrArg AbstractModule.kexts run_smallRequests
  obtain ⟨s, hs, -, -, hlinked⟩ := runModule_linkedToSymbols separate_smallOs
    (show ∀ h ∈ smallHostRequests, h.Admissible smallOs 0x4000 0x4000000 0x4001000 smallMemory by
      rintro h (_ | ⟨_, _ | ⟨_, _ | _⟩⟩)
      · exact ⟨generated_smallSymbols, by decide⟩
      · exact admissible_smallKext)
    (by
      refine List.pairwise_pair.2 ?_
      rintro n a n' a' ⟨_, hcommand, _⟩
      cases hcommand)
    hinit (by
      rw [show smallHostRequests.map HostRequest.request = smallRequests from rfl, hkexts]
      exact le_rfl)
    (by omega)
  refine ⟨s, hs, ?_⟩
  obtain ⟨before, file, alloc, after, hsplit, -, h⟩ := hlinked _ (by
    rw [show smallHostRequests.map HostRequest.request = smallRequests from rfl, hkexts]
    exact List.mem_singleton.2 rfl)
  -- only the symbols come before the kernel extension
  have hbefore : before = [.symbols (parsedFiles smallDirectory) smallSymbols] := by
    rcases before with _ | ⟨h₁, _ | ⟨h₂, before⟩⟩
    · cases (List.cons.inj hsplit).1
    · rw [(List.cons.inj hsplit).1]
    · have hlength := congrArg List.length hsplit
      simp [smallHostRequests] at hlength
  have hsymbols : HostRequest.symbolsAfter (SymbolState.initial.uuidFor (smallOs.kernel smallMemory))
      before = [(ascii "_f", 0xfffffff007100000)] := by
    rw [hbefore, kernel_smallMemory, uuidFor_blankKernel, parsedFiles_smallDirectory]
    decide +kernel
  rw [hsymbols] at h
  exact h rfl (by decide +kernel)

end VulnerableKext.System

import VulnerableKext.Kext.MapSpec

/-!
# Relocating and linking the mapped image

`kext_relocate` and `kext_link` take the number of entries from the mapped load commands
and the entries themselves from the upload.  Each of the two loops updates the words at the
slots of its entries, in order (`relocatedImage`, `linkedImage`), provided that the slots
lie in the image and none of them meets the field that bounds the loop.
-/

namespace VulnerableKext.Kext

open Memory Device

/-! ## The entries of a file -/

section Entries

variable (file : Mem) (dp i : ℕ)

/-- The local relocations of a file, whose `LC_DYSYMTAB` is at `dp`. -/
def localEntry : RelocationInfo :=
  relocationAt file (dysymLocreloff file dp + i * sizeofRelocationInfo)

/-- The external relocations of a file. -/
def externalEntry : RelocationInfo :=
  relocationAt file (dysymExtreloff file dp + i * sizeofRelocationInfo)

def localEntries : List RelocationInfo := (List.range (dysymNlocrel file dp)).map (localEntry file dp)

def externalEntries : List RelocationInfo :=
  (List.range (dysymNextrel file dp)).map (externalEntry file dp)

end Entries

/-- The name that `kext_parse` resolves for an external relocation. -/
def externalName (buf : Buffer) (sp : ℕ) (er : RelocationInfo) : Option (List UInt8) :=
  buf.string? (stringOffset (symStroff buf.byte sp)
    (nlistStrx buf.byte (symSymoff buf.byte sp + er.rSymbolnum * sizeofNlist)))

/-- What `kext_link` looks up for an external relocation, and what it finds. -/
def linkedSymbol (chain : List KernelcacheSymbolTable) (buf : Buffer) (sp : ℕ)
    (er : RelocationInfo) : LinkedSymbol :=
  let name := (externalName buf sp er).getD []
  ⟨er, name, (kernelcacheSymbolTableLookup chain name).getD 0⟩

/-! ## The images -/

/-- The position in the image of the slot of a relocation. -/
def slotOffset (info : KextLoadInfo) (r : RelocationInfo) : ℕ := r.rAddress - info.vmBase

/-- The image `im` after the first `n` local relocations. -/
def relocatedImage (k : KernelLayout) (info : KextLoadInfo) (file : Mem) (dp : ℕ) (im : Mem) (n : ℕ) :
    Mem :=
  updateWords 8 (fun i => slotOffset info (localEntry file dp i))
    (fun _ v => (v + sub64 (k.vaForPtr info.kext) info.vmBase) % 2 ^ 64) im n

/-- The state of the loop of `kext_relocate` after `i` iterations. -/
def relocateState (k : KernelLayout) (info : KextLoadInfo) (file : Mem) (dp : ℕ) (m im : Mem)
    (i : ℕ) : Mem × List LocalVisit :=
  (splice m info.kext info.vmSize (relocatedImage k info file dp im i),
    ((List.range i).map (localEntry file dp)).map .applied)

/-- The image `im` after all of `kext_relocate`. -/
def imageRelocated (k : KernelLayout) (info : KextLoadInfo) (file : Mem) (sp dp : ℕ) (im : Mem) :
    Mem :=
  storeWord (storeWord (relocatedImage k info file dp im (dysymNlocrel file dp)) (dp + 76) 4 0)
    (sp + 12) 4 0

/-- The image `im` after the first `n` external relocations. -/
def linkedImage (k : KernelLayout) (chain : List KernelcacheSymbolTable) (info : KextLoadInfo)
    (buf : Buffer) (sp dp : ℕ) (im : Mem) (n : ℕ) : Mem :=
  updateWords 8 (fun i => slotOffset info (externalEntry buf.byte dp i))
    (fun i _ => k.vaForSa (linkedSymbol chain buf sp (externalEntry buf.byte dp i)).symbolSa) im n

/-- The state of the loop of `kext_link` after `i` iterations. -/
def linkState (k : KernelLayout) (chain : List KernelcacheSymbolTable) (info : KextLoadInfo)
    (buf : Buffer) (sp dp : ℕ) (m im : Mem) (i : ℕ) : Mem × List ExternalVisit :=
  (splice m info.kext info.vmSize (linkedImage k chain info buf sp dp im i),
    (((List.range i).map (externalEntry buf.byte dp)).map (linkedSymbol chain buf sp)).map .applied)

/-! ## What the loops read -/

/-- The values of `nlocrel` that `kext_relocate` compares its index with. -/
def nlocrelReads (k : KernelLayout) (info : KextLoadInfo) (m : Mem) : List ℕ :=
  (countedStates (fun s : Mem × List LocalVisit => dysymNlocrel s.1 info.dysymtab)
    (relocateEntry info (sub64 (k.vaForPtr info.kext) info.vmBase)) (2 ^ 32) 0 (m, [])).map
      fun s => dysymNlocrel s.1 info.dysymtab

/-- The values of `nextrel` that `kext_link` compares its index with. -/
def nextrelReads (k : KernelLayout) (chain : List KernelcacheSymbolTable) (info : KextLoadInfo)
    (m : Mem) : List ℕ :=
  (countedStates (fun s : Mem × List ExternalVisit => dysymNextrel s.1 info.dysymtab)
    (linkEntry k chain info (info.header + symStroff m info.symtab)) (2 ^ 32) 0 (m, [])).map
      fun s => dysymNextrel s.1 info.dysymtab

/-! ## The slots -/

section Slots

variable {vmBase vmSize r : ℕ}

/-- What the check on a relocation address comes down to. -/
lemma addressInBounds_iff (hr : r < 2 ^ 64) (hsize : vmSize < 2 ^ 32)
    (hend : vmBase + vmSize < 2 ^ 64) :
    AddressInBounds vmBase vmSize r ↔ vmBase + r + 8 ≤ vmSize := by
  simp only [AddressInBounds]
  omega

lemma localEntry_lt (m : Mem) (dp i : ℕ) : (localEntry m dp i).rAddress < 2 ^ 64 :=
  rAddress_lt _ _

lemma externalEntry_lt (m : Mem) (dp i : ℕ) : (externalEntry m dp i).rAddress < 2 ^ 64 :=
  rAddress_lt _ _

end Slots

/-! ## The two loops -/

section Loops

variable {chain : List KernelcacheSymbolTable} {header sp dp i : ℕ} {buf : Buffer}
  {info : KextLoadInfo} {m im : Mem} {k : KernelLayout}

/-- With the pointers of `kext_map`, `kext_relocate` is a loop bounded by a field of the image, and
two counts that are cleared after it. -/
lemma kextRelocate_mapped (m : Mem) :
    kextRelocate k (mappedInfo info sp dp) m =
      (countedLoop (fun s : Mem × List LocalVisit => dysymNlocrel s.1 (info.kext + dp))
        (relocateEntry (mappedInfo info sp dp) (sub64 (k.vaForPtr info.kext) info.vmBase)) (2 ^ 32) 0
        (m, [])).bind fun s =>
      some (storeWord (storeWord s.1 (info.kext + dp + 76) 4 0) (info.kext + sp + 12) 4 0, s.2) := rfl

/-- `kext_link` likewise.  The strings are those of the upload, but at the offset in the image. -/
lemma kextLink_mapped (m : Mem) :
    kextLink k chain (mappedInfo info sp dp) m =
      (countedLoop (fun s : Mem × List ExternalVisit => dysymNextrel s.1 (info.kext + dp))
        (linkEntry k chain (mappedInfo info sp dp)
          (info.header + symStroff m (info.kext + sp))) (2 ^ 32) 0 (m, [])).bind fun s =>
      some (storeWord s.1 (info.kext + dp + 68) 4 0, s.2) := rfl

/-- The entries of an accepted file are read from the upload, whatever the image is. -/
lemma Placed.relocationAt_eq (hp : Placed buf info m) (obj : Mem) {off : ℕ}
    (hoff : off + sizeofRelocationInfo ≤ buf.size) :
    relocationAt (splice m info.kext info.vmSize obj) (info.header + off) =
      relocationAt buf.byte off := by
  simp only [sizeofRelocationInfo] at hoff
  rw [relocationAt, relocationAt, hp.word_file obj (by omega), Nat.add_assoc,
    hp.word_file obj (by omega)]

/-- A slot that lies in the image, in the program's arithmetic. -/
lemma slotAddress_eq {r : RelocationInfo} (hr : r.rAddress < 2 ^ 64)
    (hbase : info.vmBase ≤ r.rAddress) (hslot : slotOffset info r + 8 ≤ info.vmSize)
    (hkext : info.kext + info.vmSize < 2 ^ 64) :
    slotAddress info r.rAddress = info.kext + slotOffset info r := by
  rw [slotOffset] at hslot ⊢
  rw [slotAddress, sub64_of_le hr hbase]
  omega

namespace Accepted

variable (h : Accepted chain header buf info sp dp)
include h

lemma localEntry_fits (hi : i < dysymNlocrel buf.byte dp) :
    dysymLocreloff buf.byte dp + i * sizeofRelocationInfo + sizeofRelocationInfo ≤ buf.size := by
  have hle := h.dysymtab.locals
  simp only [sizeofRelocationInfo] at hle ⊢
  omega

lemma externalEntry_fits (hi : i < dysymNextrel buf.byte dp) :
    dysymExtreloff buf.byte dp + i * sizeofRelocationInfo + sizeofRelocationInfo ≤ buf.size := by
  have hle := h.dysymtab.externals
  simp only [sizeofRelocationInfo] at hle ⊢
  omega

lemma localSlot_le (hvm : info.vmSize < 2 ^ 32) (hi : i < dysymNlocrel buf.byte dp) :
    slotOffset info (localEntry buf.byte dp i) + 8 ≤ info.vmSize := by
  have hbounds := (h.locals i hi).inBounds
  rw [← localEntry, addressInBounds_iff (localEntry_lt _ _ _) hvm h.vmEnd] at hbounds
  rw [slotOffset]
  omega

lemma externalSlot_le (hvm : info.vmSize < 2 ^ 32) (hi : i < dysymNextrel buf.byte dp) :
    slotOffset info (externalEntry buf.byte dp i) + 8 ≤ info.vmSize := by
  have hbounds := (h.externals i hi).inBounds
  rw [← externalEntry, addressInBounds_iff (externalEntry_lt _ _ _) hvm h.vmEnd] at hbounds
  rw [slotOffset]
  omega

/-- The two commands lie in the area of the load commands. -/
lemma dysymtab_inside : dp + 80 ≤ sizeofHeader + mhSizeofcmds buf.byte 0 := by
  obtain ⟨i, hi, rfl⟩ := h.dysymtabAt
  have hend := (h.commands.inside i hi).2
  have hsize := h.dysymtab.cmdsize
  simp only [sizeofDysymtabCommand] at hsize
  rw [lcPosition] at hend
  omega

lemma symtab_inside : sp + 24 ≤ sizeofHeader + mhSizeofcmds buf.byte 0 := by
  obtain ⟨i, hi, rfl⟩ := h.symtabAt
  have hend := (h.commands.inside i hi).2
  have hsize := h.symtab.cmdsize
  simp only [sizeofSymtabCommand] at hsize
  rw [lcPosition] at hend
  omega

lemma dysymtab_end : dp + 80 ≤ info.vmSize := h.dysymtab_inside.trans h.header_le_vmSize

lemma symtab_end : sp + 24 ≤ info.vmSize := h.symtab_inside.trans h.header_le_vmSize

/-- One local relocation. -/
lemma relocateEntry_eq (hp : Placed buf info m) (hvm : info.vmSize < 2 ^ 32)
    (hi : i < dysymNlocrel buf.byte dp)
    (hbase : info.vmBase ≤ (localEntry buf.byte dp i).rAddress) (log : List LocalVisit) :
    relocateEntry (mappedInfo info sp dp) (sub64 (k.vaForPtr info.kext) info.vmBase) i
        (splice m info.kext info.vmSize (relocatedImage k info buf.byte dp im i), log) =
      some (splice m info.kext info.vmSize (relocatedImage k info buf.byte dp im (i + 1)),
        log ++ [.applied (localEntry buf.byte dp i)]) := by
  have hok := h.locals i hi
  have hslot := h.localSlot_le hvm hi
  have hentry : relocationAt
      (splice m info.kext info.vmSize (relocatedImage k info buf.byte dp im i))
      (info.locrel + i * sizeofRelocationInfo) = localEntry buf.byte dp i := by
    rw [h.locrel_eq, ← h.header_eq, Nat.add_assoc, hp.relocationAt_eq _ (h.localEntry_fits hi),
      localEntry]
  rw [← localEntry] at hok
  -- `kext_parse` has refused what the loop would skip
  have happlies : ¬ ((localEntry buf.byte dp i).rExtern = true ∨
      (localEntry buf.byte dp i).rLength ≠ 3) := by
    rw [hok.flag, hok.length]
    decide
  have haddr := slotAddress_eq (localEntry_lt _ _ _) hbase hslot hp.kextFits
  simp only [relocateEntry]
  rw [show (mappedInfo info sp dp).locrel = info.locrel from rfl, hentry, if_neg happlies,
    show slotAddress (mappedInfo info sp dp) = slotAddress info from rfl, haddr, word_splice hslot,
    storeWord_splice hslot]
  rfl

/-- What the loop of `kext_relocate` reads as its bound. -/
lemma dysymNlocrel_relocateState (hcount : word im (dp + 76) 4 = dysymNlocrel buf.byte dp)
    (hapart : ∀ i < dysymNlocrel buf.byte dp,
      Apart (slotOffset info (localEntry buf.byte dp i)) 8 (dp + 76) 4)
    (hi : i ≤ dysymNlocrel buf.byte dp) :
    dysymNlocrel (relocateState k info buf.byte dp m im i).1 (info.kext + dp) =
      dysymNlocrel buf.byte dp := by
  have hdp := h.dysymtab_end
  rw [relocateState, dysymNlocrel, Nat.add_assoc, word_splice (by omega), relocatedImage,
    word_updateWords_of_apart fun j hj => hapart j (by omega), hcount]

/-- The whole of `kext_relocate`. -/
theorem kextRelocate_eq (hp : Placed buf info m) (hvm : info.vmSize < 2 ^ 32)
    (hcount : word im (dp + 76) 4 = dysymNlocrel buf.byte dp)
    (hbase : ∀ i < dysymNlocrel buf.byte dp, info.vmBase ≤ (localEntry buf.byte dp i).rAddress)
    (hapart : ∀ i < dysymNlocrel buf.byte dp,
      Apart (slotOffset info (localEntry buf.byte dp i)) 8 (dp + 76) 4) :
    kextRelocate k (mappedInfo info sp dp) (splice m info.kext info.vmSize im) = some
        (splice m info.kext info.vmSize (imageRelocated k info buf.byte sp dp im),
          (localEntries buf.byte dp).map .applied) ∧
      nlocrelReads k (mappedInfo info sp dp) (splice m info.kext info.vmSize im) =
        List.replicate (dysymNlocrel buf.byte dp + 1) (dysymNlocrel buf.byte dp) := by
  have hdp := h.dysymtab_end
  have hsp := h.symtab_end
  have hn : dysymNlocrel buf.byte dp < 256 ^ 4 := word_lt buf.byte (dp + 76) 4
  -- the loop goes through the states `relocateState`, in each of which `nlocrel` is that of the file
  have hbound (i : ℕ) (hi : i ≤ dysymNlocrel buf.byte dp) :=
    h.dysymNlocrel_relocateState (k := k) (m := m) hcount hapart hi
  have hstep (i : ℕ) (hi : i < dysymNlocrel buf.byte dp) :
      relocateEntry (mappedInfo info sp dp) (sub64 (k.vaForPtr info.kext) info.vmBase) i
          (relocateState k info buf.byte dp m im i) =
        some (relocateState k info buf.byte dp m im (i + 1)) := by
    rw [relocateState, h.relocateEntry_eq hp hvm hi (hbase i hi), relocateState, List.range_succ,
      List.map_append, List.map_append, List.map_singleton, List.map_singleton]
  have hloop : countedLoop (fun s : Mem × List LocalVisit => dysymNlocrel s.1 (info.kext + dp))
      (relocateEntry (mappedInfo info sp dp) (sub64 (k.vaForPtr info.kext) info.vmBase)) (2 ^ 32) 0
      (splice m info.kext info.vmSize im, []) =
      some (relocateState k info buf.byte dp m im (dysymNlocrel buf.byte dp)) :=
    countedLoop_eq (S := relocateState k info buf.byte dp m im) hbound hstep (by omega)
  have hreads : nlocrelReads k (mappedInfo info sp dp) (splice m info.kext info.vmSize im) =
      List.replicate (dysymNlocrel buf.byte dp + 1) (dysymNlocrel buf.byte dp) :=
    map_countedStates (S := relocateState k info buf.byte dp m im) hbound hstep (by omega)
  refine ⟨?_, hreads⟩
  rw [kextRelocate_mapped, hloop, Option.bind_some, relocateState]
  dsimp only
  rw [Nat.add_assoc, Nat.add_assoc, storeWord_splice (by omega), storeWord_splice (by omega)]
  rfl

/-- The name that is looked up for an external relocation, and the address that is found for it, are
those of `kext_parse`. -/
lemma externalName_resolved (hi : i < dysymNextrel buf.byte dp) :
    ∃ name address, externalName buf sp (externalEntry buf.byte dp i) = some name ∧
      kernelcacheSymbolTableLookup chain name = some address ∧ address ≠ 0 ∧
      linkedSymbol chain buf sp (externalEntry buf.byte dp i) =
        ⟨externalEntry buf.byte dp i, name, address⟩ := by
  obtain ⟨-, -, -, ⟨name, address, hname, haddress, hne⟩, -⟩ := h.externals i hi
  rw [← externalEntry] at hname
  refine ⟨name, address, hname, haddress, hne, ?_⟩
  rw [linkedSymbol, show externalName buf sp (externalEntry buf.byte dp i) = some name from hname,
    Option.getD_some, haddress, Option.getD_some]

/-- The name is read from the upload, in memory, up to its terminator. -/
lemma cstring_externalName (hp : Placed buf info m) (obj : Mem) {er : RelocationInfo}
    (her : er.rSymbolnum < symNsyms buf.byte sp) {name : List UInt8}
    (hname : externalName buf sp er = some name) :
    cstring (wrapped (splice m info.kext info.vmSize obj)) (2 ^ 64) (info.header + symStroff buf.byte sp +
      word (splice m info.kext info.vmSize obj) (info.nlist + er.rSymbolnum * sizeofNlist) 4) =
        some name := by
  have hsize := hp.fileSize
  have hsymbols := h.symtab.symbols
  simp only [sizeofNlist] at hsymbols
  obtain ⟨hwrap, hsome⟩ := h.symbols er.rSymbolnum her
  have hstrx : word (splice m info.kext info.vmSize obj)
      (info.nlist + er.rSymbolnum * sizeofNlist) 4 =
        nlistStrx buf.byte (symSymoff buf.byte sp + er.rSymbolnum * sizeofNlist) := by
    rw [h.nlist_eq, ← h.header_eq, Nat.add_assoc, hp.word_file _ (by simp only [sizeofNlist]; omega),
      nlistStrx]
  rw [externalName, stringOffset, Nat.mod_eq_of_lt hwrap] at hname
  rw [hstrx, Nat.add_assoc]
  generalize symStroff buf.byte sp +
    nlistStrx buf.byte (symSymoff buf.byte sp + er.rSymbolnum * sizeofNlist) = off at *
  rw [Buffer.string?] at hname
  have hfits := hp.headerFits
  have hag : Agree (wrapped (splice m info.kext info.vmSize obj)) (info.header + off) buf.byte off
      (buf.size - off) := by
    intro c hc
    rw [wrapped, Nat.add_assoc, Nat.mod_eq_of_lt (by omega)]
    have hbyte : splice m info.kext info.vmSize obj (info.header + (off + c)) =
        buf.byte (0 + (off + c)) :=
      ((agree_splice_of_apart hp.apart).trans hp.loaded) (off + c) (by omega)
    rw [Nat.zero_add] at hbyte
    exact hbyte
  rw [← cstring_congr hag] at hname
  exact cstring_mono hname (by omega)

/-- An external relocation is read from the upload. -/
lemma relocationAt_extrel (hp : Placed buf info m) (obj : Mem) (hi : i < dysymNextrel buf.byte dp) :
    relocationAt (splice m info.kext info.vmSize obj)
      ((mappedInfo info sp dp).extrel + i * sizeofRelocationInfo) = externalEntry buf.byte dp i := by
  rw [show (mappedInfo info sp dp).extrel = info.extrel from rfl, h.extrel_eq, ← h.header_eq,
    Nat.add_assoc, hp.relocationAt_eq _ (h.externalEntry_fits hi), externalEntry]

/-- One external relocation. -/
lemma linkEntry_eq (hp : Placed buf info m) (hvm : info.vmSize < 2 ^ 32)
    (hi : i < dysymNextrel buf.byte dp)
    (hbase : info.vmBase ≤ (externalEntry buf.byte dp i).rAddress) (log : List ExternalVisit) :
    linkEntry k chain (mappedInfo info sp dp) (info.header + symStroff buf.byte sp) i
        (splice m info.kext info.vmSize (linkedImage k chain info buf sp dp im i), log) =
      some (splice m info.kext info.vmSize (linkedImage k chain info buf sp dp im (i + 1)),
        log ++ [.applied (linkedSymbol chain buf sp (externalEntry buf.byte dp i))]) := by
  obtain ⟨hflag, hlength, hsymbolnum, -, -⟩ := h.externals i hi
  obtain ⟨name, address, hname, haddress, hne, hlinked⟩ := h.externalName_resolved hi
  have hslot := h.externalSlot_le hvm hi
  rw [← externalEntry] at hflag hlength hsymbolnum
  have hentry := h.relocationAt_extrel hp (linkedImage k chain info buf sp dp im i) hi
  have happlies : ¬ ((externalEntry buf.byte dp i).rExtern = false ∨
      (externalEntry buf.byte dp i).rLength ≠ 3) := by
    rw [hflag, hlength]
    decide
  have haddr := slotAddress_eq (externalEntry_lt _ _ _) hbase hslot hp.kextFits
  have hread := h.cstring_externalName hp (linkedImage k chain info buf sp dp im i) hsymbolnum hname
  simp only [linkEntry]
  rw [hentry, if_neg happlies, show (mappedInfo info sp dp).nlist = info.nlist from rfl, hread]
  simp only [Option.bind_eq_bind, Option.bind_some]
  rw [haddress, Option.bind_some, if_neg hne,
    show slotAddress (mappedInfo info sp dp) = slotAddress info from rfl, haddr,
    storeWord_splice hslot, hlinked]
  show _ = some (splice m info.kext info.vmSize (storeWord (linkedImage k chain info buf sp dp im i)
    _ 8 (k.vaForSa (linkedSymbol chain buf sp (externalEntry buf.byte dp i)).symbolSa)), _)
  rw [hlinked]

/-- What the loop of `kext_link` reads as its bound. -/
lemma dysymNextrel_linkState (hcount : word im (dp + 68) 4 = dysymNextrel buf.byte dp)
    (hapart : ∀ i < dysymNextrel buf.byte dp,
      Apart (slotOffset info (externalEntry buf.byte dp i)) 8 (dp + 68) 4)
    (hi : i ≤ dysymNextrel buf.byte dp) :
    dysymNextrel (linkState k chain info buf sp dp m im i).1 (info.kext + dp) =
      dysymNextrel buf.byte dp := by
  have hdp := h.dysymtab_end
  rw [linkState, dysymNextrel, Nat.add_assoc, word_splice (by omega), linkedImage,
    word_updateWords_of_apart fun j hj => hapart j (by omega), hcount]

/-- The whole of `kext_link`.  Without external relocations, the names are not looked at. -/
theorem kextLink_eq (hp : Placed buf info m) (hvm : info.vmSize < 2 ^ 32)
    (hstroff : dysymNextrel buf.byte dp = 0 ∨ word im (sp + 16) 4 = symStroff buf.byte sp)
    (hcount : word im (dp + 68) 4 = dysymNextrel buf.byte dp)
    (hbase : ∀ i < dysymNextrel buf.byte dp, info.vmBase ≤ (externalEntry buf.byte dp i).rAddress)
    (hapart : ∀ i < dysymNextrel buf.byte dp,
      Apart (slotOffset info (externalEntry buf.byte dp i)) 8 (dp + 68) 4) :
    kextLink k chain (mappedInfo info sp dp) (splice m info.kext info.vmSize im) = some
        (splice m info.kext info.vmSize
          (storeWord (linkedImage k chain info buf sp dp im (dysymNextrel buf.byte dp)) (dp + 68) 4 0),
          ((externalEntries buf.byte dp).map (linkedSymbol chain buf sp)).map .applied) ∧
      nextrelReads k chain (mappedInfo info sp dp) (splice m info.kext info.vmSize im) =
        List.replicate (dysymNextrel buf.byte dp + 1) (dysymNextrel buf.byte dp) := by
  have hdp := h.dysymtab_end
  have hsp := h.symtab_end
  have hn : dysymNextrel buf.byte dp < 256 ^ 4 := word_lt buf.byte (dp + 68) 4
  have hbound (i : ℕ) (hi : i ≤ dysymNextrel buf.byte dp) :=
    h.dysymNextrel_linkState (k := k) (m := m) hcount hapart hi
  -- there is an entry to link, so that `stroff` is that of the file
  have hstrtab (i : ℕ) (hi : i < dysymNextrel buf.byte dp) :
      symStroff (splice m info.kext info.vmSize im) (info.kext + sp) = symStroff buf.byte sp := by
    rw [symStroff, Nat.add_assoc, word_splice (by omega)]
    exact hstroff.resolve_left (by omega)
  have hstep (i : ℕ) (hi : i < dysymNextrel buf.byte dp) :
      linkEntry k chain (mappedInfo info sp dp) (info.header +
          symStroff (splice m info.kext info.vmSize im) (info.kext + sp)) i
          (linkState k chain info buf sp dp m im i) =
        some (linkState k chain info buf sp dp m im (i + 1)) := by
    rw [hstrtab i hi, linkState, h.linkEntry_eq hp hvm hi (hbase i hi), linkState, List.range_succ,
      List.map_append, List.map_append, List.map_append, List.map_singleton, List.map_singleton,
      List.map_singleton]
  have hloop : countedLoop (fun s : Mem × List ExternalVisit => dysymNextrel s.1 (info.kext + dp))
      (linkEntry k chain (mappedInfo info sp dp) (info.header +
        symStroff (splice m info.kext info.vmSize im) (info.kext + sp))) (2 ^ 32) 0
      (splice m info.kext info.vmSize im, []) =
      some (linkState k chain info buf sp dp m im (dysymNextrel buf.byte dp)) :=
    countedLoop_eq (S := linkState k chain info buf sp dp m im) hbound hstep (by omega)
  have hreads : nextrelReads k chain (mappedInfo info sp dp) (splice m info.kext info.vmSize im) =
      List.replicate (dysymNextrel buf.byte dp + 1) (dysymNextrel buf.byte dp) :=
    map_countedStates (S := linkState k chain info buf sp dp m im) hbound hstep (by omega)
  refine ⟨?_, hreads⟩
  rw [kextLink_mapped, hloop, Option.bind_some, linkState]
  dsimp only
  rw [Nat.add_assoc, storeWord_splice (by omega)]
  rfl

/-- One external relocation, when the names are looked for in another place: nothing but its slot is
written, as long as some string ends there and all names can be looked up. -/
lemma linkEntry_inside (hp : Placed buf info m) (hvm : info.vmSize < 2 ^ 32)
    (hlookup : ∀ name, 0 ∉ name → ∃ address, kernelcacheSymbolTableLookup chain name = some address)
    {z : ℕ} (hz : z < 2 ^ 64) (hout : z < info.kext ∨ info.kext + info.vmSize ≤ z) (hzero : m z = 0)
    (hi : i < dysymNextrel buf.byte dp)
    (hbase : info.vmBase ≤ (externalEntry buf.byte dp i).rAddress) (strtab : ℕ)
    (log : List ExternalVisit) :
    ∃ im' visit, linkEntry k chain (mappedInfo info sp dp) strtab i
        (splice m info.kext info.vmSize im, log) =
          some (splice m info.kext info.vmSize im', log ++ [visit]) ∧
      (im' = im ∨ ∃ v, im' = storeWord im (slotOffset info (externalEntry buf.byte dp i)) 8 v) := by
  obtain ⟨hflag, hlength, -, -, -⟩ := h.externals i hi
  have hslot := h.externalSlot_le hvm hi
  rw [← externalEntry] at hflag hlength
  have happlies : ¬ ((externalEntry buf.byte dp i).rExtern = false ∨
      (externalEntry buf.byte dp i).rLength ≠ 3) := by
    rw [hflag, hlength]
    decide
  have haddr := slotAddress_eq (externalEntry_lt _ _ _) hbase hslot hp.kextFits
  -- a string starts at every address, since memory is not without zeros
  have hstring (a : ℕ) : ∃ name, cstring (wrapped (splice m info.kext info.vmSize im)) (2 ^ 64) a =
      some name ∧ 0 ∉ name := by
    refine exists_cstring (i := (z + 2 ^ 64 - a % 2 ^ 64) % 2 ^ 64) (by omega) ?_
    have hat : (a + (z + 2 ^ 64 - a % 2 ^ 64) % 2 ^ 64) % 2 ^ 64 = z := by omega
    rw [wrapped, hat, splice_apply_of_out hout, hzero]
  simp only [linkEntry]
  rw [h.relocationAt_extrel hp im hi, if_neg happlies]
  obtain ⟨name, hname, hterm⟩ := hstring (strtab + word (splice m info.kext info.vmSize im)
    ((mappedInfo info sp dp).nlist + (externalEntry buf.byte dp i).rSymbolnum * sizeofNlist) 4)
  obtain ⟨address, haddress⟩ := hlookup name hterm
  simp only [hname, haddress, Option.bind_eq_bind, Option.bind_some]
  split_ifs with hunresolved
  · exact ⟨im, _, rfl, Or.inl rfl⟩
  · rw [show slotAddress (mappedInfo info sp dp) = slotAddress info from rfl, haddr,
      storeWord_splice hslot]
    exact ⟨_, _, rfl, Or.inr ⟨_, rfl⟩⟩

/-- So `kext_link` writes to the image only, also when `stroff` is not that of the file. -/
theorem kextLink_inside (hp : Placed buf info m) (hvm : info.vmSize < 2 ^ 32)
    (hlookup : ∀ name, 0 ∉ name → ∃ address, kernelcacheSymbolTableLookup chain name = some address)
    {z : ℕ} (hz : z < 2 ^ 64) (hout : z < info.kext ∨ info.kext + info.vmSize ≤ z) (hzero : m z = 0)
    (hcount : word im (dp + 68) 4 = dysymNextrel buf.byte dp)
    (hbase : ∀ i < dysymNextrel buf.byte dp, info.vmBase ≤ (externalEntry buf.byte dp i).rAddress)
    (hapart : ∀ i < dysymNextrel buf.byte dp,
      Apart (slotOffset info (externalEntry buf.byte dp i)) 8 (dp + 68) 4) :
    ∃ im' visits, kextLink k chain (mappedInfo info sp dp) (splice m info.kext info.vmSize im) =
      some (splice m info.kext info.vmSize im', visits) := by
  have hdp := h.dysymtab_end
  have hn : dysymNextrel buf.byte dp < 256 ^ 4 := word_lt buf.byte (dp + 68) 4
  have hinside : ∃ s', countedLoop (fun s : Mem × List ExternalVisit =>
        dysymNextrel s.1 (info.kext + dp))
      (linkEntry k chain (mappedInfo info sp dp) (info.header +
        symStroff (splice m info.kext info.vmSize im) (info.kext + sp))) (2 ^ 32) 0
      (splice m info.kext info.vmSize im, []) = some s' ∧
        ∃ im', s'.1 = splice m info.kext info.vmSize im' ∧
          word im' (dp + 68) 4 = dysymNextrel buf.byte dp := by
    -- the invariant: only the image has changed, and in it not `nextrel`
    let P : ℕ → Mem × List ExternalVisit → Prop := fun _ s =>
      ∃ im', s.1 = splice m info.kext info.vmSize im' ∧ word im' (dp + 68) 4 = dysymNextrel buf.byte dp
    have hfuel : dysymNextrel buf.byte dp ≤ 0 + 2 ^ 32 := by omega
    refine countedLoop_of_invariant (P := P) ?_ ?_ hfuel (Nat.zero_le _) ⟨im, rfl, hcount⟩
    · rintro i s - ⟨im', hs, hword⟩
      rw [hs, dysymNextrel, Nat.add_assoc, word_splice (by omega), hword]
    · rintro i ⟨_, log⟩ hi ⟨im₁, rfl, hword⟩
      obtain ⟨im', visit, hstep, him'⟩ := h.linkEntry_inside (k := k) hp hvm hlookup hz hout hzero hi
        (hbase i hi) _ log
      refine ⟨_, hstep, im', rfl, ?_⟩
      rcases him' with rfl | ⟨v, rfl⟩
      · exact hword
      · rw [word_storeWord_of_apart (hapart i hi), hword]
  obtain ⟨⟨m', visits⟩, hloop, im', him', -⟩ := hinside
  refine ⟨storeWord im' (dp + 68) 4 0, visits, ?_⟩
  rw [kextLink_mapped, hloop, Option.bind_some]
  dsimp only at him' ⊢
  rw [him', Nat.add_assoc, storeWord_splice (by omega)]

end Accepted

end Loops

end VulnerableKext.Kext

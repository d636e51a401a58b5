import VulnerableKext.Kext.Parse

/-!
# Mapping, relocating and linking a kernel extension

What happens to an accepted upload before it is announced to the kernel.  From here on
everything is an address of one memory: the upload, the image that is allocated for the
kernel extension, and whatever lies around them.  After `kext_map` the pointers to the
load commands lead into the image, so the counters that bound the loops of `kext_relocate`
and `kext_link` are read from the image that these loops write to.

The loops keep a list of the entries that they visit, with what becomes of each of them.  It
is not part of the program.
-/

namespace VulnerableKext.Kext

open Memory Device

/-- The variables `mh_execute_header` and `kernel_slide`. -/
structure KernelLayout where
  mhExecuteHeader : ℕ
  kernelSlide : ℕ

namespace KernelLayout

variable (k : KernelLayout)

/-- `sa_for_va` -/
def saForVa (va : ℕ) : ℕ := sub64 va k.kernelSlide

/-- `va_for_sa` -/
def vaForSa (sa : ℕ) : ℕ := (sa + k.kernelSlide) % 2 ^ 64

/-- `ptr_for_sa` -/
def ptrForSa (sa : ℕ) : ℕ := (sub64 sa 0xfffffff007004000 + k.mhExecuteHeader) % 2 ^ 64

/-- `ptr_for_va` -/
def ptrForVa (va : ℕ) : ℕ := k.ptrForSa (k.saForVa va)

/-- `sa_for_ptr` -/
def saForPtr (ptr : ℕ) : ℕ := (sub64 ptr k.mhExecuteHeader + 0xfffffff007004000) % 2 ^ 64

/-- `va_for_ptr` -/
def vaForPtr (ptr : ℕ) : ℕ := k.vaForSa (k.saForPtr ptr)

end KernelLayout

/-! ## Allocation -/

/-- The size of the image, rounded up to a page. -/
def allocSize (vmSize : ℕ) : ℕ := (vmSize + 0x3fff) % 2 ^ 64 / 0x4000 * 0x4000

/-- Allocate memory for the kernel extension.  `allocStatic` gives the address for a size. -/
def kextAlloc (allocStatic : ℕ → Option ℕ) (info : KextLoadInfo) : Option KextLoadInfo :=
  let size := allocSize info.vmSize
  if size % 2 ^ 32 < info.vmSize then none
  else (allocStatic (size % 2 ^ 32)).map fun alloc => { info with kext := alloc }

/-! ## Mapping -/

/-- Copy the file contents of a segment into the image. -/
def copySegment (info : KextLoadInfo) (m : Mem) (lc : ℕ) : Mem :=
  if lcCmd m lc = LC_SEGMENT_64 then
    let vmseg := (info.kext + sub64 (segVmaddr m lc) info.vmBase) % 2 ^ 64
    let fileseg := (info.header + segFileoff m lc) % 2 ^ 64
    memcpy m vmseg fileseg (segFilesize m lc)
  else m

/-- One step of the first loop, over the load commands of the upload. -/
def mapSegment (info : KextLoadInfo) (_ : ℕ) (s : Mem × ℕ) : Option (Mem × ℕ) :=
  let (m, lc) := s
  let m := copySegment info m lc
  some (m, lc + lcCmdsize m lc)

/-- Update the address of a segment. -/
def slideSegment (k : KernelLayout) (info : KextLoadInfo) (m : Mem) (lc : ℕ) : Mem :=
  if lcCmd m lc = LC_SEGMENT_64 then
    storeWord m (lc + 24) 8 ((sub64 (segVmaddr m lc) info.vmBase + k.saForPtr info.kext) % 2 ^ 64)
  else m

/-- One step of the second loop, over the mapped load commands. -/
def updateVmaddr (k : KernelLayout) (info : KextLoadInfo) (_ : ℕ) (s : Mem × ℕ) :
    Option (Mem × ℕ) :=
  let (m, lc) := s
  let m := slideSegment k info m lc
  some (m, lc + lcCmdsize m lc)

/-- The fields `address` and `size` of the kmod_info. -/
def kmodInfoAddress : ℕ := 156
def kmodInfoSize : ℕ := 164

/-- Map the kernel extension by copying the "file" data to the kext allocation. -/
def kextMap (k : KernelLayout) (info : KextLoadInfo) (m : Mem) : Option (Mem × KextLoadInfo) := do
  let (m, _) ← countedLoop (fun s => mhNcmds s.1 info.header) (mapSegment info) (2 ^ 32) 0
    (m, info.header + sizeofHeader)
  let machOSlide := sub64 info.kext info.header
  let info := { info with
    symtab := (info.symtab + machOSlide) % 2 ^ 64
    dysymtab := (info.dysymtab + machOSlide) % 2 ^ 64 }
  let (m, _) ← countedLoop (fun s => mhNcmds s.1 info.kext) (updateVmaddr k info) (2 ^ 32) 0
    (m, info.kext + sizeofHeader)
  let vmoff := sub64 info.kmodInfo info.vmBase
  let info := { info with kmodInfo := (info.kext + vmoff) % 2 ^ 64 }
  let m := storeWord m (info.kmodInfo + kmodInfoAddress) 8 (k.saForPtr info.kext)
  let m := storeWord m (info.kmodInfo + kmodInfoSize) 8 info.vmSize
  return (m, info)

/-! ## Relocating -/

/-- The pointer that a relocation changes. -/
def slotAddress (info : KextLoadInfo) (rAddress : ℕ) : ℕ :=
  (info.kext + sub64 rAddress info.vmBase) % 2 ^ 64

/-- A local relocation that is visited. -/
inductive LocalVisit
  | skipped (lr : RelocationInfo)
  | applied (lr : RelocationInfo)
deriving DecidableEq, Repr

/-- Visit the local relocation at `idx`. -/
def relocateEntry (info : KextLoadInfo) (kextVaSlide idx : ℕ) (s : Mem × List LocalVisit) :
    Option (Mem × List LocalVisit) :=
  let (m, log) := s
  let lr := relocationAt m (info.locrel + idx * sizeofRelocationInfo)
  if lr.rExtern = true ∨ lr.rLength ≠ 3 then some (m, log ++ [.skipped lr])
  else
    let relocPtr := slotAddress info lr.rAddress
    some (storeWord m relocPtr 8 ((word m relocPtr 8 + kextVaSlide) % 2 ^ 64), log ++ [.applied lr])

/-- Apply local relocations relative to the kernel extension's true load address. -/
def kextRelocate (k : KernelLayout) (info : KextLoadInfo) (m : Mem) :
    Option (Mem × List LocalVisit) := do
  let kextVaSlide := sub64 (k.vaForPtr info.kext) info.vmBase
  let (m, log) ← countedLoop (fun s => dysymNlocrel s.1 info.dysymtab)
    (relocateEntry info kextVaSlide) (2 ^ 32) 0 (m, [])
  let m := storeWord m (info.dysymtab + 76) 4 0
  return (storeWord m (info.symtab + 12) 4 0, log)

/-! ## Linking -/

/-- An external relocation, the name that is looked up for it and the address that is found. -/
structure LinkedSymbol where
  er : RelocationInfo
  name : List UInt8
  symbolSa : ℕ
deriving DecidableEq, Repr

/-- An external relocation that is visited.  An unresolved one is skipped after the lookup. -/
inductive ExternalVisit
  | skipped (er : RelocationInfo)
  | unresolved (er : RelocationInfo) (name : List UInt8)
  | applied (l : LinkedSymbol)
deriving DecidableEq, Repr

/-- Memory as it is read through a pointer of 64 bits. -/
def wrapped (m : Mem) : Mem := fun b => m (b % 2 ^ 64)

/-- Visit the external relocation at `idx`.  The name is read from memory up to its terminator. -/
def linkEntry (k : KernelLayout) (chain : List KernelcacheSymbolTable) (info : KextLoadInfo)
    (strtab idx : ℕ) (s : Mem × List ExternalVisit) : Option (Mem × List ExternalVisit) :=
  let (m, log) := s
  let er := relocationAt m (info.extrel + idx * sizeofRelocationInfo)
  if er.rExtern = false ∨ er.rLength ≠ 3 then some (m, log ++ [.skipped er])
  else do
    let nl := info.nlist + er.rSymbolnum * sizeofNlist
    let name ← cstring (wrapped m) (2 ^ 64) (strtab + word m nl 4)
    let symbolSa ← kernelcacheSymbolTableLookup chain name
    if symbolSa = 0 then some (m, log ++ [.unresolved er name])
    else
      some (storeWord m (slotAddress info er.rAddress) 8 (k.vaForSa symbolSa),
        log ++ [.applied ⟨er, name, symbolSa⟩])

/-- Resolve symbol references from the kernel extension to the kernelcache using the preloaded
symbol tables. -/
def kextLink (k : KernelLayout) (chain : List KernelcacheSymbolTable) (info : KextLoadInfo)
    (m : Mem) : Option (Mem × List ExternalVisit) := do
  let strtab := info.header + symStroff m info.symtab
  let (m, log) ← countedLoop (fun s => dysymNextrel s.1 info.dysymtab)
    (linkEntry k chain info strtab) (2 ^ 32) 0 (m, [])
  return (storeWord m (info.dysymtab + 68) 4 0, log)

end VulnerableKext.Kext

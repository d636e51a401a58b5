import VulnerableKext.Device.SymbolTable
import VulnerableKext.Lib.Checked
import VulnerableKext.Lib.Memory

/-!
# The validation of kernel extensions

`kext_parse` reads an uploaded Mach-O file in the USB buffer.  Reads are checked
against the size of the upload: `fault` is a read outside of it, and `tableFault` a lookup
that reads outside of the symbol tables.  Pointers into the load commands are offsets from the
start of the file, and become addresses in the `KextLoadInfo` that is returned.
-/

namespace VulnerableKext.Kext

open Memory Checked Device

/-- The messages with which an upload is rejected.  The names of unresolved symbols are printed
as well; for a relocation with a bad address, the range that it was compared with and its
`r_address` are kept. -/
inductive KextError
  | notMachO64 | notKext | invalidLoadCommandsSize | invalidLoadCommands | segmentNotPermitted
  | segmentBadSize | segmentVmWrap | segmentHeaderNotMapped | segmentNotContiguous
  | symtabRepeated | symtabBadSize | symtabBadSymbols | symtabBadStrings
  | dysymtabRepeated | dysymtabBadSize | dysymtabBadExternalRelocations
  | dysymtabBadLocalRelocations
  | segmentRequired | symtabRequired | dysymtabRequired
  | symtabBadString | symtabBadAddress
  | kmodInfoRepeated | kmodInfoBadType | kmodInfoBadAddress | kmodInfoRequired
  | externalNotExternal | externalBadSize | externalBadSymbol
  | externalBadAddress (vmBase vmSize rAddress : ℕ)
  | couldNotResolveSymbols (names : List (List UInt8))
  | localExternal | localBadSize
  | localBadAddress (vmBase vmSize rAddress : ℕ)
  /-- A read outside of the upload. -/
  | fault
  /-- A lookup that reads outside of the symbol tables. -/
  | tableFault
deriving DecidableEq, Repr

/-- The uploaded file in the USB buffer, indexed from its first byte. -/
structure Buffer where
  size : ℕ
  byte : Mem

/-- Read a little-endian field. -/
def Buffer.get (buf : Buffer) (off n : ℕ) : Except KextError ℕ :=
  if off + n ≤ buf.size then .ok (word buf.byte off n) else .error .fault

/-- Read a string that ends inside the file. -/
def Buffer.string? (buf : Buffer) (off : ℕ) : Option (List UInt8) :=
  cstring buf.byte (buf.size - off) off

/-! ## Constants of the Mach-O format -/

def MH_MAGIC_64 : ℕ := 0xfeedfacf
def MH_KEXT_BUNDLE : ℕ := 0xb
def LC_SEGMENT : ℕ := 0x1
def LC_SYMTAB : ℕ := 0x2
def LC_DYSYMTAB : ℕ := 0xb
def LC_SEGMENT_64 : ℕ := 0x19
def LC_SEGMENT_SPLIT_INFO : ℕ := 0x1e
def N_STAB : ℕ := 0xe0
def N_TYPE : ℕ := 0x0e
def N_SECT : ℕ := 0xe

/-- `sizeof` of the structures that are read. -/
def sizeofHeader : ℕ := 32
def sizeofSegmentCommand : ℕ := 72
def sizeofSymtabCommand : ℕ := 24
def sizeofDysymtabCommand : ℕ := 80
def sizeofNlist : ℕ := 16
def sizeofRelocationInfo : ℕ := 8
def sizeofKmodInfo : ℕ := 196

/-! ## Fields of the header and of load commands -/

def mhNcmds (m : Mem) (mh : ℕ) : ℕ := word m (mh + 16) 4
def mhSizeofcmds (m : Mem) (mh : ℕ) : ℕ := word m (mh + 20) 4

def lcCmd (m : Mem) (lc : ℕ) : ℕ := word m lc 4
def lcCmdsize (m : Mem) (lc : ℕ) : ℕ := word m (lc + 4) 4

/-- Fields of an `LC_SEGMENT_64`. -/
def segVmaddr (m : Mem) (lc : ℕ) : ℕ := word m (lc + 24) 8
def segVmsize (m : Mem) (lc : ℕ) : ℕ := word m (lc + 32) 8
def segFileoff (m : Mem) (lc : ℕ) : ℕ := word m (lc + 40) 8
def segFilesize (m : Mem) (lc : ℕ) : ℕ := word m (lc + 48) 8

/-- Fields of an `LC_SYMTAB`. -/
def symSymoff (m : Mem) (lc : ℕ) : ℕ := word m (lc + 8) 4
def symNsyms (m : Mem) (lc : ℕ) : ℕ := word m (lc + 12) 4
def symStroff (m : Mem) (lc : ℕ) : ℕ := word m (lc + 16) 4

/-- Fields of an `LC_DYSYMTAB`. -/
def dysymExtreloff (m : Mem) (lc : ℕ) : ℕ := word m (lc + 64) 4
def dysymNextrel (m : Mem) (lc : ℕ) : ℕ := word m (lc + 68) 4
def dysymLocreloff (m : Mem) (lc : ℕ) : ℕ := word m (lc + 72) 4
def dysymNlocrel (m : Mem) (lc : ℕ) : ℕ := word m (lc + 76) 4

/-! ## The load commands -/

/-- The variables of the loop over the load commands. -/
structure ScanState where
  vmaddr : ℕ
  foundFirstSegment : Bool
  vmBase : ℕ
  symtab : Option ℕ
  dysymtab : Option ℕ
deriving DecidableEq, Repr

def ScanState.initial : ScanState := ⟨0, false, 0, none, none⟩

/-- If this is the first segment, set the base address. -/
def setBase (st : ScanState) (sizeofcmds vmaddr fileoff filesize : ℕ) :
    Except KextError ScanState :=
  if st.foundFirstSegment then .ok st
  else do
    guard (fileoff = 0 ∧ sizeofHeader + sizeofcmds ≤ filesize) .segmentHeaderNotMapped
    return { st with foundFirstSegment := true, vmaddr, vmBase := vmaddr }

/-- Validate an `LC_SEGMENT_64`.  Segments must be contiguous. -/
def scanSegment (buf : Buffer) (sizeofcmds cmd cmdsize lc : ℕ) (st : ScanState) :
    Except KextError ScanState :=
  if cmd ≠ LC_SEGMENT_64 then .ok st
  else do
    guard (sizeofSegmentCommand ≤ cmdsize) .segmentBadSize
    let vmaddr ← buf.get (lc + 24) 8
    let vmsize ← buf.get (lc + 32) 8
    let fileoff ← buf.get (lc + 40) 8
    let filesize ← buf.get (lc + 48) 8
    guard (fileoff ≤ buf.size ∧ (fileoff + filesize) % 2 ^ 64 ≤ buf.size ∧ filesize ≤ vmsize)
      .segmentBadSize
    guard (vmaddr ≤ (vmaddr + vmsize) % 2 ^ 64) .segmentVmWrap
    let st ← setBase st sizeofcmds vmaddr fileoff filesize
    guard (vmaddr = st.vmaddr) .segmentNotContiguous
    return { st with vmaddr := (st.vmaddr + vmsize) % 2 ^ 64 }

/-- Validate the symbol table. -/
def scanSymtab (buf : Buffer) (cmd cmdsize lc : ℕ) (st : ScanState) : Except KextError ScanState :=
  if cmd ≠ LC_SYMTAB then .ok st
  else do
    guard (st.symtab = none) .symtabRepeated
    guard (sizeofSymtabCommand ≤ cmdsize) .symtabBadSize
    let nsyms ← buf.get (lc + 12) 4
    let symoff ← buf.get (lc + 8) 4
    guard (symoff ≤ buf.size ∧ symoff + nsyms * sizeofNlist ≤ buf.size) .symtabBadSymbols
    let stroff ← buf.get (lc + 16) 4
    guard (stroff < buf.size) .symtabBadStrings
    return { st with symtab := some lc }

/-- Validate the dysymtab command. -/
def scanDysymtab (buf : Buffer) (cmd cmdsize lc : ℕ) (st : ScanState) :
    Except KextError ScanState :=
  if cmd ≠ LC_DYSYMTAB then .ok st
  else do
    guard (st.dysymtab = none) .dysymtabRepeated
    guard (sizeofDysymtabCommand ≤ cmdsize) .dysymtabBadSize
    let nextrel ← buf.get (lc + 68) 4
    let extreloff ← buf.get (lc + 64) 4
    guard (extreloff ≤ buf.size ∧ extreloff + nextrel * sizeofRelocationInfo ≤ buf.size)
      .dysymtabBadExternalRelocations
    let nlocrel ← buf.get (lc + 76) 4
    let locreloff ← buf.get (lc + 72) 4
    guard (locreloff ≤ buf.size ∧ locreloff + nlocrel * sizeofRelocationInfo ≤ buf.size)
      .dysymtabBadLocalRelocations
    return { st with dysymtab := some lc }

/-- Destroy `LC_SEGMENT_SPLIT_INFO`. -/
def destroySplitInfo (buf : Buffer) (cmd lc : ℕ) : Buffer :=
  if cmd = LC_SEGMENT_SPLIT_INFO then
    { buf with byte := storeWord buf.byte lc 4 (cmd ^^^ 0x41000000) }
  else buf

/-- One load command.  The next one starts behind it. -/
def scanCommand (buf : Buffer) (sizeofcmds lc : ℕ) (st : ScanState) :
    Except KextError (Buffer × ScanState × ℕ) := do
  guard (lc + 8 ≤ sizeofHeader + sizeofcmds) .invalidLoadCommands
  let cmdsize ← buf.get (lc + 4) 4
  guard (lc + cmdsize ≤ sizeofHeader + sizeofcmds) .invalidLoadCommands
  let cmd ← buf.get lc 4
  guard (cmd ≠ LC_SEGMENT) .segmentNotPermitted
  let buf := destroySplitInfo buf cmd lc
  let cmd ← buf.get lc 4
  let st ← scanSegment buf sizeofcmds cmd cmdsize lc st
  let st ← scanSymtab buf cmd cmdsize lc st
  let st ← scanDysymtab buf cmd cmdsize lc st
  return (buf, st, lc + cmdsize)

/-- Iterate the load commands. -/
def scanCommands (sizeofcmds : ℕ) :
    (n : ℕ) → Buffer → (lc : ℕ) → ScanState → Except KextError (Buffer × ScanState)
  | 0, buf, _, st => .ok (buf, st)
  | n + 1, buf, lc, st => do
    let (buf, st, lc) ← scanCommand buf sizeofcmds lc st
    scanCommands sizeofcmds n buf lc st

/-! ## The symbols -/

/-- A symbol that is not a debugging symbol and is defined in a section. -/
def IsSectionSymbol (nType : ℕ) : Prop := nType &&& N_STAB = 0 ∧ nType &&& N_TYPE = N_SECT

instance (nType : ℕ) : Decidable (IsSectionSymbol nType) := inferInstanceAs (Decidable (_ ∧ _))

def kmodInfoName : List UInt8 := "_kmod_info".toList.map fun c => UInt8.ofNat c.toNat

/-- Verify that the kmod_info is the right type and fully in-bounds. -/
def checkKmodInfo (vmEnd nType nValue kmodInfo : ℕ) : Except KextError ℕ := do
  guard (kmodInfo = 0) .kmodInfoRepeated
  guard (IsSectionSymbol nType) .kmodInfoBadType
  guard (nValue ≤ (nValue + sizeofKmodInfo) % 2 ^ 64 ∧ (nValue + sizeofKmodInfo) % 2 ^ 64 ≤ vmEnd)
    .kmodInfoBadAddress
  return nValue

/-- The name of a symbol; the addition is done in 32 bits. -/
def stringOffset (stroff nStrx : ℕ) : ℕ := (stroff + nStrx) % 2 ^ 32

/-- Check one symbol.  The last argument and the result are the address of the kmod_info. -/
def checkSymbol (buf : Buffer) (vmBase vmEnd symtabStroff nl kmodInfo : ℕ) :
    Except KextError ℕ := do
  let nStrx ← buf.get nl 4
  let stroff := stringOffset symtabStroff nStrx
  guard (symtabStroff ≤ stroff ∧ stroff < buf.size) .symtabBadString
  let name ← (buf.string? stroff).elim (.error .symtabBadString) .ok
  let nType ← buf.get (nl + 4) 1
  let nValue ← buf.get (nl + 8) 8
  guard (IsSectionSymbol nType → vmBase ≤ nValue ∧ nValue ≤ vmEnd) .symtabBadAddress
  if name = kmodInfoName then checkKmodInfo vmEnd nType nValue kmodInfo else .ok kmodInfo

/-- Check the `LC_SYMTAB` strings, and find the `_kmod_info` symbol. -/
def checkSymbols (buf : Buffer) (vmBase vmEnd symtabStroff : ℕ) :
    (n nl kmodInfo : ℕ) → Except KextError ℕ
  | 0, _, kmodInfo => .ok kmodInfo
  | n + 1, nl, kmodInfo => do
    let kmodInfo ← checkSymbol buf vmBase vmEnd symtabStroff nl kmodInfo
    checkSymbols buf vmBase vmEnd symtabStroff n (nl + sizeofNlist) kmodInfo

/-! ## The relocations -/

/-- A `relocation_info`.  The address is the sign-extended `r_address`. -/
structure RelocationInfo where
  rAddress : ℕ
  rSymbolnum : ℕ
  rLength : ℕ
  rExtern : Bool
deriving DecidableEq, Repr

/-- The conversion of an `int32_t` to a `uint64_t`. -/
def signExtend (a : ℕ) : ℕ := if a < 2 ^ 31 then a else a + (2 ^ 64 - 2 ^ 32)

/-- The entry at `a`. -/
def relocationAt (m : Mem) (a : ℕ) : RelocationInfo :=
  let bits := word m (a + 4) 4
  ⟨signExtend (word m a 4), bits % 2 ^ 24, bits / 2 ^ 25 % 4, bits / 2 ^ 27 % 2 = 1⟩

def Buffer.relocation (buf : Buffer) (off : ℕ) : Except KextError RelocationInfo :=
  if off + sizeofRelocationInfo ≤ buf.size then .ok (relocationAt buf.byte off)
  else .error .fault

/-- The bounds check on the address of a relocation of 8 bytes. -/
def AddressInBounds (vmBase vmSize rAddress : ℕ) : Prop :=
  let vmAddr := (vmBase + rAddress) % 2 ^ 64
  vmBase ≤ vmAddr ∧ vmAddr ≤ vmSize ∧ (vmAddr + 8) % 2 ^ 64 ≤ vmSize

instance (vmBase vmSize rAddress : ℕ) : Decidable (AddressInBounds vmBase vmSize rAddress) :=
  inferInstanceAs (Decidable (_ ∧ _ ∧ _))

/-- A lookup in the chain of symbol tables. -/
def lookupSymbol (chain : List KernelcacheSymbolTable) (name : List UInt8) : Except KextError ℕ :=
  (kernelcacheSymbolTableLookup chain name).elim (.error .tableFault) .ok

/-- Validate an external relocation; the result is the name if it could not be resolved. -/
def checkExternal (buf : Buffer) (chain : List KernelcacheSymbolTable)
    (vmBase vmSize nsyms symtabStroff nlist : ℕ) (er : RelocationInfo) :
    Except KextError (List (List UInt8)) := do
  guard (er.rExtern = true) .externalNotExternal
  guard (er.rLength = 3) .externalBadSize
  guard (er.rSymbolnum < nsyms) .externalBadSymbol
  let nStrx ← buf.get (nlist + er.rSymbolnum * sizeofNlist) 4
  let name ← (buf.string? (stringOffset symtabStroff nStrx)).elim (.error .fault) .ok
  let resolved ← lookupSymbol chain name
  if resolved = 0 then .ok [name]
  else do
    guard (AddressInBounds vmBase vmSize er.rAddress)
      (.externalBadAddress vmBase vmSize er.rAddress)
    return []

/-- Validate the external relocations; the result lists the names that could not be resolved. -/
def checkExternals (buf : Buffer) (chain : List KernelcacheSymbolTable)
    (vmBase vmSize nsyms symtabStroff nlist : ℕ) :
    (n extrel : ℕ) → Except KextError (List (List UInt8))
  | 0, _ => .ok []
  | n + 1, extrel => do
    let er ← buf.relocation extrel
    let missing ← checkExternal buf chain vmBase vmSize nsyms symtabStroff nlist er
    let rest ← checkExternals buf chain vmBase vmSize nsyms symtabStroff nlist n
      (extrel + sizeofRelocationInfo)
    return missing ++ rest

/-- Validate a local relocation. -/
def checkLocal (vmBase vmSize : ℕ) (lr : RelocationInfo) : Except KextError Unit := do
  guard (lr.rExtern = false) .localExternal
  guard (lr.rLength = 3) .localBadSize
  guard (AddressInBounds vmBase vmSize lr.rAddress) (.localBadAddress vmBase vmSize lr.rAddress)

/-- Validate the local relocations. -/
def checkLocals (buf : Buffer) (vmBase vmSize : ℕ) : (n locrel : ℕ) → Except KextError Unit
  | 0, _ => .ok ()
  | n + 1, locrel => do
    let lr ← buf.relocation locrel
    checkLocal vmBase vmSize lr
    checkLocals buf vmBase vmSize n (locrel + sizeofRelocationInfo)

/-! ## The whole validation -/

/-- Load information for a kernel extension.  All pointers are addresses; `kext` is set by
`kext_alloc`, and `kmodInfo` is the static address of the struct until `kext_map`. -/
structure KextLoadInfo where
  header : ℕ
  kext : ℕ
  fileSize : ℕ
  vmSize : ℕ
  vmBase : ℕ
  kmodInfo : ℕ
  symtab : ℕ
  dysymtab : ℕ
  nlist : ℕ
  extrel : ℕ
  locrel : ℕ
deriving DecidableEq, Repr

/-- The checks that need the load commands, whose state is `st`. -/
def parseTables (chain : List KernelcacheSymbolTable) (header : ℕ) (buf : Buffer) (st : ScanState) :
    Except KextError KextLoadInfo := do
  let vmEnd := st.vmaddr
  let vmSize := (vmEnd + 2 ^ 64 - st.vmBase) % 2 ^ 64
  guard (st.foundFirstSegment = true) .segmentRequired
  let symtab ← st.symtab.elim (.error .symtabRequired) .ok
  let dysymtab ← st.dysymtab.elim (.error .dysymtabRequired) .ok
  let nlist ← buf.get (symtab + 8) 4
  let nsyms ← buf.get (symtab + 12) 4
  let stroff ← buf.get (symtab + 16) 4
  let kmodInfo ← checkSymbols buf st.vmBase vmEnd stroff nsyms nlist 0
  guard (kmodInfo ≠ 0) .kmodInfoRequired
  let extrel ← buf.get (dysymtab + 64) 4
  let nextrel ← buf.get (dysymtab + 68) 4
  let missing ← checkExternals buf chain st.vmBase vmSize nsyms stroff nlist nextrel extrel
  guard (missing = []) (.couldNotResolveSymbols missing)
  let locrel ← buf.get (dysymtab + 72) 4
  let nlocrel ← buf.get (dysymtab + 76) 4
  checkLocals buf st.vmBase vmSize nlocrel locrel
  return {
    header, kext := 0, fileSize := buf.size, vmSize, vmBase := st.vmBase, kmodInfo
    symtab := header + symtab, dysymtab := header + dysymtab, nlist := header + nlist
    extrel := header + extrel, locrel := header + locrel }

/-- Parse the kernel extension Mach-O to validate it and populate the load information. -/
def kextParse (chain : List KernelcacheSymbolTable) (header : ℕ) (buf : Buffer) :
    Except KextError (Buffer × KextLoadInfo) := do
  let magic ← buf.get 0 4
  guard (magic = MH_MAGIC_64) .notMachO64
  let filetype ← buf.get 12 4
  guard (filetype = MH_KEXT_BUNDLE) .notKext
  let sizeofcmds ← buf.get 20 4
  guard (sizeofHeader + sizeofcmds ≤ buf.size) .invalidLoadCommandsSize
  let ncmds ← buf.get 16 4
  let (buf, st) ← scanCommands sizeofcmds ncmds buf sizeofHeader .initial
  let info ← parseTables chain header buf st
  return (buf, info)

end VulnerableKext.Kext

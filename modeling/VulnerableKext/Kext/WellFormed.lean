import VulnerableKext.Kext.LoadCommands
import VulnerableKext.Kext.ParseReads
import VulnerableKext.Kext.SymbolChecks

/-!
# Which files are accepted

`KextFile` says what a kernel extension is for the loader, and what it finds in it.  It is the
condition under which `kext_parse` returns true: whatever it establishes, and nothing else, makes
a file acceptable.
-/

namespace VulnerableKext.Kext

open Memory Checked Device Latest

variable {size sizeofcmds n i j k nl sp dp vmBase vmEnd vmSize stroff nsyms nlist : ℕ}
  {buf buf' : Buffer} {chain : List KernelcacheSymbolTable} {header : ℕ} {info : KextLoadInfo}

/-! ## Symbols -/

instance (buf : Buffer) (stroff nl : ℕ) : Decidable (NamedKmodInfo buf stroff nl) :=
  inferInstanceAs (Decidable (_ = _))

/-- A symbol passes its checks, apart from the one that there is no other `_kmod_info`. -/
structure SymbolFits (buf : Buffer) (vmBase vmEnd stroff nl : ℕ) : Prop where
  name : SymbolOk buf stroff nl
  inSection : IsSectionSymbol (nlistType buf.byte nl) →
    vmBase ≤ nlistValue buf.byte nl ∧ nlistValue buf.byte nl ≤ vmEnd
  kmodInfo : NamedKmodInfo buf stroff nl → IsSectionSymbol (nlistType buf.byte nl) ∧
    nlistValue buf.byte nl + sizeofKmodInfo ≤ vmEnd

lemma string?_lt {off : ℕ} (h : (buf.string? off).isSome) : off < buf.size := by
  by_contra hno
  rw [Buffer.string?, Nat.sub_eq_zero_of_le (by omega)] at h
  cases h

section Symbols

variable (hstroff : stroff < 2 ^ 32) (hvmEnd : vmEnd < 2 ^ 64)
include hstroff hvmEnd

lemma checkSymbol_eq_ok_iff {k' : ℕ} (hnl : nl + sizeofNlist ≤ buf.size) :
    checkSymbol buf vmBase vmEnd stroff nl k = .ok k' ↔
      SymbolFits buf vmBase vmEnd stroff nl ∧ (NamedKmodInfo buf stroff nl → k = 0) ∧
        k' = if NamedKmodInfo buf stroff nl then nlistValue buf.byte nl else k := by
  constructor
  · intro h
    obtain ⟨hname, -⟩ := checkSymbol_spec hstroff h
    obtain ⟨hsect, ⟨hno, rfl⟩ | ⟨hnamed, hk, hs, hend, rfl⟩⟩ := checkSymbol_cases hstroff h
    · exact ⟨⟨hname, hsect, fun hnamed => absurd hnamed hno⟩, fun hnamed => absurd hnamed hno,
        by rw [if_neg hno]⟩
    · exact ⟨⟨hname, hsect, fun _ => ⟨hs, hend⟩⟩, fun _ => hk, by rw [if_pos hnamed]⟩
  · rintro ⟨⟨⟨hwrap, hname⟩, hsect, hkmod⟩, hk, rfl⟩
    simp only [sizeofNlist] at hnl
    have hlt := string?_lt hname
    obtain ⟨name, hname⟩ := Option.isSome_iff_exists.1 hname
    have hnamed : NamedKmodInfo buf stroff nl ↔ name = kmodInfoName := by
      rw [NamedKmodInfo, hname, Option.some.injEq]
    simp only [checkSymbol, bind_eq_ok_iff, guard_eq_ok_iff, Buffer.get_eq_ok_iff,
      elim_error_eq_ok_iff, and_assoc, exists_and_left, exists_eq_left, exists_const]
    rw [← nlistStrx, stringOffset, Nat.mod_eq_of_lt hwrap]
    refine ⟨by omega, Nat.le_add_right _ _, hlt, name, hname, by omega, by omega, hsect, ?_⟩
    by_cases heq : name = kmodInfoName
    · obtain ⟨hs, hend⟩ := hkmod (hnamed.2 heq)
      rw [if_pos heq, if_pos (hnamed.2 heq)]
      simp only [checkKmodInfo, bind_eq_ok_iff, guard_eq_ok_iff, pure_eq_ok_iff, exists_and_left,
        exists_const]
      simp only [sizeofKmodInfo] at hend ⊢
      refine ⟨hk (hnamed.2 heq), hs, ?_, rfl⟩
      show nlistValue buf.byte nl ≤ (nlistValue buf.byte nl + 196) % 2 ^ 64 ∧
        (nlistValue buf.byte nl + 196) % 2 ^ 64 ≤ vmEnd
      omega
    · rw [if_neg heq, if_neg (mt hnamed.1 heq)]

/-- The address of the kmod_info is the flag that says whether there has been one. -/
lemma checkSymbols_from_iff {k' : ℕ} (hnl : nl + (j + n) * sizeofNlist ≤ buf.size) :
    checkSymbols buf vmBase vmEnd stroff n (nl + j * sizeofNlist)
        (latest (fun i => NamedKmodInfo buf stroff (nl + i * sizeofNlist))
          (fun i => nlistValue buf.byte (nl + i * sizeofNlist)) 0 j) = .ok k' ↔
      (∀ i, j ≤ i → i < j + n → SymbolFits buf vmBase vmEnd stroff (nl + i * sizeofNlist) ∧
        (NamedKmodInfo buf stroff (nl + i * sizeofNlist) →
          latest (fun i => NamedKmodInfo buf stroff (nl + i * sizeofNlist))
            (fun i => nlistValue buf.byte (nl + i * sizeofNlist)) 0 i = 0)) ∧
      k' = latest (fun i => NamedKmodInfo buf stroff (nl + i * sizeofNlist))
        (fun i => nlistValue buf.byte (nl + i * sizeofNlist)) 0 (j + n) := by
  induction n generalizing j with
  | zero =>
    rw [checkSymbols, Except.ok.injEq, Nat.add_zero]
    constructor
    · rintro rfl
      exact ⟨fun i hi hlt => by omega, rfl⟩
    · rintro ⟨-, rfl⟩
      rfl
  | succ n ih =>
    have hroom : nl + j * sizeofNlist + sizeofNlist ≤ buf.size := by
      simp only [sizeofNlist] at hnl ⊢
      omega
    have hnext : nl + j * sizeofNlist + sizeofNlist = nl + (j + 1) * sizeofNlist := by ring
    have hsum : j + (n + 1) = j + 1 + n := by ring
    rw [hsum] at hnl ⊢
    simp only [checkSymbols, bind_eq_ok_iff, checkSymbol_eq_ok_iff hstroff hvmEnd hroom, and_assoc,
      exists_and_left]
    rw [hnext]
    constructor
    · rintro ⟨hfits, hflag, k₁, rfl, h⟩
      obtain ⟨hrest, rfl⟩ := (ih hnl).1 h
      refine ⟨fun i hi hlt => ?_, rfl⟩
      rcases hi.eq_or_lt with rfl | hji
      · exact ⟨hfits, hflag⟩
      · exact hrest i hji hlt
    · rintro ⟨hall, rfl⟩
      obtain ⟨hfits, hflag⟩ := hall j le_rfl (by omega)
      exact ⟨hfits, hflag, _, rfl, (ih hnl).2 ⟨fun i hi hlt => hall i (by omega) hlt, rfl⟩⟩

/-- The loop over the symbols finds a kmod_info when one symbol of this name has an address that is
not 0, and all others of this name come before it and have the address 0. -/
lemma checkSymbols_eq_ok_iff {k' : ℕ} (hnl : nl + n * sizeofNlist ≤ buf.size) (hk' : k' ≠ 0) :
    checkSymbols buf vmBase vmEnd stroff n nl 0 = .ok k' ↔
      (∀ i < n, SymbolFits buf vmBase vmEnd stroff (nl + i * sizeofNlist)) ∧
      ∃ i < n, NamedKmodInfo buf stroff (nl + i * sizeofNlist) ∧
        nlistValue buf.byte (nl + i * sizeofNlist) = k' ∧
        ∀ j < n, NamedKmodInfo buf stroff (nl + j * sizeofNlist) →
          j = i ∨ (j < i ∧ nlistValue buf.byte (nl + j * sizeofNlist) = 0) := by
  have hnl₀ : nl + (0 + n) * sizeofNlist ≤ buf.size := by rwa [Nat.zero_add]
  have hstart : checkSymbols buf vmBase vmEnd stroff n nl 0 =
      checkSymbols buf vmBase vmEnd stroff n (nl + 0 * sizeofNlist)
        (latest (fun i => NamedKmodInfo buf stroff (nl + i * sizeofNlist))
          (fun i => nlistValue buf.byte (nl + i * sizeofNlist)) 0 0) := by
    rw [Nat.zero_mul, Nat.add_zero, latest]
  rw [hstart, checkSymbols_from_iff hstroff hvmEnd hnl₀, Nat.zero_add, ← passes_iff hk']
  constructor
  · rintro ⟨hall, hk⟩
    exact ⟨fun i hi => (hall i (Nat.zero_le i) hi).1,
      fun i hi hnamed => (hall i (Nat.zero_le i) hi).2 hnamed, hk.symm⟩
  · rintro ⟨hfits, hflag, hk⟩
    exact ⟨fun i _ hi => ⟨hfits i hi, hflag i hi⟩, hk.symm⟩

end Symbols

/-! ## Relocations -/

lemma checkExternal_eq_ok_iff {er : RelocationInfo}
    (hnlist : nlist + nsyms * sizeofNlist ≤ buf.size) :
    checkExternal buf chain vmBase vmSize nsyms stroff nlist er = .ok [] ↔
      ExternalOk chain buf vmBase vmSize nsyms stroff nlist er := by
  refine ⟨checkExternal_spec, ?_⟩
  rintro ⟨hflag, hlength, hsymbolnum, ⟨name, address, hname, haddress, hne⟩, hbounds⟩
  have hroom : nlist + er.rSymbolnum * sizeofNlist + 4 ≤ buf.size := by
    simp only [sizeofNlist] at hnlist ⊢
    omega
  simp only [checkExternal, bind_eq_ok_iff, guard_eq_ok_iff, Buffer.get_eq_ok_iff, lookupSymbol,
    elim_error_eq_ok_iff, and_assoc, exists_and_left, exists_eq_left, exists_const]
  refine ⟨hflag, hlength, hsymbolnum, hroom, name, hname, address, haddress, ?_⟩
  rw [if_neg hne]
  simp only [bind_eq_ok_iff, guard_eq_ok_iff, pure_eq_ok_iff, and_true, exists_const]
  exact hbounds

/-- All external relocations are resolved. -/
lemma checkExternals_eq_ok_iff {extrel : ℕ} (hnlist : nlist + nsyms * sizeofNlist ≤ buf.size)
    (hextrel : extrel + n * sizeofRelocationInfo ≤ buf.size) :
    checkExternals buf chain vmBase vmSize nsyms stroff nlist n extrel = .ok [] ↔
      ∀ i < n, ExternalOk chain buf vmBase vmSize nsyms stroff nlist
        (relocationAt buf.byte (extrel + i * sizeofRelocationInfo)) := by
  refine ⟨checkExternals_spec, ?_⟩
  induction n generalizing extrel with
  | zero => exact fun _ => rfl
  | succ n ih =>
    intro hall
    simp only [sizeofRelocationInfo] at hextrel ih hall
    have hbehind (i : ℕ) : extrel + (i + 1) * 8 = extrel + 8 + i * 8 := by ring
    have hrest := ih (show extrel + 8 + n * 8 ≤ buf.size by omega) fun i hi => by
      rw [← hbehind]
      exact hall (i + 1) (by omega)
    have hfirst := hall 0 (Nat.succ_pos n)
    rw [Nat.zero_mul, Nat.add_zero] at hfirst
    simp only [checkExternals, bind_eq_ok_iff, relocation_eq_ok_iff, pure_eq_ok_iff,
      sizeofRelocationInfo]
    exact ⟨_, ⟨by omega, rfl⟩, [], (checkExternal_eq_ok_iff hnlist).2 hfirst, [], hrest, rfl⟩

/-- All local relocations are in bounds. -/
lemma checkLocals_eq_ok_iff {locrel : ℕ} {u : Unit}
    (hlocrel : locrel + n * sizeofRelocationInfo ≤ buf.size) :
    checkLocals buf vmBase vmSize n locrel = .ok u ↔
      ∀ i < n, LocalOk vmBase vmSize
        (relocationAt buf.byte (locrel + i * sizeofRelocationInfo)) := by
  refine ⟨checkLocals_spec, ?_⟩
  induction n generalizing locrel with
  | zero => exact fun _ => rfl
  | succ n ih =>
    intro hall
    simp only [sizeofRelocationInfo] at hlocrel ih hall
    have hbehind (i : ℕ) : locrel + (i + 1) * 8 = locrel + 8 + i * 8 := by ring
    have hrest := ih (show locrel + 8 + n * 8 ≤ buf.size by omega) fun i hi => by
      rw [← hbehind]
      exact hall (i + 1) (by omega)
    obtain ⟨hflag, hlength, hbounds⟩ := hall 0 (Nat.succ_pos n)
    rw [Nat.zero_mul, Nat.add_zero] at hflag hlength hbounds
    simp only [checkLocals, checkLocal, bind_eq_ok_iff, relocation_eq_ok_iff, guard_eq_ok_iff,
      sizeofRelocationInfo]
    exact ⟨_, ⟨by omega, rfl⟩, (), ⟨(), hflag, (), hlength, hbounds⟩, hrest⟩

/-! ## The whole file -/

/-- The size of the image of a file. -/
def imageSize (m : Mem) : ℕ := vmOffset m (mhNcmds m 0)

/-- The symbols of a file, whose symbol table is described at `sp`: one of them is its
`_kmod_info`. -/
structure SymbolsOk (buf : Buffer) (vmBase kmodInfo sp : ℕ) : Prop where
  symbols : ∀ i < symNsyms buf.byte sp, SymbolFits buf vmBase (vmBase + imageSize buf.byte)
    (symStroff buf.byte sp) (nlistAt buf.byte sp i)
  kmodInfo_ne : kmodInfo ≠ 0
  kmodInfo : ∃ i < symNsyms buf.byte sp,
    NamedKmodInfo buf (symStroff buf.byte sp) (nlistAt buf.byte sp i) ∧
    nlistValue buf.byte (nlistAt buf.byte sp i) = kmodInfo ∧
    ∀ j < symNsyms buf.byte sp,
      NamedKmodInfo buf (symStroff buf.byte sp) (nlistAt buf.byte sp j) →
        j = i ∨ (j < i ∧ nlistValue buf.byte (nlistAt buf.byte sp j) = 0)

/-- The symbols and the relocations of a file, whose relocations are described at `dp`: the external
relocations are resolved by the chain of symbol tables, and all relocations are in bounds. -/
structure TablesOk (chain : List KernelcacheSymbolTable) (buf : Buffer)
    (vmBase kmodInfo sp dp : ℕ) : Prop extends SymbolsOk buf vmBase kmodInfo sp where
  externals : ∀ i < dysymNextrel buf.byte dp, ExternalOk chain buf vmBase (imageSize buf.byte)
    (symNsyms buf.byte sp) (symStroff buf.byte sp) (symSymoff buf.byte sp)
    (externalEntry buf.byte dp i)
  locals : ∀ i < dysymNlocrel buf.byte dp,
    LocalOk vmBase (imageSize buf.byte) (localEntry buf.byte dp i)

/-- The header and the load commands of a file, with those of its tables at `sp` and `dp`. -/
structure HeaderOk (buf : Buffer) (vmBase sp dp : ℕ) : Prop where
  magic : word buf.byte 0 4 = MH_MAGIC_64
  filetype : word buf.byte 12 4 = MH_KEXT_BUNDLE
  headerFits : sizeofHeader + mhSizeofcmds buf.byte 0 ≤ buf.size
  commands : LoadCommandsOk buf.byte buf.size (mhSizeofcmds buf.byte 0) vmBase
    (mhNcmds buf.byte 0) sp dp

/-- A kernel extension, as the loader understands it. -/
structure KextFile (chain : List KernelcacheSymbolTable) (buf : Buffer)
    (vmBase kmodInfo sp dp : ℕ) : Prop extends HeaderOk buf vmBase sp dp where
  tables : TablesOk chain buf vmBase kmodInfo sp dp

/-- What the loader has to know about it. -/
def loadInfo (header : ℕ) (buf : Buffer) (vmBase kmodInfo sp dp : ℕ) : KextLoadInfo where
  header := header
  kext := 0
  fileSize := buf.size
  vmSize := imageSize buf.byte
  vmBase := vmBase
  kmodInfo := kmodInfo
  symtab := header + sp
  dysymtab := header + dp
  nlist := header + symSymoff buf.byte sp
  extrel := header + dysymExtreloff buf.byte dp
  locrel := header + dysymLocreloff buf.byte dp

/-- The tables are looked at when the loop has found a segment and both of them. -/
lemma parseTables_found {st : ScanState} (h : parseTables chain header buf st = .ok info) :
    st.foundFirstSegment = true ∧ ∃ sp dp, st.symtab = some sp ∧ st.dysymtab = some dp := by
  simp only [parseTables, bind_eq_ok_iff, guard_eq_ok_iff, elim_error_eq_ok_iff] at h
  obtain ⟨_, hf, sp, hsp, dp, hdp, -⟩ := h
  exact ⟨hf, sp, dp, hsp, hdp⟩

namespace LoadCommandsOk

variable (h : LoadCommandsOk buf.byte size sizeofcmds vmBase n sp dp)
  (hfits : sizeofHeader + sizeofcmds ≤ size)
include h hfits

lemma symtab_fits : sp + 24 ≤ size := by
  obtain ⟨i, hi, -, rfl, -⟩ := h.onlySymtab
  have hend := (h.commands.inside i hi).2
  have hcmdsize := h.symtab.cmdsize
  simp only [sizeofSymtabCommand] at hcmdsize
  rw [lcPosition] at hend
  omega

lemma dysymtab_fits : dp + 80 ≤ size := by
  obtain ⟨i, hi, -, rfl, -⟩ := h.onlyDysymtab
  have hend := (h.commands.inside i hi).2
  have hcmdsize := h.dysymtab.cmdsize
  simp only [sizeofDysymtabCommand] at hcmdsize
  rw [lcPosition] at hend
  omega

omit hfits in
/-- The image does not wrap around. -/
lemma vmEnd_lt : vmBase + vmOffset buf.byte n < 2 ^ 64 := by
  have hend : ∀ k ≤ n, (∃ i < k, IsSegment buf.byte i) → vmBase + vmOffset buf.byte k < 2 ^ 64 := by
    intro k
    induction k with
    | zero => exact fun _ ⟨i, hi, _⟩ => by omega
    | succ k ih =>
      rintro hk ⟨i, hi, hs⟩
      by_cases hsk : IsSegment buf.byte k
      · exact (h.commands.segment k hk hsk).noWrap
      · rw [vmOffset, if_neg hsk, Nat.add_zero]
        rcases Nat.lt_succ_iff_lt_or_eq.1 hi with hlt | rfl
        · exact ih (by omega) ⟨i, hlt, hs⟩
        · exact absurd hs hsk
  exact hend n le_rfl h.hasSegment

end LoadCommandsOk

/-- The state in which the loop over the load commands leaves its variables. -/
def commandsFound (m : Mem) (vmBase sp dp : ℕ) : ScanState :=
  ⟨vmBase + imageSize m, true, vmBase, some sp, some dp⟩

/-- The checks behind the loop over the load commands. -/
lemma parseTables_eq_ok_iff (hok : HeaderOk buf vmBase sp dp) :
    parseTables chain header buf (commandsFound buf.byte vmBase sp dp) = .ok info ↔
      ∃ kmodInfo, TablesOk chain buf vmBase kmodInfo sp dp ∧
        info = loadInfo header buf vmBase kmodInfo sp dp := by
  have hcommands := hok.commands
  have hsp := hcommands.symtab_fits hok.headerFits
  have hdp := hcommands.dysymtab_fits hok.headerFits
  have hend : vmBase + imageSize buf.byte < 2 ^ 64 := hcommands.vmEnd_lt
  have hsize : (vmBase + imageSize buf.byte + 2 ^ 64 - vmBase) % 2 ^ 64 = imageSize buf.byte := by
    omega
  have hstroff : symStroff buf.byte sp < 2 ^ 32 := word_lt _ _ 4
  have hnlist := hcommands.symtab.symbols
  have hexternals := hcommands.dysymtab.externals
  have hlocals := hcommands.dysymtab.locals
  simp only [parseTables, commandsFound, bind_eq_ok_iff, guard_eq_ok_iff, Buffer.get_eq_ok_iff,
    elim_error_eq_ok_iff, pure_eq_ok_iff, Option.some.injEq, and_assoc, exists_and_left,
    exists_eq_left, exists_eq_left', exists_const, true_and, hsize]
  rw [show word buf.byte (sp + 8) 4 = symSymoff buf.byte sp from rfl,
    show word buf.byte (sp + 12) 4 = symNsyms buf.byte sp from rfl,
    show word buf.byte (sp + 16) 4 = symStroff buf.byte sp from rfl,
    show word buf.byte (dp + 64) 4 = dysymExtreloff buf.byte dp from rfl,
    show word buf.byte (dp + 68) 4 = dysymNextrel buf.byte dp from rfl,
    show word buf.byte (dp + 72) 4 = dysymLocreloff buf.byte dp from rfl,
    show word buf.byte (dp + 76) 4 = dysymNlocrel buf.byte dp from rfl]
  constructor
  · rintro ⟨-, -, -, kmodInfo, hsyms, hk, -, -, missing, hext, rfl, -, -, u, hloc, rfl⟩
    obtain ⟨hall, hkmod⟩ := (checkSymbols_eq_ok_iff hstroff hend hnlist hk).1 hsyms
    exact ⟨kmodInfo, ⟨⟨hall, hk, hkmod⟩, (checkExternals_eq_ok_iff hnlist hexternals).1 hext,
      (checkLocals_eq_ok_iff hlocals).1 hloc⟩, rfl⟩
  · rintro ⟨kmodInfo, ⟨⟨hall, hk, hkmod⟩, hext, hloc⟩, rfl⟩
    exact ⟨by omega, by omega, by omega, kmodInfo,
      (checkSymbols_eq_ok_iff hstroff hend hnlist hk).2 ⟨hall, hkmod⟩, hk, by omega, by omega, [],
      (checkExternals_eq_ok_iff hnlist hexternals).2 hext, rfl, by omega, by omega, (),
      (checkLocals_eq_ok_iff hlocals).2 hloc, rfl⟩

/-- The upload behind the loop over the load commands. -/
def destroyedUpload (buf : Buffer) : Buffer := ⟨buf.size, destroyed buf.byte (mhNcmds buf.byte 0)⟩

/-- The header is left as it is. -/
lemma header_destroyed (hk : k + 4 ≤ 32) :
    word (destroyedUpload buf).byte k 4 = word buf.byte k 4 := by
  have hhead : Agree (destroyed buf.byte (mhNcmds buf.byte 0)) 0 buf.byte 0 sizeofHeader :=
    agree_destroyed buf.byte _
  have h : word (destroyed buf.byte (mhNcmds buf.byte 0)) (0 + k) 4 = word buf.byte (0 + k) 4 :=
    hhead.word_eq (by simp only [sizeofHeader]; omega)
  rw [Nat.zero_add] at h
  exact h

/-- The checks of the header and the loop over the load commands find what is described by the
header and the load commands. -/
lemma commands_iff {st : ScanState} :
    (word buf.byte 0 4 = MH_MAGIC_64 ∧ word buf.byte 12 4 = MH_KEXT_BUNDLE ∧
      sizeofHeader + mhSizeofcmds buf.byte 0 ≤ buf.size ∧
      scanCommands (mhSizeofcmds buf.byte 0) (mhNcmds buf.byte 0) buf sizeofHeader .initial =
        .ok (buf', st) ∧
      st.foundFirstSegment = true ∧ st.symtab = some sp ∧ st.dysymtab = some dp) ↔
    buf' = destroyedUpload buf ∧ st = commandsFound buf'.byte st.vmBase sp dp ∧
      HeaderOk buf' st.vmBase sp dp := by
  have hncmds : mhNcmds (destroyedUpload buf).byte 0 = mhNcmds buf.byte 0 :=
    header_destroyed (by decide : 16 + 4 ≤ 32)
  have hsizeofcmds : mhSizeofcmds (destroyedUpload buf).byte 0 = mhSizeofcmds buf.byte 0 :=
    header_destroyed (by decide : 20 + 4 ≤ 32)
  have hmagic : word (destroyedUpload buf).byte 0 4 = word buf.byte 0 4 :=
    header_destroyed (by decide)
  have hfiletype : word (destroyedUpload buf).byte 12 4 = word buf.byte 12 4 :=
    header_destroyed (by decide)
  constructor
  · rintro ⟨hm, hft, hfits, hfound⟩
    obtain ⟨hbuf, hst, hcommands⟩ := (scanCommands_eq_ok_iff hfits).1 hfound
    obtain rfl : buf' = destroyedUpload buf := hbuf
    refine ⟨rfl, ?_, hmagic.trans hm, hfiletype.trans hft, ?_, ?_⟩
    · rw [commandsFound, imageSize, hncmds]
      exact hst
    · rw [hsizeofcmds]
      exact hfits
    · rw [hncmds, hsizeofcmds]
      exact hcommands
  · rintro ⟨rfl, hst, hm, hft, hfits, hcommands⟩
    rw [hsizeofcmds] at hfits
    rw [hncmds, hsizeofcmds] at hcommands
    have hfits : sizeofHeader + mhSizeofcmds buf.byte 0 ≤ buf.size := hfits
    rw [commandsFound, imageSize, hncmds] at hst
    have hfound : scanCommands (mhSizeofcmds buf.byte 0) (mhNcmds buf.byte 0) buf sizeofHeader
        .initial = .ok (destroyedUpload buf, st) ∧
        st.foundFirstSegment = true ∧ st.symtab = some sp ∧ st.dysymtab = some dp :=
      (scanCommands_eq_ok_iff hfits).2 ⟨rfl, hst, hcommands⟩
    exact ⟨hmagic.symm.trans hm, hfiletype.symm.trans hft, hfits, hfound⟩

namespace HeaderOk

variable (h : HeaderOk (destroyedUpload buf) vmBase sp dp)
include h

/-- The header of the upload, before the loop over its load commands. -/
lemma upload : word buf.byte 0 4 = MH_MAGIC_64 ∧ word buf.byte 12 4 = MH_KEXT_BUNDLE ∧
    sizeofHeader + mhSizeofcmds buf.byte 0 ≤ buf.size := by
  have hfound : commandsFound (destroyedUpload buf).byte vmBase sp dp =
      commandsFound (destroyedUpload buf).byte
        (commandsFound (destroyedUpload buf).byte vmBase sp dp).vmBase sp dp := rfl
  obtain ⟨hmagic, hfiletype, hfits, -⟩ := commands_iff.2 ⟨rfl, hfound, h⟩
  exact ⟨hmagic, hfiletype, hfits⟩

/-- What the loop over the load commands finds. -/
lemma scanCommands_eq :
    scanCommands (mhSizeofcmds buf.byte 0) (mhNcmds buf.byte 0) buf sizeofHeader .initial =
      .ok (destroyedUpload buf, commandsFound (destroyedUpload buf).byte vmBase sp dp) := by
  have hfound : commandsFound (destroyedUpload buf).byte vmBase sp dp =
      commandsFound (destroyedUpload buf).byte
        (commandsFound (destroyedUpload buf).byte vmBase sp dp).vmBase sp dp := rfl
  obtain ⟨-, -, -, hscan, -⟩ := commands_iff.2 ⟨rfl, hfound, h⟩
  exact hscan

end HeaderOk

/-- What `kext_parse` accepts is a kernel extension. -/
lemma kextFile_of_kextParse (h : kextParse chain header buf = .ok (buf', info)) :
    buf' = destroyedUpload buf ∧ ∃ vmBase kmodInfo sp dp, KextFile chain buf' vmBase kmodInfo sp dp ∧
      info = loadInfo header buf' vmBase kmodInfo sp dp := by
  simp only [kextParse, bind_eq_ok_iff, guard_eq_ok_iff, Buffer.get_eq_ok_iff, pure_eq_ok_iff,
    and_assoc, exists_and_left, exists_eq_left, exists_const, Prod.exists, Prod.mk.injEq] at h
  rw [show word buf.byte 20 4 = mhSizeofcmds buf.byte 0 from rfl,
    show word buf.byte 16 4 = mhNcmds buf.byte 0 from rfl] at h
  obtain ⟨-, hmagic, -, hfiletype, -, hfits, -, buf₁, st, hscan, info', hinfo, rfl, rfl⟩ := h
  obtain ⟨hf, sp, dp, hsp, hdp⟩ := parseTables_found hinfo
  obtain ⟨hbuf, hst, hok⟩ := commands_iff.1 ⟨hmagic, hfiletype, hfits, hscan, hf, hsp, hdp⟩
  rw [hst] at hinfo
  obtain ⟨kmodInfo, htables, rfl⟩ := (parseTables_eq_ok_iff hok).1 hinfo
  exact ⟨hbuf, st.vmBase, kmodInfo, sp, dp, ⟨hok, htables⟩, rfl⟩

/-- `kext_parse` accepts every kernel extension. -/
lemma kextParse_of_kextFile {kmodInfo : ℕ}
    (h : KextFile chain (destroyedUpload buf) vmBase kmodInfo sp dp) :
    kextParse chain header buf =
      .ok (destroyedUpload buf, loadInfo header (destroyedUpload buf) vmBase kmodInfo sp dp) := by
  obtain ⟨hok, htables⟩ := h
  have hinfo : parseTables chain header (destroyedUpload buf)
      (commandsFound (destroyedUpload buf).byte vmBase sp dp) =
      .ok (loadInfo header (destroyedUpload buf) vmBase kmodInfo sp dp) :=
    (parseTables_eq_ok_iff hok).2 ⟨kmodInfo, htables, rfl⟩
  have hscan := hok.scanCommands_eq
  obtain ⟨hmagic, hfiletype, hfits⟩ := hok.upload
  simp only [kextParse, bind_eq_ok_iff, guard_eq_ok_iff, Buffer.get_eq_ok_iff, pure_eq_ok_iff,
    and_assoc, exists_and_left, exists_eq_left, exists_const, Prod.exists, Prod.mk.injEq]
  have hroom : 32 ≤ buf.size := (Nat.le_add_right _ _).trans hfits
  exact ⟨by omega, hmagic, by omega, hfiletype, by omega, hfits, by omega, _, _, hscan, _, hinfo,
    rfl, rfl⟩

/-- `kext_parse` accepts the kernel extensions and nothing else, and finds in them what is
there. -/
theorem kextParse_eq_ok_iff :
    kextParse chain header buf = .ok (buf', info) ↔
      buf' = ⟨buf.size, destroyed buf.byte (mhNcmds buf.byte 0)⟩ ∧
        ∃ vmBase kmodInfo sp dp, KextFile chain buf' vmBase kmodInfo sp dp ∧
          info = loadInfo header buf' vmBase kmodInfo sp dp := by
  constructor
  · exact kextFile_of_kextParse
  · rintro ⟨rfl, vmBase, kmodInfo, sp, dp, hfile, rfl⟩
    exact kextParse_of_kextFile hfile

end VulnerableKext.Kext

import VulnerableKext.Kext.Accepted

/-!
# Validation stays inside of the file

No read of `kext_parse` is outside of the upload, whatever the upload and the chain of
symbol tables are, and neither is the change that it makes to the command
`LC_SEGMENT_SPLIT_INFO`.  The positions of these changes are collected by `kextStores`,
since a rejected upload has been changed as well.
-/

namespace VulnerableKext.Kext

open Memory Checked Device

/-! ## Changes -/

/-- The position at which the file is changed for the command at `lc`, if it is reached. -/
def commandStores (buf : Buffer) (sizeofcmds lc : ℕ) : List ℕ :=
  if lc + 8 ≤ sizeofHeader + sizeofcmds ∧ lc + lcCmdsize buf.byte lc ≤ sizeofHeader + sizeofcmds ∧
      lcCmd buf.byte lc = LC_SEGMENT_SPLIT_INFO then [lc] else []

/-- The positions of all changes of the loop over the load commands, up to where it stops. -/
def scanStores (sizeofcmds : ℕ) : (n : ℕ) → Buffer → (lc : ℕ) → ScanState → List ℕ
  | 0, _, _, _ => []
  | n + 1, buf, lc, st => commandStores buf sizeofcmds lc ++
    (scanCommand buf sizeofcmds lc st).toOption.elim [] fun s =>
      scanStores sizeofcmds n s.1 s.2.2 s.2.1

/-- The positions of all changes that `kext_parse` makes. -/
def kextStores (buf : Buffer) : List ℕ :=
  if word buf.byte 0 4 = MH_MAGIC_64 ∧ word buf.byte 12 4 = MH_KEXT_BUNDLE ∧
      sizeofHeader + mhSizeofcmds buf.byte 0 ≤ buf.size then
    scanStores (mhSizeofcmds buf.byte 0) (mhNcmds buf.byte 0) buf sizeofHeader .initial
  else []

/-- Destroy `LC_SEGMENT_SPLIT_INFO` at the given positions. -/
def destroyAt (m : Mem) (ps : List ℕ) : Mem :=
  ps.foldl (fun m p => storeWord m p 4 (LC_SEGMENT_SPLIT_INFO ^^^ 0x41000000)) m

/-- The upload as `kext_parse` leaves it behind, accepted or not. -/
def patchedUpload (buf : Buffer) : Buffer := ⟨buf.size, destroyAt buf.byte (kextStores buf)⟩

lemma scanCommand_patched {buf buf' : Buffer} {sizeofcmds lc lc' : ℕ} {st st' : ScanState}
    (h : scanCommand buf sizeofcmds lc st = .ok (buf', st', lc')) :
    buf' = ⟨buf.size, destroyAt buf.byte (commandStores buf sizeofcmds lc)⟩ := by
  simp only [scanCommand, bind_eq_ok_iff, guard_eq_ok_iff, Buffer.get_eq_ok_iff, pure_eq_ok_iff,
    Prod.mk.injEq] at h
  obtain ⟨_, hin, cmdsize, ⟨-, hcmdsize⟩, _, hend, cmd, ⟨-, hcmd⟩, _, -, _, -, _, -, _, -, _, -, rfl,
    rfl, rfl⟩ := h
  rw [hcmdsize] at hend
  rw [destroySplitInfo, commandStores, hcmd, ← lcCmd]
  by_cases hsplit : lcCmd buf.byte lc = LC_SEGMENT_SPLIT_INFO
  · rw [if_pos hsplit, if_pos ⟨hin, hend, hsplit⟩, hsplit]
    rfl
  · rw [if_neg hsplit, if_neg fun hall => hsplit hall.2.2]
    rfl

lemma scanCommands_patched {buf buf' : Buffer} {sizeofcmds n lc : ℕ} {st st' : ScanState}
    (h : scanCommands sizeofcmds n buf lc st = .ok (buf', st')) :
    buf' = ⟨buf.size, destroyAt buf.byte (scanStores sizeofcmds n buf lc st)⟩ := by
  induction n generalizing buf lc st with
  | zero =>
    obtain ⟨rfl, -⟩ := Prod.mk.inj (Except.ok.inj h)
    rfl
  | succ n ih =>
    simp only [scanCommands, bind_eq_ok_iff, Prod.exists] at h
    obtain ⟨buf₁, st₁, lc₁, h₁, h₂⟩ := h
    have hrest := ih h₂
    rw [scanStores, h₁, destroyAt, List.foldl_append]
    rw [scanCommand_patched h₁] at hrest ⊢
    exact hrest

/-- What `kext_parse` has made of an upload that it accepts. -/
lemma kextParse_patched {chain : List KernelcacheSymbolTable} {header : ℕ} {buf buf' : Buffer}
    {info : KextLoadInfo} (h : kextParse chain header buf = .ok (buf', info)) :
    buf' = patchedUpload buf := by
  simp only [kextParse, bind_eq_ok_iff, guard_eq_ok_iff, Buffer.get_eq_ok_iff, pure_eq_ok_iff,
    Prod.exists, Prod.mk.injEq] at h
  obtain ⟨_, ⟨-, rfl⟩, _, hmagic, _, ⟨-, rfl⟩, _, htype, sizeofcmds, ⟨-, hs⟩, _, hfits, ncmds, ⟨-, hn⟩,
    buf₁, st, hscan, info', -, rfl, -⟩ := h
  have hs' : sizeofcmds = mhSizeofcmds buf.byte 0 := by rw [hs, mhSizeofcmds, Nat.zero_add]
  have hn' : ncmds = mhNcmds buf.byte 0 := by rw [hn, mhNcmds, Nat.zero_add]
  subst hs' hn'
  rw [patchedUpload, kextStores, if_pos ⟨hmagic, htype, hfits⟩]
  exact scanCommands_patched hscan

/-- The upload changes at these positions only, 4 bytes at each. -/
lemma destroyAt_apply_of_out {m : Mem} {ps : List ℕ} {b : ℕ}
    (h : ∀ p ∈ ps, b < p ∨ p + 4 ≤ b) : destroyAt m ps b = m b := by
  induction ps generalizing m with
  | nil => rfl
  | cons p ps ih =>
    rw [destroyAt, List.foldl_cons]
    exact (ih fun q hq => h q (List.mem_cons_of_mem _ hq)).trans
      (storeWord_apply_of_out (h p List.mem_cons_self))

lemma scanStores_inside {buf : Buffer} {sizeofcmds n lc : ℕ} {st : ScanState} :
    ∀ p ∈ scanStores sizeofcmds n buf lc st, p + 8 ≤ sizeofHeader + sizeofcmds := by
  induction n generalizing buf lc st with
  | zero => simp [scanStores]
  | succ n ih =>
    intro p hp
    rw [scanStores, List.mem_append] at hp
    rcases hp with hp | hp
    · rw [commandStores] at hp
      split_ifs at hp with hin
      · rw [List.mem_singleton.1 hp]
        exact hin.1
      · cases hp
    · cases hscan : scanCommand buf sizeofcmds lc st with
      | error e =>
        rw [hscan] at hp
        cases hp
      | ok s =>
        rw [hscan] at hp
        exact ih p hp

/-- Every change lies inside of the file. -/
lemma kextStores_inside {buf : Buffer} : ∀ p ∈ kextStores buf, p + 4 ≤ buf.size := by
  intro p hp
  rw [kextStores] at hp
  split_ifs at hp with hok
  · have hin := scanStores_inside p hp
    omega
  · cases hp

/-! ## Reads -/

/-- The error is not a read outside of the upload. -/
def KextError.InFile (e : KextError) : Prop := e ≠ .fault

instance (e : KextError) : Decidable e.InFile := inferInstanceAs (Decidable (_ ≠ _))

section Reads

variable {chain : List KernelcacheSymbolTable} {buf : Buffer} {header sizeofcmds n lc cmd cmdsize : ℕ}
  {st : ScanState} {vmBase vmSize vmEnd nsyms stroff nlist off w : ℕ}

lemma inFile_couldNotResolveSymbols (missing : List (List UInt8)) :
    (KextError.couldNotResolveSymbols missing).InFile :=
  nofun

lemma inFile_externalBadAddress (vmBase vmSize rAddress : ℕ) :
    (KextError.externalBadAddress vmBase vmSize rAddress).InFile :=
  nofun

lemma inFile_localBadAddress (vmBase vmSize rAddress : ℕ) :
    (KextError.localBadAddress vmBase vmSize rAddress).InFile :=
  nofun

lemma reads_get (h : off + w ≤ buf.size) : ErrorsIn KextError.InFile (buf.get off w) := by
  rw [Buffer.get, if_pos h]
  exact errorsIn_ok _

lemma reads_check {c : Prop} [Decidable c] {e : KextError} (h : e.InFile) :
    ErrorsIn KextError.InFile (guard c e) :=
  errorsIn_guard fun _ => h

lemma reads_elim {α : Type} (o : Option α) {e : KextError} (h : e.InFile) :
    ErrorsIn KextError.InFile (o.elim (.error e) .ok) := by
  cases o with
  | none => exact errorsIn_error h
  | some a => exact errorsIn_ok a

lemma reads_setBase (vmaddr fileoff filesize : ℕ) :
    ErrorsIn KextError.InFile (setBase st sizeofcmds vmaddr fileoff filesize) := by
  rw [setBase]
  split_ifs
  · exact errorsIn_ok _
  · exact (reads_check (by decide)).bind fun _ _ => errorsIn_ok _

/-- The fields of a segment command are read behind the check of its size. -/
lemma reads_scanSegment (hend : lc + cmdsize ≤ buf.size) :
    ErrorsIn KextError.InFile (scanSegment buf sizeofcmds cmd cmdsize lc st) := by
  rw [scanSegment]
  split_ifs
  · exact errorsIn_ok _
  · refine (reads_check (by decide)).bind fun _ hsize => ?_
    have hle := guard_eq_ok_iff.1 hsize
    simp only [sizeofSegmentCommand] at hle
    exact (reads_get (by omega)).bind fun _ _ => (reads_get (by omega)).bind fun _ _ =>
      (reads_get (by omega)).bind fun _ _ => (reads_get (by omega)).bind fun _ _ =>
      (reads_check (by decide)).bind fun _ _ => (reads_check (by decide)).bind fun _ _ =>
      (reads_setBase _ _ _).bind fun _ _ => (reads_check (by decide)).bind fun _ _ => errorsIn_ok _

lemma reads_scanSymtab (hend : lc + cmdsize ≤ buf.size) :
    ErrorsIn KextError.InFile (scanSymtab buf cmd cmdsize lc st) := by
  rw [scanSymtab]
  split_ifs
  · exact errorsIn_ok _
  · refine (reads_check (by decide)).bind fun _ _ => (reads_check (by decide)).bind fun _ hsize => ?_
    have hle := guard_eq_ok_iff.1 hsize
    simp only [sizeofSymtabCommand] at hle
    exact (reads_get (by omega)).bind fun _ _ => (reads_get (by omega)).bind fun _ _ =>
      (reads_check (by decide)).bind fun _ _ => (reads_get (by omega)).bind fun _ _ =>
      (reads_check (by decide)).bind fun _ _ => errorsIn_ok _

lemma reads_scanDysymtab (hend : lc + cmdsize ≤ buf.size) :
    ErrorsIn KextError.InFile (scanDysymtab buf cmd cmdsize lc st) := by
  rw [scanDysymtab]
  split_ifs
  · exact errorsIn_ok _
  · refine (reads_check (by decide)).bind fun _ _ => (reads_check (by decide)).bind fun _ hsize => ?_
    have hle := guard_eq_ok_iff.1 hsize
    simp only [sizeofDysymtabCommand] at hle
    exact (reads_get (by omega)).bind fun _ _ => (reads_get (by omega)).bind fun _ _ =>
      (reads_check (by decide)).bind fun _ _ => (reads_get (by omega)).bind fun _ _ =>
      (reads_get (by omega)).bind fun _ _ => (reads_check (by decide)).bind fun _ _ => errorsIn_ok _

lemma size_destroySplitInfo (buf : Buffer) (cmd lc : ℕ) :
    (destroySplitInfo buf cmd lc).size = buf.size := by
  rw [destroySplitInfo]
  split_ifs
  · rfl
  · rfl

/-- A load command is read behind the checks that it lies in the area of the load commands. -/
lemma reads_scanCommands (hfits : sizeofHeader + sizeofcmds ≤ buf.size) :
    ErrorsIn KextError.InFile (scanCommands sizeofcmds n buf lc st) := by
  induction n generalizing buf lc st with
  | zero => exact errorsIn_ok _
  | succ n ih =>
    refine ErrorsIn.bind ?_ fun s hs => ih ?_
    · refine (reads_check (by decide)).bind fun _ hin => ?_
      have hin' := guard_eq_ok_iff.1 hin
      refine (reads_get (by omega)).bind fun cmdsize _ =>
        (reads_check (by decide)).bind fun _ hend => ?_
      have hend' := guard_eq_ok_iff.1 hend
      refine (reads_get (by omega)).bind fun cmd _ => (reads_check (by decide)).bind fun _ _ => ?_
      have hsize := size_destroySplitInfo buf cmd lc
      exact (reads_get (by omega)).bind fun _ _ =>
        (reads_scanSegment (by omega)).bind fun _ _ => (reads_scanSymtab (by omega)).bind fun _ _ =>
        (reads_scanDysymtab (by omega)).bind fun _ _ => errorsIn_ok _
    · obtain ⟨buf', st', lc'⟩ := s
      simp only [scanCommand, bind_eq_ok_iff, pure_eq_ok_iff, Prod.mk.injEq] at hs
      obtain ⟨_, -, _, -, _, -, _, -, _, -, _, -, _, -, _, -, _, -, rfl, -, -⟩ := hs
      rw [size_destroySplitInfo]
      exact hfits

/-- The table of symbols lies in the file, and names are looked at up to the end of the file. -/
lemma reads_checkSymbols {nl k : ℕ} (hnl : nl + n * sizeofNlist ≤ buf.size) :
    ErrorsIn KextError.InFile (checkSymbols buf vmBase vmEnd stroff n nl k) := by
  induction n generalizing nl k with
  | zero => exact errorsIn_ok _
  | succ n ih =>
    simp only [sizeofNlist] at hnl ih
    refine ErrorsIn.bind ?_ fun _ _ => ih (by simp only [sizeofNlist]; omega)
    refine (reads_get (by omega)).bind fun _ _ => (reads_check (by decide)).bind fun _ _ =>
      (reads_elim _ (by decide)).bind fun _ _ => (reads_get (by omega)).bind fun _ _ =>
      (reads_get (by omega)).bind fun _ _ => (reads_check (by decide)).bind fun _ _ => ?_
    split_ifs
    · exact (reads_check (by decide)).bind fun _ _ => (reads_check (by decide)).bind fun _ _ =>
        (reads_check (by decide)).bind fun _ _ => errorsIn_ok _
    · exact errorsIn_ok _

lemma reads_relocation (h : off + sizeofRelocationInfo ≤ buf.size) :
    ErrorsIn KextError.InFile (buf.relocation off) := by
  rw [Buffer.relocation, if_pos h]
  exact errorsIn_ok _

/-- The name of an external relocation has been checked together with its symbol. -/
lemma reads_checkExternals {extrel : ℕ} (hnlist : nlist + nsyms * sizeofNlist ≤ buf.size)
    (hsyms : ∀ i < nsyms, SymbolOk buf stroff (nlist + i * sizeofNlist))
    (hextrel : extrel + n * sizeofRelocationInfo ≤ buf.size) :
    ErrorsIn KextError.InFile (checkExternals buf chain vmBase vmSize nsyms stroff nlist n extrel) := by
  induction n generalizing extrel with
  | zero => exact errorsIn_ok _
  | succ n ih =>
    simp only [sizeofRelocationInfo] at hextrel ih
    refine (reads_relocation (by simp only [sizeofRelocationInfo]; omega)).bind fun er her =>
      ErrorsIn.bind ?_ fun _ _ =>
        (ih (by simp only [sizeofRelocationInfo]; omega)).bind fun _ _ => errorsIn_ok _
    obtain ⟨-, rfl⟩ := relocation_eq_ok_iff.1 her
    refine (reads_check (by decide)).bind fun _ _ => (reads_check (by decide)).bind fun _ _ =>
      (reads_check (by decide)).bind fun _ hsym => ?_
    have hlt := guard_eq_ok_iff.1 hsym
    obtain ⟨hwrap, hname⟩ := hsyms _ hlt
    simp only [sizeofNlist] at hnlist
    refine (reads_get (by simp only [sizeofNlist]; omega)).bind fun nStrx hstrx => ?_
    have hstrx' := (Buffer.get_eq_ok_iff.1 hstrx).2
    rw [← nlistStrx] at hstrx'
    rw [hstrx', stringOffset, Nat.mod_eq_of_lt hwrap]
    obtain ⟨name, hname⟩ := Option.isSome_iff_exists.1 hname
    rw [hname]
    refine (errorsIn_ok name).bind fun _ _ => (reads_elim _ (by decide)).bind fun _ _ => ?_
    split_ifs
    · exact errorsIn_ok _
    · exact (reads_check (inFile_externalBadAddress _ _ _)).bind fun _ _ => errorsIn_ok _

lemma reads_checkLocals {locrel : ℕ}
    (hlocrel : locrel + n * sizeofRelocationInfo ≤ buf.size) :
    ErrorsIn KextError.InFile (checkLocals buf vmBase vmSize n locrel) := by
  induction n generalizing locrel with
  | zero => exact errorsIn_ok _
  | succ n ih =>
    simp only [sizeofRelocationInfo] at hlocrel ih
    refine (reads_relocation (by simp only [sizeofRelocationInfo]; omega)).bind fun lr hlr =>
      ErrorsIn.bind ?_ fun _ _ => ih (by simp only [sizeofRelocationInfo]; omega)
    obtain ⟨-, rfl⟩ := relocation_eq_ok_iff.1 hlr
    exact (reads_check (by decide)).bind fun _ _ => (reads_check (by decide)).bind fun _ _ =>
      reads_check (inFile_localBadAddress _ _ _)

/-- A table command that has been found lies in the file. -/
lemma ScanOk.symtab_fits (hok : ScanOk buf.byte buf.size sizeofcmds n st)
    (hfits : sizeofHeader + sizeofcmds ≤ buf.size) {p : ℕ} (hp : st.symtab = some p) :
    p + 24 ≤ buf.size := by
  obtain ⟨⟨i, hi, rfl⟩, hsym⟩ := hok.symtab p hp
  have hend := (hok.commands.inside i hi).2
  have hsize := hsym.cmdsize
  simp only [sizeofSymtabCommand] at hsize
  rw [lcPosition] at hend
  omega

lemma ScanOk.dysymtab_fits (hok : ScanOk buf.byte buf.size sizeofcmds n st)
    (hfits : sizeofHeader + sizeofcmds ≤ buf.size) {p : ℕ} (hp : st.dysymtab = some p) :
    p + 80 ≤ buf.size := by
  obtain ⟨⟨i, hi, rfl⟩, hdysym⟩ := hok.dysymtab p hp
  have hend := (hok.commands.inside i hi).2
  have hsize := hdysym.cmdsize
  simp only [sizeofDysymtabCommand] at hsize
  rw [lcPosition] at hend
  omega

/-- The loops over the tables rely on what the loop over the commands has established. -/
lemma reads_parseTables (hok : ScanOk buf.byte buf.size sizeofcmds n st)
    (hfits : sizeofHeader + sizeofcmds ≤ buf.size) :
    ErrorsIn KextError.InFile (parseTables chain header buf st) := by
  refine (reads_check (by decide)).bind fun _ _ => (reads_elim _ (by decide)).bind fun sp hsp =>
    (reads_elim _ (by decide)).bind fun dp hdp => ?_
  have hsp' := elim_error_eq_ok_iff.1 hsp
  have hdp' := elim_error_eq_ok_iff.1 hdp
  have hspFits := hok.symtab_fits hfits hsp'
  have hdpFits := hok.dysymtab_fits hfits hdp'
  have hsymbols := (hok.symtab sp hsp').2.symbols
  have hexternals := (hok.dysymtab dp hdp').2.externals
  have hlocals := (hok.dysymtab dp hdp').2.locals
  refine (reads_get (by omega)).bind fun nlist hnlist =>
    (reads_get (by omega)).bind fun nsyms hnsyms =>
    (reads_get (by omega)).bind fun stroff hstroff => ?_
  have hnlist' := (Buffer.get_eq_ok_iff.1 hnlist).2
  have hnsyms' := (Buffer.get_eq_ok_iff.1 hnsyms).2
  have hstroff' := (Buffer.get_eq_ok_iff.1 hstroff).2
  rw [symSymoff, symNsyms, ← hnlist', ← hnsyms'] at hsymbols
  refine (reads_checkSymbols hsymbols).bind fun k hk => (reads_check (by decide)).bind fun _ _ =>
    (reads_get (by omega)).bind fun extrel hextrel =>
    (reads_get (by omega)).bind fun nextrel hnextrel => ?_
  have hextrel' := (Buffer.get_eq_ok_iff.1 hextrel).2
  have hnextrel' := (Buffer.get_eq_ok_iff.1 hnextrel).2
  rw [dysymExtreloff, dysymNextrel, ← hextrel', ← hnextrel'] at hexternals
  have hlt : stroff < 2 ^ 32 := hstroff' ▸ word_lt _ _ 4
  obtain ⟨hsyms, -⟩ := checkSymbols_spec hlt hk
  refine (reads_checkExternals hsymbols hsyms hexternals).bind fun missing _ =>
    (reads_check (inFile_couldNotResolveSymbols missing)).bind
      fun _ _ => (reads_get (by omega)).bind fun locrel hlocrel =>
    (reads_get (by omega)).bind fun nlocrel hnlocrel => ?_
  have hlocrel' := (Buffer.get_eq_ok_iff.1 hlocrel).2
  have hnlocrel' := (Buffer.get_eq_ok_iff.1 hnlocrel).2
  rw [dysymLocreloff, dysymNlocrel, ← hlocrel', ← hnlocrel'] at hlocals
  exact (reads_checkLocals hlocals).bind fun _ _ => errorsIn_ok _

/-- No read of `kext_parse` is outside of an upload that contains a header. -/
lemma reads_kextParse (hmin : sizeofHeader ≤ buf.size) :
    ErrorsIn KextError.InFile (kextParse chain header buf) := by
  simp only [sizeofHeader] at hmin
  refine (reads_get (by omega)).bind fun _ _ => (reads_check (by decide)).bind fun _ _ =>
    (reads_get (by omega)).bind fun _ _ => (reads_check (by decide)).bind fun _ _ =>
    (reads_get (by omega)).bind fun sizeofcmds hs => (reads_check (by decide)).bind fun _ hfits =>
    (reads_get (by omega)).bind fun ncmds hn => ?_
  have hfits' := guard_eq_ok_iff.1 hfits
  refine (reads_scanCommands hfits').bind fun s hscan => ErrorsIn.bind ?_ fun _ _ => errorsIn_ok _
  obtain ⟨buf', st⟩ := s
  obtain ⟨hok, hsize, hs'⟩ :=
    scan_spec (Buffer.get_eq_ok_iff.1 hs).2 (Buffer.get_eq_ok_iff.1 hn).2 hscan
  exact reads_parseTables hok (by rw [hs', hsize]; exact hfits')

lemma kextParse_ne_fault (hmin : sizeofHeader ≤ buf.size) :
    kextParse chain header buf ≠ .error .fault :=
  fun h => reads_kextParse hmin _ h rfl

end Reads

/-- `kext_parse` ends, accepting the upload or rejecting it, without a read outside of it, and what
it changes lies inside of it. -/
theorem kextParse_inside (chain : List KernelcacheSymbolTable) (header : ℕ) (buf : Buffer)
    (hmin : 0x4000 ≤ buf.size) (_ : buf.size < 2 ^ 32) :
    (∀ e, kextParse chain header buf = .error e → e ≠ .fault) ∧
      (∀ p ∈ kextStores buf, p + 4 ≤ buf.size) ∧
      ∀ buf' info, kextParse chain header buf = .ok (buf', info) → buf'.size = buf.size ∧
        ∀ b, (∀ p ∈ kextStores buf, b < p ∨ p + 4 ≤ b) → buf'.byte b = buf.byte b := by
  have hheader : sizeofHeader ≤ buf.size := le_trans (by decide) hmin
  refine ⟨fun e he => reads_kextParse hheader e he, kextStores_inside,
    fun buf' info hparse => ?_⟩
  obtain rfl := kextParse_patched hparse
  exact ⟨rfl, fun b hb => destroyAt_apply_of_out hb⟩

/-- The small file. -/
theorem kextParse_inside_small :
    (∀ e, kextParse smallChain 0x1000000 (smallUpload 0 0x1000 0x800 0x900) = .error e →
        e ≠ .fault) ∧
      (∀ p ∈ kextStores (smallUpload 0 0x1000 0x800 0x900), p + 4 ≤ 0x4000) ∧
      ∀ buf' info, kextParse smallChain 0x1000000 (smallUpload 0 0x1000 0x800 0x900) =
          .ok (buf', info) →
        buf'.size = 0x4000 ∧ ∀ b,
          (∀ p ∈ kextStores (smallUpload 0 0x1000 0x800 0x900), b < p ∨ p + 4 ≤ b) →
            buf'.byte b = (smallUpload 0 0x1000 0x800 0x900).byte b :=
  kextParse_inside smallChain 0x1000000 (smallUpload 0 0x1000 0x800 0x900) (by decide) (by decide)

end VulnerableKext.Kext

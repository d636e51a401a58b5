import VulnerableKext.Kext.WellFormed

/-!
# Which addresses are tested

The relocations are looked at in order, the external ones first, and the address of one is tested
behind all other checks on it, and only when its symbol has been resolved.  `AddressTested` says of
a file which addresses these are.  `kext_parse` complains about an address if and only if it
is one of them, and is out of bounds.
-/

namespace VulnerableKext.Kext

open Memory Checked Device

variable {chain : List KernelcacheSymbolTable} {buf buf' : Buffer} {header sizeofcmds n lc off w : ℕ}
  {cmd cmdsize vmBase vmSize vmEnd nsyms stroff nlist extrel locrel sp dp r : ℕ} {st : ScanState}
  {b s : ℕ}

/-! ## The addresses of a file -/

/-- What is established about an external relocation before its address is tested; its symbol is
resolved to `address`, which is 0 when none of the tables has it. -/
structure ExternalKnown (chain : List KernelcacheSymbolTable) (buf : Buffer)
    (nsyms stroff nlist : ℕ) (er : RelocationInfo) (address : ℕ) : Prop where
  flag : er.rExtern = true
  length : er.rLength = 3
  symbolnum : er.rSymbolnum < nsyms
  resolved : ∃ name,
    buf.string? (stringOffset stroff (nlistStrx buf.byte (nlist + er.rSymbolnum * sizeofNlist))) =
      some name ∧ kernelcacheSymbolTableLookup chain name = some address

/-- The loop goes on behind the relocation: with the ones that are not resolved as well. -/
def ExternalPasses (chain : List KernelcacheSymbolTable) (buf : Buffer)
    (vmBase vmSize nsyms stroff nlist : ℕ) (er : RelocationInfo) : Prop :=
  ∃ address, ExternalKnown chain buf nsyms stroff nlist er address ∧
    (address ≠ 0 → AddressInBounds vmBase vmSize er.rAddress)

section File

variable (chain : List KernelcacheSymbolTable) (buf : Buffer) (vmBase sp dp i : ℕ)

/-- The address of the `i`-th external relocation is tested. -/
structure ExternalTested : Prop where
  lt : i < dysymNextrel buf.byte dp
  before : ∀ j < i, ExternalPasses chain buf vmBase (imageSize buf.byte) (symNsyms buf.byte sp)
    (symStroff buf.byte sp) (symSymoff buf.byte sp) (externalEntry buf.byte dp j)
  known : ∃ address, ExternalKnown chain buf (symNsyms buf.byte sp) (symStroff buf.byte sp)
    (symSymoff buf.byte sp) (externalEntry buf.byte dp i) address ∧ address ≠ 0

/-- The address of the `i`-th local relocation is tested. -/
structure LocalTested : Prop where
  lt : i < dysymNlocrel buf.byte dp
  externals : ∀ j < dysymNextrel buf.byte dp, ExternalOk chain buf vmBase (imageSize buf.byte)
    (symNsyms buf.byte sp) (symStroff buf.byte sp) (symSymoff buf.byte sp)
    (externalEntry buf.byte dp j)
  before : ∀ j < i, LocalOk vmBase (imageSize buf.byte) (localEntry buf.byte dp j)
  flag : (localEntry buf.byte dp i).rExtern = false
  length : (localEntry buf.byte dp i).rLength = 3

/-- The address `r` is tested. -/
def AddressTested (r : ℕ) : Prop :=
  (∃ i, ExternalTested chain buf vmBase sp dp i ∧ (externalEntry buf.byte dp i).rAddress = r) ∨
    ∃ i, LocalTested chain buf vmBase sp dp i ∧ (localEntry buf.byte dp i).rAddress = r

end File

/-- The relocations of a file are looked at when its load commands and symbols are in order. -/
structure RelocationsReached (buf : Buffer) (vmBase kmodInfo sp dp : ℕ) : Prop
    extends HeaderOk buf vmBase sp dp, SymbolsOk buf vmBase kmodInfo sp

/-! ## What is not about an address -/

/-- The range and the `r_address` that a message about a bad address is about. -/
def KextError.badAddress : KextError → Option (ℕ × ℕ × ℕ)
  | externalBadAddress vmBase vmSize rAddress => some (vmBase, vmSize, rAddress)
  | localBadAddress vmBase vmSize rAddress => some (vmBase, vmSize, rAddress)
  | _ => none

/-- An error of the checks before the relocations: it is neither about an address nor a lookup that
has left the symbol tables. -/
def KextError.Early (e : KextError) : Prop := e.badAddress = none ∧ e ≠ .tableFault

instance (e : KextError) : Decidable e.Early := inferInstanceAs (Decidable (_ ∧ _))

section Early

lemma early_get : ErrorsIn KextError.Early (buf.get off w) := by
  rw [Buffer.get]
  split_ifs
  · exact errorsIn_ok _
  · exact errorsIn_error (by decide)

lemma early_guard {c : Prop} [Decidable c] {e : KextError} (h : e.Early) :
    ErrorsIn KextError.Early (guard c e) :=
  errorsIn_guard fun _ => h

lemma early_elim {α : Type} (o : Option α) {e : KextError} (h : e.Early) :
    ErrorsIn KextError.Early (o.elim (.error e) .ok) := by
  cases o with
  | none => exact errorsIn_error h
  | some a => exact errorsIn_ok a

lemma early_relocation : ErrorsIn KextError.Early (buf.relocation off) := by
  rw [Buffer.relocation]
  split_ifs
  · exact errorsIn_ok _
  · exact errorsIn_error (by decide)

lemma early_setBase (vmaddr fileoff filesize : ℕ) :
    ErrorsIn KextError.Early (setBase st sizeofcmds vmaddr fileoff filesize) := by
  rw [setBase]
  split_ifs
  · exact errorsIn_ok _
  · exact (early_guard (by decide)).bind fun _ _ => errorsIn_ok _

lemma early_scanSegment : ErrorsIn KextError.Early (scanSegment buf sizeofcmds cmd cmdsize lc st) := by
  rw [scanSegment]
  split_ifs
  · exact errorsIn_ok _
  · exact (early_guard (by decide)).bind fun _ _ => early_get.bind fun _ _ =>
      early_get.bind fun _ _ => early_get.bind fun _ _ => early_get.bind fun _ _ =>
      (early_guard (by decide)).bind fun _ _ => (early_guard (by decide)).bind fun _ _ =>
      (early_setBase _ _ _).bind fun _ _ => (early_guard (by decide)).bind fun _ _ => errorsIn_ok _

lemma early_scanSymtab : ErrorsIn KextError.Early (scanSymtab buf cmd cmdsize lc st) := by
  rw [scanSymtab]
  split_ifs
  · exact errorsIn_ok _
  · exact (early_guard (by decide)).bind fun _ _ => (early_guard (by decide)).bind fun _ _ =>
      early_get.bind fun _ _ => early_get.bind fun _ _ => (early_guard (by decide)).bind fun _ _ =>
      early_get.bind fun _ _ => (early_guard (by decide)).bind fun _ _ => errorsIn_ok _

lemma early_scanDysymtab : ErrorsIn KextError.Early (scanDysymtab buf cmd cmdsize lc st) := by
  rw [scanDysymtab]
  split_ifs
  · exact errorsIn_ok _
  · exact (early_guard (by decide)).bind fun _ _ => (early_guard (by decide)).bind fun _ _ =>
      early_get.bind fun _ _ => early_get.bind fun _ _ => (early_guard (by decide)).bind fun _ _ =>
      early_get.bind fun _ _ => early_get.bind fun _ _ => (early_guard (by decide)).bind fun _ _ =>
      errorsIn_ok _

lemma early_scanCommands : ErrorsIn KextError.Early (scanCommands sizeofcmds n buf lc st) := by
  induction n generalizing buf lc st with
  | zero => exact errorsIn_ok _
  | succ n ih =>
    refine ErrorsIn.bind ?_ fun _ _ => ih
    exact (early_guard (by decide)).bind fun _ _ => early_get.bind fun _ _ =>
      (early_guard (by decide)).bind fun _ _ => early_get.bind fun _ _ =>
      (early_guard (by decide)).bind fun _ _ => early_get.bind fun _ _ =>
      early_scanSegment.bind fun _ _ => early_scanSymtab.bind fun _ _ =>
      early_scanDysymtab.bind fun _ _ => errorsIn_ok _

lemma early_checkSymbols {nl k : ℕ} :
    ErrorsIn KextError.Early (checkSymbols buf vmBase vmEnd stroff n nl k) := by
  induction n generalizing nl k with
  | zero => exact errorsIn_ok _
  | succ n ih =>
    refine ErrorsIn.bind ?_ fun _ _ => ih
    refine early_get.bind fun _ _ => (early_guard (by decide)).bind fun _ _ =>
      (early_elim _ (by decide)).bind fun _ _ => early_get.bind fun _ _ =>
      early_get.bind fun _ _ => (early_guard (by decide)).bind fun _ _ => ?_
    split_ifs
    · exact (early_guard (by decide)).bind fun _ _ => (early_guard (by decide)).bind fun _ _ =>
        (early_guard (by decide)).bind fun _ _ => errorsIn_ok _
    · exact errorsIn_ok _

end Early

/-! ## What is -/

/-- The error is about the address `r` of a relocation in an image of `s` bytes at `b`. -/
def KextError.About (b s r : ℕ) (e : KextError) : Prop := e.badAddress = some (b, s, r)

section About

lemma not_about_of_early {α : Type} {x : Except KextError α} (h : ErrorsIn KextError.Early x) :
    ¬ FailsWith (KextError.About b s r) x := by
  refine ErrorsIn.not_failsWith (h.mono fun e he habout => ?_)
  rw [KextError.About, he.1] at habout
  cases habout

lemma about_externalBadAddress :
    (KextError.externalBadAddress vmBase vmSize n).About b s r ↔ (vmBase, vmSize, n) = (b, s, r) := by
  rw [KextError.About, KextError.badAddress, Option.some.injEq]

lemma about_localBadAddress :
    (KextError.localBadAddress vmBase vmSize n).About b s r ↔ (vmBase, vmSize, n) = (b, s, r) := by
  rw [KextError.About, KextError.badAddress, Option.some.injEq]

/-- The check on an external relocation fails because of its address. -/
lemma checkExternal_about_iff {er : RelocationInfo}
    (hnlist : nlist + nsyms * sizeofNlist ≤ buf.size) :
    FailsWith (KextError.About b s r) (checkExternal buf chain vmBase vmSize nsyms stroff nlist er) ↔
      (∃ address, ExternalKnown chain buf nsyms stroff nlist er address ∧ address ≠ 0) ∧
        ¬ AddressInBounds vmBase vmSize er.rAddress ∧ (vmBase, vmSize, er.rAddress) = (b, s, r) := by
  have hbounds : FailsWith (KextError.About b s r) (do
      guard (AddressInBounds vmBase vmSize er.rAddress)
        (.externalBadAddress vmBase vmSize er.rAddress)
      return ([] : List (List UInt8))) ↔
      ¬ AddressInBounds vmBase vmSize er.rAddress ∧ (vmBase, vmSize, er.rAddress) = (b, s, r) := by
    rw [failsWith_bind_iff, failsWith_guard_iff, about_externalBadAddress]
    refine or_iff_left ?_
    rintro ⟨_, -, h⟩
    exact not_failsWith_pure _ h
  -- the check can fail in each of its lines, but not about an address before the last one
  simp only [checkExternal, lookupSymbol, failsWith_bind_iff, failsWith_guard_iff, guard_eq_ok_iff,
    Buffer.get_eq_ok_iff, elim_error_eq_ok_iff, failsWith_elim_iff, not_about_of_early early_get,
    KextError.About, KextError.badAddress, reduceCtorEq, and_false, false_or, and_assoc,
    exists_and_left, exists_eq_left, exists_const]
  constructor
  · rintro ⟨hflag, hlength, hsymbolnum, -, name, hname, address, haddress, h⟩
    -- an unresolved symbol is counted, and its address is not tested
    split_ifs at h with hzero
    · exact absurd h (not_failsWith_ok _)
    · exact ⟨⟨address, ⟨hflag, hlength, hsymbolnum, name, hname, haddress⟩, hzero⟩, hbounds.1 h⟩
  · rintro ⟨⟨address, ⟨hflag, hlength, hsymbolnum, name, hname, haddress⟩, hne⟩, h⟩
    have hroom : nlist + er.rSymbolnum * sizeofNlist + 4 ≤ buf.size := by
      simp only [sizeofNlist] at hnlist ⊢
      omega
    refine ⟨hflag, hlength, hsymbolnum, hroom, name, hname, address, haddress, ?_⟩
    rw [if_neg hne]
    exact hbounds.2 h

/-- The loop goes on behind an external relocation. -/
lemma checkExternal_ok_iff {er : RelocationInfo} (hnlist : nlist + nsyms * sizeofNlist ≤ buf.size) :
    (∃ missing, checkExternal buf chain vmBase vmSize nsyms stroff nlist er = .ok missing) ↔
      ExternalPasses chain buf vmBase vmSize nsyms stroff nlist er := by
  simp only [checkExternal, lookupSymbol, bind_eq_ok_iff, guard_eq_ok_iff, Buffer.get_eq_ok_iff,
    elim_error_eq_ok_iff, and_assoc, exists_and_left, exists_eq_left, exists_const]
  constructor
  · rintro ⟨hflag, hlength, hsymbolnum, -, missing, name, hname, address, haddress, h⟩
    refine ⟨address, ⟨hflag, hlength, hsymbolnum, name, hname, haddress⟩, fun hne => ?_⟩
    rw [if_neg hne] at h
    simp only [bind_eq_ok_iff, guard_eq_ok_iff, exists_and_left] at h
    exact h.1
  · rintro ⟨address, ⟨hflag, hlength, hsymbolnum, name, hname, haddress⟩, hbounds⟩
    have hroom : nlist + er.rSymbolnum * sizeofNlist + 4 ≤ buf.size := by
      simp only [sizeofNlist] at hnlist ⊢
      omega
    by_cases hzero : address = 0
    · refine ⟨hflag, hlength, hsymbolnum, hroom, [name], name, hname, address, haddress, ?_⟩
      rw [if_pos hzero]
    · refine ⟨hflag, hlength, hsymbolnum, hroom, [], name, hname, address, haddress, ?_⟩
      rw [if_neg hzero]
      simp only [bind_eq_ok_iff, guard_eq_ok_iff, pure_eq_ok_iff, and_true, exists_const]
      exact hbounds hzero

/-- The loop over the external relocations. -/
lemma checkExternals_about_iff (hnlist : nlist + nsyms * sizeofNlist ≤ buf.size)
    (hextrel : extrel + n * sizeofRelocationInfo ≤ buf.size) :
    FailsWith (KextError.About b s r)
        (checkExternals buf chain vmBase vmSize nsyms stroff nlist n extrel) ↔
      ∃ i < n, (∀ j < i, ExternalPasses chain buf vmBase vmSize nsyms stroff nlist
          (relocationAt buf.byte (extrel + j * sizeofRelocationInfo))) ∧
        FailsWith (KextError.About b s r) (checkExternal buf chain vmBase vmSize nsyms stroff nlist
          (relocationAt buf.byte (extrel + i * sizeofRelocationInfo))) := by
  refine failsWith_loop_iff
    (fun a => ExternalPasses chain buf vmBase vmSize nsyms stroff nlist (relocationAt buf.byte a))
    (fun a => FailsWith (KextError.About b s r)
      (checkExternal buf chain vmBase vmSize nsyms stroff nlist (relocationAt buf.byte a)))
    (fun a => ?_) (fun n a hroom => ?_) hextrel
  · exact not_failsWith_ok _
  have hentry : a + sizeofRelocationInfo ≤ buf.size := by
    simp only [sizeofRelocationInfo] at hroom ⊢
    omega
  rw [← checkExternal_ok_iff hnlist]
  simp only [checkExternals, failsWith_bind_iff, not_about_of_early early_relocation, false_or,
    relocation_eq_ok_iff, not_failsWith_pure, and_false, exists_false, or_false,
    exists_eq_left, hentry, true_and, exists_and_right]

lemma checkLocal_about_iff {lr : RelocationInfo} :
    FailsWith (KextError.About b s r) (checkLocal vmBase vmSize lr) ↔
      lr.rExtern = false ∧ lr.rLength = 3 ∧
        ¬ AddressInBounds vmBase vmSize lr.rAddress ∧ (vmBase, vmSize, lr.rAddress) = (b, s, r) := by
  simp only [checkLocal, failsWith_bind_iff, failsWith_guard_iff, guard_eq_ok_iff,
    about_localBadAddress, exists_const]
  simp only [KextError.About, KextError.badAddress, reduceCtorEq, and_false, false_or]

lemma checkLocal_ok_iff {lr : RelocationInfo} :
    (∃ u, checkLocal vmBase vmSize lr = .ok u) ↔ LocalOk vmBase vmSize lr := by
  simp only [checkLocal, bind_eq_ok_iff, guard_eq_ok_iff, exists_const]
  constructor
  · rintro ⟨hflag, hlength, hbounds⟩
    exact ⟨hflag, hlength, hbounds⟩
  · rintro ⟨hflag, hlength, hbounds⟩
    exact ⟨hflag, hlength, hbounds⟩

/-- The loop over the local relocations. -/
lemma checkLocals_about_iff (hlocrel : locrel + n * sizeofRelocationInfo ≤ buf.size) :
    FailsWith (KextError.About b s r) (checkLocals buf vmBase vmSize n locrel) ↔
      ∃ i < n, (∀ j < i, LocalOk vmBase vmSize
          (relocationAt buf.byte (locrel + j * sizeofRelocationInfo))) ∧
        FailsWith (KextError.About b s r) (checkLocal vmBase vmSize
          (relocationAt buf.byte (locrel + i * sizeofRelocationInfo))) := by
  refine failsWith_loop_iff (fun a => LocalOk vmBase vmSize (relocationAt buf.byte a))
    (fun a => FailsWith (KextError.About b s r)
      (checkLocal vmBase vmSize (relocationAt buf.byte a)))
    (fun a => ?_) (fun n a hroom => ?_) hlocrel
  · exact not_failsWith_ok _
  have hentry : a + sizeofRelocationInfo ≤ buf.size := by
    simp only [sizeofRelocationInfo] at hroom ⊢
    omega
  rw [← checkLocal_ok_iff]
  simp only [checkLocals, failsWith_bind_iff, not_about_of_early early_relocation, false_or,
    relocation_eq_ok_iff, exists_eq_left, hentry, true_and, exists_and_right]

end About

/-! ## The whole file -/

section File

variable (hok : HeaderOk buf vmBase sp dp)
include hok

lemma externals_about_iff :
    FailsWith (KextError.About b s r) (checkExternals buf chain vmBase (imageSize buf.byte)
        (symNsyms buf.byte sp) (symStroff buf.byte sp) (symSymoff buf.byte sp)
        (dysymNextrel buf.byte dp) (dysymExtreloff buf.byte dp)) ↔
      ∃ i, ExternalTested chain buf vmBase sp dp i ∧
        ¬ AddressInBounds vmBase (imageSize buf.byte) (externalEntry buf.byte dp i).rAddress ∧
        (vmBase, imageSize buf.byte, (externalEntry buf.byte dp i).rAddress) = (b, s, r) := by
  have hnlist := hok.commands.symtab.symbols
  rw [checkExternals_about_iff hnlist hok.commands.dysymtab.externals]
  simp only [checkExternal_about_iff hnlist]
  constructor
  · rintro ⟨i, hi, hbefore, hknown, hout⟩
    exact ⟨i, ⟨hi, hbefore, hknown⟩, hout⟩
  · rintro ⟨i, ⟨hi, hbefore, hknown⟩, hout⟩
    exact ⟨i, hi, hbefore, hknown, hout⟩

lemma locals_about_iff (hexternals : ∀ j < dysymNextrel buf.byte dp,
      ExternalOk chain buf vmBase (imageSize buf.byte) (symNsyms buf.byte sp)
        (symStroff buf.byte sp) (symSymoff buf.byte sp) (externalEntry buf.byte dp j)) :
    FailsWith (KextError.About b s r) (checkLocals buf vmBase (imageSize buf.byte)
        (dysymNlocrel buf.byte dp) (dysymLocreloff buf.byte dp)) ↔
      ∃ i, LocalTested chain buf vmBase sp dp i ∧
        ¬ AddressInBounds vmBase (imageSize buf.byte) (localEntry buf.byte dp i).rAddress ∧
        (vmBase, imageSize buf.byte, (localEntry buf.byte dp i).rAddress) = (b, s, r) := by
  rw [checkLocals_about_iff hok.commands.dysymtab.locals]
  simp only [checkLocal_about_iff]
  constructor
  · rintro ⟨i, hi, hbefore, hflag, hlength, hout⟩
    exact ⟨i, ⟨hi, hexternals, hbefore, hflag, hlength⟩, hout⟩
  · rintro ⟨i, ⟨hi, -, hbefore, hflag, hlength⟩, hout⟩
    exact ⟨i, hi, hbefore, hflag, hlength, hout⟩

/-- The checks of the tables complain about an address. -/
lemma parseTables_about_iff :
    FailsWith (KextError.About b s r)
        (parseTables chain header buf (commandsFound buf.byte vmBase sp dp)) ↔
      (∃ kmodInfo, SymbolsOk buf vmBase kmodInfo sp) ∧ vmBase = b ∧ imageSize buf.byte = s ∧
        AddressTested chain buf vmBase sp dp r ∧ ¬ AddressInBounds b s r := by
  have hcommands := hok.commands
  have hsp := hcommands.symtab_fits hok.headerFits
  have hdp := hcommands.dysymtab_fits hok.headerFits
  have hend : vmBase + imageSize buf.byte < 2 ^ 64 := hcommands.vmEnd_lt
  have hsize : (vmBase + imageSize buf.byte + 2 ^ 64 - vmBase) % 2 ^ 64 = imageSize buf.byte := by
    omega
  have hstroff : symStroff buf.byte sp < 2 ^ 32 := word_lt _ _ 4
  have hnlist := hcommands.symtab.symbols
  have hexternals := hcommands.dysymtab.externals
  -- nothing in front of the two loops over the relocations is about an address
  simp only [parseTables, commandsFound, failsWith_bind_iff, failsWith_guard_iff,
    failsWith_elim_iff, not_about_of_early early_get, not_about_of_early early_checkSymbols,
    not_failsWith_pure, guard_eq_ok_iff, Buffer.get_eq_ok_iff, elim_error_eq_ok_iff,
    Option.some.injEq, and_assoc, exists_and_left, exists_eq_left, exists_eq_left', exists_const,
    true_and, hsize, KextError.About, KextError.badAddress, reduceCtorEq, and_false, false_or,
    or_false]
  rw [show word buf.byte (sp + 8) 4 = symSymoff buf.byte sp from rfl,
    show word buf.byte (sp + 12) 4 = symNsyms buf.byte sp from rfl,
    show word buf.byte (sp + 16) 4 = symStroff buf.byte sp from rfl,
    show word buf.byte (dp + 64) 4 = dysymExtreloff buf.byte dp from rfl,
    show word buf.byte (dp + 68) 4 = dysymNextrel buf.byte dp from rfl,
    show word buf.byte (dp + 72) 4 = dysymLocreloff buf.byte dp from rfl,
    show word buf.byte (dp + 76) 4 = dysymNlocrel buf.byte dp from rfl, externals_about_iff hok]
  constructor
  · rintro ⟨-, -, -, kmodInfo, hsyms, hk, -, -, h⟩
    obtain ⟨hall, hkmod⟩ := (checkSymbols_eq_ok_iff hstroff hend hnlist hk).1 hsyms
    refine ⟨⟨kmodInfo, hall, hk, hkmod⟩, ?_⟩
    rcases h with ⟨i, htested, hout, heq⟩ | ⟨missing, hext, rfl, -, -, h⟩
    · obtain ⟨rfl, rfl, rfl⟩ := heq
      exact ⟨rfl, rfl, Or.inl ⟨i, htested, rfl⟩, hout⟩
    · obtain ⟨i, htested, hout, heq⟩ :=
        (locals_about_iff hok ((checkExternals_eq_ok_iff hnlist hexternals).1 hext)).1 h
      obtain ⟨rfl, rfl, rfl⟩ := heq
      exact ⟨rfl, rfl, Or.inr ⟨i, htested, rfl⟩, hout⟩
  · rintro ⟨⟨kmodInfo, hall, hk, hkmod⟩, rfl, rfl, htested, hout⟩
    refine ⟨by omega, by omega, by omega, kmodInfo,
      (checkSymbols_eq_ok_iff hstroff hend hnlist hk).2 ⟨hall, hkmod⟩, hk, by omega, by omega, ?_⟩
    rcases htested with ⟨i, htested, rfl⟩ | ⟨i, htested, rfl⟩
    -- a local relocation is reached once all of the external ones have passed
    · exact Or.inl ⟨i, htested, hout, rfl⟩
    · have hext := (checkExternals_eq_ok_iff hnlist hexternals).2 htested.externals
      exact Or.inr ⟨[], hext, rfl, by omega, by omega,
        (locals_about_iff hok htested.externals).2 ⟨i, htested, hout, rfl⟩⟩

end File

/-- The checks of the tables complain about an address when the loop before them has found a
segment and both tables. -/
lemma parseTables_about_found
    (h : FailsWith (KextError.About b s r) (parseTables chain header buf st)) :
    st.foundFirstSegment = true ∧ ∃ sp dp, st.symtab = some sp ∧ st.dysymtab = some dp := by
  simp only [parseTables, failsWith_bind_iff, failsWith_guard_iff, failsWith_elim_iff,
    guard_eq_ok_iff, elim_error_eq_ok_iff, KextError.About, KextError.badAddress, reduceCtorEq,
    and_false, false_or] at h
  obtain ⟨_, hf, sp, hsp, dp, hdp, -⟩ := h
  exact ⟨hf, sp, dp, hsp, hdp⟩

/-- `kext_parse` complains about an address if and only if it tests it, and it is out of
bounds. -/
theorem kextParse_about_iff :
    FailsWith (KextError.About b s r) (kextParse chain header buf) ↔
      ∃ kmodInfo sp dp, RelocationsReached (destroyedUpload buf) b kmodInfo sp dp ∧
        imageSize (destroyedUpload buf).byte = s ∧
        AddressTested chain (destroyedUpload buf) b sp dp r ∧ ¬ AddressInBounds b s r := by
  simp only [kextParse, failsWith_bind_iff, failsWith_guard_iff, not_about_of_early early_get,
    not_about_of_early early_scanCommands, not_failsWith_pure, guard_eq_ok_iff,
    Buffer.get_eq_ok_iff, and_assoc, exists_and_left, exists_eq_left, exists_const, Prod.exists,
    KextError.About, KextError.badAddress, reduceCtorEq, and_false, false_or, or_false, exists_false]
  rw [show word buf.byte 20 4 = mhSizeofcmds buf.byte 0 from rfl,
    show word buf.byte 16 4 = mhNcmds buf.byte 0 from rfl]
  constructor
  · rintro ⟨-, hmagic, -, hfiletype, -, hfits, -, buf₁, st, hscan, h⟩
    obtain ⟨hf, sp, dp, hsp, hdp⟩ := parseTables_about_found h
    obtain ⟨rfl, hst, hok⟩ := commands_iff.1 ⟨hmagic, hfiletype, hfits, hscan, hf, hsp, hdp⟩
    rw [hst] at h
    obtain ⟨⟨kmodInfo, hsymbols⟩, rfl, hrest⟩ := (parseTables_about_iff hok).1 h
    exact ⟨kmodInfo, sp, dp, ⟨hok, hsymbols⟩, hrest⟩
  · rintro ⟨kmodInfo, sp, dp, ⟨hok, hsymbols⟩, hrest⟩
    have hscan := hok.scanCommands_eq
    obtain ⟨hmagic, hfiletype, hfits⟩ := hok.upload
    have hroom : 32 ≤ buf.size := (Nat.le_add_right _ _).trans hfits
    exact ⟨by omega, hmagic, by omega, hfiletype, by omega, hfits, by omega, _, _, hscan,
      (parseTables_about_iff hok).2 ⟨⟨kmodInfo, hsymbols⟩, rfl, hrest⟩⟩

end VulnerableKext.Kext

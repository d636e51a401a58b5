import VulnerableKext.Kext.Commands

/-!
# What acceptance means

`Accepted` collects what `kext_parse` has established about a file when it returns
true: the segments tile a range of addresses from `vm_base` on, the tables lie in the
file, the kmod_info lies in the image, every external relocation names a symbol that
the chain resolves, and every relocation has passed the bounds check.
-/

namespace VulnerableKext.Kext

open Memory Checked Bytes Device

variable {m : Mem} {size sizeofcmds n i p lc : ℕ} {st st' : ScanState} {buf buf' : Buffer}
  {chain : List KernelcacheSymbolTable} {header : ℕ} {info : KextLoadInfo}

/-! ## One load command -/

lemma Buffer.get_eq_ok_iff {off w v : ℕ} :
    buf.get off w = .ok v ↔ off + w ≤ buf.size ∧ v = word buf.byte off w := by
  unfold Buffer.get
  split_ifs with h
  · simp [h, eq_comm]
  · simp [h]

lemma setBase_eq_ok_iff {vmaddr fileoff filesize : ℕ} :
    setBase st sizeofcmds vmaddr fileoff filesize = .ok st' ↔
      (st.foundFirstSegment = true ∧ st' = st) ∨
      (st.foundFirstSegment = false ∧ (fileoff = 0 ∧ sizeofHeader + sizeofcmds ≤ filesize) ∧
        st' = { st with foundFirstSegment := true, vmaddr, vmBase := vmaddr }) := by
  unfold setBase
  cases st.foundFirstSegment with
  | true => simp [eq_comm]
  | false =>
    simp only [Bool.false_eq_true, if_false, bind_eq_ok_iff, guard_eq_ok_iff, pure_eq_ok_iff]
    simp [eq_comm]

/-- A segment is placed where the one before it ends. -/
lemma scanSegment_spec (hok : ScanOk buf.byte buf.size sizeofcmds n st)
    (hlc : lc = lcPosition buf.byte n)
    (h : scanSegment buf sizeofcmds (lcCmd buf.byte lc) (lcCmdsize buf.byte lc) lc st = .ok st') :
    st'.symtab = st.symtab ∧ st'.dysymtab = st.dysymtab ∧
      (∀ i < n + 1, IsSegment buf.byte i → SegmentOk buf.byte buf.size sizeofcmds st'.vmBase i) ∧
      (st'.foundFirstSegment = true → (∃ i < n + 1, IsSegment buf.byte i) ∧
        st'.vmaddr = st'.vmBase + vmOffset buf.byte (n + 1) ∧ st'.vmaddr < 2 ^ 64) ∧
      (st'.foundFirstSegment = false → ∀ i < n + 1, ¬ IsSegment buf.byte i) := by
  subst hlc
  unfold scanSegment at h
  by_cases hcmd : lcCmd buf.byte (lcPosition buf.byte n) = LC_SEGMENT_64
  · have hs : IsSegment buf.byte n := hcmd
    rw [if_neg (not_not.2 hcmd)] at h
    simp only [bind_eq_ok_iff, guard_eq_ok_iff, Buffer.get_eq_ok_iff, setBase_eq_ok_iff,
      pure_eq_ok_iff] at h
    obtain ⟨_, hcmdsize, vmaddr, ⟨-, hvmaddr⟩, vmsize, ⟨-, hvmsize⟩, fileoff, ⟨-, hfileoff⟩,
      filesize, ⟨-, hfilesize⟩, _, ⟨hoff, hend, hle⟩, _, hwrap, st₁, hbase, _, hcont, rfl⟩ := h
    have hvm : vmOffset buf.byte (n + 1) = vmOffset buf.byte n + vmsize := by
      rw [vmOffset, if_pos hs, segVmsize, ← hvmsize]
    have hlt₁ : vmaddr < 2 ^ 64 := hvmaddr ▸ word_lt _ _ 8
    have hlt₂ : vmsize < 2 ^ 64 := hvmsize ▸ word_lt _ _ 8
    have hsum : vmaddr + vmsize < 2 ^ 64 := by omega
    -- the fields of the new segment, which are the same whether it is the first one or not
    have hseg {vmBase : ℕ} (hbase : vmaddr = vmBase + vmOffset buf.byte n)
        (hhead : (∀ j < n, ¬ IsSegment buf.byte j) →
          fileoff = 0 ∧ sizeofHeader + sizeofcmds ≤ filesize) :
        SegmentOk buf.byte buf.size sizeofcmds vmBase n := by
      refine ⟨hcmdsize, ?_, ?_, ?_, ?_, ?_, fun hfirst => ?_⟩
      · rw [segFileoff, ← hfileoff]
        exact hoff
      · rw [segFileoff, segFilesize, ← hfileoff, ← hfilesize]
        exact hend
      · rw [segFilesize, segVmsize, ← hfilesize, ← hvmsize]
        exact hle
      · rw [segVmaddr, ← hvmaddr, hbase]
      · rw [hvm]
        omega
      · rw [segFileoff, segFilesize, ← hfileoff, ← hfilesize]
        exact hhead hfirst
    rcases hbase with ⟨hf, rfl⟩ | ⟨hf, hmapped, rfl⟩
    · obtain ⟨⟨j, hj, hsj⟩, hva, -⟩ := hok.found hf
      refine ⟨rfl, rfl, fun i hi hsi => ?_, fun _ => ⟨⟨n, by omega, hs⟩, ?_, ?_⟩, fun hf' => ?_⟩
      · rcases Nat.lt_succ_iff_lt_or_eq.1 hi with hlt | rfl
        · exact hok.commands.segment i hlt hsi
        · exact hseg (hcont.trans hva) fun hfirst => absurd hsj (hfirst j hj)
      · rw [hvm]
        show (st₁.vmaddr + vmsize) % 2 ^ 64 = st₁.vmBase + (vmOffset buf.byte n + vmsize)
        omega
      · exact Nat.mod_lt _ (by norm_num)
      · exact absurd (hf.symm.trans hf') (by simp)
    · have hno := hok.notFound hf
      have hvm0 : vmOffset buf.byte n = 0 := vmOffset_eq_zero hno
      refine ⟨rfl, rfl, fun i hi hsi => ?_, fun _ => ⟨⟨n, by omega, hs⟩, ?_, ?_⟩, fun hf' => ?_⟩
      · rcases Nat.lt_succ_iff_lt_or_eq.1 hi with hlt | rfl
        · exact absurd hsi (hno i hlt)
        · exact hseg (by rw [hvm0, Nat.add_zero]) fun _ => hmapped
      · rw [hvm, hvm0, Nat.zero_add]
        exact Nat.mod_eq_of_lt hsum
      · exact Nat.mod_lt _ (by norm_num)
      · simp at hf'
  · have hs : ¬ IsSegment buf.byte n := hcmd
    rw [if_pos hcmd] at h
    obtain rfl : st = st' := Except.ok.inj h
    have hvm : vmOffset buf.byte (n + 1) = vmOffset buf.byte n := by
      rw [vmOffset, if_neg hs, Nat.add_zero]
    refine ⟨rfl, rfl, fun i hi hsi => ?_, fun hf => ?_, fun hf i hi => ?_⟩
    · rcases Nat.lt_succ_iff_lt_or_eq.1 hi with hlt | rfl
      · exact hok.commands.segment i hlt hsi
      · exact absurd hsi hs
    · obtain ⟨⟨j, hj, hsj⟩, hva, hlt⟩ := hok.found hf
      exact ⟨⟨j, by omega, hsj⟩, by rw [hvm]; exact hva, hlt⟩
    · rcases Nat.lt_succ_iff_lt_or_eq.1 hi with hlt | rfl
      · exact hok.notFound hf i hlt
      · exact hs

lemma scanSymtab_spec {cmdsize : ℕ} (hcmdsize : cmdsize = lcCmdsize buf.byte lc)
    (h : scanSymtab buf (lcCmd buf.byte lc) cmdsize lc st = .ok st') :
    st' = st ∨ (st' = { st with symtab := some lc } ∧ SymtabOk buf.byte buf.size lc) := by
  unfold scanSymtab at h
  by_cases hcmd : lcCmd buf.byte lc = LC_SYMTAB
  · rw [if_neg (not_not.2 hcmd)] at h
    simp only [bind_eq_ok_iff, guard_eq_ok_iff, Buffer.get_eq_ok_iff, pure_eq_ok_iff] at h
    obtain ⟨_, -, _, hsize, nsyms, ⟨-, hnsyms⟩, symoff, ⟨-, hsymoff⟩, _, ⟨-, hsyms⟩, stroff,
      ⟨-, hstroff⟩, _, hstr, rfl⟩ := h
    refine Or.inr ⟨rfl, hcmd, by rw [← hcmdsize]; exact hsize, ?_, ?_⟩
    · rw [symSymoff, symNsyms, ← hsymoff, ← hnsyms]
      exact hsyms
    · rw [symStroff, ← hstroff]
      exact hstr
  · rw [if_pos hcmd] at h
    exact Or.inl (Except.ok.inj h).symm

lemma scanDysymtab_spec {cmdsize : ℕ} (hcmdsize : cmdsize = lcCmdsize buf.byte lc)
    (h : scanDysymtab buf (lcCmd buf.byte lc) cmdsize lc st = .ok st') :
    st' = st ∨ (st' = { st with dysymtab := some lc } ∧ DysymtabOk buf.byte buf.size lc) := by
  unfold scanDysymtab at h
  by_cases hcmd : lcCmd buf.byte lc = LC_DYSYMTAB
  · rw [if_neg (not_not.2 hcmd)] at h
    simp only [bind_eq_ok_iff, guard_eq_ok_iff, Buffer.get_eq_ok_iff, pure_eq_ok_iff] at h
    obtain ⟨_, -, _, hsize, nextrel, ⟨-, hnextrel⟩, extreloff, ⟨-, hextreloff⟩, _, ⟨-, hext⟩,
      nlocrel, ⟨-, hnlocrel⟩, locreloff, ⟨-, hlocreloff⟩, _, ⟨-, hloc⟩, rfl⟩ := h
    refine Or.inr ⟨rfl, hcmd, by rw [← hcmdsize]; exact hsize, ?_, ?_⟩
    · rw [dysymExtreloff, dysymNextrel, ← hextreloff, ← hnextrel]
      exact hext
    · rw [dysymLocreloff, dysymNlocrel, ← hlocreloff, ← hnlocrel]
      exact hloc
  · rw [if_pos hcmd] at h
    exact Or.inl (Except.ok.inj h).symm

/-- The change of the file keeps the commands up to the current one. -/
lemma sameCommands_destroySplitInfo (hlc : lc = lcPosition buf.byte n) :
    SameCommands buf.byte (destroySplitInfo buf (lcCmd buf.byte lc) lc).byte (n + 1) ∧
      (destroySplitInfo buf (lcCmd buf.byte lc) lc).size = buf.size ∧
      Agree (destroySplitInfo buf (lcCmd buf.byte lc) lc).byte 0 buf.byte 0 sizeofHeader := by
  subst hlc
  unfold destroySplitInfo
  split_ifs with hcmd
  · rw [hcmd]
    refine ⟨sameCommands_destroy hcmd, rfl, fun i hi => storeWord_apply_of_out ?_⟩
    have hle := le_lcPosition buf.byte n
    omega
  · exact ⟨SameCommands.refl _ _, rfl, Agree.refl _ _ _⟩

/-- One more command. -/
lemma scanCommand_spec {lc' : ℕ} (hok : ScanOk buf.byte buf.size sizeofcmds n st)
    (hlc : lc = lcPosition buf.byte n)
    (h : scanCommand buf sizeofcmds lc st = .ok (buf', st', lc')) :
    ScanOk buf'.byte buf'.size sizeofcmds (n + 1) st' ∧ lc' = lcPosition buf'.byte (n + 1) ∧
      buf'.size = buf.size ∧ Agree buf'.byte 0 buf.byte 0 sizeofHeader := by
  simp only [scanCommand, bind_eq_ok_iff, guard_eq_ok_iff, Buffer.get_eq_ok_iff, pure_eq_ok_iff,
    Prod.mk.injEq] at h
  obtain ⟨_, hin, cmdsize, ⟨-, hcmdsize⟩, _, hend, cmd, ⟨-, hcmd⟩, _, -, cmd', ⟨-, hcmd'⟩, st₁, h₁,
    st₂, h₂, st₃, h₃, rfl, rfl, rfl⟩ := h
  rw [← lcCmdsize] at hcmdsize
  rw [← lcCmd] at hcmd hcmd'
  obtain ⟨hsame, hsize, hhead⟩ := sameCommands_destroySplitInfo hlc
  rw [← hcmd] at hsame hsize hhead
  generalize destroySplitInfo buf cmd lc = buf' at *
  have hok' : ScanOk buf'.byte buf'.size sizeofcmds n st := by
    rw [hsize]
    exact (hsame.of_le (Nat.le_succ n)).scanOk hok
  have hlc' : lc = lcPosition buf'.byte n := by rw [hsame.lcPosition_eq (Nat.le_succ n), hlc]
  have hcs' : cmdsize = lcCmdsize buf'.byte lc := by
    rw [hcmdsize, hlc, hsame.cmdsize n (Nat.lt_succ_self n)]
  subst hcmd'
  rw [hcs'] at h₁
  obtain ⟨hsym₁, hdysym₁, hseg, hfound, hnotFound⟩ := scanSegment_spec hok' hlc' h₁
  have hnext : lcPosition buf'.byte (n + 1) = lc + cmdsize := by rw [lcPosition, ← hlc', hcs']
  have hcommands : CommandsOk buf'.byte buf'.size sizeofcmds st₁.vmBase (n + 1) := by
    refine ⟨fun i hi => ?_, hseg⟩
    rcases Nat.lt_succ_iff_lt_or_eq.1 hi with hlt | rfl
    · exact hok'.commands.inside i hlt
    · rw [hnext, ← hlc']
      exact ⟨hin, hend⟩
  have hlift (p : ℕ) (hp : ∃ i < n, p = lcPosition buf'.byte i) :
      ∃ i < n + 1, p = lcPosition buf'.byte i := by
    obtain ⟨i, hi, hp⟩ := hp
    exact ⟨i, by omega, hp⟩
  have hsymtab (p : ℕ) (hp : st₁.symtab = some p) :
      (∃ i < n + 1, p = lcPosition buf'.byte i) ∧ SymtabOk buf'.byte buf'.size p := by
    obtain ⟨hpos, hsym⟩ := hok'.symtab p (hsym₁ ▸ hp)
    exact ⟨hlift p hpos, hsym⟩
  have hdysymtab (p : ℕ) (hp : st₁.dysymtab = some p) :
      (∃ i < n + 1, p = lcPosition buf'.byte i) ∧ DysymtabOk buf'.byte buf'.size p := by
    obtain ⟨hpos, hdysym⟩ := hok'.dysymtab p (hdysym₁ ▸ hp)
    exact ⟨hlift p hpos, hdysym⟩
  have hhere (q : ℕ) (hq : some lc = some q) : ∃ i < n + 1, q = lcPosition buf'.byte i :=
    ⟨n, Nat.lt_succ_self n, by rw [← Option.some.inj hq, hlc']⟩
  refine ⟨?_, hnext.symm, hsize, hhead⟩
  rcases scanSymtab_spec hcs' h₂ with rfl | ⟨rfl, hsymOk⟩
  · rcases scanDysymtab_spec hcs' h₃ with rfl | ⟨rfl, hdysymOk⟩
    · exact ⟨hcommands, hfound, hnotFound, hsymtab, hdysymtab⟩
    · exact ⟨hcommands, hfound, hnotFound, hsymtab, fun q hq =>
        ⟨hhere q hq, Option.some.inj hq ▸ hdysymOk⟩⟩
  · rcases scanDysymtab_spec hcs' h₃ with rfl | ⟨rfl, hdysymOk⟩
    · exact ⟨hcommands, hfound, hnotFound, fun q hq => ⟨hhere q hq, Option.some.inj hq ▸ hsymOk⟩,
        hdysymtab⟩
    · exact ⟨hcommands, hfound, hnotFound, fun q hq => ⟨hhere q hq, Option.some.inj hq ▸ hsymOk⟩,
        fun q hq => ⟨hhere q hq, Option.some.inj hq ▸ hdysymOk⟩⟩

/-- All commands. -/
lemma scanCommands_spec {k : ℕ} (hok : ScanOk buf.byte buf.size sizeofcmds k st)
    (hlc : lc = lcPosition buf.byte k)
    (h : scanCommands sizeofcmds n buf lc st = .ok (buf', st')) :
    ScanOk buf'.byte buf'.size sizeofcmds (k + n) st' ∧ buf'.size = buf.size ∧
      Agree buf'.byte 0 buf.byte 0 sizeofHeader := by
  induction n generalizing k buf lc st with
  | zero =>
    obtain ⟨rfl, rfl⟩ := Prod.mk.inj (Except.ok.inj h)
    exact ⟨hok, rfl, Agree.refl _ _ _⟩
  | succ n ih =>
    simp only [scanCommands, bind_eq_ok_iff, Prod.exists] at h
    obtain ⟨buf₁, st₁, lc₁, h₁, h₂⟩ := h
    obtain ⟨hok₁, hlc₁, hsize₁, hhead₁⟩ := scanCommand_spec hok hlc h₁
    obtain ⟨hok₂, hsize₂, hhead₂⟩ := ih hok₁ hlc₁ h₂
    exact ⟨by rw [← Nat.add_assoc, Nat.add_right_comm]; exact hok₂, hsize₂.trans hsize₁,
      hhead₂.trans hhead₁⟩

/-! ## The tables -/

/-- The string index of the symbol at `nl`. -/
def nlistStrx (m : Mem) (nl : ℕ) : ℕ := word m nl 4

/-- The name of a checked symbol: its index does not wrap around, and it ends inside the file. -/
def SymbolOk (buf : Buffer) (stroff nl : ℕ) : Prop :=
  stroff + nlistStrx buf.byte nl < 2 ^ 32 ∧
    (buf.string? (stroff + nlistStrx buf.byte nl)).isSome

/-- What has been checked of an external relocation. -/
structure ExternalOk (chain : List KernelcacheSymbolTable) (buf : Buffer)
    (vmBase vmSize nsyms stroff nlist : ℕ) (er : RelocationInfo) : Prop where
  flag : er.rExtern = true
  length : er.rLength = 3
  symbolnum : er.rSymbolnum < nsyms
  resolved : ∃ name address,
    buf.string? (stringOffset stroff (nlistStrx buf.byte (nlist + er.rSymbolnum * sizeofNlist))) =
      some name ∧ kernelcacheSymbolTableLookup chain name = some address ∧ address ≠ 0
  inBounds : AddressInBounds vmBase vmSize er.rAddress

/-- What has been checked of a local relocation. -/
structure LocalOk (vmBase vmSize : ℕ) (lr : RelocationInfo) : Prop where
  flag : lr.rExtern = false
  length : lr.rLength = 3
  inBounds : AddressInBounds vmBase vmSize lr.rAddress

lemma elim_error_eq_ok_iff {α : Type} {o : Option α} {e : KextError} {a : α} :
    o.elim (.error e) .ok = (.ok a : Except KextError α) ↔ o = some a := by
  cases o <;> simp

lemma checkSymbol_spec {vmBase vmEnd stroff nl k k' : ℕ} (hstroff : stroff < 2 ^ 32)
    (h : checkSymbol buf vmBase vmEnd stroff nl k = .ok k') :
    SymbolOk buf stroff nl ∧ (k' = k ∨ (vmBase ≤ k' ∧ k' + sizeofKmodInfo ≤ vmEnd)) := by
  simp only [checkSymbol, bind_eq_ok_iff, guard_eq_ok_iff, Buffer.get_eq_ok_iff,
    elim_error_eq_ok_iff] at h
  obtain ⟨nStrx, ⟨-, hstrx⟩, _, ⟨hle, -⟩, name, hname, nType, -, nValue, ⟨-, hvalue⟩, _, hsect, h⟩ := h
  rw [stringOffset] at hle hname
  have hlt : nStrx < 2 ^ 32 := hstrx ▸ word_lt _ _ 4
  have hsum : stroff + nStrx < 2 ^ 32 := by omega
  rw [Nat.mod_eq_of_lt hsum] at hname
  refine ⟨⟨by rw [nlistStrx, ← hstrx]; exact hsum, ?_⟩, ?_⟩
  · rw [nlistStrx, ← hstrx, hname]
    rfl
  · split_ifs at h
    · simp only [checkKmodInfo, bind_eq_ok_iff, guard_eq_ok_iff, pure_eq_ok_iff] at h
      obtain ⟨_, -, _, hs, _, ⟨hwrap, hend⟩, rfl⟩ := h
      have hlt' : nValue < 2 ^ 64 := hvalue ▸ word_lt _ _ 8
      refine Or.inr ⟨(hsect hs).1, ?_⟩
      simp only [sizeofKmodInfo] at hwrap hend ⊢
      omega
    · exact Or.inl (Except.ok.inj h).symm

lemma checkSymbols_spec {vmBase vmEnd stroff nl k k' : ℕ} (hstroff : stroff < 2 ^ 32)
    (h : checkSymbols buf vmBase vmEnd stroff n nl k = .ok k') :
    (∀ i < n, SymbolOk buf stroff (nl + i * sizeofNlist)) ∧
      (k' = k ∨ (vmBase ≤ k' ∧ k' + sizeofKmodInfo ≤ vmEnd)) := by
  induction n generalizing nl k with
  | zero => exact ⟨by simp, Or.inl (Except.ok.inj h).symm⟩
  | succ n ih =>
    simp only [checkSymbols, bind_eq_ok_iff] at h
    obtain ⟨k₁, h₁, h₂⟩ := h
    obtain ⟨hsym, hk₁⟩ := checkSymbol_spec hstroff h₁
    obtain ⟨hsyms, hk₂⟩ := ih h₂
    refine ⟨fun i hi => ?_, ?_⟩
    · cases i with
      | zero => rwa [Nat.zero_mul, Nat.add_zero]
      | succ i =>
        rw [show nl + (i + 1) * sizeofNlist = nl + sizeofNlist + i * sizeofNlist by ring]
        exact hsyms i (by omega)
    · rcases hk₂ with rfl | hk₂
      · exact hk₁
      · exact Or.inr hk₂

lemma signExtend_lt {a : ℕ} (h : a < 2 ^ 32) : signExtend a < 2 ^ 64 := by
  rw [signExtend]
  split_ifs <;> omega

lemma rAddress_lt (m : Mem) (a : ℕ) : (relocationAt m a).rAddress < 2 ^ 64 :=
  signExtend_lt (word_lt m a 4)

lemma relocation_eq_ok_iff {off : ℕ} {r : RelocationInfo} :
    buf.relocation off = .ok r ↔
      off + sizeofRelocationInfo ≤ buf.size ∧ r = relocationAt buf.byte off := by
  unfold Buffer.relocation
  split_ifs with h
  · simp [h, eq_comm]
  · simp [h]

lemma checkExternal_spec {vmBase vmSize nsyms stroff nlist : ℕ} {er : RelocationInfo}
    (h : checkExternal buf chain vmBase vmSize nsyms stroff nlist er = .ok []) :
    ExternalOk chain buf vmBase vmSize nsyms stroff nlist er := by
  simp only [checkExternal, bind_eq_ok_iff, guard_eq_ok_iff, Buffer.get_eq_ok_iff, lookupSymbol,
    elim_error_eq_ok_iff] at h
  obtain ⟨_, hflag, _, hlength, _, hsymnum, nStrx, ⟨-, hstrx⟩, name, hname, resolved, hres, h⟩ := h
  split_ifs at h with h0
  · simp at h
  · simp only [bind_eq_ok_iff, guard_eq_ok_iff, pure_eq_ok_iff, and_true] at h
    obtain ⟨_, hbounds⟩ := h
    refine ⟨hflag, hlength, hsymnum, ⟨name, resolved, ?_, hres, h0⟩, hbounds⟩
    rw [nlistStrx, ← hstrx]
    exact hname

lemma checkExternals_spec {vmBase vmSize nsyms stroff nlist extrel : ℕ}
    (h : checkExternals buf chain vmBase vmSize nsyms stroff nlist n extrel = .ok []) :
    ∀ i < n, ExternalOk chain buf vmBase vmSize nsyms stroff nlist
      (relocationAt buf.byte (extrel + i * sizeofRelocationInfo)) := by
  induction n generalizing extrel with
  | zero => simp
  | succ n ih =>
    simp only [checkExternals, bind_eq_ok_iff, relocation_eq_ok_iff, pure_eq_ok_iff,
      List.append_eq_nil_iff] at h
    obtain ⟨er, ⟨-, rfl⟩, _, h₁, _, h₂, rfl, rfl⟩ := h
    intro i hi
    cases i with
    | zero =>
      rw [Nat.zero_mul, Nat.add_zero]
      exact checkExternal_spec h₁
    | succ i =>
      rw [show extrel + (i + 1) * sizeofRelocationInfo =
        extrel + sizeofRelocationInfo + i * sizeofRelocationInfo by ring]
      exact ih h₂ i (by omega)

lemma checkLocals_spec {vmBase vmSize locrel : ℕ} {u : Unit}
    (h : checkLocals buf vmBase vmSize n locrel = .ok u) :
    ∀ i < n, LocalOk vmBase vmSize
      (relocationAt buf.byte (locrel + i * sizeofRelocationInfo)) := by
  induction n generalizing locrel with
  | zero => simp
  | succ n ih =>
    simp only [checkLocals, checkLocal, bind_eq_ok_iff, relocation_eq_ok_iff, guard_eq_ok_iff] at h
    obtain ⟨lr, ⟨-, rfl⟩, _, ⟨_, hflag, _, hlength, hbounds⟩, h₂⟩ := h
    intro i hi
    cases i with
    | zero =>
      rw [Nat.zero_mul, Nat.add_zero]
      exact ⟨hflag, hlength, hbounds⟩
    | succ i =>
      rw [show locrel + (i + 1) * sizeofRelocationInfo =
        locrel + sizeofRelocationInfo + i * sizeofRelocationInfo by ring]
      exact ih h₂ i (by omega)

/-! ## The whole file -/

/-- What `kext_parse` has established when it returns true.  The file is the one that it leaves
behind, `sp` and `dp` are the positions of `LC_SYMTAB` and `LC_DYSYMTAB`. -/
structure Accepted (chain : List KernelcacheSymbolTable) (header : ℕ) (buf : Buffer)
    (info : KextLoadInfo) (sp dp : ℕ) : Prop where
  headerFits : sizeofHeader + mhSizeofcmds buf.byte 0 ≤ buf.size
  commands : CommandsOk buf.byte buf.size (mhSizeofcmds buf.byte 0) info.vmBase (mhNcmds buf.byte 0)
  hasSegment : ∃ i < mhNcmds buf.byte 0, IsSegment buf.byte i
  vmSize : info.vmSize = vmOffset buf.byte (mhNcmds buf.byte 0)
  vmEnd : info.vmBase + info.vmSize < 2 ^ 64
  symtabAt : ∃ i < mhNcmds buf.byte 0, sp = lcPosition buf.byte i
  symtab : SymtabOk buf.byte buf.size sp
  dysymtabAt : ∃ i < mhNcmds buf.byte 0, dp = lcPosition buf.byte i
  dysymtab : DysymtabOk buf.byte buf.size dp
  header_eq : info.header = header
  fileSize_eq : info.fileSize = buf.size
  symtab_eq : info.symtab = header + sp
  dysymtab_eq : info.dysymtab = header + dp
  nlist_eq : info.nlist = header + symSymoff buf.byte sp
  extrel_eq : info.extrel = header + dysymExtreloff buf.byte dp
  locrel_eq : info.locrel = header + dysymLocreloff buf.byte dp
  kmodInfo : info.vmBase ≤ info.kmodInfo ∧
    info.kmodInfo + sizeofKmodInfo ≤ info.vmBase + info.vmSize
  kmodInfo_ne : info.kmodInfo ≠ 0
  symbolLoop : checkSymbols buf info.vmBase (info.vmBase + info.vmSize) (symStroff buf.byte sp)
    (symNsyms buf.byte sp) (symSymoff buf.byte sp) 0 = .ok info.kmodInfo
  symbols : ∀ i < symNsyms buf.byte sp,
    SymbolOk buf (symStroff buf.byte sp) (symSymoff buf.byte sp + i * sizeofNlist)
  externals : ∀ i < dysymNextrel buf.byte dp,
    ExternalOk chain buf info.vmBase info.vmSize (symNsyms buf.byte sp) (symStroff buf.byte sp)
      (symSymoff buf.byte sp)
      (relocationAt buf.byte (dysymExtreloff buf.byte dp + i * sizeofRelocationInfo))
  locals : ∀ i < dysymNlocrel buf.byte dp, LocalOk info.vmBase info.vmSize
    (relocationAt buf.byte (dysymLocreloff buf.byte dp + i * sizeofRelocationInfo))

/-- The size of the image after the loop over the commands. -/
lemma ScanOk.vmSize_eq (hok : ScanOk m size sizeofcmds n st) (hf : st.foundFirstSegment = true) :
    (st.vmaddr + 2 ^ 64 - st.vmBase) % 2 ^ 64 = vmOffset m n := by
  obtain ⟨-, hvm, hlt⟩ := hok.found hf
  omega

/-- The positions of the two tables in the file. -/
lemma Accepted.symtab_sub {sp dp : ℕ} (h : Accepted chain header buf info sp dp) :
    info.symtab - header = sp := by
  rw [h.symtab_eq, Nat.add_sub_cancel_left]

lemma Accepted.dysymtab_sub {sp dp : ℕ} (h : Accepted chain header buf info sp dp) :
    info.dysymtab - header = dp := by
  rw [h.dysymtab_eq, Nat.add_sub_cancel_left]

lemma parseTables_spec (hok : ScanOk buf.byte buf.size (mhSizeofcmds buf.byte 0)
    (mhNcmds buf.byte 0) st) (hfits : sizeofHeader + mhSizeofcmds buf.byte 0 ≤ buf.size)
    (h : parseTables chain header buf st = .ok info) :
    ∃ sp dp, Accepted chain header buf info sp dp := by
  simp only [parseTables, bind_eq_ok_iff, guard_eq_ok_iff, Buffer.get_eq_ok_iff,
    elim_error_eq_ok_iff, pure_eq_ok_iff] at h
  obtain ⟨_, hf, sp, hsp, dp, hdp, nlist, ⟨-, hnlist⟩, nsyms, ⟨-, hnsyms⟩, stroff, ⟨-, hstroff⟩, k,
    hk, _, hk0, extrel, ⟨-, hextrel⟩, nextrel, ⟨-, hnextrel⟩, missing, hext, _, hmiss, locrel,
    ⟨-, hlocrel⟩, nlocrel, ⟨-, hnlocrel⟩, _, hloc, rfl⟩ := h
  obtain ⟨hseg, hvm, hlt⟩ := hok.found hf
  obtain ⟨hspAt, hsymtab⟩ := hok.symtab sp hsp
  obtain ⟨hdpAt, hdysymtab⟩ := hok.dysymtab dp hdp
  have hvmSize := hok.vmSize_eq hf
  rw [← symSymoff] at hnlist
  rw [← symNsyms] at hnsyms
  rw [← symStroff] at hstroff
  rw [← dysymExtreloff] at hextrel
  rw [← dysymNextrel] at hnextrel
  rw [← dysymLocreloff] at hlocrel
  rw [← dysymNlocrel] at hnlocrel
  subst hnlist hnsyms hstroff hextrel hnextrel hlocrel hnlocrel hmiss
  obtain ⟨hsyms, hkmod⟩ := checkSymbols_spec (word_lt _ _ 4) hk
  have hkmod' := hkmod.resolve_left hk0
  refine ⟨sp, dp, ⟨hfits, hok.commands, hseg, hvmSize, ?_, hspAt, hsymtab, hdpAt, hdysymtab, rfl, rfl,
    rfl, rfl, rfl, rfl, rfl, ⟨hkmod'.1, ?_⟩, hk0, ?_, hsyms, checkExternals_spec hext,
    checkLocals_spec hloc⟩⟩
  · show st.vmBase + (st.vmaddr + 2 ^ 64 - st.vmBase) % 2 ^ 64 < 2 ^ 64
    omega
  · show k + sizeofKmodInfo ≤ st.vmBase + (st.vmaddr + 2 ^ 64 - st.vmBase) % 2 ^ 64
    omega
  · show checkSymbols buf st.vmBase (st.vmBase + (st.vmaddr + 2 ^ 64 - st.vmBase) % 2 ^ 64) _ _ _ 0 =
      .ok k
    rw [show st.vmBase + (st.vmaddr + 2 ^ 64 - st.vmBase) % 2 ^ 64 = st.vmaddr by omega]
    exact hk

lemma scanOk_initial (m : Mem) (size sizeofcmds : ℕ) : ScanOk m size sizeofcmds 0 .initial := by
  refine ⟨⟨by simp, by simp⟩, ?_, by simp, ?_, ?_⟩ <;> simp [ScanState.initial]

/-- The scan of a file that is accepted or rejected later. -/
lemma scan_spec {ncmds : ℕ} (hs : sizeofcmds = mhSizeofcmds buf.byte 0)
    (hn : ncmds = mhNcmds buf.byte 0)
    (h : scanCommands sizeofcmds ncmds buf sizeofHeader .initial = .ok (buf', st)) :
    ScanOk buf'.byte buf'.size (mhSizeofcmds buf'.byte 0) (mhNcmds buf'.byte 0) st ∧
      buf'.size = buf.size ∧ mhSizeofcmds buf'.byte 0 = sizeofcmds := by
  obtain ⟨hok, hsize, hhead⟩ := scanCommands_spec (k := 0) (scanOk_initial _ _ _) rfl h
  have hw (k : ℕ) (hk : k + 4 ≤ 32) : word buf'.byte (0 + k) 4 = word buf.byte (0 + k) 4 :=
    hhead.word_eq (by simp only [sizeofHeader]; omega)
  have hs' : mhSizeofcmds buf'.byte 0 = sizeofcmds := by
    rw [hs, mhSizeofcmds, mhSizeofcmds, hw 20 (by omega)]
  have hn' : mhNcmds buf'.byte 0 = ncmds := by
    rw [hn, mhNcmds, mhNcmds, hw 16 (by omega)]
  rw [Nat.zero_add] at hok
  rw [hs', hn']
  exact ⟨hok, hsize, rfl⟩

/-- What `kext_parse` has established when it returns true. -/
theorem kextParse_accepted (h : kextParse chain header buf = .ok (buf', info)) :
    ∃ sp dp, Accepted chain header buf' info sp dp := by
  simp only [kextParse, bind_eq_ok_iff, guard_eq_ok_iff, Buffer.get_eq_ok_iff, pure_eq_ok_iff,
    Prod.exists, Prod.mk.injEq] at h
  obtain ⟨_, -, _, -, _, -, _, -, sizeofcmds, ⟨-, hs⟩, _, hfits, ncmds, ⟨-, hn⟩, buf₁, st, hscan,
    info', hinfo, rfl, rfl⟩ := h
  obtain ⟨hok, hsize, hs'⟩ := scan_spec hs hn hscan
  exact parseTables_spec hok (by rw [hs', hsize]; exact hfits) hinfo

/-- The file keeps its size. -/
lemma kextParse_size (h : kextParse chain header buf = .ok (buf', info)) : buf'.size = buf.size := by
  simp only [kextParse, bind_eq_ok_iff, guard_eq_ok_iff, Buffer.get_eq_ok_iff, pure_eq_ok_iff,
    Prod.exists, Prod.mk.injEq] at h
  obtain ⟨_, -, _, -, _, -, _, -, sizeofcmds, ⟨-, hs⟩, _, -, ncmds, ⟨-, hn⟩, buf₁, st, hscan, info', -,
    rfl, rfl⟩ := h
  exact (scan_spec hs hn hscan).2.1

/-! ## Files that stay as they are -/

lemma scanCommands_keeps {k : ℕ}
    (hno : ∀ i < k + n, lcCmd buf.byte (lcPosition buf.byte i) ≠ LC_SEGMENT_SPLIT_INFO)
    (hlc : lc = lcPosition buf.byte k)
    (h : scanCommands sizeofcmds n buf lc st = .ok (buf', st')) : buf' = buf := by
  induction n generalizing k lc st with
  | zero =>
    obtain ⟨rfl, -⟩ := Prod.mk.inj (Except.ok.inj h)
    rfl
  | succ n ih =>
    simp only [scanCommands, scanCommand, bind_eq_ok_iff, guard_eq_ok_iff, Buffer.get_eq_ok_iff,
      pure_eq_ok_iff, Prod.exists, Prod.mk.injEq] at h
    obtain ⟨buf₁, st₁, lc₁, ⟨_, -, cmdsize, ⟨-, hcmdsize⟩, _, -, cmd, ⟨-, hcmd⟩, _, -, _, -, _, -, _,
      -, _, -, rfl, rfl, rfl⟩, h⟩ := h
    have hkept : destroySplitInfo buf cmd lc = buf := by
      rw [destroySplitInfo, if_neg]
      rw [hcmd, hlc]
      exact hno k (by omega)
    rw [hkept] at h
    refine ih (k := k + 1) (fun i hi => hno i (by omega)) ?_ h
    rw [lcPosition, ← hlc, hcmdsize, lcCmdsize]

/-- A file without `LC_SEGMENT_SPLIT_INFO` is not changed. -/
theorem kextParse_keeps
    (hno : ∀ i < mhNcmds buf.byte 0, lcCmd buf.byte (lcPosition buf.byte i) ≠ LC_SEGMENT_SPLIT_INFO)
    (h : kextParse chain header buf = .ok (buf', info)) : buf' = buf := by
  simp only [kextParse, bind_eq_ok_iff, guard_eq_ok_iff, Buffer.get_eq_ok_iff, pure_eq_ok_iff,
    Prod.exists, Prod.mk.injEq] at h
  obtain ⟨_, -, _, -, _, -, _, -, sizeofcmds, -, _, -, ncmds, ⟨-, hn⟩, buf₁, st, hscan, info', -, rfl,
    rfl⟩ := h
  refine scanCommands_keeps (k := 0) (fun i hi => hno i ?_) rfl hscan
  rw [mhNcmds, Nat.zero_add, ← hn]
  omega

lemma kextParse_of_keeps
    (hno : ∀ i < mhNcmds buf.byte 0, lcCmd buf.byte (lcPosition buf.byte i) ≠ LC_SEGMENT_SPLIT_INFO)
    (h : (kextParse chain header buf).map Prod.snd = .ok info) :
    kextParse chain header buf = .ok (buf, info) := by
  cases hparse : kextParse chain header buf with
  | error e =>
    rw [hparse] at h
    cases h
  | ok s =>
    obtain ⟨buf', info'⟩ := s
    rw [hparse] at h
    rw [kextParse_keeps hno hparse, show info' = info from Except.ok.inj h]

/-! ## A small kernel extension -/

/-- The header, the load commands and the tables of a file with one segment, an external relocation
of the symbol `_f` and a local one; fields are given by their width and value. -/
def smallFields (vmBase kmodInfo external local' : ℕ) : List (ℕ × ℕ) :=
  [(4, MH_MAGIC_64), (8, 0), (4, MH_KEXT_BUNDLE), (4, 3), (4, 176), (8, 0)] ++
  [(4, LC_SEGMENT_64), (4, 72), (16, 0), (8, vmBase), (8, 0x4000), (8, 0), (8, 272), (16, 0)] ++
  [(4, LC_DYSYMTAB), (4, 80), (56, 0), (4, 240), (4, 1), (4, 248), (4, 1)] ++
  [(4, LC_SYMTAB), (4, 24), (4, 208), (4, 2), (4, 256), (4, 14)] ++
  [(4, 0), (1, N_SECT), (3, 0), (8, kmodInfo)] ++ [(4, 11), (4, 1), (8, 0)] ++
  [(4, external), (4, 1 + 3 * 2 ^ 25 + 2 ^ 27)] ++ [(4, local'), (4, 3 * 2 ^ 25)]

/-- The file, with its strings. -/
def smallFile (vmBase kmodInfo external local' : ℕ) : List UInt8 :=
  (smallFields vmBase kmodInfo external local').flatMap (fun f => leBytes f.1 f.2) ++
    kmodInfoName ++ [0] ++ [95, 102, 0]

/-- The upload of the file, padded with zeros to the smallest size that is accepted. -/
def smallUpload (vmBase kmodInfo external local' : ℕ) : Buffer :=
  let file := smallFile vmBase kmodInfo external local'
  ⟨0x4000, fun i => file.getD i 0⟩

/-- What `kext_parse` finds in it, when it is at 0x1000000. -/
def smallInfo (vmBase kmodInfo : ℕ) : KextLoadInfo :=
  ⟨0x1000000, 0, 0x4000, 0x4000, vmBase, kmodInfo, 0x1000000 + 184, 0x1000000 + 104, 0x1000000 + 208,
    0x1000000 + 240, 0x1000000 + 248⟩

/-- A symbol table in which `_f` has an address. -/
def smallChain : List KernelcacheSymbolTable :=
  [⟨[(0, 0xfffffff007100000)], [95, 102, 0]⟩]

/-- An allocator with one region to give. -/
def smallAlloc (size : ℕ) : Option ℕ := if size ≤ 0x1000000 then some 0x2000000 else none

lemma smallAlloc_fits (n a : ℕ) (h : smallAlloc n = some a) : a + n < 2 ^ 64 := by
  unfold smallAlloc at h
  split_ifs at h with hn
  cases h
  omega

/-- The file is accepted. -/
def SmallAccepted (vmBase kmodInfo external local' : ℕ) : Prop :=
  let buf := smallUpload vmBase kmodInfo external local'
  (kextParse smallChain 0x1000000 buf).map Prod.snd = .ok (smallInfo vmBase kmodInfo) ∧
    ∀ i < mhNcmds buf.byte 0, lcCmd buf.byte (lcPosition buf.byte i) ≠ LC_SEGMENT_SPLIT_INFO

instance (vmBase kmodInfo external local' : ℕ) :
    Decidable (SmallAccepted vmBase kmodInfo external local') :=
  inferInstanceAs (Decidable (_ ∧ _))

/-- With `vm_base` 0. -/
lemma smallAccepted_zero : SmallAccepted 0 0x1000 0x800 0x900 := by decide +kernel

/-- With `vm_base` 0x1000 and the addresses of the relocations below it. -/
lemma smallAccepted_below : SmallAccepted 0x1000 0x2000 0x800 0x900 := by decide +kernel

/-- With the kmod_info among the load commands. -/
lemma smallAccepted_commands : SmallAccepted 0 0x20 0x800 0x900 := by decide +kernel

lemma kextParse_small {vmBase kmodInfo external local' : ℕ}
    (h : SmallAccepted vmBase kmodInfo external local') :
    kextParse smallChain 0x1000000 (smallUpload vmBase kmodInfo external local') =
      .ok (smallUpload vmBase kmodInfo external local', smallInfo vmBase kmodInfo) :=
  kextParse_of_keeps h.2 h.1

end VulnerableKext.Kext

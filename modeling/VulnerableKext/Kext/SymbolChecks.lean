import VulnerableKext.Kext.RelocateSpec

/-!
# The symbols of an accepted file

The loop over the symbols uses the address of the kmod_info that it has found as the flag
that says that it has found one.  The address 0 does not set the flag.
-/

namespace VulnerableKext.Kext

open Memory Checked Device Bytes

/-! ## Fields of a symbol -/

/-- The position of the `i`-th symbol of a file, whose `LC_SYMTAB` is at `sp`. -/
def nlistAt (file : Mem) (sp i : ℕ) : ℕ := symSymoff file sp + i * sizeofNlist

def nlistType (m : Mem) (nl : ℕ) : ℕ := word m (nl + 4) 1
def nlistValue (m : Mem) (nl : ℕ) : ℕ := word m (nl + 8) 8

/-- The name of the `i`-th symbol, when it ends inside the file. -/
def symbolName (buf : Buffer) (sp i : ℕ) : Option (List UInt8) :=
  buf.string? (symStroff buf.byte sp + nlistStrx buf.byte (nlistAt buf.byte sp i))

section Loop

variable {chain : List KernelcacheSymbolTable} {header sp dp : ℕ} {buf buf' : Buffer}
  {info : KextLoadInfo} {vmBase vmEnd stroff nl n k k' : ℕ}

/-- The symbol at `nl` has the name `_kmod_info`. -/
def NamedKmodInfo (buf : Buffer) (stroff nl : ℕ) : Prop :=
  buf.string? (stroff + nlistStrx buf.byte nl) = some kmodInfoName

/-- What the loop does with one symbol. -/
lemma checkSymbol_cases (hstroff : stroff < 2 ^ 32)
    (h : checkSymbol buf vmBase vmEnd stroff nl k = .ok k') :
    (IsSectionSymbol (nlistType buf.byte nl) →
      vmBase ≤ nlistValue buf.byte nl ∧ nlistValue buf.byte nl ≤ vmEnd) ∧
    ((¬ NamedKmodInfo buf stroff nl ∧ k' = k) ∨
      (NamedKmodInfo buf stroff nl ∧ k = 0 ∧ IsSectionSymbol (nlistType buf.byte nl) ∧
        nlistValue buf.byte nl + sizeofKmodInfo ≤ vmEnd ∧ k' = nlistValue buf.byte nl)) := by
  have hwrap := (checkSymbol_spec hstroff h).1.1
  simp only [checkSymbol, bind_eq_ok_iff, guard_eq_ok_iff, Buffer.get_eq_ok_iff,
    elim_error_eq_ok_iff] at h
  obtain ⟨nStrx, ⟨-, rfl⟩, _, -, name, hname, nType, ⟨-, rfl⟩, nValue, ⟨-, hvalue⟩, _, hsect, h⟩ := h
  rw [← nlistStrx, stringOffset, Nat.mod_eq_of_lt hwrap] at hname
  rw [hvalue] at hsect h
  refine ⟨hsect, ?_⟩
  rw [NamedKmodInfo, hname]
  by_cases hkmod : name = kmodInfoName
  · rw [if_pos hkmod] at h
    simp only [checkKmodInfo, bind_eq_ok_iff, guard_eq_ok_iff, pure_eq_ok_iff] at h
    obtain ⟨_, hk, _, hs, _, ⟨hle, hend⟩, rfl⟩ := h
    have hlt : word buf.byte (nl + 8) 8 < 256 ^ 8 := word_lt _ _ 8
    refine Or.inr ⟨by rw [hkmod], hk, hs, ?_, rfl⟩
    rw [nlistValue]
    simp only [sizeofKmodInfo] at hle hend ⊢
    omega
  · rw [if_neg hkmod] at h
    exact Or.inl ⟨fun heq => hkmod (Option.some.inj heq), (Except.ok.inj h).symm⟩

/-- Once a kmod_info has been found, no other symbol has its name. -/
lemma checkSymbols_found (hstroff : stroff < 2 ^ 32) (hk : k ≠ 0)
    (h : checkSymbols buf vmBase vmEnd stroff n nl k = .ok k') :
    k' = k ∧ ∀ i < n, ¬ NamedKmodInfo buf stroff (nl + i * sizeofNlist) := by
  induction n generalizing nl with
  | zero => exact ⟨(Except.ok.inj h).symm, by simp⟩
  | succ n ih =>
    simp only [checkSymbols, bind_eq_ok_iff] at h
    obtain ⟨k₁, h₁, h₂⟩ := h
    rcases (checkSymbol_cases hstroff h₁).2 with ⟨hno, rfl⟩ | ⟨-, h0, -⟩
    · obtain ⟨hk', hrest⟩ := ih h₂
      refine ⟨hk', fun i hi => ?_⟩
      cases i with
      | zero =>
        rw [Nat.zero_mul, Nat.add_zero]
        exact hno
      | succ i =>
        rw [show nl + (i + 1) * sizeofNlist = nl + sizeofNlist + i * sizeofNlist by ring]
        exact hrest i (by omega)
    · exact absurd h0 hk

/-- The bounds on the values of symbols that are defined in a section. -/
lemma checkSymbols_section (hstroff : stroff < 2 ^ 32)
    (h : checkSymbols buf vmBase vmEnd stroff n nl k = .ok k') :
    ∀ i < n, IsSectionSymbol (nlistType buf.byte (nl + i * sizeofNlist)) →
      vmBase ≤ nlistValue buf.byte (nl + i * sizeofNlist) ∧
        nlistValue buf.byte (nl + i * sizeofNlist) ≤ vmEnd := by
  induction n generalizing nl k with
  | zero => simp
  | succ n ih =>
    simp only [checkSymbols, bind_eq_ok_iff] at h
    obtain ⟨k₁, h₁, h₂⟩ := h
    intro i hi
    cases i with
    | zero =>
      rw [Nat.zero_mul, Nat.add_zero]
      exact (checkSymbol_cases hstroff h₁).1
    | succ i =>
      rw [show nl + (i + 1) * sizeofNlist = nl + sizeofNlist + i * sizeofNlist by ring]
      exact ih h₂ i (by omega)

/-- While no kmod_info has been found: the one that is found in the end is the only one whose
address is not 0, and the others come before it. -/
lemma checkSymbols_search (hstroff : stroff < 2 ^ 32) (hk' : k' ≠ 0)
    (h : checkSymbols buf vmBase vmEnd stroff n nl 0 = .ok k') :
    ∃ i < n, NamedKmodInfo buf stroff (nl + i * sizeofNlist) ∧
      IsSectionSymbol (nlistType buf.byte (nl + i * sizeofNlist)) ∧
      nlistValue buf.byte (nl + i * sizeofNlist) + sizeofKmodInfo ≤ vmEnd ∧
      nlistValue buf.byte (nl + i * sizeofNlist) = k' ∧
      ∀ j < n, NamedKmodInfo buf stroff (nl + j * sizeofNlist) →
        nlistValue buf.byte (nl + j * sizeofNlist) = 0 ∨ j = i := by
  induction n generalizing nl with
  | zero => exact absurd (Except.ok.inj h).symm hk'
  | succ n ih =>
    simp only [checkSymbols, bind_eq_ok_iff] at h
    obtain ⟨k₁, h₁, h₂⟩ := h
    have hshift (i : ℕ) : nl + (i + 1) * sizeofNlist = nl + sizeofNlist + i * sizeofNlist := by ring
    by_cases hk₁ : k₁ = 0
    · subst hk₁
      obtain ⟨i, hi, hnamed, hsect, hend, hvalue, hothers⟩ := ih h₂
      refine ⟨i + 1, by omega, ?_⟩
      rw [hshift]
      refine ⟨hnamed, hsect, hend, hvalue, fun j hj hjnamed => ?_⟩
      cases j with
      | zero =>
        rw [Nat.zero_mul, Nat.add_zero] at hjnamed ⊢
        rcases (checkSymbol_cases hstroff h₁).2 with ⟨hno, -⟩ | ⟨-, -, -, -, h0⟩
        · exact absurd hjnamed hno
        · exact Or.inl h0.symm
      | succ j =>
        rw [hshift] at hjnamed ⊢
        rcases hothers j (by omega) hjnamed with h0 | rfl
        · exact Or.inl h0
        · exact Or.inr rfl
    · obtain ⟨rfl, hrest⟩ := checkSymbols_found hstroff hk₁ h₂
      rcases (checkSymbol_cases hstroff h₁).2 with ⟨-, h0⟩ | ⟨hnamed, -, hsect, hend, hvalue⟩
      · exact absurd h0 hk₁
      · refine ⟨0, by omega, ?_⟩
        rw [Nat.zero_mul, Nat.add_zero]
        refine ⟨hnamed, hsect, hend, hvalue.symm, fun j hj hjnamed => ?_⟩
        cases j with
        | zero => exact Or.inr rfl
        | succ j =>
          rw [hshift] at hjnamed
          exact absurd hjnamed (hrest j (by omega))

end Loop

/-! ## The whole table -/

/-- The symbols of a file are as the loader relies on. -/
structure SymbolsSound (chain : List KernelcacheSymbolTable) (buf : Buffer) (info : KextLoadInfo)
    (sp dp : ℕ) : Prop where
  kmodInfo : ∃ i < symNsyms buf.byte sp, symbolName buf sp i = some kmodInfoName ∧
    (∀ j < symNsyms buf.byte sp, symbolName buf sp j = some kmodInfoName → j = i) ∧
    IsSectionSymbol (nlistType buf.byte (nlistAt buf.byte sp i)) ∧
    info.vmBase ≤ nlistValue buf.byte (nlistAt buf.byte sp i) ∧
    nlistValue buf.byte (nlistAt buf.byte sp i) + sizeofKmodInfo ≤ info.vmBase + info.vmSize
  sections : ∀ i < symNsyms buf.byte sp,
    IsSectionSymbol (nlistType buf.byte (nlistAt buf.byte sp i)) →
      info.vmBase ≤ nlistValue buf.byte (nlistAt buf.byte sp i) ∧
        nlistValue buf.byte (nlistAt buf.byte sp i) ≤ info.vmBase + info.vmSize
  names : ∀ i < symNsyms buf.byte sp, (symbolName buf sp i).isSome
  externals : ∀ er ∈ externalEntries buf.byte dp, er.rSymbolnum < symNsyms buf.byte sp ∧
    ∃ name address, symbolName buf sp er.rSymbolnum = some name ∧
      kernelcacheSymbolTableLookup chain name = some address ∧ address ≠ 0

section Sound

variable {chain : List KernelcacheSymbolTable} {header sp dp i : ℕ} {buf buf' : Buffer}
  {info : KextLoadInfo}

namespace Accepted

variable (h : Accepted chain header buf info sp dp)
include h

/-- The name of an external relocation is the name of its symbol. -/
lemma externalName_eq {er : RelocationInfo} (her : er.rSymbolnum < symNsyms buf.byte sp) :
    externalName buf sp er = symbolName buf sp er.rSymbolnum := by
  rw [externalName, symbolName, nlistAt, stringOffset, Nat.mod_eq_of_lt (h.symbols _ her).1]

lemma externals_resolved : ∀ er ∈ externalEntries buf.byte dp,
    er.rSymbolnum < symNsyms buf.byte sp ∧
      ∃ name address, symbolName buf sp er.rSymbolnum = some name ∧
        kernelcacheSymbolTableLookup chain name = some address ∧ address ≠ 0 := by
  intro er her
  obtain ⟨i, hi, rfl⟩ := List.mem_map.1 her
  have hlt := List.mem_range.1 hi
  have hsym : (externalEntry buf.byte dp i).rSymbolnum < symNsyms buf.byte sp :=
    (h.externals i hlt).symbolnum
  obtain ⟨name, address, hname, haddress, hne, -⟩ := h.externalName_resolved hlt
  rw [h.externalName_eq hsym] at hname
  exact ⟨hsym, name, address, hname, haddress, hne⟩

/-- The symbols of an accepted file are sound if and only if no `_kmod_info` has the address 0. -/
theorem symbolsSound_iff : SymbolsSound chain buf info sp dp ↔
    ∀ i < symNsyms buf.byte sp, symbolName buf sp i = some kmodInfoName →
      nlistValue buf.byte (nlistAt buf.byte sp i) ≠ 0 := by
  have hstroff : symStroff buf.byte sp < 2 ^ 32 := word_lt _ _ 4
  obtain ⟨i, hi, hnamed, hsect, hend, hvalue, hothers⟩ :=
    checkSymbols_search hstroff h.kmodInfo_ne h.symbolLoop
  have hsections := checkSymbols_section hstroff h.symbolLoop
  constructor
  · rintro ⟨⟨i', -, -, hunique, -⟩, -, -, -⟩ j hj hjnamed
    obtain rfl : j = i := (hunique j hj hjnamed).trans (hunique i hi hnamed).symm
    rw [nlistAt, hvalue]
    exact h.kmodInfo_ne
  · intro hne
    refine ⟨⟨i, hi, hnamed, fun j hj hjnamed => ?_, hsect, (hsections i hi hsect).1, hend⟩, hsections,
      fun j hj => (h.symbols j hj).2, h.externals_resolved⟩
    exact (hothers j hj hjnamed).resolve_left (hne j hj hjnamed)

end Accepted

/-- Symbol validation is sound for an accepted upload if and only if no symbol of the name
`_kmod_info` has the address 0. -/
theorem kextParse_symbolsSound_iff (hparse : kextParse chain header buf = .ok (buf', info)) :
    SymbolsSound chain buf' info (info.symtab - header) (info.dysymtab - header) ↔
      ∀ i < symNsyms buf'.byte (info.symtab - header),
        symbolName buf' (info.symtab - header) i = some kmodInfoName →
          nlistValue buf'.byte (nlistAt buf'.byte (info.symtab - header) i) ≠ 0 := by
  obtain ⟨sp, dp, hacc⟩ := kextParse_accepted hparse
  rw [hacc.symtab_sub, hacc.dysymtab_sub]
  exact hacc.symbolsSound_iff

end Sound

/-- The small file, whose kmod_info is at 0x1000. -/
theorem kextParse_symbolsSound_small :
    SymbolsSound smallChain (smallUpload 0 0x1000 0x800 0x900) (smallInfo 0 0x1000) 184 104 := by
  have hparse := kextParse_small smallAccepted_zero
  have hne : ∀ i < symNsyms (smallUpload 0 0x1000 0x800 0x900).byte 184,
      symbolName (smallUpload 0 0x1000 0x800 0x900) 184 i = some kmodInfoName →
        nlistValue (smallUpload 0 0x1000 0x800 0x900).byte
          (nlistAt (smallUpload 0 0x1000 0x800 0x900).byte 184 i) ≠ 0 := by
    decide +kernel
  have hsp : (smallInfo 0 0x1000).symtab - 0x1000000 = 184 := rfl
  have hdp : (smallInfo 0 0x1000).dysymtab - 0x1000000 = 104 := rfl
  rw [← hsp] at hne
  rw [← hsp, ← hdp]
  exact (kextParse_symbolsSound_iff hparse).2 hne

/-- A file with two symbols of the name `_kmod_info`, at 0 and at 0x1000. -/
def repeatedFields : List (ℕ × ℕ) :=
  [(4, MH_MAGIC_64), (8, 0), (4, MH_KEXT_BUNDLE), (4, 3), (4, 176), (8, 0)] ++
  [(4, LC_SEGMENT_64), (4, 72), (16, 0), (8, 0), (8, 0x4000), (8, 0), (8, 272), (16, 0)] ++
  [(4, LC_DYSYMTAB), (4, 80), (56, 0), (4, 0), (4, 0), (4, 0), (4, 0)] ++
  [(4, LC_SYMTAB), (4, 24), (4, 208), (4, 2), (4, 240), (4, 11)] ++
  [(4, 0), (1, N_SECT), (3, 0), (8, 0)] ++ [(4, 0), (1, N_SECT), (3, 0), (8, 0x1000)]

def repeatedUpload : Buffer :=
  let file := repeatedFields.flatMap (fun f => leBytes f.1 f.2) ++ kmodInfoName ++ [0]
  ⟨0x4000, fun i => file.getD i 0⟩

def repeatedInfo : KextLoadInfo :=
  ⟨0x1000000, 0, 0x4000, 0x4000, 0, 0x1000, 0x1000000 + 184, 0x1000000 + 104, 0x1000000 + 208,
    0x1000000, 0x1000000⟩

/-- The file is accepted, although the name is there twice. -/
theorem not_symbolsSound_repeated :
    kextParse [] 0x1000000 repeatedUpload = .ok (repeatedUpload, repeatedInfo) ∧
      ¬ SymbolsSound [] repeatedUpload repeatedInfo 184 104 := by
  refine ⟨kextParse_of_keeps (by decide +kernel) (by decide +kernel), ?_⟩
  rintro ⟨⟨i, -, -, hunique, -⟩, -, -, -⟩
  have h₀ := hunique 0 (by decide +kernel) (by decide +kernel)
  have h₁ := hunique 1 (by decide +kernel) (by decide +kernel)
  omega

end VulnerableKext.Kext

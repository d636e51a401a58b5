import VulnerableKext.Kext.PrelinkRuns

/-!
# Loading into a memory with other contents

What a command makes of an upload depends on the file, on the symbol tables and on the
memory that the image is put into.  The tables decide whether the file is accepted, and not
what is found in it; and only the part of the memory that the image takes up can be seen in
the image.
-/

namespace VulnerableKext.Kext

open Memory Checked Device

/-! ## The symbol tables -/

section Tables

variable {chain chain' : List KernelcacheSymbolTable} {header sizeofcmds n lc cmd cmdsize : ℕ}
  {buf : Buffer} {st : ScanState} {vmBase vmSize vmEnd nsyms stroff nlist off w : ℕ}

/-- The load information that is found does not depend on the symbol tables. -/
lemma parseTables_chain {info info' : KextLoadInfo} (h : parseTables chain header buf st = .ok info)
    (h' : parseTables chain' header buf st = .ok info') : info = info' := by
  simp only [parseTables, bind_eq_ok_iff, guard_eq_ok_iff, Buffer.get_eq_ok_iff,
    elim_error_eq_ok_iff, pure_eq_ok_iff] at h h'
  obtain ⟨-, -, sp, hsp, dp, hdp, _, ⟨-, rfl⟩, _, ⟨-, rfl⟩, _, ⟨-, rfl⟩, k, hk, -, -, _, ⟨-, rfl⟩, _,
    ⟨-, rfl⟩, -, -, -, -, _, ⟨-, rfl⟩, _, ⟨-, rfl⟩, -, -, rfl⟩ := h
  obtain ⟨-, -, sp', hsp', dp', hdp', _, ⟨-, rfl⟩, _, ⟨-, rfl⟩, _, ⟨-, rfl⟩, k', hk', -, -, _,
    ⟨-, rfl⟩, _, ⟨-, rfl⟩, -, -, -, -, _, ⟨-, rfl⟩, _, ⟨-, rfl⟩, -, -, rfl⟩ := h'
  obtain rfl := Option.some.inj (hsp.symm.trans hsp')
  obtain rfl := Option.some.inj (hdp.symm.trans hdp')
  obtain rfl := Except.ok.inj (hk.symm.trans hk')
  rfl

theorem kextParse_chain {t t' : Buffer × KextLoadInfo} (h : kextParse chain header buf = .ok t)
    (h' : kextParse chain' header buf = .ok t') : t = t' := by
  simp only [kextParse, bind_eq_ok_iff, guard_eq_ok_iff, Buffer.get_eq_ok_iff, pure_eq_ok_iff,
    Prod.exists] at h h'
  obtain ⟨-, -, -, -, -, -, -, -, _, ⟨-, rfl⟩, -, -, _, ⟨-, rfl⟩, buf₁, st, hscan, info, hinfo,
    rfl⟩ := h
  obtain ⟨-, -, -, -, -, -, -, -, _, ⟨-, rfl⟩, -, -, _, ⟨-, rfl⟩, buf₂, st', hscan', info', hinfo',
    rfl⟩ := h'
  obtain ⟨rfl, rfl⟩ := Prod.mk.inj (Except.ok.inj (hscan.symm.trans hscan'))
  rw [parseTables_chain hinfo hinfo']

/-- The error is not a lookup that has left the symbol tables. -/
def KextError.OffTables (e : KextError) : Prop := e ≠ .tableFault

instance (e : KextError) : Decidable e.OffTables := inferInstanceAs (Decidable (_ ≠ _))

lemma KextError.Early.offTables {e : KextError} (h : e.Early) : e.OffTables := h.2

/-- The checks that do not look anything up. -/
lemma offTables_of_early {α : Type} {x : Except KextError α} (h : ErrorsIn KextError.Early x) :
    ErrorsIn KextError.OffTables x :=
  h.mono fun _ => KextError.Early.offTables

lemma offTables_guard {c : Prop} [Decidable c] {e : KextError} (h : e.OffTables) :
    ErrorsIn KextError.OffTables (guard c e) :=
  errorsIn_guard fun _ => h

lemma zero_notMem_string? {name : List UInt8} (h : buf.string? off = some name) : 0 ∉ name := by
  rw [Buffer.string?, cstring_eq_read] at h
  exact (Term.read_eq_some_iff.1 h).1

/-- A name that is read from the file can be looked up in sound tables. -/
lemma offTables_lookupSymbol (hsound : ∀ t ∈ chain, t.Sound) {name : List UInt8}
    (hname : buf.string? off = some name) :
    ErrorsIn KextError.OffTables (lookupSymbol chain name) := by
  rw [lookupSymbol, lookup_eq_resolve (zero_notMem_string? hname) hsound]
  exact errorsIn_ok _

lemma offTables_checkExternals (hsound : ∀ t ∈ chain, t.Sound) {extrel : ℕ} :
    ErrorsIn KextError.OffTables
      (checkExternals buf chain vmBase vmSize nsyms stroff nlist n extrel) := by
  induction n generalizing extrel with
  | zero => exact errorsIn_ok _
  | succ n ih =>
    refine (offTables_of_early early_relocation).bind fun er _ =>
      ErrorsIn.bind ?_ fun _ _ => ih.bind fun _ _ => errorsIn_ok _
    refine (offTables_guard (by decide)).bind fun _ _ => (offTables_guard (by decide)).bind fun _ _ =>
      (offTables_guard (by decide)).bind fun _ _ => (offTables_of_early early_get).bind fun _ _ =>
      (offTables_of_early (early_elim _ (by decide))).bind fun name hname =>
      (offTables_lookupSymbol hsound (elim_error_eq_ok_iff.1 hname)).bind fun _ _ => ?_
    split_ifs
    · exact errorsIn_ok _
    · exact (errorsIn_guard fun _ h => KextError.noConfusion h).bind fun _ _ => errorsIn_ok _

lemma offTables_checkLocals {locrel : ℕ} :
    ErrorsIn KextError.OffTables (checkLocals buf vmBase vmSize n locrel) := by
  induction n generalizing locrel with
  | zero => exact errorsIn_ok _
  | succ n ih =>
    refine (offTables_of_early early_relocation).bind fun lr _ => ErrorsIn.bind ?_ fun _ _ => ih
    exact (offTables_guard (by decide)).bind fun _ _ => (offTables_guard (by decide)).bind fun _ _ =>
      errorsIn_guard fun _ h => KextError.noConfusion h

/-- With sound tables no lookup of `kext_parse` leaves them. -/
theorem kextParse_ne_tableFault (hsound : ∀ t ∈ chain, t.Sound) (header : ℕ) (buf : Buffer) :
    kextParse chain header buf ≠ .error .tableFault := by
  have get {buf : Buffer} {off w : ℕ} : ErrorsIn KextError.OffTables (buf.get off w) :=
    offTables_of_early early_get
  have hall : ErrorsIn KextError.OffTables (kextParse chain header buf) := by
    refine get.bind fun _ _ => (offTables_guard (by decide)).bind fun _ _ =>
      get.bind fun _ _ => (offTables_guard (by decide)).bind fun _ _ =>
      get.bind fun _ _ => (offTables_guard (by decide)).bind fun _ _ =>
      get.bind fun _ _ => (offTables_of_early early_scanCommands).bind fun _ _ =>
      ErrorsIn.bind ?_ fun _ _ => errorsIn_ok _
    exact (offTables_guard (by decide)).bind fun _ _ =>
      (offTables_of_early (early_elim _ (by decide))).bind fun _ _ =>
      (offTables_of_early (early_elim _ (by decide))).bind fun _ _ =>
      get.bind fun _ _ => get.bind fun _ _ => get.bind fun _ _ =>
      (offTables_of_early early_checkSymbols).bind fun _ _ =>
      (offTables_guard (by decide)).bind fun _ _ => get.bind fun _ _ => get.bind fun _ _ =>
      (offTables_checkExternals hsound).bind fun _ _ =>
      (errorsIn_guard fun _ h => KextError.noConfusion h).bind fun _ _ => get.bind fun _ _ =>
      get.bind fun _ _ => offTables_checkLocals.bind fun _ _ => errorsIn_ok _
  exact fun h => hall _ h rfl

end Tables

/-! ## What was there before -/

section Before

variable {k : KernelLayout} {chain : List KernelcacheSymbolTable} {header sp dp n a w v o : ℕ}
  {buf : Buffer} {info : KextLoadInfo} {file im im' z z' : Mem}

/-- Two images of `n` bytes are the same. -/
def SameImage (n : ℕ) (im im' : Mem) : Prop := ∀ o < n, im o = im' o

lemma SameImage.word_eq (h : SameImage n im im') (ha : a + w ≤ n) : word im a w = word im' a w :=
  word_congr fun i hi => h (a + i) (by omega)

lemma SameImage.storeWord (h : SameImage n im im') :
    SameImage n (storeWord im a w v) (storeWord im' a w v) := by
  intro o ho
  rw [Memory.storeWord, Memory.storeWord, h o ho]

/-- Words that are updated inside of the image get the same values. -/
lemma SameImage.updateWords {i : ℕ} {slot : ℕ → ℕ} {f : ℕ → ℕ → ℕ} (h : SameImage n im im')
    (hslot : ∀ j < i, slot j + w ≤ n) :
    SameImage n (updateWords w slot f im i) (updateWords w slot f im' i) := by
  induction i with
  | zero => exact h
  | succ i ih =>
    have hprev := ih fun j hj => hslot j (by omega)
    rw [Memory.updateWords, Memory.updateWords, hprev.word_eq (hslot i (by omega))]
    exact hprev.storeWord

lemma SameImage.fileImage (h : SameImage n z z') (i : ℕ) :
    SameImage n (fileImage file z i) (fileImage file z' i) := by
  induction i with
  | zero => exact h
  | succ i ih =>
    rw [Kext.fileImage, Kext.fileImage]
    split_ifs
    · intro o ho
      dsimp only
      split_ifs
      · rfl
      · exact ih o ho
    · exact ih

lemma SameImage.patchedImage {kextSa : ℕ} (h : SameImage n im im') (i : ℕ) :
    SameImage n (patchedImage file kextSa im i) (patchedImage file kextSa im' i) := by
  induction i with
  | zero => exact h
  | succ i ih =>
    rw [Kext.patchedImage, Kext.patchedImage]
    split_ifs
    · exact ih.storeWord
    · exact ih

lemma SameImage.kextImage (h : SameImage n z z') :
    SameImage n (kextImage k info file z) (kextImage k info file z') :=
  ((h.fileImage _).patchedImage _).storeWord.storeWord

/-- Relocating and linking looks at the image only. -/
lemma Accepted.sameImage_imageLinked (hacc : Accepted chain header buf info sp dp)
    (hvm : info.vmSize < 2 ^ 32) (h : SameImage info.vmSize im im') :
    SameImage info.vmSize (imageLinked k chain info buf sp dp im)
      (imageLinked k chain info buf sp dp im') := by
  have hrelocated : SameImage info.vmSize (imageRelocated k info buf.byte sp dp im)
      (imageRelocated k info buf.byte sp dp im') :=
    (h.updateWords fun i hi => hacc.localSlot_le hvm hi).storeWord.storeWord
  exact (hrelocated.updateWords fun i hi => hacc.externalSlot_le hvm hi).storeWord

end Before

end VulnerableKext.Kext

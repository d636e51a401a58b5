import VulnerableKext.System.RoundTrip

/-!
# The order of the symbol files

The order in which files are read decides the order of the entries, the contents of
the pool and all offsets.  What a device looks up after an upload depends on none of
this: it is the address that the files give for the name, as long as they agree on it.
-/

namespace VulnerableKext.System

open Bytes Format Host Device

/-! ## The address of a name in a list of symbols -/

section AddressIn

variable {κ β : Type*} [DecidableEq κ] {l l' : List (κ × β)} {k : κ}

/-- The value of the first pair with the given key. -/
def addressIn (l : List (κ × β)) (k : κ) : Option β := (l.find? fun p => p.1 = k).map Prod.snd

lemma mem_of_addressIn {b : β} (h : addressIn l k = some b) : (k, b) ∈ l := by
  obtain ⟨p, hp, rfl⟩ := Option.map_eq_some_iff.1 h
  have hk : p.1 = k := by simpa using List.find?_some hp
  rw [← hk]
  exact List.mem_of_find?_eq_some hp

lemma addressIn_eq_none_iff : addressIn l k = none ↔ ∀ b, (k, b) ∉ l := by
  simp only [addressIn, Option.map_eq_none_iff, List.find?_eq_none, decide_eq_true_eq]
  constructor
  · exact fun h b hb => h _ hb rfl
  · rintro h ⟨k', b⟩ hp rfl
    exact h b hp

/-- When no key has two values, the order of the pairs does not matter. -/
lemma addressIn_perm (hperm : l.Perm l')
    (huniq : ∀ p ∈ l, ∀ q ∈ l, p.1 = q.1 → p.2 = q.2) : addressIn l k = addressIn l' k := by
  cases h : addressIn l' k with
  | none =>
    rw [addressIn_eq_none_iff] at h ⊢
    exact fun b hb => h b (hperm.subset hb)
  | some b' =>
    have hb' : (k, b') ∈ l := hperm.symm.subset (mem_of_addressIn h)
    cases h' : addressIn l k with
    | none => exact absurd hb' (addressIn_eq_none_iff.1 h' b')
    | some b => exact congrArg some (huniq (k, b) (mem_of_addressIn h') (k, b') hb' rfl)

end AddressIn

/-! ## What is looked up after an upload -/

variable {state state' : KcsState} {files files' : List ParsedFile} {kernel : Kernel}
  {s : SymbolState} {uuid : Uuid} {name : List UInt8} {dirs dirs' : List (Option (List Dirent))}
  {malloc malloc' : ℕ → Option (List UInt8)}

/-- No file and no two files with the same UUID give a name two addresses. -/
def Consistent (files : List ParsedFile) : Prop :=
  ∀ f ∈ files, ∀ g ∈ files, f.1 = g.1 → ∀ s ∈ f.2, ∀ s' ∈ g.2, s.1 = s'.1 → s.2 = s'.2

lemma find?_eq_addressIn {t : KernelcacheSymbolTable} {syms : List Host.Symbol}
    (h : contents t = syms.map fun s => (some s.1, s.2)) : t.find? name = addressIn syms name := by
  have ht : t.find? name = addressIn (contents t) (some name) := by
    have hbeq : (fun e : ℕ × ℕ => t.nameAt e.1 == some name) =
        fun e => decide (t.nameAt e.1 = some name) := by
      funext e
      rw [Bool.eq_iff_iff]
      simp
    simp only [KernelcacheSymbolTable.find?, hbeq, addressIn, contents, List.find?_map,
      Option.map_map, Function.comp_def]
  rw [ht, h]
  simp only [addressIn, List.find?_map, Option.map_map, Function.comp_def, Option.some.injEq]

/-- After the upload of a layout, a lookup consults the symbols of the files first. -/
lemma lookup_layout (hs : state.Holds files) (hvalid : ∀ f ∈ files, ∀ s ∈ f.2, ValidSymbol s)
    (hlast : state.symstr.getLast? = some 0) {u : Upload} (hu : u.data = state.layout)
    (hname : 0 ∉ name) :
    ∃ s', step kernel s u.granted = some s' ∧
      kernelcacheSymbolTableLookup s'.kernelcacheSymbolTable name =
        (addressIn (symbolsFor (s.uuidFor kernel) files) name).or
          (kernelcacheSymbolTableLookup s.kernelcacheSymbolTable name) := by
  by_cases hmem : s.uuidFor kernel ∈ state.kcs.map KcsKc.uuid
  · obtain ⟨kc, hkc, huuid⟩ := List.mem_map.1 hmem
    have hlt : state.layout.length < 2 ^ 32 := hu ▸ u.length_lt
    obtain ⟨s', hstep, hchain⟩ := installs_layout hs hvalid hlast hu hkc huuid
    have hsound := sound_of_describes (describes_layout hs hlt hlast hvalid hkc)
    refine ⟨s', hstep, ?_⟩
    rw [hchain, lookup_cons_of_sound hname hsound, find?_eq_addressIn (contents_tableOf hs hkc),
      huuid]
  · obtain ⟨s', hstep, hchain⟩ := step_layout_of_notMem hu hmem
    refine ⟨s', hstep, ?_⟩
    rw [hs.mem_uuid] at hmem
    rw [hchain, symbolsFor_eq_nil hmem]
    rfl

/-! ## Two orders -/

lemma parsedFiles_eq (dirs : List (Option (List Dirent))) :
    parsedFiles dirs = (dirs.flatMap fun dir => dir.getD []).filterMap Dirent.parsedFile? := by
  rw [parsedFiles, List.filterMap_flatMap]

lemma symbolsFor_perm (h : files.Perm files') :
    (symbolsFor uuid files).Perm (symbolsFor uuid files') :=
  (h.filter _).flatMap_right _

lemma addressIn_symbolsFor (h : files.Perm files') (hcons : Consistent files) :
    addressIn (symbolsFor uuid files) name = addressIn (symbolsFor uuid files') name := by
  refine addressIn_perm (symbolsFor_perm h) ?_
  intro p hp q hq hpq
  obtain ⟨f, hf, hfu, hpf⟩ := mem_of_symbolsFor hp
  obtain ⟨g, hg, hgu, hqg⟩ := mem_of_symbolsFor hq
  exact hcons f hf g hg (hfu.trans hgu.symm) p hpf q hqg hpq

/-- Two orders of the directory entries give two blobs after whose upload every device looks up
the same addresses. -/
theorem lookup_fileOrder (hmalloc : Allocates malloc) (hmalloc' : Allocates malloc')
    (hperm : (dirs.flatMap fun dir => dir.getD []).Perm (dirs'.flatMap fun dir => dir.getD []))
    (hcons : Consistent (parsedFiles dirs)) (hsome : ∃ f ∈ parsedFiles dirs, f.2 ≠ [])
    (hcollect : collectSymbols dirs = some state) (hsize : state.serialisedSize < 2 ^ 32)
    (hcollect' : collectSymbols dirs' = some state') (hsize' : state'.serialisedSize < 2 ^ 32) :
    ∃ u u' : Upload, kernelcacheSymbolTableGenerate malloc dirs = some u.data ∧
      kernelcacheSymbolTableGenerate malloc' dirs' = some u'.data ∧
      ∀ (kernel : Kernel) (s : SymbolState) (name : List UInt8), 0 ∉ name →
        ∃ s₁ s₂, step kernel s u.granted = some s₁ ∧ step kernel s u'.granted = some s₂ ∧
          kernelcacheSymbolTableLookup s₁.kernelcacheSymbolTable name =
            kernelcacheSymbolTableLookup s₂.kernelcacheSymbolTable name := by
  rw [← length_layout_eq_serialisedSize] at hsize hsize'
  have hfiles : (parsedFiles dirs).Perm (parsedFiles dirs') := by
    rw [parsedFiles_eq, parsedFiles_eq]
    exact hperm.filterMap _
  have hs : state.Holds (parsedFiles dirs) :=
    collectSymbols_holds hcollect (by rw [length_layout] at hsize; omega)
  have hs' : state'.Holds (parsedFiles dirs') :=
    collectSymbols_holds hcollect' (by rw [length_layout] at hsize'; omega)
  obtain ⟨f, hf, hne⟩ := hsome
  have hlast := getLast?_symstr hs hf hne
  have hlast' := getLast?_symstr hs' (hfiles.subset hf) hne
  refine ⟨⟨state.layout, hsize⟩, ⟨state'.layout, hsize'⟩, ?_, ?_, fun kernel s name hname => ?_⟩
  · rw [kernelcacheSymbolTableGenerate, hcollect, Option.bind_some, serialise_eq hmalloc hs hsize]
  · rw [kernelcacheSymbolTableGenerate, hcollect', Option.bind_some,
      serialise_eq hmalloc' hs' hsize']
  · have hu : (⟨state.layout, hsize⟩ : Upload).data = state.layout := rfl
    have hu' : (⟨state'.layout, hsize'⟩ : Upload).data = state'.layout := rfl
    obtain ⟨s₁, h₁, hl₁⟩ := lookup_layout (s := s) hs validSymbol_of_parsedFiles hlast hu hname
    obtain ⟨s₂, h₂, hl₂⟩ := lookup_layout (s := s) hs' validSymbol_of_parsedFiles hlast' hu' hname
    refine ⟨s₁, s₂, h₁, h₂, ?_⟩
    rw [hl₁, hl₂, addressIn_symbolsFor hfiles hcons]

/-- Two files for the same UUID. -/
def memsetFile : Dirent :=
  ⟨true, ascii "a.txt", some (ascii ("KERNELCACHE UUID: 00000000-0000-0000-0000-000000000000\n" ++
    "\n_memset 0xfffffff007004000\n"))⟩

def setFile : Dirent :=
  ⟨true, ascii "b.txt", some (ascii ("KERNELCACHE UUID: 00000000-0000-0000-0000-000000000000\n" ++
    "\nset 0xfffffff007004010\n"))⟩

lemma parsedFiles_memset_set : parsedFiles [some [memsetFile], none, some [setFile]] =
    [(List.Vector.replicate 16 0, [(ascii "_memset", 0xfffffff007004000)]),
      (List.Vector.replicate 16 0, [(ascii "set", 0xfffffff007004010)])] := by
  decide +kernel

lemma consistent_memset_set : Consistent (parsedFiles [some [memsetFile], none, some [setFile]]) := by
  rw [parsedFiles_memset_set]
  unfold Consistent
  decide

theorem lookup_fileOrder_memset_set :
    ∃ u u' : Upload,
      kernelcacheSymbolTableGenerate dirtyMalloc [some [memsetFile], none, some [setFile]] =
        some u.data ∧
      kernelcacheSymbolTableGenerate dirtyMalloc [some [setFile, memsetFile]] = some u'.data ∧
      ∀ (kernel : Kernel) (s : SymbolState) (name : List UInt8), 0 ∉ name →
        ∃ s₁ s₂, step kernel s u.granted = some s₁ ∧ step kernel s u'.granted = some s₂ ∧
          kernelcacheSymbolTableLookup s₁.kernelcacheSymbolTable name =
            kernelcacheSymbolTableLookup s₂.kernelcacheSymbolTable name := by
  have hcollect : collectSymbols [some [memsetFile], none, some [setFile]] =
      some ⟨[⟨List.Vector.replicate 16 0, [⟨0, 0xfffffff007004000⟩, ⟨4, 0xfffffff007004010⟩]⟩], 2,
        ascii "_memset" ++ [0]⟩ := by
    decide +kernel
  have hcollect' : collectSymbols [some [setFile, memsetFile]] =
      some ⟨[⟨List.Vector.replicate 16 0, [⟨0, 0xfffffff007004010⟩, ⟨4, 0xfffffff007004000⟩]⟩], 2,
        ascii "set" ++ [0] ++ ascii "_memset" ++ [0]⟩ := by
    decide +kernel
  refine lookup_fileOrder allocates_dirtyMalloc allocates_dirtyMalloc ?_ consistent_memset_set ?_
    hcollect (by decide) hcollect' (by decide)
  · exact List.Perm.swap _ _ _
  · rw [parsedFiles_memset_set]
    exact ⟨_, List.mem_cons_self, by simp⟩

/-- The two orders of the same files do not give the same blob. -/
example : kernelcacheSymbolTableGenerate dirtyMalloc [some [memsetFile], none, some [setFile]] ≠
    kernelcacheSymbolTableGenerate dirtyMalloc [some [setFile, memsetFile]] := by
  decide +kernel

end VulnerableKext.System

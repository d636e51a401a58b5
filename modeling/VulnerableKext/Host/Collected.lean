import VulnerableKext.Host.KcsInvariant
import VulnerableKext.Host.SymbolsFileRender

/-!
# Collecting symbol files

What `kernelcache_symbol_table_update_directory` makes of any number of directories,
against the grammar of symbol files.  A file with a valid header contributes the symbols of
its longest prefix of valid lines, any other file nothing, and the state lists the
contributions by UUID.

The counters `kccnt`, `symcnt` and the offsets have 32 bits.  A bound on the symbols and on
the bytes of their names covers the last two; files without any symbols still count for the
first one.
-/

namespace VulnerableKext.Host

open TextParser Grammar Computability Term

/-! ## What the files write -/

/-- The file has a header for the UUID, and the symbols are those of the longest prefix of valid
lines behind it. -/
def Writes (data : List UInt8) (f : ParsedFile) : Prop :=
  ∃ w ∈ Header f.1, ∃ l, data = w ++ l ∧ LongestBody l f.2

def InvalidHeader (data : List UInt8) : Prop := ∀ uuid, ∀ w ∈ Header uuid, ¬ w <+: data

/-- A file contributes what it writes, or nothing when its header is invalid. -/
inductive Contributes (data : List UInt8) : Option ParsedFile → Prop
  | file {f} : Writes data f → Contributes data (some f)
  | invalid : InvalidHeader data → Contributes data none

/-- The contents of the symbol files that can be mapped, in the order in which they are read. -/
def symbolsFiles (dirs : List (Option (List Dirent))) : List (List UInt8) :=
  dirs.flatMap fun dir => (dir.getD []).filterMap fun e =>
    if e.isSymbolsFile then mapFile e else none

/-- The contributions of the files of all directories, in the order in which they are read. -/
def ReadFrom (dirs : List (Option (List Dirent))) (files : List ParsedFile) : Prop :=
  ∃ read, List.Forall₂ Contributes (symbolsFiles dirs) read ∧ files = read.reduceOption

variable {dirs : List (Option (List Dirent))} {files : List ParsedFile} {f : ParsedFile}
  {data : List UInt8} {state state' : KcsState} {kc kc' : KcsKc} {symstr symstr' : List UInt8}
  {s : Symbol} {syms : List Symbol} {uuid : Uuid}

lemma parsedFile_eq_some_iff : parsedFile data = some f ↔ Writes data f := by
  rw [parsedFile, Option.map_eq_some_iff]
  constructor
  · rintro ⟨⟨uuid, tp⟩, h, rfl⟩
    obtain ⟨w, hw, hrest⟩ := parseHeader_sound h
    exact ⟨w, hw, tp.rest, hrest, longestBody_iff.2 rfl⟩
  · rintro ⟨w, hw, l, rfl, hl⟩
    have hrest₀ : (⟨w ++ l, 0⟩ : TextParser).rest = w ++ l := rfl
    obtain ⟨tp, h, rfl⟩ := parseHeader_complete hw hrest₀
    exact ⟨(f.1, tp), h, Prod.ext rfl (longestBody_iff.1 hl).symm⟩

lemma parsedFile_eq_none_iff : parsedFile data = none ↔ InvalidHeader data := by
  constructor
  · rintro h uuid w hw ⟨l, rfl⟩
    have hrest₀ : (⟨w ++ l, 0⟩ : TextParser).rest = w ++ l := rfl
    obtain ⟨tp, htp, -⟩ := parseHeader_complete hw hrest₀
    rw [parsedFile, htp] at h
    simp at h
  · intro h
    cases hf : parsedFile data with
    | none => rfl
    | some f =>
      obtain ⟨w, hw, l, rfl, -⟩ := parsedFile_eq_some_iff.1 hf
      exact absurd (List.prefix_append w l) (h _ w hw)

lemma contributes_iff {o : Option ParsedFile} : Contributes data o ↔ o = parsedFile data := by
  constructor
  · rintro (h | h)
    · exact (parsedFile_eq_some_iff.2 h).symm
    · exact (parsedFile_eq_none_iff.2 h).symm
  · rintro rfl
    cases hf : parsedFile data with
    | none => exact .invalid (parsedFile_eq_none_iff.1 hf)
    | some f => exact .file (parsedFile_eq_some_iff.1 hf)

lemma parsedFiles_eq_filterMap (dirs : List (Option (List Dirent))) :
    parsedFiles dirs = (symbolsFiles dirs).filterMap parsedFile := by
  rw [parsedFiles, symbolsFiles, List.filterMap_flatMap]
  congr 1
  funext dir
  rw [List.filterMap_filterMap]
  congr 1
  funext e
  rw [Dirent.parsedFile?]
  split_ifs <;> rfl

/-- The model reads what the files contribute. -/
lemma readFrom_iff : ReadFrom dirs files ↔ files = parsedFiles dirs := by
  have hcontr : Contributes = fun data o => parsedFile data = o := by
    ext data o
    rw [contributes_iff, eq_comm]
  have hmap : (symbolsFiles dirs).filterMap parsedFile =
      ((symbolsFiles dirs).map parsedFile).reduceOption := by
    rw [List.reduceOption, List.filterMap_map, Function.id_comp]
  rw [ReadFrom, parsedFiles_eq_filterMap, hmap, hcontr]
  simp only [← List.forall₂_map_left_iff, List.forall₂_eq_eq_eq, exists_eq_left']

/-! ## The counters -/

def symbolCount (files : List ParsedFile) : ℕ := (files.map fun f => f.2.length).sum

/-- The bytes of the names of some symbols with their terminators. -/
def nameBytes (syms : List Symbol) : ℕ := (syms.map fun s => s.1.length + 1).sum

def stringBytes (files : List ParsedFile) : ℕ := (files.map fun f => nameBytes f.2).sum

/-- The UUIDs in the order of their first appearance. -/
def uuidsOf (files : List ParsedFile) : List Uuid := (files.map Prod.fst).eraseDups

lemma symbolCount_append_singleton (files : List ParsedFile) (f : ParsedFile) :
    symbolCount (files ++ [f]) = symbolCount files + f.2.length := by
  simp [symbolCount]

lemma stringBytes_append_singleton (files : List ParsedFile) (f : ParsedFile) :
    stringBytes (files ++ [f]) = stringBytes files + nameBytes f.2 := by
  simp [stringBytes]

lemma nameBytes_cons (s : Symbol) (syms : List Symbol) :
    nameBytes (s :: syms) = s.1.length + 1 + nameBytes syms := by
  simp [nameBytes]

lemma uuidsOf_append_singleton (files : List ParsedFile) (f : ParsedFile) :
    uuidsOf (files ++ [f]) =
      uuidsOf files ++ if f.1 ∈ files.map Prod.fst then [] else [f.1] := by
  rw [uuidsOf, List.map_append, List.eraseDups_append, uuidsOf]
  congr 1
  by_cases h : f.1 ∈ files.map Prod.fst
  · simp [List.removeAll, h]
  · simp [List.removeAll, h, List.eraseDups_cons]

lemma length_symbolsFor_le (uuid : Uuid) (files : List ParsedFile) :
    (symbolsFor uuid files).length ≤ symbolCount files := by
  induction files using List.reverseRecOn with
  | nil => exact Nat.zero_le _
  | append_singleton files f ih =>
    rw [symbolsFor_append_singleton, symbolCount_append_singleton, List.length_append]
    split_ifs
    · omega
    · rw [List.length_nil]
      omega

lemma length_intern_le (pool s : List UInt8) :
    (intern 0 pool s).2.length ≤ pool.length + (s.length + 1) := by
  rw [intern]
  split
  · exact Nat.le_add_right _ _
  · simp

/-- Below the limits a symbol is inserted. -/
lemma insertSymbol_isSome (hcnt : kc.syms.length + 1 < 2 ^ 32) (hlen : symstr.length < 2 ^ 32)
    (s : Symbol) : ∃ kc' symstr', insertSymbol kc symstr s = some (kc', symstr') := by
  rw [insertSymbol, if_pos hcnt]
  cases find (s.1 ++ [0]) symstr with
  | some offset => exact ⟨_, _, rfl⟩
  | none => exact ⟨_, _, if_pos hlen⟩

lemma insertSymbols_isSome (hcnt : kc.syms.length + syms.length < 2 ^ 32)
    (hlen : symstr.length + nameBytes syms < 2 ^ 32) :
    ∃ kc' symstr', insertSymbols kc symstr syms = some (kc', symstr') ∧
      symstr'.length ≤ symstr.length + nameBytes syms := by
  induction syms generalizing kc symstr with
  | nil => exact ⟨kc, symstr, rfl, Nat.le_add_right _ _⟩
  | cons s syms ih =>
    rw [List.length_cons] at hcnt
    rw [nameBytes_cons] at hlen
    have hfits : symstr.length < 2 ^ 32 := by omega
    obtain ⟨kc₁, symstr₁, h₁⟩ :=
      insertSymbol_isSome (show kc.syms.length + 1 < 2 ^ 32 by omega) hfits s
    obtain ⟨rfl, -, hsyms⟩ := insertSymbol_eq_some h₁
    have hpool := length_intern_le symstr s.1
    have hkc : kc₁.syms.length + syms.length < 2 ^ 32 := by
      rw [hsyms, List.length_append, List.length_singleton]
      omega
    have hnext : (intern 0 symstr s.1).2.length + nameBytes syms < 2 ^ 32 := by omega
    obtain ⟨kc', symstr', h', hle⟩ := ih hkc hnext
    refine ⟨kc', symstr', ?_, by rw [nameBytes_cons]; omega⟩
    rw [insertSymbols, List.foldlM_cons, h₁]
    exact h'

lemma uuid_of_insertSymbols (h : insertSymbols kc symstr syms = some (kc', symstr')) :
    kc'.uuid = kc.uuid := by
  induction syms generalizing kc symstr with
  | nil =>
    obtain ⟨rfl, -⟩ := Prod.mk.inj (Option.some.inj h)
    rfl
  | cons s syms ih =>
    rw [insertSymbols, List.foldlM_cons] at h
    obtain ⟨⟨kc₁, symstr₁⟩, h₁, h₂⟩ := Option.bind_eq_some_iff.1 h
    obtain ⟨-, huuid, -⟩ := insertSymbol_eq_some h₁
    exact (ih h₂).trans huuid

/-! ## The state -/

/-- Allocating an entry appends its UUID unless there is an entry for it. -/
lemma map_uuid_entryFor {i : ℕ} {kcs : List KcsKc} (h : state.entryFor uuid = some (i, kcs)) :
    kcs.map KcsKc.uuid = state.kcs.map KcsKc.uuid ++
        (if uuid ∈ state.kcs.map KcsKc.uuid then [] else [uuid]) ∧
      (kcs = state.kcs ∨ kcs.length < 2 ^ 32) := by
  rcases entryFor_cases h with ⟨rfl, hi, huuid⟩ | ⟨hnew, hlt, -, rfl⟩
  · have hmem : uuid ∈ state.kcs.map KcsKc.uuid := List.mem_map.2 ⟨_, List.getElem_mem hi, huuid⟩
    exact ⟨by rw [if_pos hmem, List.append_nil], Or.inl rfl⟩
  · refine ⟨by rw [if_neg hnew, List.map_append, List.map_singleton], Or.inr ?_⟩
    rw [List.length_append, List.length_singleton]
    exact hlt

/-- Adding a file is allocating an entry and changing the symbols of an entry. -/
lemma map_uuid_addFile (h : state.addFile f = some state') :
    state'.kcs.map KcsKc.uuid = state.kcs.map KcsKc.uuid ++
        (if f.1 ∈ state.kcs.map KcsKc.uuid then [] else [f.1]) ∧
      (state'.kcs.length = state.kcs.length ∨ state'.kcs.length < 2 ^ 32) := by
  simp only [KcsState.addFile, Option.bind_eq_bind, Option.bind_eq_some_iff, Prod.exists,
    Option.pure_def, Option.some.injEq] at h
  obtain ⟨i, kcs, hentry, kc', symstr', hins, rfl⟩ := h
  obtain ⟨hmap, hlen⟩ := map_uuid_entryFor hentry
  have hset : (kcs.set i kc').map KcsKc.uuid = kcs.map KcsKc.uuid := by
    rcases Nat.lt_or_ge i kcs.length with hi | hi
    · rw [List.getElem?_eq_getElem hi, Option.getD_some] at hins
      rw [List.map_set, uuid_of_insertSymbols hins, ← List.map_set, List.set_getElem_self hi]
    · rw [List.set_eq_of_length_le hi]
  refine ⟨by rw [KcsState.putEntry, hset, hmap], ?_⟩
  rw [KcsState.putEntry, List.length_set]
  exact hlen.imp_left (congrArg List.length)

lemma map_uuid_addFiles (h : files.foldlM KcsState.addFile .initial = some state) :
    state.kcs.map KcsKc.uuid = uuidsOf files ∧ state.kcs.length < 2 ^ 32 := by
  induction files using List.reverseRecOn generalizing state with
  | nil =>
    obtain rfl : KcsState.initial = state := Option.some.inj h
    exact ⟨rfl, by norm_num [KcsState.initial]⟩
  | append_singleton files f ih =>
    rw [List.foldlM_append] at h
    obtain ⟨state₁, h₁, h₂⟩ := Option.bind_eq_some_iff.1 h
    replace h₂ : state₁.addFile f = some state := by simpa using h₂
    obtain ⟨hmap, hlt⟩ := ih h₁
    obtain ⟨hmap', hlt'⟩ := map_uuid_addFile h₂
    refine ⟨?_, by omega⟩
    rw [hmap', uuidsOf_append_singleton, hmap]
    congr 2
    rw [uuidsOf, List.mem_eraseDups]

/-- Below the limits a file can be added. -/
lemma addFile_isSome (hs : state.Holds files)
    (hkcs : f.1 ∈ state.kcs.map KcsKc.uuid ∨ state.kcs.length + 1 < 2 ^ 32)
    (hsyms : symbolCount files + f.2.length < 2 ^ 32)
    (hlen : state.symstr.length + nameBytes f.2 < 2 ^ 32) :
    ∃ state', state.addFile f = some state' ∧
      state'.symstr.length ≤ state.symstr.length + nameBytes f.2 := by
  obtain ⟨i, kcs, hentry⟩ : ∃ i kcs, state.entryFor f.1 = some (i, kcs) := by
    unfold KcsState.entryFor
    cases hfind : state.kcs.findIdx? (·.uuid == f.1) with
    | some i => exact ⟨_, _, rfl⟩
    | none =>
      refine ⟨_, _, if_pos (hkcs.resolve_left ?_)⟩
      intro hmem
      obtain ⟨kc, hkc, hu⟩ := List.mem_map.1 hmem
      exact absurd (List.findIdx?_eq_none_iff.1 hfind kc hkc) (by simp [hu])
  obtain ⟨hs₁, hi, huuid⟩ := entryFor_spec hs hentry
  have hcnt : kcs[i].syms.length ≤ symbolCount files := by
    have hrec := (hs₁.records _ (List.getElem_mem hi)).length_eq
    have hle := length_symbolsFor_le kcs[i].uuid (files ++ [(f.1, [])])
    rw [symbolCount_append_singleton] at hle
    exact hrec.trans_le hle
  obtain ⟨kc', symstr', hins, hle⟩ := insertSymbols_isSome
    (show kcs[i].syms.length + f.2.length < 2 ^ 32 by omega) hlen
  refine ⟨KcsState.putEntry kcs i state.maxsymcnt kc' symstr', ?_, hle⟩
  simp only [KcsState.addFile, hentry, Option.bind_eq_bind, Option.bind_some,
    List.getElem?_eq_getElem hi, Option.getD_some, hins, Option.pure_def]

/-- Below the limits all files can be added. -/
lemma addFiles_isSome (hvalid : ∀ f ∈ files, ∀ s ∈ f.2, ValidSymbol s)
    (hsyms : symbolCount files < 2 ^ 32) (hbytes : stringBytes files < 2 ^ 32)
    (huuids : (uuidsOf files).length < 2 ^ 32) :
    ∃ state, files.foldlM KcsState.addFile .initial = some state ∧
      state.symstr.length ≤ stringBytes files := by
  induction files using List.reverseRecOn with
  | nil => exact ⟨.initial, rfl, le_rfl⟩
  | append_singleton files f ih =>
    rw [symbolCount_append_singleton] at hsyms
    rw [stringBytes_append_singleton] at hbytes
    rw [uuidsOf_append_singleton, List.length_append] at huuids
    have hvalid₁ : ∀ f' ∈ files, ∀ s ∈ f'.2, ValidSymbol s :=
      fun f' hf' => hvalid f' (by simp [hf'])
    obtain ⟨state, hstate, hle⟩ := ih hvalid₁ (by omega) (by omega) (by omega)
    obtain ⟨hmap, -⟩ := map_uuid_addFiles hstate
    have hs := addFiles_holds hvalid₁ hstate (by omega)
    have hkcs : f.1 ∈ state.kcs.map KcsKc.uuid ∨ state.kcs.length + 1 < 2 ^ 32 := by
      by_cases hmem : f.1 ∈ files.map Prod.fst
      · exact Or.inl ((hs.mem_uuid f.1).2 hmem)
      · right
        rw [if_neg hmem, ← hmap, List.length_map, List.length_singleton] at huuids
        exact huuids
    obtain ⟨state', hstate', hle'⟩ := addFile_isSome hs hkcs hsyms (by omega)
    refine ⟨state', ?_, by rw [stringBytes_append_singleton]; omega⟩
    rw [List.foldlM_append, hstate]
    simpa using hstate'

/-- The state lists the UUIDs in the order of their first appearance, and for each of them the
symbols of its files: each with its address and with an offset at which its name is read. -/
structure Collected (files : List ParsedFile) (state : KcsState) : Prop where
  uuids : state.kcs.map KcsKc.uuid = uuidsOf files
  nodup : (state.kcs.map KcsKc.uuid).Nodup
  symbols : ∀ kc ∈ state.kcs,
    List.Forall₂ (Records state.symstr) kc.syms (symbolsFor kc.uuid files)

/-- The symbols of all files are collected, as long as the counters do not wrap around. -/
theorem collectSymbols_collected (hfiles : ReadFrom dirs files)
    (hsyms : symbolCount files < 2 ^ 32) (hbytes : stringBytes files < 2 ^ 32)
    (huuids : (uuidsOf files).length < 2 ^ 32) :
    ∃ state, collectSymbols dirs = some state ∧ Collected files state := by
  obtain rfl := readFrom_iff.1 hfiles
  obtain ⟨state, hstate, hle⟩ :=
    addFiles_isSome validSymbol_of_parsedFiles hsyms hbytes huuids
  have hs := addFiles_holds validSymbol_of_parsedFiles hstate (by omega)
  exact ⟨state, by rw [collectSymbols_eq, hstate],
    ⟨(map_uuid_addFiles hstate).1, hs.nodup, hs.records⟩⟩

/-- Two directories: a second file for the same UUID that breaks off at an invalid line, and
between them a file without a header. -/
def mergedDirectories : List (Option (List Dirent)) :=
  [some [⟨true, ascii "a.txt", some (ascii ("KERNELCACHE UUID: " ++
      "00000000-0000-0000-0000-000000000000\n\n_memset 0xfffffff007004000\n"))⟩,
    ⟨true, ascii "b.txt", some (ascii "_panic 0xfffffff007004020\n")⟩],
   some [⟨true, ascii "c.txt", some (ascii ("KERNELCACHE UUID: " ++
      "00000000-0000-0000-0000-000000000000\n\nset 0xfffffff007004010\n_bcopy\n_panic " ++
        "0xfffffff007004020\n"))⟩]]

def mergedFiles : List ParsedFile :=
  [(List.Vector.replicate 16 0, [(ascii "_memset", 0xfffffff007004000)]),
    (List.Vector.replicate 16 0, [(ascii "set", 0xfffffff007004010)])]

theorem collectSymbols_collected_merged :
    ∃ state, collectSymbols mergedDirectories = some state ∧ Collected mergedFiles state :=
  collectSymbols_collected (readFrom_iff.2 (by decide +kernel)) (by decide) (by decide)
    (by decide +kernel)

/-! ## Too many UUIDs -/

def numberUuid (i : ℕ) : Uuid := ⟨Bytes.leBytes 16 i, Bytes.length_leBytes 16 i⟩

/-- A file with a header and no symbols. -/
def headerFile (uuid : Uuid) : Dirent :=
  ⟨true, ascii "k.txt", some (renderSymbolsFile [] uuid [])⟩

def headerFiles (n : ℕ) : List Dirent := (List.range n).map fun i => headerFile (numberUuid i)

lemma parsedFile?_headerFile (uuid : Uuid) : (headerFile uuid).parsedFile? = some (uuid, []) := by
  have hname : (headerFile uuid).isSymbolsFile = true := rfl
  have hmem : renderSymbolsFile [] uuid [] ∈ SymbolsFile uuid [] :=
    renderSymbolsFile_mem (by simp) (by simp)
  obtain ⟨w, hw, l, hl, hdata⟩ := Language.mem_mul.1 hmem
  have hrest₀ : (⟨w ++ l, 0⟩ : TextParser).rest = w ++ l := rfl
  obtain ⟨tp, htp, hrest⟩ := parseHeader_complete hw hrest₀
  have hparsed : parsedFile (renderSymbolsFile [] uuid []) = some (uuid, []) := by
    rw [← hdata, parsedFile, htp]
    exact congrArg (fun p => some (uuid, p.1)) (parseSymbols_complete hl hrest)
  have hne : renderSymbolsFile [] uuid [] ≠ [] := by simp [renderSymbolsFile]
  rw [Dirent.parsedFile?, if_pos hname, mapFile, headerFile, Option.filter_some,
    if_pos (decide_eq_true hne), Option.bind_some, hparsed]

lemma parsedFiles_headerFiles (n : ℕ) :
    parsedFiles [some (headerFiles n)] = (List.range n).map fun i => (numberUuid i, []) := by
  simp only [parsedFiles, List.flatMap_cons, List.flatMap_nil, List.append_nil, Option.getD_some,
    headerFiles, List.filterMap_map, Function.comp_def, parsedFile?_headerFile,
    List.filterMap_eq_map']

lemma numberUuid_injOn {i j : ℕ} (hi : i < 256 ^ 16) (hj : j < 256 ^ 16)
    (h : numberUuid i = numberUuid j) : i = j := by
  have hbytes : Bytes.leBytes 16 i = Bytes.leBytes 16 j := congrArg Subtype.val h
  rw [← Bytes.leNat_leBytes_of_lt hi, hbytes, Bytes.leNat_leBytes_of_lt hj]

lemma le_length_uuidsOf {n : ℕ} (hn : n ≤ 256 ^ 16) :
    n ≤ (uuidsOf ((List.range n).map fun i => (numberUuid i, []))).length := by
  have hnodup : ((List.range n).map numberUuid).Nodup := by
    refine List.Nodup.map_on ?_ List.nodup_range
    intro i hi j hj h
    exact numberUuid_injOn (by rw [List.mem_range] at hi; omega)
      (by rw [List.mem_range] at hj; omega) h
  have hle := (hnodup.subperm fun u hu => List.mem_eraseDups.2 hu).length_le
  rw [List.length_map, List.length_range] at hle
  rwa [uuidsOf, List.map_map]

/-- With a file for each of `2 ^ 32` UUIDs the counter `kccnt` wraps around. -/
theorem not_collected_headerFiles :
    ¬ ∀ (dirs : List (Option (List Dirent))) (files : List ParsedFile), ReadFrom dirs files →
      symbolCount files < 2 ^ 32 → stringBytes files < 2 ^ 32 →
      ∃ state, collectSymbols dirs = some state ∧ Collected files state := by
  intro h
  have hsyms : symbolCount (parsedFiles [some (headerFiles (2 ^ 32))]) = 0 := by
    rw [parsedFiles_headerFiles, symbolCount, List.map_map]
    exact List.sum_eq_zero (by simp)
  have hbytes : stringBytes (parsedFiles [some (headerFiles (2 ^ 32))]) = 0 := by
    rw [parsedFiles_headerFiles, stringBytes, List.map_map]
    exact List.sum_eq_zero (by simp [nameBytes])
  obtain ⟨state, hstate, hc⟩ := h [some (headerFiles (2 ^ 32))] _ (readFrom_iff.2 rfl)
    (by rw [hsyms]; norm_num) (by rw [hbytes]; norm_num)
  rw [collectSymbols_eq] at hstate
  have hlen := congrArg List.length hc.uuids
  rw [List.length_map, parsedFiles_headerFiles] at hlen
  have hlt := (map_uuid_addFiles hstate).2
  have hle := le_length_uuidsOf (show 2 ^ 32 ≤ 256 ^ 16 by norm_num)
  omega

end VulnerableKext.Host

import VulnerableKext.Device.SymbolRuns
import VulnerableKext.Host.Serialise

/-!
# The device reads what the host wrote

The layout of the host is in the documented format, for every UUID of the state, with
the symbols that were parsed for this UUID.  The decoder of the device accepts exactly
this format, so that the table it installs lists the names and the addresses of the
symbol files.
-/

namespace VulnerableKext.System

open Bytes Format Host Device

variable {state : KcsState} {files : List ParsedFile} {kernel : Kernel} {s : SymbolState}
  {uuid : Uuid}

/-! ## Reading the layout -/

lemma layoutKcs_append (pre post : List KcsKc) :
    layoutKcs (pre ++ post) = layoutKcs pre ++ layoutKcs post := List.flatMap_append

lemma layoutDescs_append (offset : ℕ) (pre post : List KcsKc) :
    layoutDescs offset (pre ++ post) =
      layoutDescs offset pre ++ layoutDescs (offset + (layoutKcs pre).length) post := by
  induction pre generalizing offset with
  | nil => simp [layoutDescs, layoutKcs]
  | cons kc pre ih =>
    rw [List.cons_append, layoutDescs, ih, layoutDescs, layoutKcs_cons, List.length_append,
      List.append_assoc _ _ (layoutDescs _ post), Nat.add_assoc]

/-- The offset of the array of the `i`-th kernelcache. -/
def arrayOffset (state : KcsState) (i : ℕ) : ℕ :=
  state.symbolsOffset + (layoutKcs (state.kcs.take i)).length

lemma split_at {α : Type*} {l : List α} {i : ℕ} (h : i < l.length) :
    l = l.take i ++ l[i] :: l.drop (i + 1) := by
  rw [List.cons_getElem_drop_succ, List.take_append_drop]

lemma readLE_header (hlt : state.layout.length < 2 ^ 32) :
    readLE state.layout 0 4 = some state.kcs.length ∧
      readLE state.layout 4 4 = some state.stringsOffset := by
  have hlay := length_layout state
  have hso : state.stringsOffset = headerSize + state.kcs.length * kcDescSize +
      (layoutKcs state.kcs).length := rfl
  simp only [kcDescSize] at hso
  constructor
  · exact readLE_append_of_eq (a := []) rfl rfl (by omega)
  · exact readLE_append_of_eq rfl (by simp) (by omega)

/-- The `i`-th descriptor holds the `i`-th UUID and the offset of its array. -/
lemma read_desc (hlt : state.layout.length < 2 ^ 32) {i : ℕ} (hi : i < state.kcs.length) :
    window state.layout (8 + 20 * i) 16 = some state.kcs[i].uuid.toList ∧
      readLE state.layout (8 + 20 * i + 16) 4 = some (arrayOffset state i) := by
  have hlay := length_layout state
  have hdescs := layoutDescs_append state.symbolsOffset (state.kcs.take i)
    (state.kcs[i] :: state.kcs.drop (i + 1))
  rw [← split_at hi, layoutDescs, ← arrayOffset] at hdescs
  have hpre : (layoutDescs state.symbolsOffset (state.kcs.take i)).length = 20 * i := by
    rw [length_layoutDescs, List.length_take, min_eq_left hi.le, kcDescSize, Nat.mul_comm]
  have harr : arrayOffset state i ≤ state.stringsOffset := by
    have happ := layoutKcs_append (state.kcs.take i) (state.kcs.drop i)
    rw [List.take_append_drop] at happ
    rw [arrayOffset, KcsState.stringsOffset, happ, List.length_append]
    omega
  have hu : state.kcs[i].uuid.toList.length = 16 := List.Vector.toList_length _
  generalize layoutDescs state.symbolsOffset (state.kcs.take i) = pre at hdescs hpre
  generalize state.kcs[i].uuid.toList = u at hdescs hu ⊢
  generalize layoutDescs _ (state.kcs.drop (i + 1)) = post at hdescs
  have hsplit : state.layout = leBytes 4 state.kcs.length ++ (leBytes 4 state.stringsOffset ++
      (pre ++ (u ++ (leBytes 4 (arrayOffset state i) ++
        (post ++ (layoutKcs state.kcs ++ state.symstr)))))) := by
    rw [KcsState.layout, hdescs]
    simp only [List.append_assoc]
  constructor
  · refine window_append_of_eq
      (a := leBytes 4 state.kcs.length ++ (leBytes 4 state.stringsOffset ++ pre))
      (c := leBytes 4 (arrayOffset state i) ++ (post ++ (layoutKcs state.kcs ++ state.symstr)))
      (by simp only [hsplit, List.append_assoc]) ?_ hu.symm
    simp only [List.length_append, length_leBytes, hpre]
    omega
  · refine readLE_append_of_eq (a := leBytes 4 state.kcs.length ++ (leBytes 4 state.stringsOffset ++
      (pre ++ u))) (c := post ++ (layoutKcs state.kcs ++ state.symstr))
      (by simp only [hsplit, List.append_assoc]) ?_ (by omega)
    simp only [List.length_append, length_leBytes, hpre, hu]
    omega

/-- The `k`-th symbol of an array. -/
lemma entry_layoutSyms {data a c : List UInt8} {syms : List KcsSym} {q k : ℕ}
    (hdata : data = a ++ (layoutSyms syms ++ c)) (hq : q = a.length) (hk : k < syms.length)
    (hoff : syms[k].off < 2 ^ 32) (haddr : syms[k].addr < 2 ^ 64) :
    entry data (q + 12 * k) = some (syms[k].off, syms[k].addr) := by
  have hsyms : layoutSyms syms = layoutSyms (syms.take k) ++ (leBytes 4 syms[k].off ++
      (leBytes 8 syms[k].addr ++ layoutSyms (syms.drop (k + 1)))) := by
    conv_lhs => rw [split_at hk]
    simp only [layoutSyms, List.flatMap_append, List.flatMap_cons, List.append_assoc]
  have hpre : (layoutSyms (syms.take k)).length = 12 * k := by
    rw [length_layoutSyms, List.length_take, min_eq_left hk.le, symSize, Nat.mul_comm]
  rw [entry_eq_some_iff]
  constructor
  · refine readLE_append_of_eq (a := a ++ layoutSyms (syms.take k))
      (c := leBytes 8 syms[k].addr ++ (layoutSyms (syms.drop (k + 1)) ++ c)) ?_ ?_ (by omega)
    · rw [hdata, hsyms]
      simp only [List.append_assoc]
    · rw [List.length_append, hpre, hq]
  · refine readLE_append_of_eq (a := a ++ (layoutSyms (syms.take k) ++ leBytes 4 syms[k].off))
      (c := layoutSyms (syms.drop (k + 1)) ++ c) ?_ ?_ (by omega)
    · rw [hdata, hsyms]
      simp only [List.append_assoc]
    · simp only [List.length_append, hpre, hq, length_leBytes]
      omega

/-- The array of the `i`-th kernelcache. -/
lemma entriesAt_layout (hlt : state.layout.length < 2 ^ 32) {i : ℕ} (hi : i < state.kcs.length)
    (hsyms : ∀ sym ∈ state.kcs[i].syms, sym.off < 2 ^ 32 ∧ sym.addr < 2 ^ 64) :
    EntriesAt state.layout (arrayOffset state i)
      (state.kcs[i].syms.map fun sym => (sym.off, sym.addr)) := by
  have hkcs : layoutKcs state.kcs = layoutKcs (state.kcs.take i) ++
      (leBytes 4 state.kcs[i].syms.length ++
        (layoutSyms state.kcs[i].syms ++ layoutKcs (state.kcs.drop (i + 1)))) := by
    conv_lhs => rw [split_at hi]
    rw [layoutKcs_append, layoutKcs_cons, layoutKc, List.append_assoc]
  have hlay := length_layout state
  generalize hhead : leBytes 4 state.kcs.length ++ (leBytes 4 state.stringsOffset ++
    (layoutDescs state.symbolsOffset state.kcs ++ layoutKcs (state.kcs.take i))) = head
  have hlen : head.length = arrayOffset state i := by
    rw [← hhead]
    simp only [List.length_append, length_leBytes, length_layoutDescs, arrayOffset,
      KcsState.symbolsOffset, headerSize]
    omega
  have hsplit : state.layout = head ++ (leBytes 4 state.kcs[i].syms.length ++
      (layoutSyms state.kcs[i].syms ++ (layoutKcs (state.kcs.drop (i + 1)) ++ state.symstr))) := by
    rw [KcsState.layout, hkcs, ← hhead]
    simp only [List.append_assoc]
  have hcount : state.kcs[i].syms.length < 2 ^ 32 := by
    have h := congrArg List.length hsplit
    simp only [List.length_append, length_layoutSyms, symSize] at h
    omega
  constructor
  · rw [List.length_map]
    exact readLE_append_of_eq hsplit hlen.symm (by omega)
  · intro k hk
    rw [List.length_map] at hk
    have hsym := hsyms _ (List.getElem_mem hk)
    rw [List.getElem_map]
    refine entry_layoutSyms (a := head ++ leBytes 4 state.kcs[i].syms.length)
      (c := layoutKcs (state.kcs.drop (i + 1)) ++ state.symstr) ?_ ?_ hk hsym.1 hsym.2
    · rw [hsplit]
      simp only [List.append_assoc]
    · rw [List.length_append, hlen, length_leBytes]

/-! ## The layout is in the format -/

/-- The table that the device makes of an entry of the state. -/
def tableOf (state : KcsState) (kc : KcsKc) : KernelcacheSymbolTable :=
  ⟨kc.syms.map fun sym => (sym.off, sym.addr), state.symstr⟩

/-- What a table says: the names and the addresses of its symbols, in order. -/
def contents (t : KernelcacheSymbolTable) : List (Option (List UInt8) × ℕ) :=
  t.entries.map fun e => (t.nameAt e.1, e.2)

lemma mem_of_symbolsFor {sym : Symbol} (h : sym ∈ symbolsFor uuid files) :
    ∃ f ∈ files, f.1 = uuid ∧ sym ∈ f.2 := by
  simp only [symbolsFor, List.mem_flatMap, List.mem_filter, beq_iff_eq] at h
  obtain ⟨f, ⟨hf, huuid⟩, hsym⟩ := h
  exact ⟨f, hf, huuid, hsym⟩

lemma mem_symbolsFor {f : ParsedFile} {sym : Symbol} (hf : f ∈ files) (hsym : sym ∈ f.2) :
    sym ∈ symbolsFor f.1 files :=
  List.mem_flatMap.2 ⟨f, List.mem_filter.2 ⟨hf, by simp⟩, hsym⟩

/-- Every element of the left list has a partner. -/
lemma exists_of_forall₂ {α β : Type*} {R : α → β → Prop} {l : List α} {m : List β}
    (h : List.Forall₂ R l m) {a : α} (ha : a ∈ l) : ∃ b ∈ m, R a b := by
  induction h with
  | nil => simp at ha
  | cons hab _ ih =>
    rcases List.mem_cons.1 ha with rfl | ha
    · exact ⟨_, by simp, hab⟩
    · obtain ⟨b, hb, hR⟩ := ih ha
      exact ⟨b, by simp [hb], hR⟩

section Layout

variable (hs : state.Holds files) (hvalid : ∀ f ∈ files, ∀ s ∈ f.2, ValidSymbol s)
include hs

/-- An array entry points into the pool and its address has 64 bits. -/
lemma bounds_of_mem {kc : KcsKc} {sym : KcsSym}
    (hvalid : ∀ f ∈ files, ∀ s ∈ f.2, ValidSymbol s) (hkc : kc ∈ state.kcs) (hsym : sym ∈ kc.syms) :
    sym.off < state.symstr.length ∧ sym.addr < 2 ^ 64 := by
  obtain ⟨s, hs', haddr, hden⟩ := exists_of_forall₂ (hs.records kc hkc) hsym
  obtain ⟨f, hf, -, hsf⟩ := mem_of_symbolsFor hs'
  exact ⟨hden.lt_length, by rw [haddr]; exact (hvalid f hf s hsf).2⟩

/-- As soon as one symbol has been parsed there is a string area. -/
lemma getLast?_symstr {f : ParsedFile} (hf : f ∈ files) (hne : f.2 ≠ []) :
    state.symstr.getLast? = some 0 := by
  obtain ⟨sym, hsym⟩ := List.exists_mem_of_ne_nil _ hne
  obtain ⟨kc, hkc, huuid⟩ := List.mem_map.1 ((hs.mem_uuid f.1).2 (List.mem_map.2 ⟨f, hf, rfl⟩))
  have hmem := mem_symbolsFor hf hsym
  rw [← huuid] at hmem
  obtain ⟨e, -, -, hden⟩ := exists_of_forall₂ (hs.records kc hkc).flip hmem
  rcases hs.closed with hnil | hlast
  · exact absurd hden.lt_length (by simp [hnil])
  · exact hlast

lemma describes_layout (hlt : state.layout.length < 2 ^ 32) (hlast : state.symstr.getLast? = some 0)
    (hvalid : ∀ f ∈ files, ∀ s ∈ f.2, ValidSymbol s) {kc : KcsKc} (hkc : kc ∈ state.kcs) :
    Describes state.layout kc.uuid (tableOf state kc).entries (tableOf state kc).strings := by
  obtain ⟨i, hi, rfl⟩ := List.getElem_of_mem hkc
  have hb {sym : KcsSym} (hsym : sym ∈ state.kcs[i].syms) := bounds_of_mem hs hvalid hkc hsym
  have hlay := length_layout state
  obtain ⟨hn, hso⟩ := readLE_header hlt
  obtain ⟨hwin, hoff⟩ := read_desc hlt hi
  have hes := entriesAt_layout hlt hi fun sym hsym => ⟨by have := (hb hsym).1; omega, (hb hsym).2⟩
  have hfirst : ∀ j < i, window state.layout (8 + 20 * j) 16 ≠ some state.kcs[i].uuid.toList := by
    intro j hj heq
    have hwj := (read_desc hlt (hj.trans hi)).1
    rw [heq, Option.some.injEq] at hwj
    have huuid : state.kcs[i].uuid = state.kcs[j].uuid := List.Vector.toList_injective hwj
    have hi' : i < (state.kcs.map KcsKc.uuid).length := by simpa using hi
    have hj' : j < (state.kcs.map KcsKc.uuid).length := hj.trans hi'
    have hget : (state.kcs.map KcsKc.uuid)[i] = (state.kcs.map KcsKc.uuid)[j] := by
      rw [List.getElem_map, List.getElem_map, huuid]
    have hij : i = j := hs.nodup.getElem_inj_iff.1 hget
    omega
  refine ⟨⟨_, _, i, _, hn, hso, hi, ⟨hwin, hoff, hfirst⟩, hes, by omega, ?_, hlast⟩, ?_⟩
  · have hdrop : state.layout = (leBytes 4 state.kcs.length ++ (leBytes 4 state.stringsOffset ++
        (layoutDescs state.symbolsOffset state.kcs ++ layoutKcs state.kcs))) ++ state.symstr := by
      simp only [KcsState.layout, List.append_assoc]
    rw [hdrop, List.drop_left' ?_]
    · rfl
    · simp only [List.length_append, length_leBytes, length_layoutDescs, KcsState.stringsOffset,
        KcsState.symbolsOffset, headerSize]
      omega
  · intro e he
    obtain ⟨sym, hsym, rfl⟩ := List.mem_map.1 he
    exact (hb hsym).1

/-- The table of an entry says what the files say about its UUID. -/
lemma contents_tableOf {kc : KcsKc} (hkc : kc ∈ state.kcs) :
    contents (tableOf state kc) = (symbolsFor kc.uuid files).map fun s => (some s.1, s.2) := by
  have hname (sym : KcsSym) (s : Symbol) (h : Records state.symstr sym s) :
      ((tableOf state kc).nameAt sym.off, sym.addr) = (some s.1, s.2) :=
    Prod.ext h.2 h.1
  rw [contents, tableOf, List.map_map, ← List.forall₂_eq_eq_eq, List.forall₂_map_left_iff,
    List.forall₂_map_right_iff]
  exact (hs.records kc hkc).imp hname

end Layout

/-- The layout says nothing about a UUID that is not in the state. -/
lemma not_framed_layout (hlt : state.layout.length < 2 ^ 32)
    (huuid : uuid ∉ state.kcs.map KcsKc.uuid) {es : List (ℕ × ℕ)} {strings : List UInt8} :
    ¬ Framed state.layout uuid es strings := by
  rintro ⟨n, so, i, o, hn, -, hi, ⟨hwin, -, -⟩, -⟩
  obtain rfl : state.kcs.length = n := Option.some.inj ((readLE_header hlt).1.symm.trans hn)
  have h := (read_desc hlt hi).1
  rw [hwin, Option.some.injEq] at h
  have heq : uuid = state.kcs[i].uuid := List.Vector.toList_injective h
  exact huuid (List.mem_map.2 ⟨_, List.getElem_mem hi, heq.symm⟩)

/-! ## Generating, uploading and decoding -/

variable {dirs : List (Option (List Dirent))} {malloc : ℕ → Option (List UInt8)}

/-- A table that the state describes is installed. -/
lemma installs_layout (hs : state.Holds files) (hvalid : ∀ f ∈ files, ∀ s ∈ f.2, ValidSymbol s)
    (hlast : state.symstr.getLast? = some 0) {u : Upload} (hu : u.data = state.layout)
    {kc : KcsKc} (hkc : kc ∈ state.kcs) (huuid : kc.uuid = s.uuidFor kernel) :
    Installs kernel s u.granted (tableOf state kc) := by
  have hlt : state.layout.length < 2 ^ 32 := hu ▸ u.length_lt
  obtain ⟨hf, hin⟩ := describes_layout hs hlt hlast hvalid hkc
  rw [installs_granted_iff, hu, ← huuid]
  exact ⟨hf, fun e he => Or.inl (hin e he)⟩

/-- For another UUID the chain stays as it is. -/
lemma step_layout_of_notMem {u : Upload} (hu : u.data = state.layout)
    (huuid : s.uuidFor kernel ∉ state.kcs.map KcsKc.uuid) :
    ∃ s', step kernel s u.granted = some s' ∧
      s'.kernelcacheSymbolTable = s.kernelcacheSymbolTable := by
  have hlt : state.layout.length < 2 ^ 32 := hu ▸ u.length_lt
  have hso := (readLE_header hlt).2
  have hlay := length_layout state
  rw [← hu] at hso hlay
  have hshort : ¬ GrantsShortBlock u.data (s.uuidFor kernel) fun _ => true :=
    not_grantsShortBlock u.length_lt hso (by omega)
  obtain ⟨s', hs'⟩ : ∃ s', step kernel s u.granted = some s' :=
    step_isSome fun h => hshort (grantsShortBlock_of_heapOverflow u.length_lt h)
  refine ⟨s', hs', ?_⟩
  rcases step_cases hs' with ⟨_, -, -, rfl⟩ | ⟨t, ht, -⟩
  · rfl
  · have hf := framed_of_installs (installs_iff_decode.2 ht)
    rw [show u.granted.upload.data = state.layout from hu] at hf
    exact absurd hf (not_framed_layout hlt huuid)

/-- The blob of every collected state of fewer than `2^32` bytes is generated, and a device that
decodes it installs, for its own UUID, the symbols of the files with this UUID, in order. -/
theorem generate_decodes (hmalloc : Allocates malloc) (hcollect : collectSymbols dirs = some state)
    (hsome : ∃ f ∈ parsedFiles dirs, f.2 ≠ []) (hsize : state.serialisedSize < 2 ^ 32) :
    ∃ u : Upload, kernelcacheSymbolTableGenerate malloc dirs = some u.data ∧
      ∀ (kernel : Kernel) (s : SymbolState),
        (∀ kc ∈ state.kcs, kc.uuid = s.uuidFor kernel →
          ∃ t, Installs kernel s u.granted t ∧ t.count = kc.syms.length ∧
            contents t = (symbolsFor kc.uuid (parsedFiles dirs)).map fun s => (some s.1, s.2)) ∧
        (s.uuidFor kernel ∉ state.kcs.map KcsKc.uuid →
          ∃ s', step kernel s u.granted = some s' ∧
            s'.kernelcacheSymbolTable = s.kernelcacheSymbolTable) := by
  have hlt : state.layout.length < 2 ^ 32 := by rwa [length_layout_eq_serialisedSize]
  have hs : state.Holds (parsedFiles dirs) :=
    collectSymbols_holds hcollect (by rw [length_layout] at hlt; omega)
  obtain ⟨f, hf, hne⟩ := hsome
  have hlast := getLast?_symstr hs hf hne
  refine ⟨⟨state.layout, hlt⟩, ?_, fun kernel s => ⟨fun kc hkc huuid => ?_, fun huuid => ?_⟩⟩
  · rw [kernelcacheSymbolTableGenerate, hcollect, Option.bind_some, serialise_eq hmalloc hs hlt]
  · refine ⟨tableOf state kc, installs_layout hs validSymbol_of_parsedFiles hlast rfl hkc huuid, ?_,
      contents_tableOf hs hkc⟩
    rw [KernelcacheSymbolTable.count, tableOf, List.length_map]
  · exact step_layout_of_notMem rfl huuid

/-- A directory with one file, in which the second name is the end of the first. -/
def panicDirectory : List (Option (List Dirent)) :=
  [some [⟨true, ascii "ipad.txt", some (ascii ("KERNELCACHE UUID: 00000000-0000-0000-0000-000000000000\n" ++
    "\n_panic 0xfffffff007004000\npanic 0xfffffff007004010\n"))⟩]]

def panicState : KcsState :=
  ⟨[⟨List.Vector.replicate 16 0, [⟨0, 0xfffffff007004000⟩, ⟨1, 0xfffffff007004010⟩]⟩], 2,
    ascii "_panic" ++ [0]⟩

lemma collectSymbols_panicDirectory : collectSymbols panicDirectory = some panicState := by
  decide +kernel

lemma parsedFiles_panicDirectory : parsedFiles panicDirectory =
    [(List.Vector.replicate 16 0,
      [(ascii "_panic", 0xfffffff007004000), (ascii "panic", 0xfffffff007004010)])] := by
  decide +kernel

/-- A block that is not cleared. -/
def dirtyMalloc (n : ℕ) : Option (List UInt8) := some (List.replicate n 0xaa)

lemma allocates_dirtyMalloc : Allocates dirtyMalloc :=
  fun _ => ⟨_, rfl, List.length_replicate⟩

theorem generate_decodes_panicDirectory :
    ∃ u : Upload, kernelcacheSymbolTableGenerate dirtyMalloc panicDirectory = some u.data ∧
      ∀ (kernel : Kernel) (s : SymbolState),
        (∀ kc ∈ panicState.kcs, kc.uuid = s.uuidFor kernel →
          ∃ t, Installs kernel s u.granted t ∧ t.count = kc.syms.length ∧
            contents t = (symbolsFor kc.uuid (parsedFiles panicDirectory)).map fun s =>
              (some s.1, s.2)) ∧
        (s.uuidFor kernel ∉ panicState.kcs.map KcsKc.uuid →
          ∃ s', step kernel s u.granted = some s' ∧
            s'.kernelcacheSymbolTable = s.kernelcacheSymbolTable) :=
  generate_decodes allocates_dirtyMalloc collectSymbols_panicDirectory
    ⟨_, by rw [parsedFiles_panicDirectory]; exact List.mem_singleton.2 rfl, by simp⟩ (by decide)

end VulnerableKext.System

import VulnerableKext.Host.KcsState

/-!
# What the state holds

After any number of files the entry of a UUID lists, in order, the symbols of all
files with that UUID, each as its address and an offset of the pool at which its
name is read.  The pool only grows at its end, so the offsets that were handed out
earlier keep their meaning.
-/

namespace VulnerableKext.Host

open TextParser Grammar Term

variable {state state' : KcsState} {files : List ParsedFile} {f : ParsedFile} {kc kc' : KcsKc}
  {symstr symstr' : List UInt8} {s : Symbol} {syms : List Symbol} {uuid : Uuid}

/-! ## Symbols that are read from a file -/

/-- Names are C strings and addresses have 64 bits. -/
def ValidSymbol (s : Symbol) : Prop := 0 ∉ s.1 ∧ s.2 < 2 ^ 64

lemma zero_notMem_of_name {name : List UInt8} (h : name ∈ Name) : 0 ∉ name := by
  intro h0
  exact absurd (h.2 0 h0) (by decide)

lemma hexValue_lt {v : ℕ} {ds : List ℕ} (hds : ∀ d ∈ ds, d < 16) :
    hexValue v ds < (v + 1) * 16 ^ ds.length := by
  induction ds generalizing v with
  | nil => simp [hexValue]
  | cons d ds ih =>
    have hd : d < 16 := hds d (by simp)
    have hle : 16 * v + d + 1 ≤ (v + 1) * 16 := by omega
    calc hexValue v (d :: ds) = hexValue (16 * v + d) ds := rfl
      _ < (16 * v + d + 1) * 16 ^ ds.length := ih fun d' hd' => hds d' (by simp [hd'])
      _ ≤ (v + 1) * 16 * 16 ^ ds.length := Nat.mul_le_mul_right _ hle
      _ = (v + 1) * 16 ^ (d :: ds).length := by rw [List.length_cons, pow_succ]; ring

lemma lt_of_hexDigits {n v : ℕ} {w : List UInt8} (h : w ∈ HexDigits n v) : v < 16 ^ n := by
  obtain ⟨ds, hds, rfl, rfl⟩ := h
  have hlt : ∀ d ∈ ds, d < 16 := by
    intro d hd
    obtain ⟨i, hi, rfl⟩ := List.getElem_of_mem hd
    have hlen := hds.length_eq
    exact lt_of_isHexDigit (hds.get (by omega) hi)
  simpa using hexValue_lt (v := 0) hlt

lemma validSymbol_of_parseSymbol {tp tp' : TextParser}
    (h : parseKernelcacheSymbolsSymbol tp = some (some s, tp')) : ValidSymbol s := by
  obtain ⟨-, tp₁, tp₂, h₁, -, h₂, -⟩ := parseSymbol_eq_some_iff.1 h
  obtain ⟨hname, -⟩ := tpIdent_sound h₁
  obtain ⟨w, hw, -⟩ := tpHexU64_sound h₂
  exact ⟨zero_notMem_of_name hname, lt_of_hexDigits hw⟩

lemma validSymbol_of_parseSymbols {tp : TextParser} : ∀ s ∈ (parseSymbols tp).1, ValidSymbol s := by
  fun_induction parseSymbols tp with
  | case1 => simp
  | case2 => simp
  | case3 tp s tp' h syms ok hp ih =>
    rintro s' (_ | ⟨_, hs'⟩)
    · exact validSymbol_of_parseSymbol h
    · exact ih s' (by rw [hp]; exact hs')

lemma validSymbol_of_parsedFiles {dirs : List (Option (List Dirent))} :
    ∀ f ∈ parsedFiles dirs, ∀ s ∈ f.2, ValidSymbol s := by
  intro f hf s hs
  simp only [parsedFiles, List.mem_flatMap, List.mem_filterMap, Dirent.parsedFile?, parsedFile] at hf
  obtain ⟨dir, -, e, -, he⟩ := hf
  split_ifs at he
  obtain ⟨data, -, hd⟩ := Option.bind_eq_some_iff.1 he
  obtain ⟨⟨uuid, tp⟩, -, rfl⟩ := Option.map_eq_some_iff.1 hd
  exact validSymbol_of_parseSymbols s hs

/-! ## Inserting symbols -/

/-- The entry of the array stands for the symbol. -/
def Records (symstr : List UInt8) (sym : KcsSym) (s : Symbol) : Prop :=
  sym.addr = s.2 ∧ Denotes 0 symstr sym.off s.1

lemma Records.mono {sym : KcsSym} (h : Records symstr sym s) (hp : symstr <+: symstr') :
    Records symstr' sym s :=
  ⟨h.1, h.2.mono hp⟩

/-- Inserting a symbol is looking its name up in the pool, as long as offsets fit 32 bits. -/
lemma insertSymbol_eq_some (h : insertSymbol kc symstr s = some (kc', symstr')) :
    symstr' = (intern 0 symstr s.1).2 ∧ kc'.uuid = kc.uuid ∧
      kc'.syms = kc.syms ++ [⟨(intern 0 symstr s.1).1 % 2 ^ 32, s.2⟩] := by
  unfold insertSymbol at h
  unfold intern
  cases hfind : find (s.1 ++ [0]) symstr with
  | some offset =>
    simp only [hfind] at h ⊢
    split_ifs at h
    obtain ⟨rfl, rfl⟩ := Prod.mk.inj (Option.some.inj h)
    exact ⟨rfl, rfl, rfl⟩
  | none =>
    simp only [hfind] at h ⊢
    split_ifs at h with hcnt hlt
    obtain ⟨rfl, rfl⟩ := Prod.mk.inj (Option.some.inj h)
    exact ⟨rfl, rfl, by rw [Nat.mod_eq_of_lt hlt]⟩

lemma prefix_of_insertSymbols (h : insertSymbols kc symstr syms = some (kc', symstr')) :
    symstr <+: symstr' := by
  induction syms generalizing kc symstr with
  | nil =>
    obtain ⟨-, rfl⟩ := Prod.mk.inj (Option.some.inj h)
    exact List.prefix_rfl
  | cons s syms ih =>
    rw [insertSymbols, List.foldlM_cons] at h
    obtain ⟨⟨kc₁, symstr₁⟩, h₁, h₂⟩ := Option.bind_eq_some_iff.1 h
    obtain ⟨rfl, -⟩ := insertSymbol_eq_some h₁
    exact (prefix_intern 0 symstr s.1).trans (ih h₂)

lemma insertSymbols_spec (hvalid : ∀ s ∈ syms, ValidSymbol s)
    (h : insertSymbols kc symstr syms = some (kc', symstr')) (hlen : symstr'.length < 2 ^ 32)
    (hclosed : Closed 0 symstr) :
    Closed 0 symstr' ∧ kc'.uuid = kc.uuid ∧ ∃ added, kc'.syms = kc.syms ++ added ∧
      List.Forall₂ (Records symstr') added syms := by
  induction syms generalizing kc symstr with
  | nil =>
    obtain ⟨rfl, rfl⟩ := Prod.mk.inj (Option.some.inj h)
    exact ⟨hclosed, rfl, [], by simp, .nil⟩
  | cons s syms ih =>
    rw [insertSymbols, List.foldlM_cons] at h
    obtain ⟨⟨kc₁, symstr₁⟩, h₁, h₂⟩ := Option.bind_eq_some_iff.1 h
    have hprefix : symstr₁ <+: symstr' := prefix_of_insertSymbols h₂
    replace h₁ : insertSymbol kc symstr s = some (kc₁, symstr₁) := h₁
    obtain ⟨rfl, huuid, hsyms⟩ := insertSymbol_eq_some h₁
    have hden : Denotes 0 (intern 0 symstr s.1).2 (intern 0 symstr s.1).1 s.1 :=
      denotes_intern symstr (hvalid s (by simp)).1
    have hlt : (intern 0 symstr s.1).1 < 2 ^ 32 := by
      have hoff := hden.lt_length
      have hle := hprefix.length_le
      omega
    obtain ⟨hclosed', huuid', added, hadded, hrec⟩ :=
      ih (fun s' hs' => hvalid s' (by simp [hs'])) h₂ (hclosed.intern s.1)
    refine ⟨hclosed', huuid'.trans huuid, ⟨(intern 0 symstr s.1).1, s.2⟩ :: added, ?_, ?_⟩
    · rw [hadded, hsyms, Nat.mod_eq_of_lt hlt, List.append_assoc, List.singleton_append]
    · exact .cons ⟨rfl, hden.mono hprefix⟩ hrec

/-! ## The invariant -/

/-- The state holds the symbols of the files. -/
structure KcsState.Holds (state : KcsState) (files : List ParsedFile) : Prop where
  nodup : (state.kcs.map KcsKc.uuid).Nodup
  mem_uuid : ∀ u, u ∈ state.kcs.map KcsKc.uuid ↔ u ∈ files.map Prod.fst
  records : ∀ kc ∈ state.kcs,
    List.Forall₂ (Records state.symstr) kc.syms (symbolsFor kc.uuid files)
  le_max : ∀ kc ∈ state.kcs, kc.syms.length ≤ state.maxsymcnt
  max_le : state.maxsymcnt = 0 ∨ ∃ kc ∈ state.kcs, state.maxsymcnt ≤ kc.syms.length
  closed : Closed 0 state.symstr

lemma holds_initial : KcsState.initial.Holds [] where
  nodup := by simp [KcsState.initial]
  mem_uuid := by simp [KcsState.initial]
  records := by simp [KcsState.initial]
  le_max := by simp [KcsState.initial]
  max_le := Or.inl rfl
  closed := Or.inl rfl

lemma symbolsFor_append_singleton (uuid : Uuid) (files : List ParsedFile) (f : ParsedFile) :
    symbolsFor uuid (files ++ [f]) = symbolsFor uuid files ++ if f.1 = uuid then f.2 else [] := by
  unfold symbolsFor
  rw [List.filter_append, List.flatMap_append]
  congr 1
  by_cases h : f.1 = uuid <;> simp [h]

/-- Without a file for a UUID there are no symbols for it. -/
lemma symbolsFor_eq_nil (h : uuid ∉ files.map Prod.fst) : symbolsFor uuid files = [] := by
  unfold symbolsFor
  have hf : files.filter (·.1 == uuid) = [] := by
    rw [List.filter_eq_nil_iff]
    intro f hf heq
    exact h (List.mem_map.2 ⟨f, hf, by simpa using heq⟩)
  rw [hf, List.flatMap_nil]

/-- The entry of a UUID is the one that is there, or else a new one at the end. -/
lemma entryFor_cases {i : ℕ} {kcs : List KcsKc} (h : state.entryFor uuid = some (i, kcs)) :
    (kcs = state.kcs ∧ ∃ hi : i < state.kcs.length, state.kcs[i].uuid = uuid) ∨
      (uuid ∉ state.kcs.map KcsKc.uuid ∧ state.kcs.length + 1 < 2 ^ 32 ∧ i = state.kcs.length ∧
        kcs = state.kcs ++ [⟨uuid, []⟩]) := by
  rw [KcsState.entryFor] at h
  split at h
  · next j hj =>
    obtain ⟨rfl, rfl⟩ := Prod.mk.inj (Option.some.inj h)
    obtain ⟨hi, huuid, -⟩ := List.findIdx?_eq_some_iff_getElem.1 hj
    exact Or.inl ⟨rfl, hi, by simpa using huuid⟩
  · next hnone =>
    split_ifs at h with hlt
    obtain ⟨rfl, rfl⟩ := Prod.mk.inj (Option.some.inj h)
    refine Or.inr ⟨fun hmem => ?_, hlt, rfl, rfl⟩
    obtain ⟨kc, hkc, hu⟩ := List.mem_map.1 hmem
    exact absurd (List.findIdx?_eq_none_iff.1 hnone kc hkc) (by simp [hu])

/-- Allocating an entry is adding a file that has no symbols. -/
lemma entryFor_spec {i : ℕ} {kcs : List KcsKc} (hs : state.Holds files)
    (h : state.entryFor uuid = some (i, kcs)) :
    ({ state with kcs := kcs } : KcsState).Holds (files ++ [(uuid, [])]) ∧
      ∃ hi : i < kcs.length, kcs[i].uuid = uuid := by
  have hsame (u : Uuid) : symbolsFor u (files ++ [(uuid, [])]) = symbolsFor u files := by
    rw [symbolsFor_append_singleton, ite_self, List.append_nil]
  rcases entryFor_cases h with ⟨rfl, hi, huuid⟩ | ⟨hnew, -, rfl, rfl⟩
  · refine ⟨⟨hs.nodup, fun u => ?_, fun kc hkc => ?_, hs.le_max, hs.max_le, hs.closed⟩, hi, huuid⟩
    · have hmem : uuid ∈ files.map Prod.fst :=
        (hs.mem_uuid uuid).1 (List.mem_map.2 ⟨_, List.getElem_mem hi, huuid⟩)
      rw [hs.mem_uuid u, List.map_append, List.mem_append]
      constructor
      · exact Or.inl
      · rintro (hu | hu)
        · exact hu
        · obtain rfl : u = uuid := by simpa using hu
          exact hmem
    · rw [hsame]
      exact hs.records kc hkc
  · have hfiles : uuid ∉ files.map Prod.fst := fun hmem => hnew ((hs.mem_uuid uuid).2 hmem)
    refine ⟨⟨?_, fun u => ?_, ?_, ?_, ?_, hs.closed⟩, by simp, by simp⟩
    · rw [List.map_append, List.map_singleton]
      exact List.nodup_append'.2 ⟨hs.nodup, by simp, by simpa using hnew⟩
    · rw [List.map_append, List.mem_append, hs.mem_uuid u, List.map_append, List.mem_append]
      simp
    · intro kc hkc
      rw [hsame]
      rcases List.mem_append.1 hkc with hkc | hkc
      · exact hs.records kc hkc
      · obtain rfl : kc = ⟨uuid, []⟩ := by simpa using hkc
        rw [symbolsFor_eq_nil hfiles]
        exact .nil
    · intro kc hkc
      rcases List.mem_append.1 hkc with hkc | hkc
      · exact hs.le_max kc hkc
      · obtain rfl : kc = ⟨uuid, []⟩ := by simpa using hkc
        exact Nat.zero_le _
    · rcases hs.max_le with h0 | ⟨kc, hkc, hle⟩
      · exact Or.inl h0
      · exact Or.inr ⟨kc, by simp [hkc], hle⟩

lemma forall₂_append {α β : Type*} {R : α → β → Prop} {l₁ l₂ : List α} {m₁ m₂ : List β}
    (h₁ : List.Forall₂ R l₁ m₁) (h₂ : List.Forall₂ R l₂ m₂) :
    List.Forall₂ R (l₁ ++ l₂) (m₁ ++ m₂) :=
  List.rel_append h₁ h₂

/-- One more file, while the pool has offsets of 32 bits. -/
lemma addFile_holds (hs : state.Holds files) (hvalid : ∀ s ∈ f.2, ValidSymbol s)
    (h : state.addFile f = some state') (hlen : state'.symstr.length < 2 ^ 32) :
    state'.Holds (files ++ [f]) := by
  obtain ⟨uuid, syms⟩ := f
  simp only [KcsState.addFile, Option.bind_eq_bind, Option.bind_eq_some_iff, Prod.exists,
    Option.pure_def, Option.some.injEq] at h
  obtain ⟨i, kcs, hentry, kc', symstr', hins, rfl⟩ := h
  obtain ⟨hs₁, hi, huuid⟩ := entryFor_spec hs hentry
  rw [List.getElem?_eq_getElem hi, Option.getD_some] at hins
  have hprefix := prefix_of_insertSymbols hins
  obtain ⟨hclosed, huuid', added, hsyms, hrec⟩ := insertSymbols_spec hvalid hins hlen hs.closed
  have hmap : (kcs.set i kc').map KcsKc.uuid = kcs.map KcsKc.uuid := by
    rw [List.map_set, huuid', ← List.map_set, List.set_getElem_self hi]
  refine ⟨?_, fun u => ?_, fun kc hkc => ?_, fun kc hkc => ?_, ?_, hclosed⟩
  · rw [KcsState.putEntry, hmap]
    exact hs₁.nodup
  · rw [KcsState.putEntry, hmap]
    simpa using hs₁.mem_uuid u
  · obtain ⟨j, hj, rfl⟩ := List.getElem_of_mem hkc
    simp only [KcsState.putEntry, List.length_set] at hj
    have hold := hs₁.records _ (List.getElem_mem hj)
    simp only [KcsState.putEntry, List.getElem_set]
    rw [symbolsFor_append_singleton, ite_self, List.append_nil] at hold
    split_ifs with hij
    · subst hij
      rw [symbolsFor_append_singleton, huuid', if_pos huuid.symm, hsyms]
      exact forall₂_append (hold.imp fun _ _ hr => hr.mono hprefix) hrec
    · have hne : kcs[j].uuid ≠ uuid := by
        intro heq
        have hi' : i < (kcs.map KcsKc.uuid).length := by simpa using hi
        have hj' : j < (kcs.map KcsKc.uuid).length := by simpa using hj
        have hget : (kcs.map KcsKc.uuid)[i] = (kcs.map KcsKc.uuid)[j] := by
          rw [List.getElem_map, List.getElem_map, huuid, heq]
        exact hij (hs₁.nodup.getElem_inj_iff.1 hget)
      rw [symbolsFor_append_singleton, if_neg (Ne.symm hne), List.append_nil]
      exact hold.imp fun _ _ hr => hr.mono hprefix
  · rcases List.mem_or_eq_of_mem_set hkc with hkc | rfl
    · exact (hs₁.le_max kc hkc).trans (le_max_left _ _)
    · exact le_max_right _ _
  · have hmem : kc' ∈ kcs.set i kc' := List.mem_set hi kc'
    rcases Nat.le_total state.maxsymcnt kc'.syms.length with hle | hle
    · exact Or.inr ⟨kc', hmem, by simp [KcsState.putEntry, hle]⟩
    · have hmax : max state.maxsymcnt kc'.syms.length = state.maxsymcnt := max_eq_left hle
      simp only [KcsState.putEntry, hmax]
      rcases hs₁.max_le with h0 | ⟨kc, hkc, hle'⟩
      · exact Or.inl h0
      · obtain ⟨j, hj, rfl⟩ := List.getElem_of_mem hkc
        by_cases hij : i = j
        · subst hij
          refine Or.inr ⟨kc', hmem, ?_⟩
          rw [hsyms, List.length_append]
          exact hle'.trans (Nat.le_add_right _ _)
        · refine Or.inr ⟨kcs[j], ?_, hle'⟩
          rw [← List.getElem_set_ne hij (a := kc') (by simpa using hj)]
          exact List.getElem_mem _

lemma prefix_of_addFile (h : state.addFile f = some state') : state.symstr <+: state'.symstr := by
  simp only [KcsState.addFile, Option.bind_eq_bind, Option.bind_eq_some_iff, Prod.exists,
    Option.pure_def, Option.some.injEq] at h
  obtain ⟨i, kcs, -, kc', symstr', hins, rfl⟩ := h
  exact prefix_of_insertSymbols hins

/-- All files, while the pool has offsets of 32 bits. -/
lemma addFiles_holds (hvalid : ∀ f ∈ files, ∀ s ∈ f.2, ValidSymbol s)
    (h : files.foldlM KcsState.addFile .initial = some state)
    (hlen : state.symstr.length < 2 ^ 32) : state.Holds files := by
  induction files using List.reverseRecOn generalizing state with
  | nil =>
    obtain rfl : KcsState.initial = state := Option.some.inj h
    exact holds_initial
  | append_singleton files f ih =>
    rw [List.foldlM_append] at h
    obtain ⟨state₁, h₁, h₂⟩ := Option.bind_eq_some_iff.1 h
    replace h₂ : state₁.addFile f = some state := by simpa using h₂
    have hle := (prefix_of_addFile h₂).length_le
    have hs₁ : state₁.Holds files :=
      ih (fun f' hf' => hvalid f' (by simp [hf'])) h₁ (by omega)
    exact addFile_holds hs₁ (hvalid f (by simp)) h₂ hlen

/-- What is collected from the directories holds the symbols of the files in them. -/
lemma collectSymbols_holds {dirs : List (Option (List Dirent))} (h : collectSymbols dirs = some state)
    (hlen : state.symstr.length < 2 ^ 32) : state.Holds (parsedFiles dirs) := by
  rw [collectSymbols_eq] at h
  exact addFiles_holds validSymbol_of_parsedFiles h hlen

end VulnerableKext.Host

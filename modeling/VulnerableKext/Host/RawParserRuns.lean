import VulnerableKext.Host.RawParserBounds
import VulnerableKext.Host.SymbolsFileRender

/-!
# The text parser stays in the file

Both parsers and the loop over the symbols, on top of what the helpers do.  The parser over
memory computes what the parser on the bytes of the file does, and each of its loops moves
the cursor forward.
-/

namespace VulnerableKext.Host.Raw

open Memory Total TextParser

/-! ## The header -/

section Header

variable {m : Mem} {start n : ℕ} {tp : RawParser} {fuel : ℕ}

lemma ends_uuidByte (i : ℕ) (h : Inside start n tp) :
    Ends (uuidByte m i) tp
      (Result m start n ((Host.tpHexByte (view m start n tp.p)).bind fun x =>
        (tpUuidSep i x.2).bind fun t => some (x.1, t))) := by
  refine ends_bind_result (ends_tpHexByte h) rfl fun b t tp₁ _ h₁ => ?_
  rw [tpUuidSep]
  refine Ends.ite (fun hsep => ?_) fun hsep => ?_
  · rw [if_pos hsep]
    refine ends_bind_test (h₁.2 ▸ ends_tpMatch_test h₁.1 _) fun t' tp₂ _ h₂ => ?_
    exact ends_pure ⟨rfl, h₂⟩
  · rw [if_neg hsep]
    exact ends_pure ⟨rfl, h₁⟩

lemma ends_parseUuidBytes (k i : ℕ) (h : Inside start n tp) :
    Ends (parseUuidBytes m k i) tp
      (Result m start n (Host.parseUuidBytes k i (view m start n tp.p))) := by
  induction k generalizing i tp with
  | zero => exact ends_pure ⟨rfl, h.at⟩
  | succ k ih =>
    have hassoc : Host.parseUuidBytes (k + 1) i (view m start n tp.p) =
        ((Host.tpHexByte (view m start n tp.p)).bind fun x =>
          (tpUuidSep i x.2).bind fun t => some (x.1, t)).bind fun x =>
            (Host.parseUuidBytes k (i + 1) x.2).bind fun y => some (x.1 ::ᵥ y.1, y.2) := by
      simp only [Host.parseUuidBytes, Option.bind_eq_bind, Option.bind_assoc, Option.bind_some]
      rfl
    rw [hassoc]
    refine ends_bind_result (ends_uuidByte i h) rfl fun b t tp₁ _ h₁ => ?_
    refine ends_bind_result (h₁.2 ▸ ih (i + 1) h₁.1) rfl fun u t' tp₂ _ h₂ => ?_
    exact ends_pure ⟨rfl, h₂⟩

lemma parseDirectives_of_match {t t' : TextParser}
    (h : Host.tpMatch (Host.tpComments t) (ascii "DEVICE:") = some t') :
    parseDirectives t = parseDirectives (Host.tpNextLine t') := by
  rw [parseDirectives]
  split
  · next t'' h'' => rw [Option.some.inj (h.symm.trans h'')]
  · next hnone => cases h.symm.trans hnone

lemma parseDirectives_of_no_match {t : TextParser}
    (h : Host.tpMatch (Host.tpComments t) (ascii "DEVICE:") = none) :
    parseDirectives t = Host.tpMatch (Host.tpComments t) (ascii "\n") := by
  rw [parseDirectives]
  split
  · next t'' h'' => cases h.symm.trans h''
  · rfl

/-- A directive takes the cursor to the next line. -/
lemma lt_p_of_directive {t t' : TextParser}
    (h : Host.tpMatch (Host.tpComments t) (ascii "DEVICE:") = some t') :
    t.p < (Host.tpNextLine t').p := by
  have hcomments : t.p ≤ (Host.tpComments t).p := le_p_tpSkipLines _ t
  have hmatch := (tpMatch_p h).2
  have hnext := lt_p_tpNextLine t'
  omega

/-- Behind a match the cursor is not past the end. -/
lemma At.p_le_of_match {t t' : TextParser} {str : List UInt8} (h : At m start n t' tp)
    (ht : t.data.length = n) (hm : Host.tpMatch t str = some t') : tp.p ≤ start + n := by
  rw [Host.tpMatch] at hm
  split_ifs at hm with hc
  obtain rfl := Option.some.inj hm
  have hp := h.p_eq
  rw [p_advance] at hp
  omega

lemma ends_directivesIteration (h : Inside start n tp) (hfuel : n + 1 < fuel) :
    Ends (directivesIteration m fuel ()) tp fun r tp' =>
      (∀ b, r = .next b → ∃ t,
        Host.tpMatch (Host.tpComments (view m start n tp.p)) (ascii "DEVICE:") = some t ∧
        At m start n (Host.tpNextLine t) tp') ∧
      ∀ ok, r = .exit ok →
        Host.tpMatch (Host.tpComments (view m start n tp.p)) (ascii "DEVICE:") = none ∧
        TestResult m start n (parseDirectives (view m start n tp.p)) ok tp' := by
  have hdata : (Host.tpComments (view m start n tp.p)).data.length = n := by
    rw [Host.tpComments, data_tpSkipLines]
    exact length_fileBytes
  refine (ends_tpComments h hfuel).bind ?_
  intro _ tp₁ h₁
  refine Ends.bind (h₁.2 ▸ ends_tpMatch h₁.1 _) ?_
  rintro b tp₂ ⟨hb, h₂⟩
  rcases hm : Host.tpMatch (Host.tpComments (view m start n tp.p)) (ascii "DEVICE:") with _ | t
  · rw [hm] at hb h₂
    subst hb
    rw [parseDirectives_of_no_match hm]
    refine Ends.bind (h₂.2 ▸ ends_tpMatch_test h₂.1 _) ?_
    intro ok tp₃ h₃
    exact ends_exit ⟨rfl, h₃⟩
  · rw [hm] at hb h₂
    subst hb
    rw [Option.getD_some] at h₂
    refine Ends.bind (h₂.2 ▸ ends_tpNextLine h₂.1 (h₂.p_le_of_match hdata hm) (by omega)) ?_
    intro _ tp₃ h₃
    exact ends_next ⟨t, rfl, h₃⟩

lemma ends_directives (h : Inside start n tp) (hfuel : n + 1 < fuel) :
    Ends (loop (directivesIteration m fuel) fuel ()) tp
      (TestResult m start n (parseDirectives (view m start n tp.p))) := by
  have hle := h.start_le
  refine ends_loop (fun _ s => Inside start n s ∧
    parseDirectives (view m start n s.p) = parseDirectives (view m start n tp.p))
    (fun _ s => start + n + 1 - s.p) ?_ ⟨h, rfl⟩ (by omega)
  rintro _ s ⟨hs, heq⟩
  refine (ends_directivesIteration hs hfuel).mono ?_
  rintro r s' ⟨hnext, hexit⟩
  constructor
  · rintro b rfl
    obtain ⟨t, hm, hs'⟩ := hnext b rfl
    have hmove := At.lt_of_lt hs hs' (lt_p_of_directive hm)
    have hend := hs'.1.p_le
    exact ⟨⟨hs'.1, by rw [hs'.2, ← parseDirectives_of_match hm, heq]⟩, by omega⟩
  · rintro ok rfl
    exact heq ▸ (hexit ok rfl).2

lemma ends_parseKernelcacheSymbolsHeader (h : Inside start n tp) (hfuel : n + 1 < fuel) :
    Ends (parseKernelcacheSymbolsHeader m fuel) tp
      (Result m start n (Host.parseKernelcacheSymbolsHeader (view m start n tp.p))) := by
  refine (ends_tpComments h hfuel).bind ?_
  intro _ tp₁ h₁
  refine ends_bind_test (h₁.2 ▸ ends_tpMatch_test h₁.1 _) fun t tp₂ _ h₂ => ?_
  refine Ends.bind (h₂.2 ▸ ends_tpSpace h₂.1 (by omega)) ?_
  rintro _ tp₃ ⟨-, h₃⟩
  have huuid : Ends (parseUuidBytes m 16 0) tp₃
      (Result m start n (Host.parseUuidBytes 16 0 (Host.tpSpace t).2)) :=
    h₃.2 ▸ ends_parseUuidBytes 16 0 h₃.1
  refine ends_bind_result huuid rfl fun uuid t' tp₄ _ h₄ => ?_
  refine ends_bind_test (h₄.2 ▸ ends_directives h₄.1 hfuel) fun t'' tp₅ _ h₅ => ?_
  exact ends_pure ⟨rfl, h₅⟩

end Header

/-! ## The symbols -/

section Symbols

variable {m : Mem} {start n : ℕ} {tp : RawParser} {fuel : ℕ}

lemma ends_tpLineEnd (h : Inside start n tp) :
    Ends (do if ← tpEnd then return true else tpMatch m (ascii "\n")) tp
      (TestResult m start n (tpLineEnd (view m start n tp.p))) := by
  refine (ends_tpEnd (m := m) h).bind ?_
  rintro b tp₁ ⟨rfl, rfl⟩
  rw [tpLineEnd]
  refine Ends.ite (fun hend => ?_) fun hend => ?_
  · rw [if_pos hend]
    refine ends_pure ⟨rfl, h, fun t ht => ?_⟩
    obtain rfl := Option.some.inj ht
    exact h.at
  · rw [if_neg hend]
    exact ends_tpMatch_test h _

lemma ends_parseKernelcacheSymbolsSymbol (h : Inside start n tp) (hfuel : n + 1 < fuel) :
    Ends (parseKernelcacheSymbolsSymbol m fuel) tp
      (Result m start n (Host.parseKernelcacheSymbolsSymbol (view m start n tp.p))) := by
  have hskip : n < fuel := by omega
  refine (ends_tpCommentsOrEmpty h hfuel).bind ?_
  intro _ tp₁ h₁
  refine (ends_tpEnd (m := m) h₁.1).bind ?_
  rintro b tp₂ ⟨rfl, rfl⟩
  rw [Host.parseKernelcacheSymbolsSymbol, h₁.2]
  refine Ends.ite (fun hend => ?_) fun hend => ?_
  · simp only [hend, if_true]
    exact ends_pure ⟨rfl, h₁⟩
  simp only [hend, Option.bind_eq_bind, Bool.false_eq_true, if_false, Bool.not_eq_true']
  -- the name stays in the file until it is copied
  refine (ends_tpIdent h₁.1 hskip).bind ?_
  intro r tp₃ h₃
  rw [h₁.2] at h₃
  rcases hi : Host.tpIdent (Host.tpCommentsOrEmpty (view m start n tp.p)) with _ | ⟨s, t⟩
  · rw [hi, Option.map_none] at h₃
    obtain ⟨rfl, hin⟩ := h₃
    exact ends_pure ⟨rfl, hin⟩
  rw [hi, Option.map_some] at h₃
  obtain ⟨rfl, hat⟩ := h₃
  have hname : NameAt m start n tp₂.p s := nameAt_of_tpIdent h₁.1.start_le (h₁.2 ▸ hi)
  rw [Option.bind_some]
  refine Ends.bind (hat.2 ▸ ends_tpSpace hat.1 hskip) ?_
  rintro _ tp₄ ⟨rfl, h₄⟩
  refine Ends.ite (fun hsp => ?_) fun hsp => ?_
  swap
  · rw [if_pos (Bool.not_eq_true _ ▸ hsp)]
    exact ends_pure ⟨rfl, h₄.1⟩
  rw [if_neg (Bool.not_eq_false _ ▸ hsp)]
  have hnum : Ends (tpHexU64 m) tp₄ (Result m start n (Host.tpHexU64 (Host.tpSpace t).2)) :=
    (h₄.2 ▸ ends_tpHexU64 h₄.1).mono fun _ _ hr => hr.1
  refine ends_bind_result hnum rfl fun address t' tp₅ _ h₅ => ?_
  refine Ends.bind (h₅.2 ▸ ends_tpSpace h₅.1 hskip) ?_
  rintro _ tp₆ ⟨-, h₆⟩
  refine Ends.bind (h₆.2 ▸ ends_tpLineComment h₆.1 hskip) ?_
  intro _ tp₇ h₇
  refine ends_bind_test (h₇.2 ▸ ends_tpLineEnd h₇.1) fun t'' tp₈ _ h₈ => ?_
  refine (ends_strndup h₈.1 hname).bind ?_
  rintro _ tp₉ ⟨rfl, h₉, hp₉⟩
  exact ends_pure ⟨rfl, h₉, by rw [hp₉]; exact h₈.2⟩

lemma parseSymbols_none {t : TextParser} (h : Host.parseKernelcacheSymbolsSymbol t = none) :
    Host.parseSymbols t = ([], false) := by
  rw [Host.parseSymbols]
  split
  · rfl
  · next hend => cases h.symm.trans hend
  · next hs => cases h.symm.trans hs

lemma parseSymbols_some_none {t t' : TextParser}
    (h : Host.parseKernelcacheSymbolsSymbol t = some (none, t')) :
    Host.parseSymbols t = ([], true) := by
  rw [Host.parseSymbols]
  split
  · next hnone => cases h.symm.trans hnone
  · rfl
  · next hs => cases h.symm.trans hs

lemma ends_symbolIteration (syms : List Symbol) (h : Inside start n tp) (hfuel : n + 1 < fuel) :
    Ends (symbolIteration m fuel syms) tp fun r tp' =>
      (∀ syms', r = .next syms' → ∃ s t,
        Host.parseKernelcacheSymbolsSymbol (view m start n tp.p) = some (some s, t) ∧
        syms' = syms ++ [s] ∧ At m start n t tp') ∧
      ∀ c, r = .exit c → Inside start n tp' ∧
        Host.parseSymbols (view m start n tp.p) = ([], c.2) ∧ c.1 = syms := by
  refine (ends_parseKernelcacheSymbolsSymbol h hfuel).bind ?_
  intro r tp₁ h₁
  rcases hs : Host.parseKernelcacheSymbolsSymbol (view m start n tp.p) with _ | ⟨_ | s, t⟩
  · rw [hs] at h₁
    obtain ⟨rfl, hin⟩ := h₁
    exact ends_exit ⟨hin, parseSymbols_none hs, rfl⟩
  · rw [hs] at h₁
    obtain ⟨rfl, hat⟩ := h₁
    exact ends_exit ⟨hat.1, parseSymbols_some_none hs, rfl⟩
  · rw [hs] at h₁
    obtain ⟨rfl, hat⟩ := h₁
    exact ends_next ⟨s, t, rfl, rfl, hat⟩

lemma ends_parseSymbols (h : Inside start n tp) (hfuel : n + 1 < fuel) :
    Ends (parseSymbols m fuel) tp fun r tp' =>
      r = Host.parseSymbols (view m start n tp.p) ∧ Inside start n tp' := by
  have hle := h.start_le
  refine ends_loop (fun syms s => Inside start n s ∧
    (syms ++ (Host.parseSymbols (view m start n s.p)).1,
      (Host.parseSymbols (view m start n s.p)).2) = Host.parseSymbols (view m start n tp.p))
    (fun _ s => start + n + 1 - s.p) ?_ ⟨h, rfl⟩ (by omega)
  rintro syms s ⟨hs, heq⟩
  refine (ends_symbolIteration syms hs hfuel).mono ?_
  rintro r s' ⟨hnext, hexit⟩
  constructor
  · rintro syms' rfl
    obtain ⟨x, t, hsym, rfl, hs'⟩ := hnext syms' rfl
    have hmove := At.lt_of_lt hs hs' (lt_p_of_parseSymbol hsym).2.2
    have hend := hs'.1.p_le
    refine ⟨⟨hs'.1, ?_⟩, by omega⟩
    rw [hs'.2, ← heq, parseSymbols_cons hsym, List.append_assoc, List.singleton_append]
  · rintro ⟨syms', ok⟩ rfl
    obtain ⟨hs', hstop, rfl⟩ := hexit _ rfl
    rw [hstop, List.append_nil] at heq
    exact ⟨heq, hs'⟩

end Symbols

/-! ## The whole file -/

section Whole

variable {m : Mem} {start n : ℕ} {fuel : ℕ}

/-- The parser as it is set up for a file. -/
def openFile (start n : ℕ) : RawParser :=
  { p := start, e := start + n, reads := [], cursors := [start] }

lemma inside_openFile : Inside start n (openFile start n) where
  e_eq := rfl
  start_le := le_rfl
  p_le := by
    change start ≤ _
    omega
  reads := fun a ha => absurd ha List.not_mem_nil
  cursors := by
    intro q hq
    obtain rfl := List.mem_singleton.1 hq
    omega

/-- The parser over memory computes what the parser on the bytes of the file does. -/
theorem parseSymbolsFile_refines (hfuel : n + 1 < fuel) :
    Ends (parseSymbolsFile m fuel) (openFile start n) fun r tp' =>
      r = Host.parseSymbolsFile (fileBytes m start n) ∧ Inside start n tp' := by
  have hview : view m start n (openFile start n).p = ⟨fileBytes m start n, 0⟩ := by
    rw [view, openFile, Nat.sub_self]
  refine (ends_parseKernelcacheSymbolsHeader inside_openFile hfuel).bind ?_
  intro r tp₁ h₁
  rw [hview] at h₁
  rw [Host.parseSymbolsFile]
  rcases hh : Host.parseKernelcacheSymbolsHeader ⟨fileBytes m start n, 0⟩ with _ | ⟨uuid, t⟩
  · rw [hh] at h₁
    obtain ⟨rfl, hin⟩ := h₁
    exact ends_pure ⟨rfl, hin⟩
  rw [hh] at h₁
  obtain ⟨rfl, hat⟩ := h₁
  refine Ends.bind (hat.2 ▸ ends_parseSymbols hat.1 hfuel) ?_
  rintro _ tp₂ ⟨rfl, h₂⟩
  simp only [Option.bind_eq_bind, Option.bind_some]
  refine Ends.ite (fun hok => ?_) fun hok => ?_
  · rw [if_pos hok]
    exact ends_pure ⟨rfl, h₂⟩
  · rw [if_neg hok]
    exact ends_pure ⟨rfl, h₂⟩

/-- The parser comes to its end, reads bytes of the file only, and returns what is written in the file,
if it is a symbol file. -/
theorem rawParser_accepts_grammar (m : Mem) (start : ℕ) (hfuel : n + 1 < fuel) :
    ∃ r tp, parseSymbolsFile m fuel (openFile start n) = some (r, tp) ∧
      (∀ a ∈ tp.reads, start ≤ a ∧ a < start + n) ∧
      ∀ uuid syms, r = some (uuid, syms) ↔ fileBytes m start n ∈ Grammar.SymbolsFile uuid syms := by
  obtain ⟨r, tp, hrun, rfl, hin⟩ :
      ∃ r tp, parseSymbolsFile m fuel (openFile start n) = some (r, tp) ∧ _ ∧ _ :=
    parseSymbolsFile_refines hfuel
  exact ⟨_, tp, hrun, hin.reads, fun uuid syms => parseSymbolsFile_eq_some_iff⟩

/-- A symbol file with bytes before it and behind it that are not part of it. -/
theorem rawParser_accepts_grammar_memset :
    let text := renderSymbolsFile [] (List.Vector.replicate 16 0xed)
      [(ascii "_memset", 0xfffffff00820b780)]
    ∃ tp, parseSymbolsFile (fun a => text.getD (a - 0x1000) 0x23) (text.length + 2)
      (openFile 0x1000 text.length) = some (some (List.Vector.replicate 16 0xed,
        [(ascii "_memset", 0xfffffff00820b780)]), tp) := by
  intro text
  obtain ⟨r, tp, hrun, -, hiff⟩ := rawParser_accepts_grammar (n := text.length)
    (fun a => text.getD (a - 0x1000) 0x23) 0x1000 (Nat.lt_succ_self (text.length + 1))
  have hname : ascii "_memset" ≠ [] ∧ ∀ c ∈ ascii "_memset", isIdent c = true := by decide +kernel
  have hbytes : fileBytes (fun a => text.getD (a - 0x1000) 0x23) 0x1000 text.length = text := by
    refine List.ext_getElem (by simp [fileBytes]) fun i hi hi' => ?_
    simp only [fileBytes, List.getElem_map, List.getElem_range, Nat.add_sub_cancel_left]
    exact List.getD_eq_getElem _ _ hi'
  have htext : text ∈ Grammar.SymbolsFile (List.Vector.replicate 16 0xed)
      [(ascii "_memset", 0xfffffff00820b780)] := by
    refine renderSymbolsFile_mem (by simp) fun s hs => ?_
    rw [List.mem_singleton.1 hs]
    exact ⟨hname, by norm_num⟩
  rw [← hbytes, ← hiff] at htext
  exact ⟨tp, htext ▸ hrun⟩

end Whole

/-! ## Progress -/

section Progress

variable {m : Mem} {start n : ℕ} {fuel : ℕ} {α β γ : Type}

/-- From every state with the cursor in the file or one past its end, this part of the parser
comes to its end there, and reads bytes of the file only. -/
def StaysInside (start n : ℕ) (x : Parse α) : Prop :=
  ∀ tp, Inside start n tp → Ends x tp fun _ tp' => Inside start n tp'

/-- An iteration that does not leave the loop moves the cursor forward. -/
def Advances (start n : ℕ) (body : β → Parse (Iteration β γ)) : Prop :=
  ∀ b b' tp tp', Inside start n tp → body b tp = some (.next b', tp') → tp.p < tp'.p

/-- Every part of the text parser comes to its end and stays in the file. -/
structure TerminatesInside (m : Mem) (start n fuel : ℕ) : Prop where
  file : Ends (parseSymbolsFile m fuel) (openFile start n) fun _ tp => Inside start n tp
  header : StaysInside start n (parseKernelcacheSymbolsHeader m fuel)
  symbols : StaysInside start n (parseSymbols m fuel)
  symbol : StaysInside start n (parseKernelcacheSymbolsSymbol m fuel)
  atEnd : StaysInside start n tpEnd
  /-- The one helper that must not be called one past the end. -/
  nextLine : ∀ tp, Inside start n tp → tp.p ≤ start + n →
    Ends (tpNextLine m fuel) tp fun _ tp' => Inside start n tp'
  space : StaysInside start n (tpSpace m fuel)
  lineComment : StaysInside start n (tpLineComment m fuel)
  comments : StaysInside start n (tpComments m fuel)
  commentsOrEmpty : StaysInside start n (tpCommentsOrEmpty m fuel)
  isMatch : ∀ str, StaysInside start n (tpMatch m str)
  ident : StaysInside start n (tpIdent m fuel)
  hexByte : StaysInside start n (tpHexByte m)
  hexU64 : StaysInside start n (tpHexU64 m)

/-- Every loop of the text parser moves the cursor forward; the cursor of the loop over an
identifier is a pointer of its own. -/
structure MovesForward (m : Mem) (start n fuel : ℕ) : Prop where
  skip : ∀ f, Advances start n (skipIteration m f)
  space : Advances start n (spaceIteration m)
  lines : ∀ f, Advances start n (linesIteration m fuel f)
  ident : ∀ q q' tp tp', Inside start n tp → start ≤ q →
    identIteration m q tp = some (.next q', tp') → q < q'
  hexBytes : ∀ b tp tp', Inside start n tp → tpHexByte m tp = some (some b, tp') → tp.p < tp'.p
  uuid : ∀ i b tp tp', Inside start n tp → uuidByte m i tp = some (some b, tp') → tp.p < tp'.p
  directives : Advances start n (directivesIteration m fuel)
  symbols : Advances start n (symbolIteration m fuel)

lemma staysInside_of_result {x : Parse (Option α)} {o : RawParser → Option (α × TextParser)}
    (h : ∀ tp, Inside start n tp → Ends x tp (Result m start n (o tp))) :
    StaysInside start n x :=
  fun tp hin => (h tp hin).mono fun _ _ hr => hr.inside

lemma staysInside_of_at {x : Parse α} {t : RawParser → TextParser}
    (h : ∀ tp, Inside start n tp → Ends x tp fun _ tp' => At m start n (t tp) tp') :
    StaysInside start n x :=
  fun tp hin => (h tp hin).mono fun _ _ hat => hat.1

lemma terminatesInside (hfuel : n + 1 < fuel) : TerminatesInside m start n fuel where
  file := (parseSymbolsFile_refines hfuel).mono fun _ _ h => h.2
  header := staysInside_of_result fun _ h => ends_parseKernelcacheSymbolsHeader h hfuel
  symbols := fun _ h => (ends_parseSymbols h hfuel).mono fun _ _ hr => hr.2
  symbol := staysInside_of_result fun _ h => ends_parseKernelcacheSymbolsSymbol h hfuel
  atEnd := by
    intro tp h
    refine (ends_tpEnd (m := m) h).mono ?_
    rintro _ _ ⟨rfl, -⟩
    exact h
  nextLine := fun _ h hp => (ends_tpNextLine h hp (by omega)).mono fun _ _ hat => hat.1
  space := fun _ h => (ends_tpSpace h (by omega)).mono fun _ _ hr => hr.2.1
  lineComment := staysInside_of_at fun _ h => ends_tpLineComment h (by omega)
  comments := staysInside_of_at fun _ h => ends_tpComments h hfuel
  commentsOrEmpty := staysInside_of_at fun _ h => ends_tpCommentsOrEmpty h hfuel
  isMatch := fun str _ h => (ends_tpMatch h str).mono fun _ _ hr => hr.2.1
  ident := staysInside_of_result fun _ h => ends_tpIdent h (by omega)
  hexByte := staysInside_of_result fun _ h => ends_tpHexByte h
  hexU64 := fun _ h => (ends_tpHexU64 h).mono fun _ _ hr => hr.1.inside

lemma advances_of_ends {body : β → Parse (Iteration β γ)}
    (h : ∀ b tp, Inside start n tp →
      Ends (body b) tp fun r tp' => ∀ b', r = .next b' → tp.p < tp'.p) :
    Advances start n body :=
  fun b b' tp _ hin hrun => (h b tp hin).of_eq hrun b' rfl

/-- The cursor behind a value is the one that the parser on the bytes of the file has. -/
lemma At.lt_of_result {x : Parse (Option α)} {o : Option (α × TextParser)} {a : α}
    {tp tp' : RawParser} (h : Inside start n tp) (hx : Ends x tp (Result m start n o))
    (hrun : x tp = some (some a, tp'))
    (hlt : ∀ t, o = some (a, t) → (view m start n tp.p).p < t.p) : tp.p < tp'.p := by
  have hr := hx.of_eq hrun
  rcases o with _ | ⟨a', t⟩
  · cases hr.1
  · obtain ⟨ha, hat⟩ := hr
    obtain rfl := Option.some.inj ha
    exact At.lt_of_lt h hat (hlt t rfl)

lemma le_p_of_tpUuidSep {i : ℕ} {t t' : TextParser} (h : tpUuidSep i t = some t') :
    t.p ≤ t'.p := by
  rw [tpUuidSep] at h
  split_ifs at h
  · have hp := (tpMatch_p h).2
    omega
  · have hp := (tpMatch_p h).2
    omega
  · rw [Option.some.inj h]

lemma movesForward (hfuel : n + 1 < fuel) : MovesForward m start n fuel where
  skip := by
    intro f
    refine advances_of_ends fun _ tp h => (ends_skipIteration f h).mono ?_
    rintro r tp' ⟨hnext, -⟩ b rfl
    have hp := (hnext b rfl).2.2
    omega
  space := by
    refine advances_of_ends fun skipped tp h => (ends_spaceIteration skipped h).mono ?_
    rintro r tp' ⟨hnext, -⟩ b rfl
    have hp := (hnext b rfl).2.2.1
    omega
  lines := by
    intro f
    refine advances_of_ends fun _ tp h => (ends_linesIteration f h (by omega)).mono ?_
    rintro r tp' ⟨hnext, -⟩ b rfl
    exact At.lt_of_lt h (hnext b rfl).2 (lt_p_tpNextLine _)
  ident := by
    intro q q' tp tp' h hq hrun
    have hr := ((ends_identIteration h hq).of_eq hrun).1 q' rfl
    omega
  hexBytes := by
    intro b tp tp' h hrun
    refine At.lt_of_result h (ends_tpHexByte h) hrun fun t ht => ?_
    rw [tpHexByte_data ht, p_advance]
    omega
  uuid := by
    intro i b tp tp' h hrun
    refine At.lt_of_result h (ends_uuidByte i h) hrun fun t ht => ?_
    obtain ⟨⟨b', t'⟩, hb, ht⟩ := Option.bind_eq_some_iff.1 ht
    obtain ⟨t'', hsep, ht⟩ := Option.bind_eq_some_iff.1 ht
    obtain ⟨-, rfl⟩ := Prod.mk.inj (Option.some.inj ht)
    have hle := le_p_of_tpUuidSep hsep
    rw [tpHexByte_data hb, p_advance] at hle
    omega
  directives := by
    refine advances_of_ends fun _ tp h => (ends_directivesIteration h hfuel).mono ?_
    rintro r tp' ⟨hnext, -⟩ b rfl
    obtain ⟨t, hmatch, hat⟩ := hnext b rfl
    exact At.lt_of_lt h hat (lt_p_of_directive hmatch)
  symbols := by
    refine advances_of_ends fun syms tp h => (ends_symbolIteration syms h hfuel).mono ?_
    rintro r tp' ⟨hnext, -⟩ syms' rfl
    obtain ⟨s, t, hsym, -, hat⟩ := hnext syms' rfl
    exact At.lt_of_lt h hat (lt_p_of_parseSymbol hsym).2.2

/-- For every file, whatever its bytes are and whether or not it ends with a newline, the text
parser comes to its end, reads bytes of the file only, never has its cursor more than one past
the end, and moves it forward in every iteration that does not leave its loop. -/
theorem textParser_terminatesInside (m : Mem) (start n fuel : ℕ) (hfuel : n + 1 < fuel) :
    TerminatesInside m start n fuel ∧ MovesForward m start n fuel :=
  ⟨terminatesInside hfuel, movesForward hfuel⟩

/-- A symbol file with a `DEVICE` line and one symbol, whose last line is a comment without a
newline. -/
def commentedFile : List UInt8 :=
  ascii ("KERNELCACHE UUID: EDCDE691-7210-34F9-9A54-53FE25992E15\nDEVICE: iPhone10,3 17E262\n\n" ++
    "_panic 0xFFFFFFF0090BAA08\n# end")

/-- The symbol is found, and the last comment takes the cursor one past the end. -/
theorem textParser_terminatesInside_commented :
    let m : Mem := fun a => commentedFile.getD (a - 0x1000) 0x23
    (TerminatesInside m 0x1000 commentedFile.length (commentedFile.length + 2) ∧
      MovesForward m 0x1000 commentedFile.length (commentedFile.length + 2)) ∧
    (parseSymbolsFile m (commentedFile.length + 2) (openFile 0x1000 commentedFile.length)).map
      (fun r => (r.1.map fun e => e.2, r.2.p)) =
        some (some [(ascii "_panic", 0xfffffff0090baa08)], 0x1000 + commentedFile.length + 1) := by
  intro m
  exact ⟨textParser_terminatesInside m 0x1000 commentedFile.length _ (by omega),
    by decide +kernel⟩

end Progress

end VulnerableKext.Host.Raw

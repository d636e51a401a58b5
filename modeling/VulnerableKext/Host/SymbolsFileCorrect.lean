import VulnerableKext.Host.TextParserSpec

/-!
# The reader accepts exactly the grammar

The loops of the header and of the body follow by induction on the run of the
reader in one direction and on the lines or the derivation in the other.
-/

namespace VulnerableKext.Host

open TextParser Grammar Computability

variable {tp tp' : TextParser} {l w : List UInt8}

/-! ## The UUID -/

lemma tpUuidSep_sound {i : ℕ} (h : tpUuidSep i tp = some tp') :
    tp.rest = uuidSep (i + 1) ++ tp'.rest := by
  unfold tpUuidSep at h
  unfold uuidSep
  split_ifs at h with hc hlast
  · rw [if_neg (by omega), if_pos (by omega)]
    exact tpMatch_sound (by decide) h
  · rw [if_pos (by omega)]
    exact tpMatch_sound (by decide) h
  · cases h
    rw [if_neg (by omega), if_neg (by omega), List.nil_append]

lemma tpUuidSep_complete {i : ℕ} (h : tp.rest = uuidSep (i + 1) ++ l) :
    ∃ tp', tpUuidSep i tp = some tp' ∧ tp'.rest = l := by
  unfold tpUuidSep
  unfold uuidSep at h
  split_ifs at h ⊢ <;> try omega
  · exact ⟨_, tpMatch_complete (by decide) h⟩
  · exact ⟨_, tpMatch_complete (by decide) h⟩
  · exact ⟨_, rfl, h⟩

lemma parseUuidBytes_sound {n i : ℕ} {u : List.Vector UInt8 n} (hi : i + n = 16)
    (h : parseUuidBytes n i tp = some (u, tp')) :
    ∃ w ∈ UuidText i u.toList, tp.rest = w ++ tp'.rest := by
  induction n generalizing i tp with
  | zero =>
    obtain ⟨rfl, rfl⟩ := Prod.mk.inj (Option.some.inj h)
    exact ⟨[], rfl, rfl⟩
  | succ n ih =>
    simp only [parseUuidBytes, Option.bind_eq_bind, Option.bind_eq_some_iff, Prod.exists,
      Option.pure_def, Option.some.injEq, Prod.mk.injEq] at h
    obtain ⟨b, tp₁, h₁, tp₂, h₂, u', tp₃, h₃, rfl, rfl⟩ := h
    obtain ⟨w₁, hw₁, hrest₁⟩ := tpHexByte_sound h₁
    obtain ⟨w₃, hw₃, hrest₃⟩ := ih (by omega) h₃
    refine ⟨w₁ ++ (uuidSep (i + 1) ++ w₃), ?_, by rw [hrest₁, tpUuidSep_sound h₂, hrest₃]; simp⟩
    rw [List.Vector.toList_cons, UuidText]
    exact Language.append_mem_mul hw₁ (Language.append_mem_mul rfl hw₃)

lemma parseUuidBytes_complete {n i : ℕ} {u : List.Vector UInt8 n} (hi : i + n = 16)
    (hw : w ∈ UuidText i u.toList) (h : tp.rest = w ++ l) :
    ∃ tp', parseUuidBytes n i tp = some (u, tp') ∧ tp'.rest = l := by
  induction n generalizing i tp w with
  | zero =>
    obtain rfl : u = List.Vector.nil := List.Vector.eq_nil u
    obtain rfl : w = [] := hw
    exact ⟨tp, rfl, h⟩
  | succ n ih =>
    obtain ⟨b, u', rfl⟩ : ∃ b u', u = b ::ᵥ u' := List.Vector.exists_eq_cons u
    rw [List.Vector.toList_cons, UuidText, Language.mem_mul] at hw
    obtain ⟨w₁, hw₁, w₂, hw₂, rfl⟩ := hw
    obtain ⟨w₂, rfl, w₃, hw₃, rfl⟩ := Language.mem_mul.1 hw₂
    obtain ⟨h₁, hrest₁⟩ := tpHexByte_complete (l := uuidSep (i + 1) ++ w₃ ++ l) hw₁ (by simpa using h)
    rw [List.append_assoc] at hrest₁
    obtain ⟨tp₂, h₂, hrest₂⟩ := tpUuidSep_complete hrest₁
    obtain ⟨tp₃, h₃, hrest₃⟩ := ih (by omega) hw₃ hrest₂
    refine ⟨tp₃, ?_, hrest₃⟩
    simp [parseUuidBytes, h₁, h₂, h₃]

/-! ## The directives -/

lemma not_device_of_newline : ¬ ascii "DEVICE:" <+: chr '\n' :: l := by
  intro h
  obtain ⟨t, ht⟩ := h
  have hhead := congrArg List.head? ht
  exact absurd hhead (by simp [ascii])

lemma head?_any_newline : (chr '\n' :: l).head?.any (· == chr '#') = false := by
  simp

/-- The directives depend on the cursor only through the comments in front of them. -/
lemma parseDirectives_congr (h : tpComments tp = tpComments tp') :
    parseDirectives tp = parseDirectives tp' := by
  rw [parseDirectives, parseDirectives, h]

/-- Comments in front of something else. -/
lemma tpComments_sound (h : (tpComments tp).rest ≠ []) :
    ∃ L : List (List UInt8), (∀ w ∈ L, w ∈ CommentLine) ∧
      tp.rest = L.flatten ++ (tpComments tp).rest := by
  obtain ⟨L, hL, ⟨hrest, -⟩ | ⟨hend, -⟩⟩ := tpSkipLines_sound (· == chr '#') tp
  · exact ⟨L, hL, hrest⟩
  · exact absurd hend h

lemma tpComments_complete {L : List (List UInt8)} (hL : ∀ w ∈ L, w ∈ CommentLine)
    (hl : l.head?.any (· == chr '#') = false) (h : tp.rest = L.flatten ++ l) :
    (tpComments tp).rest = l := by
  induction L generalizing tp with
  | nil =>
    rw [List.flatten_nil, List.nil_append] at h
    rw [tpComments, tpSkipLines_stop (by rw [h]; exact hl), h]
  | cons w L ih =>
    rw [List.flatten_cons, List.append_assoc] at h
    obtain ⟨hskip, hnext⟩ := tpSkipLines_line (hL w (by simp)) h
    rw [tpComments, hskip]
    exact ih (fun w hw => hL w (by simp [hw])) hnext

lemma parseDirectives_sound (h : parseDirectives tp = some tp') :
    ∃ L : List (List UInt8), (∀ w ∈ L, w ∈ CommentLine + DeviceLine) ∧
      tp.rest = L.flatten ++ chr '\n' :: tp'.rest := by
  fun_induction parseDirectives tp with
  | case1 tp tp₁ hm ih =>
    obtain ⟨L', hL', hrest'⟩ := ih h
    have hdev := tpMatch_sound (by decide) hm
    have hne : (tpComments tp).rest ≠ [] := by
      rw [hdev]
      simp [ascii]
    obtain ⟨L, hL, hrest⟩ := tpComments_sound hne
    by_cases hnl : chr '\n' ∈ tp₁.rest
    · obtain ⟨t, l, hsplit, ht⟩ := List.eq_append_cons_of_mem hnl
      rw [rest_tpNextLine_of_line ht hsplit] at hrest'
      refine ⟨L ++ (ascii "DEVICE:" ++ (t ++ [chr '\n'])) :: L', ?_, ?_⟩
      · intro w hw
        rcases List.mem_append.1 hw with hw | hw
        · exact Or.inl (hL w hw)
        · rcases List.mem_cons.1 hw with rfl | hw
          · exact Or.inr ⟨t, ht, rfl⟩
          · exact hL' w hw
      · rw [hrest, hdev, hsplit, hrest']
        simp
    · rw [rest_tpNextLine_of_last hnl] at hrest'
      simp at hrest'
  | case2 tp hm =>
    have hnl : (tpComments tp).rest = chr '\n' :: tp'.rest := tpMatch_sound (by decide) h
    have hne : (tpComments tp).rest ≠ [] := by
      rw [hnl]
      simp
    obtain ⟨L, hL, hrest⟩ := tpComments_sound hne
    exact ⟨L, fun w hw => Or.inl (hL w hw), by rw [hrest, hnl]⟩

lemma parseDirectives_complete {L : List (List UInt8)}
    (hL : ∀ w ∈ L, w ∈ CommentLine + DeviceLine) (h : tp.rest = L.flatten ++ chr '\n' :: l) :
    ∃ tp', parseDirectives tp = some tp' ∧ tp'.rest = l := by
  induction L generalizing tp with
  | nil =>
    rw [List.flatten_nil, List.nil_append] at h
    have hstop : tpComments tp = tp := tpSkipLines_stop (by rw [h]; exact head?_any_newline)
    obtain ⟨hm, hrest⟩ := tpMatch_complete (by decide : ascii "\n" ≠ []) h
    refine ⟨_, ?_, hrest⟩
    rw [parseDirectives, hstop]
    split
    · rename_i tp₁ hdev
      rw [tpMatch_eq_none (by decide) (by rw [h]; exact not_device_of_newline)] at hdev
      simp at hdev
    · exact hm
  | cons w L ih =>
    rw [List.flatten_cons, List.append_assoc] at h
    have hL' : ∀ w ∈ L, w ∈ CommentLine + DeviceLine := fun w hw => hL w (by simp [hw])
    rcases hL w (by simp) with hw | ⟨t, ht, rfl⟩
    · obtain ⟨hskip, hnext⟩ := tpSkipLines_line hw h
      obtain ⟨tp', htp', hrest⟩ := ih hL' hnext
      exact ⟨tp', by rw [parseDirectives_congr hskip, htp'], hrest⟩
    · rw [List.append_assoc] at h
      have hstop : tpComments tp = tp :=
        tpSkipLines_stop (by rw [h]; simp [ascii])
      obtain ⟨hm, hrest₁⟩ := tpMatch_complete (by decide : ascii "DEVICE:" ≠ []) h
      have hnext := rest_tpNextLine_of_line ht (l := L.flatten ++ chr '\n' :: l)
        (by simpa using hrest₁)
      obtain ⟨tp', htp', hrest⟩ := ih hL' hnext
      refine ⟨tp', ?_, hrest⟩
      rw [parseDirectives, hstop]
      split
      · rename_i tp₁ hdev
        rw [hm] at hdev
        cases hdev
        exact htp'
      · rename_i hdev
        rw [hm] at hdev
        simp at hdev

/-! ## The header -/

lemma isBlank_of_isHexDigit {c : UInt8} {d : ℕ} (h : IsHexDigit c d) : isBlank c = false := by
  by_contra hb
  rw [Bool.not_eq_false, isBlank, Bool.or_eq_true, beq_iff_eq, beq_iff_eq] at hb
  have hd := hexDigit_eq_some_iff.2 h
  rcases hb with rfl | rfl
  · rw [show hexDigit (chr ' ') = none by decide] at hd
    simp at hd
  · rw [show hexDigit (chr '\t') = none by decide] at hd
    simp at hd

/-- A UUID starts with a digit, so the blanks in front of it end there. -/
lemma uuidText_head {uuid : Uuid} (hw : w ∈ UuidText 0 uuid.toList) :
    (w ++ l).head?.any isBlank = false := by
  obtain ⟨b, u, rfl⟩ : ∃ b u, uuid = b ::ᵥ u := List.Vector.exists_eq_cons uuid
  rw [List.Vector.toList_cons, UuidText, Language.mem_mul] at hw
  obtain ⟨w₁, hw₁, w₂, -, rfl⟩ := hw
  obtain ⟨x, y, hi, lo, rfl, hx, -⟩ := mem_hexDigits_two.1 hw₁
  simpa using isBlank_of_isHexDigit hx

lemma header_head : (ascii "KERNELCACHE UUID:" ++ l).head?.any (· == chr '#') = false := by
  simp [ascii]

lemma parseHeader_sound {uuid : Uuid}
    (h : parseKernelcacheSymbolsHeader tp = some (uuid, tp')) :
    ∃ w ∈ Header uuid, tp.rest = w ++ tp'.rest := by
  simp only [parseKernelcacheSymbolsHeader, Option.bind_eq_bind, Option.bind_eq_some_iff,
    Prod.exists, Option.pure_def, Option.some.injEq, Prod.mk.injEq, tpSpace] at h
  obtain ⟨tp₁, h₁, u, tp₂, h₂, tp₃, h₃, rfl, rfl⟩ := h
  have hm := tpMatch_sound (by decide) h₁
  have hne : (tpComments tp).rest ≠ [] := by
    rw [hm]
    simp [ascii]
  obtain ⟨L, hL, hrest⟩ := tpComments_sound hne
  obtain ⟨b, hb, hrest₁, -⟩ := tpSkip_sound isBlank tp₁
  obtain ⟨w₂, hw₂, hrest₂⟩ := parseUuidBytes_sound rfl h₂
  obtain ⟨L₃, hL₃, hrest₃⟩ := parseDirectives_sound h₃
  refine ⟨L.flatten ++ (ascii "KERNELCACHE UUID:" ++ (b ++ (w₂ ++ (L₃.flatten ++ [chr '\n'])))),
    ?_, by rw [hrest, hm, hrest₁, hrest₂, hrest₃]; simp⟩
  exact Language.append_mem_mul (Language.join_mem_kstar hL) <|
    Language.append_mem_mul rfl <| Language.append_mem_mul (mem_blanks_iff.2 hb) <|
    Language.append_mem_mul hw₂ <| Language.append_mem_mul (Language.join_mem_kstar hL₃) rfl

lemma parseHeader_complete {uuid : Uuid} (hw : w ∈ Header uuid) (h : tp.rest = w ++ l) :
    ∃ tp', parseKernelcacheSymbolsHeader tp = some (uuid, tp') ∧ tp'.rest = l := by
  obtain ⟨w₀, hw₀, w₁, hw₁, rfl⟩ := Language.mem_mul.1 hw
  obtain ⟨w₁, rfl, w₂, hw₂, rfl⟩ := Language.mem_mul.1 hw₁
  obtain ⟨b, hb, w₃, hw₃, rfl⟩ := Language.mem_mul.1 hw₂
  obtain ⟨w₄, hw₄, w₅, hw₅, rfl⟩ := Language.mem_mul.1 hw₃
  obtain ⟨w₆, hw₆, w₇, rfl, rfl⟩ := Language.mem_mul.1 hw₅
  obtain ⟨L, rfl, hL⟩ := Language.mem_kstar.1 hw₀
  obtain ⟨L₃, rfl, hL₃⟩ := Language.mem_kstar.1 hw₆
  rw [List.append_assoc, List.append_assoc, List.append_assoc, List.append_assoc,
    List.append_assoc, List.singleton_append] at h
  have hrest := tpComments_complete hL header_head h
  obtain ⟨h₁, hrest₁⟩ := tpMatch_complete (by decide) hrest
  have hrest₂ := tpSkip_complete (mem_blanks_iff.1 hb) (uuidText_head hw₄) hrest₁
  obtain ⟨tp₃, h₃, hrest₃⟩ := parseUuidBytes_complete rfl hw₄ hrest₂
  obtain ⟨tp₄, h₄, hrest₄⟩ := parseDirectives_complete hL₃ hrest₃
  refine ⟨tp₄, ?_, hrest₄⟩
  simp [parseKernelcacheSymbolsHeader, tpSpace, h₁, h₃, h₄]

/-! ## A symbol line -/

/-- What may follow a symbol line. -/
def LineRest (l : List UInt8) : Prop := l = [] ∨ ∃ t, l = chr '\n' :: t

lemma tpLineComment_sound (tp : TextParser) :
    ∃ c ∈ (1 + Comment : Language UInt8), tp.rest = c ++ (tpLineComment tp).rest := by
  unfold tpLineComment
  split_ifs with hc
  · obtain ⟨w, hw, hrest, -, hnil⟩ := tpSkip_sound (· != chr '\n') tp
    have hne : w ≠ [] := by
      intro he
      have := hnil.1 he
      rw [hc] at this
      exact absurd this (by decide)
    obtain ⟨c, t, rfl⟩ := List.exists_cons_of_ne_nil hne
    have hhash : c = chr '#' := by
      rw [cur?_eq, hrest] at hc
      simpa using hc
    refine ⟨c :: t, Or.inr ⟨t, ?_, by rw [hhash]⟩, hrest⟩
    intro hmem
    simpa using hw _ (List.mem_cons_of_mem c hmem)
  · exact ⟨[], Or.inl rfl, rfl⟩

lemma tpLineComment_complete {c : List UInt8} (hc : c ∈ (1 + Comment : Language UInt8))
    (hl : LineRest l) (h : tp.rest = c ++ l) : (tpLineComment tp).rest = l := by
  have hstop : l.head?.any (· != chr '\n') = false := by
    rcases hl with rfl | ⟨t, rfl⟩ <;> simp
  rcases hc with rfl | ⟨t, ht, rfl⟩
  · have hne : tp.cur? ≠ some (chr '#') := by
      rw [cur?_eq, h]
      rcases hl with rfl | ⟨t, rfl⟩
      · simp
      · simp only [List.nil_append, List.head?_cons]
        decide
    rw [tpLineComment, if_neg hne, h, List.nil_append]
  · rw [tpLineComment, if_pos (by rw [cur?_eq, h]; rfl)]
    refine tpSkip_complete (w := chr '#' :: t) ?_ hstop h
    intro c hc
    rcases List.mem_cons.1 hc with rfl | hc
    · decide
    · have hne : c ≠ chr '\n' := fun he => ht (he ▸ hc)
      simpa using hne

lemma tpLineEnd_sound (h : tpLineEnd tp = some tp') :
    (tp.rest = [] ∧ tp'.rest = []) ∨ tp.rest = chr '\n' :: tp'.rest := by
  unfold tpLineEnd at h
  split_ifs at h with hend
  · cases h
    exact Or.inl ⟨(tpEnd_iff tp).1 hend, (tpEnd_iff tp).1 hend⟩
  · exact Or.inr (tpMatch_sound (by decide) h)

lemma tpLineEnd_complete (hl : LineRest tp.rest) :
    ∃ tp', tpLineEnd tp = some tp' ∧ tp'.rest = tp.rest.tail := by
  unfold tpLineEnd
  rcases hl with hl | ⟨t, hl⟩
  · rw [if_pos ((tpEnd_iff tp).2 hl)]
    exact ⟨tp, rfl, by rw [hl]; rfl⟩
  · have hend : ¬ tpEnd tp = true := by simp [tpEnd_iff, hl]
    rw [if_neg hend, hl]
    exact ⟨_, tpMatch_complete (by decide) hl⟩

/-- What a call that returns a symbol has read: filler lines, a symbol line, and its end. -/
lemma parseSymbol_sound {s : Symbol} (h : parseKernelcacheSymbolsSymbol tp = some (some s, tp')) :
    ∃ L : List (List UInt8), (∀ w ∈ L, w ∈ FillerLine) ∧ ∃ w ∈ SymbolLine s,
      (tp.rest = L.flatten ++ w ∧ tp'.rest = []) ∨
        tp.rest = L.flatten ++ (w ++ chr '\n' :: tp'.rest) := by
  obtain ⟨hend, tp₁, tp₂, h₁, hsp, h₂, h₃⟩ := parseSymbol_eq_some_iff.1 h
  obtain ⟨hname, hrest₁⟩ := tpIdent_sound h₁
  obtain ⟨b₁, hb₁, hrest₂, -, hne₁⟩ := tpSkip_sound isBlank tp₁
  obtain ⟨d, hd, hrest₃⟩ := tpHexU64_sound h₂
  obtain ⟨b₂, hb₂, hrest₄, -, -⟩ := tpSkip_sound isBlank tp₂
  obtain ⟨c, hc, hrest₅⟩ := tpLineComment_sound (tpSkip isBlank tp₂)
  have hb₁ne : b₁ ≠ [] := by
    intro he
    rw [hne₁.1 he] at hsp
    simp at hsp
  have hline : s.1 ++ (b₁ ++ (ascii "0x" ++ (d ++ (b₂ ++ c)))) ∈ SymbolLine s :=
    ⟨hname, b₁, mem_blanks_iff.2 hb₁, hb₁ne, d, hd, b₂, mem_blanks_iff.2 hb₂, c, hc, rfl⟩
  have hrest : (tpCommentsOrEmpty tp).rest = (s.1 ++ (b₁ ++ (ascii "0x" ++ (d ++ (b₂ ++ c))))) ++
      (tpLineComment (tpSkip isBlank tp₂)).rest := by
    rw [hrest₁, hrest₂, hrest₃, hrest₄, hrest₅]
    simp
  obtain ⟨L, hL, ⟨hfill, -⟩ | ⟨hnil, -⟩⟩ :=
    tpSkipLines_sound (fun c => c == chr '#' || c == chr '\n') tp
  · change tp.rest = L.flatten ++ (tpCommentsOrEmpty tp).rest at hfill
    refine ⟨L, hL, _, hline, ?_⟩
    rcases tpLineEnd_sound h₃ with ⟨he, he'⟩ | he
    · exact Or.inl ⟨by rw [hfill, hrest, he, List.append_nil], he'⟩
    · exact Or.inr (by rw [hfill, hrest, he])
  · have he := (tpEnd_iff (tpCommentsOrEmpty tp)).2 hnil
    rw [hend] at he
    simp at he

lemma isIdent_ne {c : UInt8} (h : isIdent c = true) : c ≠ chr '#' ∧ c ≠ chr '\n' := by
  constructor <;> rintro rfl <;> exact absurd h (by decide)

lemma not_isIdent_of_isBlank {c : UInt8} (h : isBlank c = true) : isIdent c = false := by
  rw [isBlank, Bool.or_eq_true, beq_iff_eq, beq_iff_eq] at h
  rcases h with rfl | rfl <;> decide

lemma hexDigit_of_isBlank {c : UInt8} (h : isBlank c = true) : hexDigit c = none := by
  rw [isBlank, Bool.or_eq_true, beq_iff_eq, beq_iff_eq] at h
  rcases h with rfl | rfl <;> decide

/-- Behind the address stand blanks, a comment or the end of the line, and no digit. -/
lemma head?_after_address {b c : List UInt8} (hb : ∀ x ∈ b, isBlank x = true)
    (hc : c ∈ (1 + Comment : Language UInt8)) (hl : LineRest l) :
    (b ++ (c ++ l)).head?.any (fun x => (hexDigit x).isSome) = false := by
  cases b with
  | cons x b =>
    have := hexDigit_of_isBlank (hb x (by simp))
    simp [this]
  | nil =>
    rcases hc with rfl | ⟨t, -, rfl⟩
    · rcases hl with rfl | ⟨t, rfl⟩
      · rfl
      · exact show (hexDigit (chr '\n')).isSome = false by decide
    · exact show (hexDigit (chr '#')).isSome = false by decide

lemma head?_after_blanks {c : List UInt8} (hc : c ∈ (1 + Comment : Language UInt8))
    (hl : LineRest l) : (c ++ l).head?.any isBlank = false := by
  rcases hc with rfl | ⟨t, -, rfl⟩
  · rcases hl with rfl | ⟨t, rfl⟩
    · rfl
    · exact show isBlank (chr '\n') = false by decide
  · exact show isBlank (chr '#') = false by decide

lemma parseSymbol_complete {s : Symbol} (hw : w ∈ SymbolLine s) (hl : LineRest l)
    (h : tp.rest = w ++ l) :
    ∃ tp', parseKernelcacheSymbolsSymbol tp = some (some s, tp') ∧ tp'.rest = l.tail := by
  obtain ⟨hname, b₁, hb₁, hne₁, d, hd, b₂, hb₂, c, hc, rfl⟩ := hw
  rw [mem_blanks_iff] at hb₁ hb₂
  simp only [List.append_assoc] at h
  obtain ⟨x, n, hxn⟩ := List.exists_cons_of_ne_nil hname.1
  obtain ⟨y, b, rfl⟩ := List.exists_cons_of_ne_nil hne₁
  have hx := isIdent_ne (hname.2 x (by simp [hxn]))
  have hstop : tpCommentsOrEmpty tp = tp := by
    refine tpSkipLines_stop ?_
    rw [h, hxn]
    simpa using hx
  have hend : tpEnd tp = false := by
    rw [← Bool.not_eq_true, tpEnd_iff, h, hxn]
    simp
  have hident : ((y :: b) ++ (ascii "0x" ++ (d ++ (b₂ ++ (c ++ l))))).head?.any isIdent = false := by
    simpa using not_isIdent_of_isBlank (hb₁ y (by simp))
  obtain ⟨tp₁, h₁, hrest₁⟩ := tpIdent_complete hname hident h
  have hsp : tp₁.cur?.any isBlank = true := by
    rw [cur?_eq, hrest₁]
    simpa using hb₁ y (by simp)
  have hrest₂ := tpSkip_complete hb₁
    (show (ascii "0x" ++ (d ++ (b₂ ++ (c ++ l)))).head?.any isBlank = false by simp [ascii]; decide)
    hrest₁
  obtain ⟨tp₂, h₂, hrest₃⟩ := tpHexU64_complete hd (head?_after_address hb₂ hc hl) hrest₂
  have hrest₄ := tpSkip_complete hb₂ (head?_after_blanks hc hl) hrest₃
  have hrest₅ := tpLineComment_complete hc hl hrest₄
  obtain ⟨tp₃, h₃, hrest₆⟩ := tpLineEnd_complete (by rw [hrest₅]; exact hl)
  refine ⟨tp₃, parseSymbol_eq_some_iff.2 ?_, by rw [hrest₆, hrest₅]⟩
  rw [hstop]
  exact ⟨hend, tp₁, tp₂, h₁, hsp, h₂, h₃⟩

/-! ## The body -/

lemma parseSymbol_eq_none_iff :
    parseKernelcacheSymbolsSymbol tp = some (none, tp') ↔
      tpEnd (tpCommentsOrEmpty tp) = true ∧ tp' = tpCommentsOrEmpty tp := by
  unfold parseKernelcacheSymbolsSymbol
  generalize tpCommentsOrEmpty tp = tp₀
  by_cases hend : tpEnd tp₀ = true
  · simp [hend, eq_comm]
  · rw [Bool.not_eq_true] at hend
    simp only [hend, Bool.false_eq_true, if_false, false_and, iff_false]
    intro h
    simp only [Option.bind_eq_bind, Option.bind_eq_some_iff, Prod.exists] at h
    obtain ⟨_, _, _, h⟩ := h
    split_ifs at h
    simp only [Option.bind_eq_some_iff, Prod.exists] at h
    obtain ⟨_, _, _, _, _, h⟩ := h
    simp at h

/-- The loop depends on the cursor only through the comments and empty lines in front of it. -/
lemma parseSymbols_congr (h : tpCommentsOrEmpty tp = tpCommentsOrEmpty tp') :
    parseSymbols tp = parseSymbols tp' := by
  have hsym : parseKernelcacheSymbolsSymbol tp = parseKernelcacheSymbolsSymbol tp' := by
    unfold parseKernelcacheSymbolsSymbol
    rw [h]
  rw [parseSymbols, parseSymbols, hsym]

lemma body_fillers {L : List (List UInt8)} {syms : List Symbol} (hL : ∀ w ∈ L, w ∈ FillerLine)
    (h : Body l syms) : Body (L.flatten ++ l) syms := by
  induction L with
  | nil => exact h
  | cons w L ih =>
    rw [List.flatten_cons, List.append_assoc]
    exact .filler (hL w (by simp)) (ih fun w hw => hL w (by simp [hw]))

/-- One turn of the loop. -/
lemma parseSymbols_cons {s : Symbol}
    (h : parseKernelcacheSymbolsSymbol tp = some (some s, tp')) :
    parseSymbols tp = (s :: (parseSymbols tp').1, (parseSymbols tp').2) := by
  rw [parseSymbols]
  split
  · rename_i hn
    rw [h] at hn
    simp at hn
  · rename_i hn
    rw [h] at hn
    simp at hn
  · rename_i hs
    rw [h] at hs
    cases hs
    rfl

lemma parseSymbols_end (h : (tpCommentsOrEmpty tp).rest = []) : parseSymbols tp = ([], true) := by
  have hend := parseSymbol_eq_none_iff.2 ⟨(tpEnd_iff _).2 h, rfl⟩
  rw [parseSymbols]
  split
  · rename_i hn
    rw [hend] at hn
    simp at hn
  · rfl
  · rename_i hs
    rw [hend] at hs
    simp at hs

lemma parseSymbols_sound (h : (parseSymbols tp).2 = true) : Body tp.rest (parseSymbols tp).1 := by
  fun_induction parseSymbols tp with
  | case1 => simp at h
  | case2 tp tp' hsym =>
    obtain ⟨hend, -⟩ := parseSymbol_eq_none_iff.1 hsym
    obtain ⟨L, hL, ⟨hrest, -⟩ | ⟨-, t, ht, hf, hrest⟩⟩ :=
      tpSkipLines_sound (fun c => c == chr '#' || c == chr '\n') tp
    · change tp.rest = L.flatten ++ (tpCommentsOrEmpty tp).rest at hrest
      rw [(tpEnd_iff _).1 hend] at hrest
      rw [hrest]
      exact body_fillers hL .nil
    · rw [hrest]
      refine body_fillers hL (.last ?_)
      cases t with
      | nil => simp at hf
      | cons c t =>
        simp only [List.mem_cons, not_or] at ht
        have hc : c = chr '#' := by
          simp only [List.head?_cons, Option.any_some, Bool.or_eq_true, beq_iff_eq] at hf
          exact hf.resolve_right (Ne.symm ht.1)
        exact ⟨t, ht.2, by rw [hc]⟩
  | case3 tp s tp' hsym syms ok hrec ih =>
    rw [hrec] at ih
    have hbody := ih h
    obtain ⟨L, hL, w, hw, ⟨hrest, hnil⟩ | hrest⟩ := parseSymbol_sound hsym
    · have hsyms : syms = [] := by
        have hpair : parseSymbols tp' = ([], true) := by
          refine parseSymbols_end ?_
          rw [tpCommentsOrEmpty, tpSkipLines_stop (by rw [hnil]; rfl), hnil]
        rw [hpair] at hrec
        exact (Prod.mk.inj hrec).1.symm
      rw [hrest, hsyms]
      exact body_fillers hL (.lastSymbol hw)
    · rw [hrest]
      exact body_fillers hL (.symbol hw hbody)

lemma parseSymbols_complete {syms : List Symbol} (hb : Body l syms) (h : tp.rest = l) :
    parseSymbols tp = (syms, true) := by
  induction hb generalizing tp with
  | nil =>
    refine parseSymbols_end ?_
    rw [tpCommentsOrEmpty, tpSkipLines_stop (by rw [h]; rfl), h]
  | @last w hw =>
    obtain ⟨t, ht, rfl⟩ := hw
    have hnl : chr '\n' ∉ tp.rest := by
      rw [h]
      simp only [List.mem_cons, not_or]
      exact ⟨by decide, ht⟩
    have hnext := rest_tpNextLine_of_last hnl
    have hskip : tpCommentsOrEmpty tp = tpCommentsOrEmpty (tpNextLine tp) := by
      rw [tpCommentsOrEmpty, tpSkipLines]
      split
      · rename_i c hc
        rw [cur?_eq, h] at hc
        cases hc
        rfl
      · rename_i hc
        rw [cur?_eq, h] at hc
        simp at hc
    refine parseSymbols_end ?_
    rw [hskip, tpCommentsOrEmpty, tpSkipLines_stop (by rw [hnext]; rfl), hnext]
  | filler hw _ ih =>
    obtain ⟨hskip, hnext⟩ := tpSkipLines_line hw h
    rw [parseSymbols_congr hskip]
    exact ih hnext
  | @symbol w l s syms hw _ ih =>
    obtain ⟨tp', htp', hrest⟩ := parseSymbol_complete hw (Or.inr ⟨_, rfl⟩) h
    rw [parseSymbols_cons htp', ih hrest]
  | @lastSymbol w s hw =>
    obtain ⟨tp', htp', hrest⟩ := parseSymbol_complete hw (Or.inl rfl) (by rw [h, List.append_nil])
    have hnil : tpCommentsOrEmpty tp' = tp' := tpSkipLines_stop (by rw [hrest]; rfl)
    rw [parseSymbols_cons htp', parseSymbols_end (by rw [hnil, hrest]; rfl)]

/-! ## The whole file -/

/-- The reader returns a UUID and a list of symbols exactly on the texts that write them. -/
lemma parseSymbolsFile_eq_some_iff {text : List UInt8} {uuid : Uuid} {syms : List Symbol} :
    parseSymbolsFile text = some (uuid, syms) ↔ text ∈ SymbolsFile uuid syms := by
  simp only [parseSymbolsFile, Option.bind_eq_bind, Option.bind_eq_some_iff, Prod.exists]
  constructor
  · rintro ⟨u, tp, hhead, h⟩
    split_ifs at h with hok
    obtain ⟨rfl, rfl⟩ := Prod.mk.inj (Option.some.inj h)
    obtain ⟨w, hw, hrest⟩ := parseHeader_sound hhead
    have htext : text = w ++ tp.rest := by simpa [rest] using hrest
    rw [htext]
    exact Language.append_mem_mul hw (parseSymbols_sound hok)
  · intro h
    obtain ⟨w, hw, l, hl, rfl⟩ := Language.mem_mul.1 h
    have hrest₀ : (⟨w ++ l, 0⟩ : TextParser).rest = w ++ l := rfl
    obtain ⟨tp, hhead, hrest⟩ := parseHeader_complete hw hrest₀
    refine ⟨uuid, tp, hhead, ?_⟩
    rw [parseSymbols_complete hl hrest]
    rfl

/-! ## Files with an invalid line -/

lemma newline_notMem_symbolLine {s : Symbol} (hw : w ∈ SymbolLine s) : chr '\n' ∉ w := by
  obtain ⟨hname, b₁, hb₁, -, d, ⟨ds, hds, -⟩, b₂, hb₂, c, hc, rfl⟩ := hw
  have hblank : ∀ b ∈ Blanks, chr '\n' ∉ b := by
    intro b hb hmem
    exact absurd (hb _ hmem) (by decide)
  have hdigits : chr '\n' ∉ d := by
    intro hmem
    obtain ⟨i, hi, he⟩ := List.getElem_of_mem hmem
    have hdig := hexDigit_eq_some_iff.2 (hds.get hi (by rw [← hds.length_eq]; exact hi))
    rw [List.get_eq_getElem, he] at hdig
    exact absurd hdig (by rw [show hexDigit (chr '\n') = none by decide]; simp)
  have hcomment : chr '\n' ∉ c := by
    rcases hc with rfl | ⟨t, ht, rfl⟩
    · exact List.not_mem_nil
    · simp only [List.mem_cons, not_or]
      exact ⟨by decide, ht⟩
  simp only [List.mem_append, not_or]
  exact ⟨fun hmem => (isIdent_ne (hname.2 _ hmem)).2 rfl, hblank b₁ hb₁, by decide, hdigits,
    hblank b₂ hb₂, hcomment⟩

/-- What the loop has read before it stops is a prefix of whole lines. -/
lemma beginsWith_parseSymbols (tp : TextParser) : tp.rest ∈ BeginsWith (parseSymbols tp).1 := by
  fun_induction parseSymbols tp with
  | case1 tp => exact ⟨[], tp.rest, rfl, .nil, Or.inr (Or.inl rfl)⟩
  | case2 tp => exact ⟨[], tp.rest, rfl, .nil, Or.inr (Or.inl rfl)⟩
  | case3 tp s tp' hsym syms ok hrec ih =>
    rw [hrec] at ih
    obtain ⟨w', l, hrest', hbody, hend⟩ := ih
    obtain ⟨L, hL, w, hw, ⟨hrest, hnil⟩ | hrest⟩ := parseSymbol_sound hsym
    · have hpair : parseSymbols tp' = ([], true) := by
        refine parseSymbols_end ?_
        rw [tpCommentsOrEmpty, tpSkipLines_stop (by rw [hnil]; rfl), hnil]
      obtain rfl : syms = [] := (Prod.mk.inj (hrec.symm.trans hpair)).1
      exact ⟨L.flatten ++ w, [], by rw [hrest, List.append_nil], body_fillers hL (.lastSymbol hw),
        Or.inl rfl⟩
    · refine ⟨L.flatten ++ (w ++ chr '\n' :: w'), l, ?_, body_fillers hL (.symbol hw hbody), ?_⟩
      · rw [hrest, hrest']
        simp
      · rcases hend with hend | hend | hend
        · exact Or.inl hend
        · exact Or.inr (Or.inr (by simp [hend]))
        · exact Or.inr (Or.inr (by simp [List.getLast?_append, List.getLast?_cons, hend]))

/-- The loop does not stop before the end of a prefix of whole lines. -/
lemma isPrefix_parseSymbols {syms : List Symbol} (hb : Body w syms) (h : tp.rest = w ++ l)
    (hend : l = [] ∨ w = [] ∨ w.getLast? = some (chr '\n')) : syms <+: (parseSymbols tp).1 := by
  induction hb generalizing tp with
  | nil => exact List.nil_prefix
  | last => exact List.nil_prefix
  | @filler w w' syms hw _ ih =>
    rw [List.append_assoc] at h
    obtain ⟨hskip, hnext⟩ := tpSkipLines_line hw h
    rw [parseSymbols_congr hskip]
    refine ih hnext ?_
    rcases hend with hend | hend | hend
    · exact Or.inl hend
    · exact Or.inr (Or.inl (List.append_eq_nil_iff.1 hend).2)
    · refine Or.inr (w'.eq_nil_or_concat.imp_right ?_)
      rintro ⟨t, b, rfl⟩
      simpa using hend
  | @symbol w w' s syms hw _ ih =>
    rw [List.append_assoc] at h
    obtain ⟨tp', htp', hrest⟩ := parseSymbol_complete hw (Or.inr ⟨_, rfl⟩) h
    rw [parseSymbols_cons htp']
    refine List.cons_prefix_cons.2 ⟨rfl, ih hrest ?_⟩
    rcases hend with hend | hend | hend
    · exact Or.inl hend
    · exact absurd hend (by simp)
    · refine Or.inr (w'.eq_nil_or_concat.imp_right ?_)
      rintro ⟨t, b, rfl⟩
      simpa [List.getLast?_cons] using hend
  | @lastSymbol w s hw =>
    have hl : l = [] := by
      rcases hend with hend | hend | hend
      · exact hend
      · exact absurd hend (by obtain ⟨hname, _, _, _, _, _, _, _, _, _, rfl⟩ := hw; simp [hname.1])
      · exact absurd (List.mem_of_getLast? hend) (newline_notMem_symbolLine hw)
    obtain ⟨tp', htp', -⟩ := parseSymbol_complete hw (Or.inl rfl) (by rw [h, hl])
    rw [parseSymbols_cons htp']
    exact List.cons_prefix_cons.2 ⟨rfl, List.nil_prefix⟩

/-- The loop reads the symbols of the longest prefix of valid lines. -/
lemma longestBody_iff {syms : List Symbol} :
    LongestBody tp.rest syms ↔ syms = (parseSymbols tp).1 := by
  have hall : ∀ syms', tp.rest ∈ BeginsWith syms' → syms' <+: (parseSymbols tp).1 := by
    rintro syms' ⟨w, l, h, hb, hend⟩
    exact isPrefix_parseSymbols hb h hend
  constructor
  · rintro ⟨hmem, hmax⟩
    exact List.IsPrefix.eq_of_length_le (hall _ hmem)
      (hmax _ (beginsWith_parseSymbols tp)).length_le
  · rintro rfl
    exact ⟨beginsWith_parseSymbols tp, hall⟩

end VulnerableKext.Host

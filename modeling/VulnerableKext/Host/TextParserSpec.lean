import VulnerableKext.Host.Grammar

/-!
# What the cursor helpers accept

For every helper two facts: what it consumed belongs to the language it is meant
for, and on a text of that language it succeeds and consumes just that text.
-/

namespace VulnerableKext.Host

open TextParser Grammar Computability

variable {tp tp' : TextParser} {l w : List UInt8}

/-! ## Digits -/

lemma hexDigit_table : ∀ c : Fin 256, ∀ d : Fin 16,
    hexDigit (UInt8.ofNat c) = some d.val ↔ IsHexDigit (UInt8.ofNat c) d := by
  decide +kernel

lemma lt_of_isHexDigit {c : UInt8} {d : ℕ} (h : IsHexDigit c d) : d < 16 := by
  rcases h with h | h
  · exact (List.getElem?_eq_some_iff.1 h).1
  · exact (List.getElem?_eq_some_iff.1 h).1

lemma lt_of_hexDigit {c : UInt8} {d : ℕ} (h : hexDigit c = some d) : d < 16 := by
  unfold hexDigit at h
  simp only [UInt8.le_iff_toNat_le] at h
  have e0 : (chr '0').toNat = 48 := by decide
  have e9 : (chr '9').toNat = 57 := by decide
  have eA : (chr 'A').toNat = 65 := by decide
  have eF : (chr 'F').toNat = 70 := by decide
  have ea : (chr 'a').toNat = 97 := by decide
  have ef : (chr 'f').toNat = 102 := by decide
  split_ifs at h <;> simp only [Option.some.injEq] at h <;> omega

lemma hexDigit_eq_some_iff {c : UInt8} {d : ℕ} : hexDigit c = some d ↔ IsHexDigit c d := by
  by_cases hd : d < 16
  · have h := hexDigit_table ⟨c.toNat, c.toNat_lt⟩ ⟨d, hd⟩
    simpa using h
  · exact ⟨fun h => absurd (lt_of_hexDigit h) hd, fun h => absurd (lt_of_isHexDigit h) hd⟩

/-- The number that is written by given digits. -/
lemma eq_of_hexDigits {n v v' : ℕ} {w : List UInt8} (h : w ∈ HexDigits n v)
    (h' : w ∈ HexDigits n v') : v = v' := by
  obtain ⟨ds, hds, -, rfl⟩ := h
  obtain ⟨ds', hds', -, rfl⟩ := h'
  have heq : ds = ds' := by
    induction hds generalizing ds' with
    | nil =>
      cases hds'
      rfl
    | cons hd _ ih =>
      cases hds' with
      | cons hd' htail =>
        have hdigit := (hexDigit_eq_some_iff.2 hd).symm.trans (hexDigit_eq_some_iff.2 hd')
        rw [Option.some.inj hdigit, ih _ htail]
  rw [heq]

lemma hexByte_table : ∀ hi : Fin 16, ∀ lo : Fin 16,
    (((UInt8.ofNat hi &&& 0xf) <<< 4) ||| (UInt8.ofNat lo &&& 0xf)).toNat = 16 * hi + lo := by
  decide +kernel

lemma mem_hexDigits_two {b : UInt8} :
    w ∈ HexDigits 2 b.toNat ↔
      ∃ x y hi lo, w = [x, y] ∧ IsHexDigit x hi ∧ IsHexDigit y lo ∧ b.toNat = 16 * hi + lo := by
  constructor
  · rintro ⟨ds, hds, hlen, hv⟩
    match ds, hlen with
    | [hi, lo], _ =>
      obtain ⟨x, w₁, hx, hw₁, rfl⟩ := List.forall₂_cons_right_iff.1 hds
      obtain ⟨y, w₂, hy, hw₂, rfl⟩ := List.forall₂_cons_right_iff.1 hw₁
      obtain rfl := List.forall₂_nil_right_iff.1 hw₂
      exact ⟨x, y, hi, lo, rfl, hx, hy, by simpa [hexValue] using hv.symm⟩
  · rintro ⟨x, y, hi, lo, rfl, hx, hy, hv⟩
    exact ⟨[hi, lo], .cons hx (.cons hy .nil), rfl, by simp [hexValue, hv]⟩

lemma getElem?_rest (tp : TextParser) (i : ℕ) : tp.data[tp.p + i]? = tp.rest[i]? := by
  simp [rest]

lemma tpHexByte_sound {b : UInt8} (h : tpHexByte tp = some (b, tp')) :
    ∃ w ∈ HexDigits 2 b.toNat, tp.rest = w ++ tp'.rest := by
  obtain rfl := tpHexByte_data h
  unfold tpHexByte at h
  split_ifs at h with hle
  simp only [Option.bind_eq_bind, Option.bind_eq_some_iff, Option.pure_def, Option.some.injEq,
    Prod.mk.injEq] at h
  obtain ⟨hi, ⟨x, hx, hhi⟩, lo, ⟨y, hy, hlo⟩, rfl, -⟩ := h
  have hrest : tp.rest = x :: y :: (tp.advance 2).rest := by
    obtain ⟨h₀, rfl⟩ := List.getElem?_eq_some_iff.1 hx
    obtain ⟨h₁, rfl⟩ := List.getElem?_eq_some_iff.1 hy
    simp only [rest, data_advance, p_advance]
    rw [List.drop_eq_getElem_cons h₀, List.drop_eq_getElem_cons h₁]
  have hb := hexByte_table ⟨hi, lt_of_hexDigit hhi⟩ ⟨lo, lt_of_hexDigit hlo⟩
  exact ⟨[x, y], mem_hexDigits_two.2 ⟨x, y, hi, lo, rfl, hexDigit_eq_some_iff.1 hhi,
    hexDigit_eq_some_iff.1 hlo, hb⟩, hrest⟩

lemma tpHexByte_complete {b : UInt8} (hw : w ∈ HexDigits 2 b.toNat) (h : tp.rest = w ++ l) :
    tpHexByte tp = some (b, tp.advance 2) ∧ (tp.advance 2).rest = l := by
  obtain ⟨x, y, hi, lo, rfl, hx, hy, hv⟩ := mem_hexDigits_two.1 hw
  have hlen : tp.rest.length = l.length + 2 := by simp [h]
  have hle : tp.p + 2 ≤ tp.data.length := by
    simp only [rest, List.length_drop] at hlen
    omega
  have h₀ : tp.data[tp.p]? = some x := by
    have := getElem?_rest tp 0
    simpa [h] using this
  have h₁ : tp.data[tp.p + 1]? = some y := by simp [getElem?_rest, h]
  have hb : ((UInt8.ofNat hi &&& 0xf) <<< 4) ||| (UInt8.ofNat lo &&& 0xf) = b := by
    apply UInt8.toNat_inj.1
    rw [hv]
    exact hexByte_table ⟨hi, lt_of_isHexDigit hx⟩ ⟨lo, lt_of_isHexDigit hy⟩
  constructor
  · rw [tpHexByte, if_pos hle, h₀, h₁]
    simp [hexDigit_eq_some_iff.2 hx, hexDigit_eq_some_iff.2 hy, hb]
  · rw [rest_advance, h]
    rfl

lemma hexValue_append (v : ℕ) (ds ds' : List ℕ) :
    hexValue v (ds ++ ds') = hexValue (hexValue v ds) ds' := List.foldl_append

/-- One round of the loop of `tp_hex_u64` appends two digits as long as the value fits. -/
lemma shiftLeft_or_byte {v k : ℕ} {b : UInt8} (hv : v < 256 ^ k) (hk : k < 8) :
    (v <<< 8 ||| b.toNat) % 2 ^ 64 = 256 * v + b.toNat := by
  have hb : b.toNat < 2 ^ 8 := b.toNat_lt
  have hpow : 256 ^ (k + 1) ≤ 256 ^ 8 := Nat.pow_le_pow_right (by norm_num) (by omega)
  rw [Nat.pow_succ'] at hpow
  rw [← Nat.shiftLeft_add_eq_or_of_lt hb, Nat.shiftLeft_eq, Nat.mod_eq_of_lt (by omega)]
  omega

lemma tpHexBytes_sound {n v u k : ℕ} (hv : v < 256 ^ k) (hk : k + n = 8)
    (h : tpHexBytes n v tp = some (u, tp')) :
    ∃ w ds, List.Forall₂ IsHexDigit w ds ∧ ds.length = 2 * n ∧ hexValue v ds = u ∧
      tp.rest = w ++ tp'.rest := by
  induction n generalizing v tp k with
  | zero =>
    obtain ⟨rfl, rfl⟩ := Prod.mk.inj (Option.some.inj h)
    exact ⟨[], [], .nil, rfl, rfl, rfl⟩
  | succ n ih =>
    simp only [tpHexBytes, Option.bind_eq_bind, Option.bind_eq_some_iff, Prod.exists] at h
    obtain ⟨b, tp₁, hb, h⟩ := h
    rw [shiftLeft_or_byte hv (by omega)] at h
    have hb' : b.toNat < 256 := b.toNat_lt
    have hv' : 256 * v + b.toNat < 256 ^ (k + 1) := by
      rw [Nat.pow_succ']
      omega
    obtain ⟨w, ds, hds, hlen, hval, hrest⟩ := ih hv' (by omega) h
    obtain ⟨w₁, hw₁, hrest₁⟩ := tpHexByte_sound hb
    obtain ⟨x, y, hi, lo, rfl, hx, hy, hbv⟩ := mem_hexDigits_two.1 hw₁
    refine ⟨x :: y :: w, hi :: lo :: ds, .cons hx (.cons hy hds), by simp [hlen]; omega, ?_, ?_⟩
    · rw [← hval, hbv]
      simp only [hexValue, List.foldl_cons]
      congr 1
      omega
    · rw [hrest₁, hrest]
      rfl

lemma tpHexBytes_complete {n v k : ℕ} {ds : List ℕ} (hv : v < 256 ^ k) (hk : k + n = 8)
    (hds : List.Forall₂ IsHexDigit w ds) (hlen : ds.length = 2 * n) (h : tp.rest = w ++ l) :
    ∃ tp', tpHexBytes n v tp = some (hexValue v ds, tp') ∧ tp'.rest = l := by
  induction n generalizing v tp k w ds with
  | zero =>
    obtain rfl : ds = [] := by simpa using hlen
    obtain rfl := List.forall₂_nil_right_iff.1 hds
    exact ⟨tp, rfl, by simpa using h⟩
  | succ n ih =>
    match ds, hlen with
    | hi :: lo :: ds, hlen =>
      obtain ⟨x, w₁, hx, hw₁, rfl⟩ := List.forall₂_cons_right_iff.1 hds
      obtain ⟨y, w₂, hy, hw₂, rfl⟩ := List.forall₂_cons_right_iff.1 hw₁
      have hhi := lt_of_isHexDigit hx
      have hlo := lt_of_isHexDigit hy
      have hbv : (UInt8.ofNat (16 * hi + lo)).toNat = 16 * hi + lo := by
        rw [UInt8.toNat_ofNat']
        omega
      have hmem : [x, y] ∈ HexDigits 2 (UInt8.ofNat (16 * hi + lo)).toNat :=
        mem_hexDigits_two.2 ⟨x, y, hi, lo, rfl, hx, hy, hbv⟩
      obtain ⟨hb, hrest⟩ := tpHexByte_complete (l := w₂ ++ l) hmem (by simpa using h)
      have hv' : 256 * v + (16 * hi + lo) < 256 ^ (k + 1) := by
        rw [Nat.pow_succ']
        omega
      obtain ⟨tp', htp', hl⟩ := ih hv' (by omega) hw₂ (by simp at hlen; omega) hrest
      refine ⟨tp', ?_, hl⟩
      simp only [tpHexBytes, hb, Option.bind_eq_bind, Option.bind_some]
      rw [shiftLeft_or_byte hv (by omega), hbv, htp']
      simp only [hexValue, List.foldl_cons]
      congr 3
      omega

/-! ## Matching, blanks and names -/

lemma tpMatch_sound {str : List UInt8} (hstr : str ≠ []) (h : tpMatch tp str = some tp') :
    tp.rest = str ++ tp'.rest := by
  obtain ⟨⟨t, ht⟩, rfl⟩ := (tpMatch_eq_some_iff hstr).1 h
  rw [rest_advance, ← ht, List.drop_left]

lemma tpMatch_complete {str : List UInt8} (hstr : str ≠ []) (h : tp.rest = str ++ l) :
    tpMatch tp str = some (tp.advance str.length) ∧ (tp.advance str.length).rest = l := by
  refine ⟨(tpMatch_eq_some_iff hstr).2 ⟨⟨l, h.symm⟩, rfl⟩, ?_⟩
  rw [rest_advance, h, List.drop_left]

lemma tpMatch_eq_none {str : List UInt8} (hstr : str ≠ []) (h : ¬ str <+: tp.rest) :
    tpMatch tp str = none := by
  cases hm : tpMatch tp str with
  | none => rfl
  | some tp' => exact absurd ((tpMatch_eq_some_iff hstr).1 hm).1 h

lemma mem_blanks_iff : w ∈ Blanks ↔ ∀ c ∈ w, isBlank c = true := by
  change (∀ c ∈ w, c = chr ' ' ∨ c = chr '\t') ↔ _
  simp [isBlank]

/-- A scan splits the unread part where the first byte outside `f` stands. -/
lemma tpSkip_sound (f : UInt8 → Bool) (tp : TextParser) :
    ∃ w, (∀ c ∈ w, f c = true) ∧ tp.rest = w ++ (tpSkip f tp).rest ∧
      (tpSkip f tp).rest.head?.any f = false ∧ (w = [] ↔ tp.cur?.any f = false) := by
  refine ⟨tp.rest.takeWhile f, fun c hc => List.mem_takeWhile_imp hc, ?_, ?_, ?_⟩
  · rw [rest_tpSkip, List.takeWhile_append_dropWhile]
  · rw [rest_tpSkip]
    cases hd : tp.rest.dropWhile f with
    | nil => rfl
    | cons c t =>
      have hc := List.head?_dropWhile_not f tp.rest
      rw [hd] at hc
      simpa using hc
  · rw [cur?_eq]
    cases tp.rest with
    | nil => simp
    | cons c t => by_cases hc : f c = true <;> simp [hc]

lemma tpSkip_complete {f : UInt8 → Bool} (hw : ∀ c ∈ w, f c = true)
    (hl : l.head?.any f = false) (h : tp.rest = w ++ l) : (tpSkip f tp).rest = l := by
  rw [rest_tpSkip, h, List.dropWhile_append_of_pos hw]
  cases l with
  | nil => rfl
  | cons c t =>
    rw [List.dropWhile_cons_of_neg]
    simpa using hl

lemma tpIdent_sound {s : List UInt8} (h : tpIdent tp = some (s, tp')) :
    s ∈ Name ∧ tp.rest = s ++ tp'.rest := by
  simp only [tpIdent] at h
  split_ifs at h with hp
  obtain ⟨rfl, rfl⟩ := Prod.mk.inj (Option.some.inj h)
  have hlen : (tpSkip isIdent tp).p - tp.p = (tp.rest.takeWhile isIdent).length := by
    rw [p_tpSkip]
    omega
  have htake : tp.rest.take (tp.rest.takeWhile isIdent).length = tp.rest.takeWhile isIdent :=
    (List.prefix_iff_eq_take.1 (List.takeWhile_prefix _)).symm
  rw [hlen, htake]
  refine ⟨⟨?_, fun c hc => List.mem_takeWhile_imp hc⟩, ?_⟩
  · intro hnil
    rw [hnil, List.length_nil] at hlen
    have := le_p_tpSkip isIdent tp
    omega
  · rw [rest_tpSkip, List.takeWhile_append_dropWhile]

lemma tpIdent_complete {s : List UInt8} (hs : s ∈ Name) (hl : l.head?.any isIdent = false)
    (h : tp.rest = s ++ l) : ∃ tp', tpIdent tp = some (s, tp') ∧ tp'.rest = l := by
  obtain ⟨hne, hall⟩ := hs
  have htake : tp.rest.takeWhile isIdent = s := by
    rw [h, List.takeWhile_append_of_pos hall]
    cases l with
    | nil => simp
    | cons c t =>
      rw [List.takeWhile_cons_of_neg (by simpa using hl), List.append_nil]
  have hp : (tpSkip isIdent tp).p = tp.p + s.length := by rw [p_tpSkip, htake]
  have hpos : 0 < s.length := List.length_pos_iff.2 hne
  refine ⟨tpSkip isIdent tp, ?_, tpSkip_complete hall hl h⟩
  have htake' : tp.rest.take s.length = s := by rw [h, List.take_left]
  simp only [tpIdent, hp]
  rw [if_neg (by omega), Nat.add_sub_cancel_left, htake']

/-! ## Addresses -/

lemma ascii_ne_nil_0x : ascii "0x" ≠ [] := by decide

lemma tpHexU64_sound {v : ℕ} (h : tpHexU64 tp = some (v, tp')) :
    ∃ d ∈ HexDigits 16 v, tp.rest = ascii "0x" ++ (d ++ tp'.rest) := by
  simp only [tpHexU64, Option.bind_eq_bind, Option.bind_eq_some_iff, Prod.exists] at h
  obtain ⟨tp₁, h₁, u, tp₂, h₂, h⟩ := h
  split_ifs at h
  obtain ⟨rfl, rfl⟩ := Prod.mk.inj (Option.some.inj h)
  obtain ⟨w, ds, hds, hlen, hval, hrest⟩ := tpHexBytes_sound (k := 0) (by norm_num) rfl h₂
  exact ⟨w, ⟨ds, hds, hlen, hval⟩, by rw [tpMatch_sound ascii_ne_nil_0x h₁, hrest]⟩

lemma tpHexU64_complete {v : ℕ} (hw : w ∈ HexDigits 16 v)
    (hl : l.head?.any (fun c => (hexDigit c).isSome) = false)
    (h : tp.rest = ascii "0x" ++ (w ++ l)) :
    ∃ tp', tpHexU64 tp = some (v, tp') ∧ tp'.rest = l := by
  obtain ⟨ds, hds, hlen, rfl⟩ := hw
  obtain ⟨h₁, hrest₁⟩ := tpMatch_complete ascii_ne_nil_0x h
  obtain ⟨tp₂, h₂, hrest₂⟩ :=
    tpHexBytes_complete (n := 8) (v := 0) (k := 0) (by norm_num) rfl hds hlen hrest₁
  refine ⟨tp₂, ?_, hrest₂⟩
  have hnext : (tp₂.cur?.bind hexDigit).isSome = false := by
    rw [cur?_eq, hrest₂]
    cases l with
    | nil => rfl
    | cons c t => simpa using hl
  simp [tpHexU64, h₁, h₂, hnext]

/-! ## Skipping lines -/

/-- The reader stops at a line that does not start with one of `f`. -/
lemma tpSkipLines_stop {f : UInt8 → Bool} (h : tp.rest.head?.any f = false) :
    tpSkipLines f tp = tp := by
  rw [tpSkipLines]
  split
  · rename_i c hc
    rw [cur?_eq] at hc
    rw [hc] at h
    simp only [Option.any_some] at h
    simp [h]
  · rfl

/-- A line of `Line f` is skipped. -/
lemma tpSkipLines_line {f : UInt8 → Bool} (hw : w ∈ Line f) (h : tp.rest = w ++ l) :
    tpSkipLines f tp = tpSkipLines f (tpNextLine tp) ∧ (tpNextLine tp).rest = l := by
  obtain ⟨t, ht, rfl, hf⟩ := hw
  constructor
  · rw [tpSkipLines]
    split
    · rename_i c hc
      rw [cur?_eq, h] at hc
      have hhead : ((t ++ [chr '\n']) ++ l).head? = (t ++ [chr '\n']).head? := by
        cases t <;> rfl
      rw [hhead] at hc
      rw [hc, Option.any_some] at hf
      rw [if_pos hf]
    · rename_i hc
      rw [cur?_eq, h] at hc
      simp at hc
  · exact rest_tpNextLine_of_line ht (by simpa using h)

/-- What the loop over lines consumed: full lines, and at the end of the file perhaps a last
line without a newline. -/
lemma tpSkipLines_sound (f : UInt8 → Bool) (tp : TextParser) :
    ∃ L : List (List UInt8), (∀ w ∈ L, w ∈ Line f) ∧
      ((tp.rest = L.flatten ++ (tpSkipLines f tp).rest ∧
          (tpSkipLines f tp).rest.head?.any f = false) ∨
        ((tpSkipLines f tp).rest = [] ∧ ∃ t, chr '\n' ∉ t ∧ t.head?.any f = true ∧
          tp.rest = L.flatten ++ t)) := by
  fun_induction tpSkipLines f tp with
  | case1 tp c hc hf ih =>
    have hhead : tp.rest.head?.any f = true := by rw [← cur?_eq, hc]; exact hf
    by_cases hnl : chr '\n' ∈ tp.rest
    · obtain ⟨t, l, hsplit, ht⟩ := List.eq_append_cons_of_mem hnl
      have hline : t ++ [chr '\n'] ∈ Line f := by
        refine ⟨t, ht, rfl, ?_⟩
        rw [hsplit] at hhead
        cases t <;> exact hhead
      have hnext := rest_tpNextLine_of_line ht hsplit
      obtain ⟨L, hL, hcase⟩ := ih
      refine ⟨(t ++ [chr '\n']) :: L, by simpa using ⟨hline, hL⟩, ?_⟩
      rw [hnext] at hcase
      rcases hcase with ⟨hrest, hstop⟩ | ⟨hend, t', ht', hf', hrest⟩
      · exact Or.inl ⟨by rw [hsplit, hrest]; simp, hstop⟩
      · exact Or.inr ⟨hend, t', ht', hf', by rw [hsplit, hrest]; simp⟩
    · have hnext := rest_tpNextLine_of_last hnl
      rw [tpSkipLines_stop (by rw [hnext]; rfl), hnext]
      exact ⟨[], by simp, Or.inr ⟨rfl, tp.rest, hnl, hhead, rfl⟩⟩
  | case2 tp c hc hf =>
    refine ⟨[], by simp, Or.inl ⟨rfl, ?_⟩⟩
    rw [← cur?_eq, hc]
    simpa using hf
  | case3 tp hc =>
    refine ⟨[], by simp, Or.inl ⟨rfl, ?_⟩⟩
    rw [← cur?_eq, hc]
    rfl

end VulnerableKext.Host

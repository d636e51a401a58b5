import VulnerableKext.Lib.Bytes

/-!
# The text parser of the symbol file reader

The cursor helpers of `kext_loader.c`.  The mapped file is `data` and the cursor
`p` is an offset into it; the end pointer `e` of the source is the offset
`data.length`.  A helper that reports failure and leaves the cursor where it was
returns `none`.

What a helper does is stated for the unread part `rest` of the file, which is
empty both at the end of the file and one past it.
-/

namespace VulnerableKext.Host

/-- The bytes of an ASCII string literal. -/
def ascii (s : String) : List UInt8 := s.toList.map fun c => UInt8.ofNat c.toNat

/-- The byte of an ASCII character literal. -/
abbrev chr (c : Char) : UInt8 := UInt8.ofNat c.toNat

/-- The value of a hexadecimal digit of either case; `none` is the `-1` of the source. -/
def hexDigit (digit : UInt8) : Option ℕ :=
  if chr '0' ≤ digit ∧ digit ≤ chr '9' then some (digit.toNat - (chr '0').toNat)
  else if chr 'A' ≤ digit ∧ digit ≤ chr 'F' then some (digit.toNat - (chr 'A').toNat + 0xa)
  else if chr 'a' ≤ digit ∧ digit ≤ chr 'f' then some (digit.toNat - (chr 'a').toNat + 0xa)
  else none

/-- State for text parsing. -/
structure TextParser where
  /-- The mapped file. -/
  data : List UInt8
  /-- The cursor. -/
  p : ℕ
deriving DecidableEq, Repr

namespace TextParser

/-- The unread part of the file. -/
def rest (tp : TextParser) : List UInt8 := tp.data.drop tp.p

/-- The byte under the cursor, when the cursor is before the end of the file. -/
def cur? (tp : TextParser) : Option UInt8 := tp.data[tp.p]?

/-- The parser with its cursor moved by `n`. -/
def advance (tp : TextParser) (n : ℕ) : TextParser := { tp with p := tp.p + n }

@[simp] lemma data_advance (tp : TextParser) (n : ℕ) : (tp.advance n).data = tp.data := rfl

@[simp] lemma p_advance (tp : TextParser) (n : ℕ) : (tp.advance n).p = tp.p + n := rfl

lemma rest_advance (tp : TextParser) (n : ℕ) : (tp.advance n).rest = tp.rest.drop n := by
  simp [rest, advance]

lemma cur?_eq (tp : TextParser) : tp.cur? = tp.rest.head? := by
  simp [cur?, rest]

lemma lt_of_cur? {tp : TextParser} {c : UInt8} (h : tp.cur? = some c) :
    tp.p < tp.data.length := by
  obtain ⟨hlt, -⟩ := List.getElem?_eq_some_iff.1 h
  exact hlt

end TextParser

open TextParser

/-! ## The helpers -/

/-- The loop `while (tp->p < tp->e && f(*tp->p)) tp->p++`. -/
def tpSkip (f : UInt8 → Bool) (tp : TextParser) : TextParser :=
  match _h : tp.cur? with
  | some c => if f c then tpSkip f (tp.advance 1) else tp
  | none => tp
termination_by tp.data.length - tp.p
decreasing_by
  have hlt := lt_of_cur? _h
  simp only [data_advance, p_advance]
  omega

def tpEnd (tp : TextParser) : Bool := tp.data.length ≤ tp.p

/-- The cursor ends after the next newline, or one past the end of the file. -/
def tpNextLine (tp : TextParser) : TextParser := (tpSkip (· != chr '\n') tp).advance 1

def isBlank (c : UInt8) : Bool := c == chr ' ' || c == chr '\t'

def tpSpace (tp : TextParser) : Bool × TextParser := (tp.cur?.any isBlank, tpSkip isBlank tp)

def tpLineComment (tp : TextParser) : TextParser :=
  if tp.cur? = some (chr '#') then tpSkip (· != chr '\n') tp else tp

lemma le_p_tpSkip (f : UInt8 → Bool) (tp : TextParser) : tp.p ≤ (tpSkip f tp).p := by
  fun_induction tpSkip f tp with
  | case1 tp c h hc ih =>
    rw [p_advance] at ih
    omega
  | case2 => exact le_rfl
  | case3 => exact le_rfl

@[simp] lemma data_tpSkip (f : UInt8 → Bool) (tp : TextParser) : (tpSkip f tp).data = tp.data := by
  fun_induction tpSkip f tp with
  | case1 tp c h hc ih => rw [ih, data_advance]
  | case2 => rfl
  | case3 => rfl

@[simp] lemma data_tpNextLine (tp : TextParser) : (tpNextLine tp).data = tp.data := by
  simp [tpNextLine]

lemma lt_p_tpNextLine (tp : TextParser) : tp.p < (tpNextLine tp).p := by
  have h := le_p_tpSkip (· != chr '\n') tp
  rw [tpNextLine, p_advance]
  omega

/-- The loop `while (tp->p < tp->e && f(*tp->p)) tp_next_line(tp)`. -/
def tpSkipLines (f : UInt8 → Bool) (tp : TextParser) : TextParser :=
  match _h : tp.cur? with
  | some c => if f c then tpSkipLines f (tpNextLine tp) else tp
  | none => tp
termination_by tp.data.length - tp.p
decreasing_by
  have hlt := lt_of_cur? _h
  have hnext := lt_p_tpNextLine tp
  simp only [data_tpNextLine]
  omega

def tpComments (tp : TextParser) : TextParser := tpSkipLines (· == chr '#') tp

def tpCommentsOrEmpty (tp : TextParser) : TextParser :=
  tpSkipLines (fun c => c == chr '#' || c == chr '\n') tp

def tpMatch (tp : TextParser) (str : List UInt8) : Option TextParser :=
  if tp.p < tp.data.length ∧ tp.p + str.length ≤ tp.data.length ∧
      tp.rest.take str.length = str then
    some (tp.advance str.length)
  else none

def isIdent (ch : UInt8) : Bool :=
  (chr 'a' ≤ ch && ch ≤ chr 'z') || (chr 'A' ≤ ch && ch ≤ chr 'Z') ||
    (chr '0' ≤ ch && ch ≤ chr '9') || ch == chr '_'

/-- The identifier under the cursor; `none` when it is empty. -/
def tpIdent (tp : TextParser) : Option (List UInt8 × TextParser) :=
  let tp' := tpSkip isIdent tp
  if tp'.p = tp.p then none else some (tp.rest.take (tp'.p - tp.p), tp')

def tpHexByte (tp : TextParser) : Option (UInt8 × TextParser) :=
  if tp.p + 2 ≤ tp.data.length then do
    let hi ← tp.data[tp.p]?.bind hexDigit
    let lo ← tp.data[tp.p + 1]?.bind hexDigit
    return (((UInt8.ofNat hi &&& 0xf) <<< 4) ||| (UInt8.ofNat lo &&& 0xf), tp.advance 2)
  else none

/-- The loop of `tp_hex_u64` over the remaining `n` bytes of the value. -/
def tpHexBytes : ℕ → ℕ → TextParser → Option (ℕ × TextParser)
  | 0, v, tp => some (v, tp)
  | n + 1, v, tp => do
    let (byte, tp) ← tpHexByte tp
    tpHexBytes n ((v <<< 8 ||| byte.toNat) % 2 ^ 64) tp

/-- A 64-bit value of exactly sixteen digits.  On failure the source moves the cursor back to
where it was, so the caller's cursor is unchanged. -/
def tpHexU64 (tp : TextParser) : Option (ℕ × TextParser) := do
  let tp ← tpMatch tp (ascii "0x")
  let (v, tp) ← tpHexBytes 8 0 tp
  if (tp.cur?.bind hexDigit).isSome then none else some (v, tp)

/-! ## The cursor only moves forward -/

lemma le_p_tpSkipLines (f : UInt8 → Bool) (tp : TextParser) : tp.p ≤ (tpSkipLines f tp).p := by
  fun_induction tpSkipLines f tp with
  | case1 tp c h hc ih =>
    have hnext := lt_p_tpNextLine tp
    omega
  | case2 => exact le_rfl
  | case3 => exact le_rfl

@[simp] lemma data_tpSkipLines (f : UInt8 → Bool) (tp : TextParser) :
    (tpSkipLines f tp).data = tp.data := by
  fun_induction tpSkipLines f tp with
  | case1 tp c h hc ih => rw [ih, data_tpNextLine]
  | case2 => rfl
  | case3 => rfl

lemma tpMatch_eq_some_iff {tp tp' : TextParser} {str : List UInt8} (hstr : str ≠ []) :
    tpMatch tp str = some tp' ↔ str <+: tp.rest ∧ tp' = tp.advance str.length := by
  have hpos : 0 < str.length := List.length_pos_iff.2 hstr
  have hlen : tp.rest.length = tp.data.length - tp.p := by simp [rest]
  rw [List.prefix_iff_eq_take]
  unfold tpMatch
  split_ifs with h
  · simp [h.2.2, eq_comm]
  · simp only [false_iff, not_and]
    intro hpre
    have hle : str.length ≤ tp.rest.length := by
      rw [hpre]
      exact List.length_take_le' _ _
    exact absurd ⟨by omega, by omega, hpre.symm⟩ h

lemma tpMatch_data {tp tp' : TextParser} {str : List UInt8} (h : tpMatch tp str = some tp') :
    tp'.data = tp.data := by
  unfold tpMatch at h
  split_ifs at h
  cases h
  rfl

lemma tpMatch_p {tp tp' : TextParser} {str : List UInt8} (h : tpMatch tp str = some tp') :
    tp.p < tp.data.length ∧ tp'.p = tp.p + str.length := by
  unfold tpMatch at h
  split_ifs at h with hc
  cases h
  exact ⟨hc.1, rfl⟩

lemma tpIdent_data {tp tp' : TextParser} {s : List UInt8} (h : tpIdent tp = some (s, tp')) :
    tp'.data = tp.data ∧ tp.p < tp'.p := by
  simp only [tpIdent] at h
  split_ifs at h with hp
  have hle := le_p_tpSkip isIdent tp
  obtain ⟨-, rfl⟩ := Prod.mk.inj (Option.some.inj h)
  exact ⟨data_tpSkip _ _, by omega⟩

lemma tpHexByte_data {tp tp' : TextParser} {b : UInt8} (h : tpHexByte tp = some (b, tp')) :
    tp' = tp.advance 2 := by
  unfold tpHexByte at h
  split_ifs at h
  simp only [Option.bind_eq_bind, Option.bind_eq_some_iff, Option.pure_def, Option.some.injEq,
    Prod.mk.injEq] at h
  obtain ⟨_, _, _, _, _, h⟩ := h
  exact h.symm

lemma tpHexBytes_data {n v w : ℕ} {tp tp' : TextParser}
    (h : tpHexBytes n v tp = some (w, tp')) : tp'.data = tp.data ∧ tp.p ≤ tp'.p := by
  induction n generalizing v tp with
  | zero =>
    obtain ⟨-, rfl⟩ := Prod.mk.inj (Option.some.inj h)
    exact ⟨rfl, le_rfl⟩
  | succ n ih =>
    simp only [tpHexBytes, Option.bind_eq_bind, Option.bind_eq_some_iff, Prod.exists] at h
    obtain ⟨b, tp₁, hb, h⟩ := h
    obtain ⟨hd, hp⟩ := ih h
    rw [tpHexByte_data hb, data_advance] at hd
    rw [tpHexByte_data hb, p_advance] at hp
    exact ⟨hd, by omega⟩

lemma tpHexU64_data {tp tp' : TextParser} {v : ℕ} (h : tpHexU64 tp = some (v, tp')) :
    tp'.data = tp.data ∧ tp.p ≤ tp'.p := by
  simp only [tpHexU64, Option.bind_eq_bind, Option.bind_eq_some_iff, Prod.exists] at h
  obtain ⟨tp₁, h₁, w, tp₂, h₂, h⟩ := h
  split_ifs at h
  obtain ⟨-, rfl⟩ := Prod.mk.inj (Option.some.inj h)
  obtain ⟨hd, hp⟩ := tpHexBytes_data h₂
  have hp₁ := (tpMatch_p h₁).2
  exact ⟨hd.trans (tpMatch_data h₁), by omega⟩

lemma tpLineComment_data (tp : TextParser) :
    (tpLineComment tp).data = tp.data ∧ tp.p ≤ (tpLineComment tp).p := by
  unfold tpLineComment
  split_ifs
  · exact ⟨data_tpSkip _ _, le_p_tpSkip _ _⟩
  · exact ⟨rfl, le_rfl⟩

/-! ## What the helpers do to the unread part -/

lemma tpEnd_iff (tp : TextParser) : tpEnd tp = true ↔ tp.rest = [] := by
  simp [tpEnd, rest]

lemma rest_eq_cons {tp : TextParser} {c : UInt8} (h : tp.cur? = some c) :
    tp.rest = c :: (tp.advance 1).rest := by
  rw [rest_advance]
  rw [cur?_eq] at h
  obtain ⟨l, hl⟩ := List.head?_eq_some_iff.1 h
  rw [hl, List.drop_one, List.tail_cons]

lemma rest_eq_nil {tp : TextParser} (h : tp.cur? = none) : tp.rest = [] := by
  rw [cur?_eq] at h
  exact List.head?_eq_none_iff.1 h

lemma rest_tpSkip (f : UInt8 → Bool) (tp : TextParser) :
    (tpSkip f tp).rest = tp.rest.dropWhile f := by
  fun_induction tpSkip f tp with
  | case1 tp c h hc ih => rw [ih, rest_eq_cons h, List.dropWhile_cons_of_pos hc]
  | case2 tp c h hc => rw [rest_eq_cons h, List.dropWhile_cons_of_neg hc]
  | case3 tp h => rw [rest_eq_nil h, List.dropWhile_nil]

lemma p_tpSkip (f : UInt8 → Bool) (tp : TextParser) :
    (tpSkip f tp).p = tp.p + (tp.rest.takeWhile f).length := by
  fun_induction tpSkip f tp with
  | case1 tp c h hc ih =>
    rw [ih, rest_eq_cons h, List.takeWhile_cons_of_pos hc, List.length_cons, p_advance]
    omega
  | case2 tp c h hc => rw [rest_eq_cons h, List.takeWhile_cons_of_neg hc, List.length_nil]; rfl
  | case3 tp h => rw [rest_eq_nil h, List.takeWhile_nil, List.length_nil]; rfl

/-- A line that starts with one of the bytes `f` is skipped, the newline included. -/
lemma rest_tpNextLine_of_line {tp : TextParser} {t l : List UInt8} (ht : chr '\n' ∉ t)
    (h : tp.rest = t ++ chr '\n' :: l) : (tpNextLine tp).rest = l := by
  rw [tpNextLine, rest_advance, rest_tpSkip, h, List.dropWhile_append_of_pos]
  · simp
  · intro c hc
    have hne : c ≠ chr '\n' := fun he => ht (he ▸ hc)
    simpa using hne

/-- The last line of a file without a final newline. -/
lemma rest_tpNextLine_of_last {tp : TextParser} (h : chr '\n' ∉ tp.rest) :
    (tpNextLine tp).rest = [] := by
  have hall : ∀ c ∈ tp.rest, (c != chr '\n') = true := by
    intro c hc
    have hne : c ≠ chr '\n' := fun he => h (he ▸ hc)
    simpa using hne
  rw [tpNextLine, rest_advance, rest_tpSkip, List.dropWhile_eq_nil_iff.2 hall, List.drop_nil]

end VulnerableKext.Host

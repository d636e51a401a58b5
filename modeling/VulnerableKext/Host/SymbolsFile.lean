import VulnerableKext.Host.TextParser
import VulnerableKext.Format

/-!
# The symbol file reader

`parse_kernelcache_symbols_header` and `parse_kernelcache_symbols_symbol`, with
the loop that calls the latter until the end of the file.
-/

namespace VulnerableKext.Host

open TextParser

/-- The separator after the `i`-th byte of the UUID, counted from 0. -/
def tpUuidSep (i : ℕ) (tp : TextParser) : Option TextParser :=
  if i = 3 ∨ i = 5 ∨ i = 7 ∨ i = 9 ∨ i = 15 then
    tpMatch tp (if i = 15 then ascii "\n" else ascii "-")
  else some tp

/-- The bytes of the UUID from the `i`-th on, with the separators that follow them. -/
def parseUuidBytes : (n : ℕ) → ℕ → TextParser → Option (List.Vector UInt8 n × TextParser)
  | 0, _, tp => some (List.Vector.nil, tp)
  | n + 1, i, tp => do
    let (b, tp) ← tpHexByte tp
    let tp ← tpUuidSep i tp
    let (u, tp) ← parseUuidBytes n (i + 1) tp
    return (b ::ᵥ u, tp)

/-- Any "DEVICE" directives and comments, up to and including the empty line. -/
def parseDirectives (tp : TextParser) : Option TextParser :=
  match _h : tpMatch (tpComments tp) (ascii "DEVICE:") with
  | some tp' => parseDirectives (tpNextLine tp')
  | none => tpMatch (tpComments tp) (ascii "\n")
termination_by tp.data.length - tp.p
decreasing_by
  obtain ⟨hlt, hp⟩ := tpMatch_p _h
  have hd := tpMatch_data _h
  have hnext := lt_p_tpNextLine tp'
  have hle := le_p_tpSkipLines (· == chr '#') tp
  simp only [tpComments, data_tpSkipLines] at hlt hd hp
  simp only [data_tpNextLine, hd]
  omega

/-- Parse the header of a kernelcache symbols file and retrieve the kernelcache UUID. -/
def parseKernelcacheSymbolsHeader (tp : TextParser) : Option (Uuid × TextParser) := do
  let tp := tpComments tp
  let tp ← tpMatch tp (ascii "KERNELCACHE UUID:")
  let (_, tp) := tpSpace tp
  let (uuid, tp) ← parseUuidBytes 16 0 tp
  let tp ← parseDirectives tp
  return (uuid, tp)

/-- A symbol name and its address, as they are handed to the caller. -/
abbrev Symbol : Type := List UInt8 × ℕ

/-- The end of a symbol line: a newline or the end of the file. -/
def tpLineEnd (tp : TextParser) : Option TextParser :=
  if tpEnd tp then some tp else tpMatch tp (ascii "\n")

/-- Parse a single symbol.  `some (none, tp)` is a successful call that did not find a symbol
because the file has ended. -/
def parseKernelcacheSymbolsSymbol (tp : TextParser) : Option (Option Symbol × TextParser) :=
  let tp := tpCommentsOrEmpty tp
  if tpEnd tp then some (none, tp)
  else do
    let (ident, tp) ← tpIdent tp
    let (ok, tp) := tpSpace tp
    if !ok then none
    else
      let (address, tp) ← tpHexU64 tp
      let (_, tp) := tpSpace tp
      let tp := tpLineComment tp
      let tp ← tpLineEnd tp
      return (some (ident, address), tp)

/-- The steps of a call that returns a symbol. -/
lemma parseSymbol_eq_some_iff {tp tp' : TextParser} {s : Symbol} :
    parseKernelcacheSymbolsSymbol tp = some (some s, tp') ↔
      tpEnd (tpCommentsOrEmpty tp) = false ∧ ∃ tp₁ tp₂,
        tpIdent (tpCommentsOrEmpty tp) = some (s.1, tp₁) ∧
        tp₁.cur?.any isBlank = true ∧
        tpHexU64 (tpSkip isBlank tp₁) = some (s.2, tp₂) ∧
        tpLineEnd (tpLineComment (tpSkip isBlank tp₂)) = some tp' := by
  obtain ⟨name, addr⟩ := s
  unfold parseKernelcacheSymbolsSymbol
  generalize tpCommentsOrEmpty tp = tp₀
  by_cases hend : tpEnd tp₀ = true
  · simp [hend]
  · rw [Bool.not_eq_true] at hend
    simp only [hend, Bool.false_eq_true, if_false, Option.bind_eq_bind, Option.bind_eq_some_iff,
      Prod.exists, tpSpace, true_and]
    constructor
    · rintro ⟨ident, tp₁, h₁, h⟩
      split_ifs at h with hsp
      simp only [Option.bind_eq_some_iff, Prod.exists] at h
      obtain ⟨addr', tp₂, h₂, tp₃, h₃, h⟩ := h
      simp only [Option.pure_def, Option.some.injEq, Prod.mk.injEq] at h
      obtain ⟨⟨rfl, rfl⟩, rfl⟩ := h
      exact ⟨tp₁, tp₂, h₁, by simpa using hsp, h₂, h₃⟩
    · rintro ⟨tp₁, tp₂, h₁, hsp, h₂, h₃⟩
      refine ⟨name, tp₁, h₁, ?_⟩
      simp [hsp, h₂, h₃]

lemma tpLineEnd_data {tp tp' : TextParser} (h : tpLineEnd tp = some tp') :
    tp'.data = tp.data ∧ tp.p ≤ tp'.p := by
  unfold tpLineEnd at h
  split_ifs at h
  · cases h
    exact ⟨rfl, le_rfl⟩
  · have hp := (tpMatch_p h).2
    exact ⟨tpMatch_data h, by omega⟩

/-- A call that returns a symbol moves the cursor forward. -/
lemma lt_p_of_parseSymbol {tp tp' : TextParser} {s : Symbol}
    (h : parseKernelcacheSymbolsSymbol tp = some (some s, tp')) :
    tp'.data = tp.data ∧ tp.p < tp.data.length ∧ tp.p < tp'.p := by
  obtain ⟨hend, tp₁, tp₂, h₁, -, h₂, h₃⟩ := parseSymbol_eq_some_iff.1 h
  have hp₀ : tp.p ≤ (tpCommentsOrEmpty tp).p := le_p_tpSkipLines _ tp
  have hd₀ : (tpCommentsOrEmpty tp).data = tp.data := data_tpSkipLines _ tp
  obtain ⟨hd₁, hp₁⟩ := tpIdent_data h₁
  obtain ⟨hd₂, hp₂⟩ := tpHexU64_data h₂
  obtain ⟨hd₃, hp₃⟩ := tpLineComment_data (tpSkip isBlank tp₂)
  obtain ⟨hd₄, hp₄⟩ := tpLineEnd_data h₃
  have hs₁ := le_p_tpSkip isBlank tp₁
  have hs₂ := le_p_tpSkip isBlank tp₂
  rw [data_tpSkip] at hd₂ hd₃
  simp only [tpEnd, decide_eq_false_iff_not, not_le] at hend
  refine ⟨by rw [hd₄, hd₃, hd₂, hd₁, hd₀], by rw [← hd₀]; omega, by omega⟩

/-- The symbols of the longest prefix of symbol lines that is valid, and whether the loop got
to the end of the file. -/
def parseSymbols (tp : TextParser) : List Symbol × Bool :=
  match _h : parseKernelcacheSymbolsSymbol tp with
  | none => ([], false)
  | some (none, _) => ([], true)
  | some (some s, tp') =>
    let (syms, ok) := parseSymbols tp'
    (s :: syms, ok)
termination_by tp.data.length - tp.p
decreasing_by
  obtain ⟨hd, hlt, hp⟩ := lt_p_of_parseSymbol _h
  rw [hd]
  omega

/-- A whole symbol file: the header, then every symbol up to the end of the file. -/
def parseSymbolsFile (data : List UInt8) : Option (Uuid × List Symbol) := do
  let (uuid, tp) ← parseKernelcacheSymbolsHeader ⟨data, 0⟩
  let (syms, ok) := parseSymbols tp
  if ok then some (uuid, syms) else none

end VulnerableKext.Host

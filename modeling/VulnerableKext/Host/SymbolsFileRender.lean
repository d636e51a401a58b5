import VulnerableKext.Host.SymbolsFileCorrect

/-!
# Writing symbol files

A writer for the documented format.  What it writes belongs to the grammar, so
the reader gives back the UUID and the symbols it was written from.
-/

namespace VulnerableKext.Host

open Grammar Computability

/-- A digit in lower case. -/
def hexChar (d : ℕ) : UInt8 := lowerHex.getD d 0

/-- The last `n` hexadecimal digits of `v`. -/
def renderHex : ℕ → ℕ → List UInt8
  | 0, _ => []
  | n + 1, v => renderHex n (v / 16) ++ [hexChar (v % 16)]

/-- The bytes of a UUID after the first `k` of them. -/
def renderUuid : ℕ → List UInt8 → List UInt8
  | _, [] => []
  | k, b :: u => renderHex 2 b.toNat ++ (uuidSep (k + 1) ++ renderUuid (k + 1) u)

def renderDevice (device : List UInt8) : List UInt8 :=
  ascii "DEVICE:" ++ ((chr ' ' :: device) ++ [chr '\n'])

def renderSymbol (s : Symbol) : List UInt8 :=
  s.1 ++ ([chr ' '] ++ (ascii "0x" ++ (renderHex 16 s.2 ++ ([] ++ []))))

def renderSymbols : List Symbol → List UInt8
  | [] => []
  | s :: syms => renderSymbol s ++ chr '\n' :: renderSymbols syms

/-- A symbol file with a line for each of the devices. -/
def renderSymbolsFile (devices : List (List UInt8)) (uuid : Uuid) (syms : List Symbol) :
    List UInt8 :=
  [] ++ (ascii "KERNELCACHE UUID:" ++ ([chr ' '] ++ (renderUuid 0 uuid.toList ++
    ((devices.map renderDevice).flatten ++ [chr '\n'])))) ++ renderSymbols syms

lemma isHexDigit_hexChar {d : ℕ} (hd : d < 16) : IsHexDigit (hexChar d) d := by
  have hlen : lowerHex.length = 16 := by decide
  refine Or.inl ?_
  rw [hexChar, List.getD_eq_getElem _ _ (by omega), List.getElem?_eq_getElem]

lemma length_renderHex (n v : ℕ) : (renderHex n v).length = n := by
  induction n generalizing v with
  | zero => rfl
  | succ n ih => rw [renderHex, List.length_append, ih, List.length_singleton]

lemma renderHex_mem {n v : ℕ} (hv : v < 16 ^ n) : renderHex n v ∈ HexDigits n v := by
  induction n generalizing v with
  | zero =>
    obtain rfl : v = 0 := by simpa using hv
    exact ⟨[], .nil, rfl, rfl⟩
  | succ n ih =>
    obtain ⟨ds, hds, hlen, hval⟩ := ih (v := v / 16) (by rw [Nat.pow_succ] at hv; omega)
    refine ⟨ds ++ [v % 16], ?_, by simp [hlen], ?_⟩
    · exact List.rel_append hds (.cons (isHexDigit_hexChar (by omega)) .nil)
    · rw [hexValue_append, hval]
      simp only [hexValue, List.foldl_cons, List.foldl_nil]
      omega

lemma renderUuid_mem (k : ℕ) (u : List UInt8) : renderUuid k u ∈ UuidText k u := by
  induction u generalizing k with
  | nil => rfl
  | cons b u ih =>
    have hb : b.toNat < 16 ^ 2 := b.toNat_lt
    exact Language.append_mem_mul (renderHex_mem hb) (Language.append_mem_mul rfl (ih (k + 1)))

lemma renderDevice_mem {device : List UInt8} (h : chr '\n' ∉ device) :
    renderDevice device ∈ DeviceLine := by
  refine ⟨chr ' ' :: device, ?_, rfl⟩
  simp only [List.mem_cons, not_or]
  exact ⟨by decide, h⟩

lemma renderSymbol_mem {s : Symbol} (hname : s.1 ∈ Name) (haddr : s.2 < 2 ^ 64) :
    renderSymbol s ∈ SymbolLine s := by
  refine ⟨hname, [chr ' '], ?_, by simp, renderHex 16 s.2, renderHex_mem haddr, [], ?_, [],
    Or.inl rfl, rfl⟩
  · exact mem_blanks_iff.2 (by simp [isBlank])
  · exact mem_blanks_iff.2 (by simp)

lemma renderSymbols_body {syms : List Symbol} (h : ∀ s ∈ syms, s.1 ∈ Name ∧ s.2 < 2 ^ 64) :
    Body (renderSymbols syms) syms := by
  induction syms with
  | nil => exact .nil
  | cons s syms ih =>
    have hs := h s (by simp)
    exact .symbol (renderSymbol_mem hs.1 hs.2) (ih fun s hs => h s (by simp [hs]))

lemma renderSymbolsFile_mem {devices : List (List UInt8)} {uuid : Uuid} {syms : List Symbol}
    (hdev : ∀ d ∈ devices, chr '\n' ∉ d) (hsyms : ∀ s ∈ syms, s.1 ∈ Name ∧ s.2 < 2 ^ 64) :
    renderSymbolsFile devices uuid syms ∈ SymbolsFile uuid syms := by
  have hlines : (devices.map renderDevice).flatten ∈ (CommentLine + DeviceLine)∗ := by
    refine Language.join_mem_kstar ?_
    intro w hw
    obtain ⟨d, hd, rfl⟩ := List.mem_map.1 hw
    exact Or.inr (renderDevice_mem (hdev d hd))
  have hblank : [chr ' '] ∈ Blanks := mem_blanks_iff.2 (by simp [isBlank])
  exact Language.append_mem_mul
    (Language.append_mem_mul (Language.nil_mem_kstar _) <| Language.append_mem_mul rfl <|
      Language.append_mem_mul hblank <| Language.append_mem_mul (renderUuid_mem 0 _) <|
        Language.append_mem_mul hlines rfl)
    (renderSymbols_body hsyms)

/-- The reader succeeds exactly on the texts of the grammar, returns exactly what is written in
them, and gives back every UUID and every list of symbols that was written in the documented
format. -/
theorem parseSymbolsFile_accepts_grammar :
    (∀ text, (parseSymbolsFile text).isSome ↔ ∃ uuid syms, text ∈ SymbolsFile uuid syms) ∧
    (∀ text uuid syms,
      parseSymbolsFile text = some (uuid, syms) ↔ text ∈ SymbolsFile uuid syms) ∧
    (∀ devices uuid syms, (∀ d ∈ devices, chr '\n' ∉ d) →
      (∀ s ∈ syms, s.1 ∈ Name ∧ s.2 < 2 ^ 64) →
      parseSymbolsFile (renderSymbolsFile devices uuid syms) = some (uuid, syms)) := by
  refine ⟨fun text => ?_, fun text uuid syms => parseSymbolsFile_eq_some_iff,
    fun devices uuid syms hdev hsyms => ?_⟩
  · rw [Option.isSome_iff_exists]
    constructor
    · rintro ⟨⟨uuid, syms⟩, h⟩
      exact ⟨uuid, syms, parseSymbolsFile_eq_some_iff.1 h⟩
    · rintro ⟨uuid, syms, h⟩
      exact ⟨(uuid, syms), parseSymbolsFile_eq_some_iff.2 h⟩
  · exact parseSymbolsFile_eq_some_iff.2 (renderSymbolsFile_mem hdev hsyms)

theorem parseSymbolsFile_accepts_grammar_panic :
    parseSymbolsFile (renderSymbolsFile [ascii "iPhone10,3 17E262"] (List.Vector.replicate 16 0xed)
      [(ascii "_panic", 0xfffffff0090baa08), (ascii "_memset", 0xfffffff00820b780)]) =
      some (List.Vector.replicate 16 0xed,
        [(ascii "_panic", 0xfffffff0090baa08), (ascii "_memset", 0xfffffff00820b780)]) := by
  have hname (w : List UInt8) (h : w ≠ [] ∧ ∀ c ∈ w, isIdent c = true) : w ∈ Name := h
  refine parseSymbolsFile_accepts_grammar.2.2 _ _ _ (by decide) ?_
  intro s hs
  simp only [List.mem_cons, List.not_mem_nil, or_false] at hs
  rcases hs with rfl | rfl
  · exact ⟨hname _ (by decide +kernel), by norm_num⟩
  · exact ⟨hname _ (by decide +kernel), by norm_num⟩

example : parseSymbolsFile (ascii ("# c\nKERNELCACHE UUID:\tEDCDE691-7210-34F9-9A54-53FE25992E15\n" ++
    "DEVICE:\t\tiPhone10,3 17E262\n\n_IOSleep\t\t0xFFFFFFF00814c550 # c\n\n_panic 0xFFFFFFF0090BAA08")) =
    some (⟨[0xed, 0xcd, 0xe6, 0x91, 0x72, 0x10, 0x34, 0xf9, 0x9a, 0x54, 0x53, 0xfe, 0x25, 0x99,
      0x2e, 0x15], rfl⟩,
      [(ascii "_IOSleep", 0xfffffff00814c550), (ascii "_panic", 0xfffffff0090baa08)]) := by
  decide +kernel

end VulnerableKext.Host

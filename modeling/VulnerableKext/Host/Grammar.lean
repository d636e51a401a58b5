import VulnerableKext.Host.SymbolsFile

/-!
# The grammar of symbol files

The documented format as a family of languages: `SymbolsFile uuid syms` is the
language of the texts that write down the UUID `uuid` and the list `syms` of
names and addresses.  Nothing here mentions the reader.
-/

namespace VulnerableKext.Host.Grammar

open Computability

/-! ## Digits -/

/-- The sixteen digits, in lower and in upper case. -/
def lowerHex : List UInt8 := ascii "0123456789abcdef"

def upperHex : List UInt8 := ascii "0123456789ABCDEF"

/-- The byte `c` is a digit of value `d`. -/
def IsHexDigit (c : UInt8) (d : ℕ) : Prop := lowerHex[d]? = some c ∨ upperHex[d]? = some c

instance (c : UInt8) (d : ℕ) : Decidable (IsHexDigit c d) := inferInstanceAs (Decidable (_ ∨ _))

/-- The number with the given digits, most significant first, after the digits of `v`. -/
def hexValue (v : ℕ) (ds : List ℕ) : ℕ := ds.foldl (fun v d => 16 * v + d) v

/-- The texts of `n` digits that write the number `v`. -/
def HexDigits (n v : ℕ) : Language UInt8 :=
  {w | ∃ ds, List.Forall₂ IsHexDigit w ds ∧ ds.length = n ∧ hexValue 0 ds = v}

/-! ## Lines -/

/-- A line with its newline, whose first byte is one of `f`. -/
def Line (f : UInt8 → Bool) : Language UInt8 :=
  {w | ∃ t, chr '\n' ∉ t ∧ w = t ++ [chr '\n'] ∧ w.head?.any f = true}

def CommentLine : Language UInt8 := Line (· == chr '#')

/-- A comment without its newline. -/
def Comment : Language UInt8 := {w | ∃ t, chr '\n' ∉ t ∧ w = chr '#' :: t}

def DeviceLine : Language UInt8 :=
  {w | ∃ t, chr '\n' ∉ t ∧ w = ascii "DEVICE:" ++ (t ++ [chr '\n'])}

/-- Comment lines and empty lines. -/
def FillerLine : Language UInt8 := Line (fun c => c == chr '#' || c == chr '\n')

def Blanks : Language UInt8 := {w | ∀ c ∈ w, c = chr ' ' ∨ c = chr '\t'}

/-! ## The header -/

/-- What follows the `k`-th byte of a UUID. -/
def uuidSep (k : ℕ) : List UInt8 :=
  if k = 4 ∨ k = 6 ∨ k = 8 ∨ k = 10 then ascii "-" else if k = 16 then ascii "\n" else []

/-- The bytes of a UUID after the first `k` of them, as pairs of digits with separators. -/
def UuidText : ℕ → List UInt8 → Language UInt8
  | _, [] => 1
  | k, b :: u => HexDigits 2 b.toNat * ({uuidSep (k + 1)} * UuidText (k + 1) u)

def Header (uuid : Uuid) : Language UInt8 :=
  CommentLine∗ * ({ascii "KERNELCACHE UUID:"} * (Blanks * (UuidText 0 uuid.toList *
    ((CommentLine + DeviceLine)∗ * {[chr '\n']}))))

/-! ## The body -/

def Name : Language UInt8 := {w | w ≠ [] ∧ ∀ c ∈ w, isIdent c = true}

/-- A symbol line without its newline. -/
def SymbolLine (s : Symbol) : Language UInt8 :=
  {w | s.1 ∈ Name ∧ ∃ b₁ ∈ Blanks, b₁ ≠ [] ∧ ∃ d ∈ HexDigits 16 s.2, ∃ b₂ ∈ Blanks,
    ∃ c ∈ 1 + Comment, w = s.1 ++ (b₁ ++ (ascii "0x" ++ (d ++ (b₂ ++ c))))}

/-- The text is a body that writes the given symbols. -/
inductive Body : List UInt8 → List Symbol → Prop
  | nil : Body [] []
  /-- A comment may end at the end of the file. -/
  | last {w} : w ∈ Comment → Body w []
  | filler {w l syms} : w ∈ FillerLine → Body l syms → Body (w ++ l) syms
  | symbol {w l s syms} : w ∈ SymbolLine s → Body l syms → Body (w ++ chr '\n' :: l) (s :: syms)
  /-- So may a symbol line. -/
  | lastSymbol {w s} : w ∈ SymbolLine s → Body w [s]

def BodyText (syms : List Symbol) : Language UInt8 := {w | Body w syms}

/-- The texts that write the UUID `uuid` and the symbols `syms`. -/
def SymbolsFile (uuid : Uuid) (syms : List Symbol) : Language UInt8 :=
  Header uuid * BodyText syms

/-! ## Files with an invalid line -/

/-- The texts that begin with whole lines for the given symbols; the last of these lines may
also end at the end of the text. -/
def BeginsWith (syms : List Symbol) : Language UInt8 :=
  {text | ∃ w l, text = w ++ l ∧ Body w syms ∧ (l = [] ∨ w = [] ∨ w.getLast? = some (chr '\n'))}

/-- The symbols of the longest prefix of valid lines. -/
def LongestBody (text : List UInt8) (syms : List Symbol) : Prop :=
  text ∈ BeginsWith syms ∧ ∀ syms', text ∈ BeginsWith syms' → syms' <+: syms

end VulnerableKext.Host.Grammar

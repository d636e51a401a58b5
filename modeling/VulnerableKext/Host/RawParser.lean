import VulnerableKext.Host.SymbolsFile
import VulnerableKext.Lib.Memory
import VulnerableKext.Lib.Total

/-!
# The text parser over memory

The helpers and the two parsers of the symbol file reader once more, now as they work on
pointers: the file is the memory from a start pointer up to `e`, and nothing keeps a read
from going elsewhere.  The addresses that are read and the values that the cursor takes are
recorded, which is not part of the program.

The argument `fuel` is the limit on the iterations of every `for (;;)` and `while` loop.
-/

namespace VulnerableKext.Host.Raw

open Memory Total

/-- `struct text_parser`, with the record of what was done. -/
structure RawParser where
  p : ℕ
  e : ℕ
  reads : List ℕ
  cursors : List ℕ

/-- A part of the parser. -/
abbrev Parse (α : Type) : Type := Program RawParser α

/-- Read the byte at an address. -/
def readByte (m : Mem) (a : ℕ) : Parse UInt8 :=
  fun tp => some (m a, { tp with reads := a :: tp.reads })

/-- `tp->p = q` -/
def setP (q : ℕ) : Parse Unit := fun tp => some ((), { tp with p := q, cursors := q :: tp.cursors })

variable (m : Mem)

/-- `tp->p < tp->e && f(*tp->p)` -/
def curIs (f : UInt8 → Bool) : Parse Bool := do
  let tp ← get
  if tp.p < tp.e then do
    let c ← readByte m tp.p
    return f c
  else return false

/-! ## The helpers -/

def tpEnd : Parse Bool := do
  let tp ← get
  return tp.e ≤ tp.p

/-- `while (tp->p < tp->e && f(*tp->p)) tp->p++` -/
def skipIteration (f : UInt8 → Bool) (_ : Unit) : Parse (Iteration Unit Unit) := do
  if ← curIs m f then do
    let tp ← get
    setP (tp.p + 1)
    return .next ()
  else return .exit ()

def tpNextLine (fuel : ℕ) : Parse Unit := do
  loop (skipIteration m (· != chr '\n')) fuel ()
  let tp ← get
  setP (tp.p + 1)

def spaceIteration (skipped : Bool) : Parse (Iteration Bool Bool) := do
  if ← curIs m isBlank then do
    let tp ← get
    setP (tp.p + 1)
    return .next true
  else return .exit skipped

def tpSpace (fuel : ℕ) : Parse Bool := loop (spaceIteration m) fuel false

def tpLineComment (fuel : ℕ) : Parse Unit := do
  if ← curIs m (· == chr '#') then loop (skipIteration m (· != chr '\n')) fuel ()
  else return ()

/-- `while (tp->p < tp->e && f(*tp->p)) tp_next_line(tp)` -/
def linesIteration (fuel : ℕ) (f : UInt8 → Bool) (_ : Unit) : Parse (Iteration Unit Unit) := do
  if ← curIs m f then do
    tpNextLine m fuel
    return .next ()
  else return .exit ()

def tpComments (fuel : ℕ) : Parse Unit := loop (linesIteration m fuel (· == chr '#')) fuel ()

def tpCommentsOrEmpty (fuel : ℕ) : Parse Unit :=
  loop (linesIteration m fuel fun c => c == chr '#' || c == chr '\n') fuel ()

/-- `strncmp(a, str, strlen(str)) == 0` -/
def strncmpEq : ℕ → List UInt8 → Parse Bool
  | _, [] => return true
  | a, c :: str => do
    let b ← readByte m a
    if b = c then strncmpEq (a + 1) str else return false

def tpMatch (str : List UInt8) : Parse Bool := do
  let tp ← get
  if tp.p < tp.e ∧ tp.p + str.length ≤ tp.e then do
    if ← strncmpEq m tp.p str then do
      setP (tp.p + str.length)
      return true
    else return false
  else return false

/-- The loop of `tp_ident` moves a pointer of its own. -/
def identIteration (p : ℕ) : Parse (Iteration ℕ ℕ) := do
  let tp ← get
  if p < tp.e then do
    let ch ← readByte m p
    if isIdent ch then return .next (p + 1) else return .exit p
  else return .exit p

/-- The identifier under the cursor, as its pointer and its length. -/
def tpIdent (fuel : ℕ) : Parse (Option (ℕ × ℕ)) := do
  let tp ← get
  let p ← loop (identIteration m) fuel tp.p
  if p = tp.p then return none
  else do
    setP p
    return some (tp.p, p - tp.p)

def tpHexByte : Parse (Option UInt8) := do
  let tp ← get
  if tp.p + 2 ≤ tp.e then do
    let hi ← readByte m tp.p
    let lo ← readByte m (tp.p + 1)
    match hexDigit hi, hexDigit lo with
    | some hi, some lo => do
      setP (tp.p + 2)
      return some (((UInt8.ofNat hi &&& 0xf) <<< 4) ||| (UInt8.ofNat lo &&& 0xf))
    | _, _ => return none
  else return none

/-- The loop of `tp_hex_u64` over the remaining `n` bytes of the value. -/
def tpHexBytes : ℕ → ℕ → Parse (Option ℕ)
  | 0, v => return some v
  | n + 1, v => do
    match ← tpHexByte m with
    | some byte => tpHexBytes n ((v <<< 8 ||| byte.toNat) % 2 ^ 64)
    | none => return none

/-- `tp_hex_u64` up to its label `fail`. -/
def tpHexU64Try : Parse (Option ℕ) := do
  if ← tpMatch m (ascii "0x") then do
    match ← tpHexBytes m 8 0 with
    | some v => do
      if ← curIs m fun c => (hexDigit c).isSome then return none else return some v
    | none => return none
  else return none

/-- On failure the cursor is moved back to where it was. -/
def tpHexU64 : Parse (Option ℕ) := do
  let b := (← get).p
  match ← tpHexU64Try m with
  | some v => return some v
  | none => do
    setP b
    return none

/-! ## The parsers -/

/-- One byte of the UUID, with the separator after it. -/
def uuidByte (i : ℕ) : Parse (Option UInt8) := do
  match ← tpHexByte m with
  | some b => do
    if i = 3 ∨ i = 5 ∨ i = 7 ∨ i = 9 ∨ i = 15 then do
      if ← tpMatch m (if i = 15 then ascii "\n" else ascii "-") then return some b
      else return none
    else return some b
  | none => return none

/-- The bytes of the UUID from the `i`-th on. -/
def parseUuidBytes : (n : ℕ) → ℕ → Parse (Option (List.Vector UInt8 n))
  | 0, _ => return some List.Vector.nil
  | n + 1, i => do
    match ← uuidByte m i with
    | some b => do
      match ← parseUuidBytes n (i + 1) with
      | some u => return some (b ::ᵥ u)
      | none => return none
    | none => return none

/-- Any "DEVICE" directives and/or comments. -/
def directivesIteration (fuel : ℕ) (_ : Unit) : Parse (Iteration Unit Bool) := do
  tpComments m fuel
  if ← tpMatch m (ascii "DEVICE:") then do
    tpNextLine m fuel
    return .next ()
  else do
    let ok ← tpMatch m (ascii "\n")
    return .exit ok

def parseKernelcacheSymbolsHeader (fuel : ℕ) : Parse (Option Uuid) := do
  tpComments m fuel
  if ← tpMatch m (ascii "KERNELCACHE UUID:") then do
    let _ ← tpSpace m fuel
    match ← parseUuidBytes m 16 0 with
    | some uuid => do
      if ← loop (directivesIteration m fuel) fuel () then return some uuid else return none
    | none => return none
  else return none

/-- At most `n` bytes of the string at `a` are copied. -/
def strndup : (a n : ℕ) → Parse (List UInt8)
  | _, 0 => return []
  | a, n + 1 => do
    let b ← readByte m a
    if b = 0 then return []
    else do
      let s ← strndup (a + 1) n
      return b :: s

/-- `some none` is a successful call that did not find a symbol because the file has ended. -/
def parseKernelcacheSymbolsSymbol (fuel : ℕ) : Parse (Option (Option Symbol)) := do
  tpCommentsOrEmpty m fuel
  if ← tpEnd then return some none
  else
    match ← tpIdent m fuel with
    | none => return none
    | some (ident, len) => do
      if ← tpSpace m fuel then
        match ← tpHexU64 m with
        | none => return none
        | some address => do
          let _ ← tpSpace m fuel
          tpLineComment m fuel
          let ok ← (do if ← tpEnd then return true else tpMatch m (ascii "\n"))
          if ok then do
            let symbol ← strndup m ident len
            return some (some (symbol, address))
          else return none
      else return none

/-- One iteration of the loop over the symbols, with the symbols that were found before. -/
def symbolIteration (fuel : ℕ) (syms : List Symbol) :
    Parse (Iteration (List Symbol) (List Symbol × Bool)) := do
  match ← parseKernelcacheSymbolsSymbol m fuel with
  | none => return .exit (syms, false)
  | some none => return .exit (syms, true)
  | some (some s) => return .next (syms ++ [s])

/-- The loop over the symbols, and whether it got to the end of the file. -/
def parseSymbols (fuel : ℕ) : Parse (List Symbol × Bool) := loop (symbolIteration m fuel) fuel []

/-- A whole symbol file. -/
def parseSymbolsFile (fuel : ℕ) : Parse (Option (Uuid × List Symbol)) := do
  match ← parseKernelcacheSymbolsHeader m fuel with
  | none => return none
  | some uuid => do
    let (syms, ok) ← parseSymbols m fuel
    if ok then return some (uuid, syms) else return none

end VulnerableKext.Host.Raw

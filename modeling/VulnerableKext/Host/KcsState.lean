import VulnerableKext.Host.SymbolsFileCorrect
import VulnerableKext.Lib.TermString

/-!
# The intermediate representation of the symbol files

`kernelcache_symbol_table_update_directory` reads every symbol file of a directory
into a `kcs_state`.  The state keeps one entry for each UUID and one pool of strings
for all of them; a name that occurs anywhere in the pool, also as the tail of another
name, is not added again.

The counters of the source have 32 bits.  A counter that would wrap around indexes
outside of its array, and the assertion on the offset of a new string ends the
program: both leave no next state.
-/

namespace VulnerableKext.Host

open TextParser

structure KcsSym where
  off : ℕ
  addr : ℕ
deriving DecidableEq, Repr

/-- The field `symcnt` is the length of `syms`. -/
structure KcsKc where
  uuid : Uuid
  syms : List KcsSym
deriving DecidableEq

/-- The fields `kccnt` and `symsize` are the lengths of `kcs` and `symstr`. -/
structure KcsState where
  kcs : List KcsKc
  maxsymcnt : ℕ
  symstr : List UInt8
deriving DecidableEq

def KcsState.initial : KcsState := ⟨[], 0, []⟩

/-- A directory entry, with the contents of the file when it can be read. -/
structure Dirent where
  isReg : Bool
  name : List UInt8
  contents : Option (List UInt8)

/-- Map a file for reading.  An empty file can not be mapped. -/
def mapFile (e : Dirent) : Option (List UInt8) := e.contents.filter (· ≠ [])

/-- The entries that are processed: regular files, not hidden, with the extension ".txt". -/
def Dirent.isSymbolsFile (e : Dirent) : Bool :=
  e.isReg && e.name.head? != some (chr '.') && (ascii ".txt").length < e.name.length
    && e.name.drop (e.name.length - (ascii ".txt").length) == ascii ".txt"

/-- Insert a symbol in the array of the kernelcache, and its name in the pool. -/
def insertSymbol (kc : KcsKc) (symstr : List UInt8) (s : Symbol) : Option (KcsKc × List UInt8) :=
  if kc.syms.length + 1 < 2 ^ 32 then
    match Term.find (s.1 ++ [0]) symstr with
    | some offset => some ({ kc with syms := kc.syms ++ [⟨offset % 2 ^ 32, s.2⟩] }, symstr)
    | none =>
      if symstr.length < 2 ^ 32 then
        some ({ kc with syms := kc.syms ++ [⟨symstr.length, s.2⟩] }, symstr ++ (s.1 ++ [0]))
      else none
  else none

/-- Parse the symbols of a file, and insert each of them before the next one is parsed. -/
def updateSymbols (kc : KcsKc) (symstr : List UInt8) (tp : TextParser) :
    Option (KcsKc × List UInt8) :=
  match _h : parseKernelcacheSymbolsSymbol tp with
  | none => some (kc, symstr)
  | some (none, _) => some (kc, symstr)
  | some (some s, tp') =>
    (insertSymbol kc symstr s).bind fun (kc, symstr) => updateSymbols kc symstr tp'
termination_by tp.data.length - tp.p
decreasing_by
  obtain ⟨hd, hlt, hp⟩ := lt_p_of_parseSymbol _h
  rw [hd]
  omega

/-- The entry of a UUID, which is allocated when it does not exist yet. -/
def KcsState.entryFor (state : KcsState) (uuid : Uuid) : Option (ℕ × List KcsKc) :=
  match state.kcs.findIdx? (·.uuid == uuid) with
  | some i => some (i, state.kcs)
  | none =>
    if state.kcs.length + 1 < 2 ^ 32 then some (state.kcs.length, state.kcs ++ [⟨uuid, []⟩])
    else none

/-- Put the entry back after the symbols of a file have been added to it. -/
def KcsState.putEntry (kcs : List KcsKc) (i maxsymcnt : ℕ) (kc : KcsKc) (symstr : List UInt8) :
    KcsState :=
  { kcs := kcs.set i kc, maxsymcnt := max maxsymcnt kc.syms.length, symstr }

/-- Update the state with a mapped symbol file. -/
def KcsState.updateFile (state : KcsState) (data : List UInt8) : Option KcsState :=
  match parseKernelcacheSymbolsHeader ⟨data, 0⟩ with
  | none => some state
  | some (uuid, tp) => do
    let (i, kcs) ← state.entryFor uuid
    let (kc, symstr) ← updateSymbols (kcs[i]?.getD ⟨uuid, []⟩) state.symstr tp
    return putEntry kcs i state.maxsymcnt kc symstr

/-- Update the state with a directory entry. -/
def KcsState.updateEntry (state : KcsState) (e : Dirent) : Option KcsState :=
  if e.isSymbolsFile then
    match mapFile e with
    | none => some state
    | some data => state.updateFile data
  else some state

/-- Update a partial kernelcache symbol table state with the kernelcache symbols files in a
directory, when it can be opened. -/
def kernelcacheSymbolTableUpdateDirectory (state : KcsState) (dir : Option (List Dirent)) :
    Option KcsState :=
  match dir with
  | none => some state
  | some entries => entries.foldlM KcsState.updateEntry state

/-- The first half of `kernelcache_symbol_table_generate`. -/
def collectSymbols (dirs : List (Option (List Dirent))) : Option KcsState :=
  dirs.foldlM kernelcacheSymbolTableUpdateDirectory .initial

/-! ## The files that are read -/

/-- The UUID and the symbols of a file: those before the first invalid line. -/
abbrev ParsedFile : Type := Uuid × List Symbol

def parsedFile (data : List UInt8) : Option ParsedFile :=
  (parseKernelcacheSymbolsHeader ⟨data, 0⟩).map fun (uuid, tp) => (uuid, (parseSymbols tp).1)

/-- What a directory entry contributes. -/
def Dirent.parsedFile? (e : Dirent) : Option ParsedFile :=
  if e.isSymbolsFile then (mapFile e).bind parsedFile else none

/-- The files of all directories in the order in which they are read. -/
def parsedFiles (dirs : List (Option (List Dirent))) : List ParsedFile :=
  dirs.flatMap fun dir => (dir.getD []).filterMap Dirent.parsedFile?

/-- The symbols that the files give for a UUID. -/
def symbolsFor (uuid : Uuid) (files : List ParsedFile) : List Symbol :=
  (files.filter (·.1 == uuid)).flatMap Prod.snd

/-- Insert the symbols of a file that has been parsed. -/
def insertSymbols (kc : KcsKc) (symstr : List UInt8) (syms : List Symbol) :
    Option (KcsKc × List UInt8) :=
  syms.foldlM (fun k s => insertSymbol k.1 k.2 s) (kc, symstr)

def KcsState.addFile (state : KcsState) (f : ParsedFile) : Option KcsState := do
  let (i, kcs) ← state.entryFor f.1
  let (kc, symstr) ← insertSymbols (kcs[i]?.getD ⟨f.1, []⟩) state.symstr f.2
  return putEntry kcs i state.maxsymcnt kc symstr

/-- Parsing and inserting in turns is parsing first and inserting afterwards. -/
lemma updateSymbols_eq (kc : KcsKc) (symstr : List UInt8) (tp : TextParser) :
    updateSymbols kc symstr tp = insertSymbols kc symstr (parseSymbols tp).1 := by
  fun_induction updateSymbols kc symstr tp with
  | case1 kc symstr tp h =>
    rw [parseSymbols]
    split <;> simp_all [insertSymbols]
  | case2 kc symstr tp tp' h =>
    rw [parseSymbols]
    split <;> simp_all [insertSymbols]
  | case3 kc symstr tp s tp' h ih =>
    have hp : (parseSymbols tp).1 = s :: (parseSymbols tp').1 := by
      rw [parseSymbols]
      split <;> simp_all
    rw [hp, insertSymbols, List.foldlM_cons]
    exact Option.bind_congr fun k _ => ih k.1 k.2

lemma updateFile_eq (state : KcsState) (data : List UInt8) :
    state.updateFile data = ((parsedFile data).elim (some state) state.addFile) := by
  unfold KcsState.updateFile parsedFile
  cases parseKernelcacheSymbolsHeader ⟨data, 0⟩ with
  | none => rfl
  | some h => simp only [updateSymbols_eq, Option.map_some, Option.elim_some, KcsState.addFile]

lemma updateEntry_eq (state : KcsState) (e : Dirent) :
    state.updateEntry e = e.parsedFile?.elim (some state) state.addFile := by
  unfold KcsState.updateEntry Dirent.parsedFile?
  split_ifs
  · cases mapFile e with
    | none => rfl
    | some data => exact updateFile_eq state data
  · rfl

lemma updateDirectory_eq (state : KcsState) (dir : Option (List Dirent)) :
    kernelcacheSymbolTableUpdateDirectory state dir =
      ((dir.getD []).filterMap Dirent.parsedFile?).foldlM KcsState.addFile state := by
  cases dir with
  | none => rfl
  | some entries =>
    simp only [kernelcacheSymbolTableUpdateDirectory, Option.getD_some]
    induction entries generalizing state with
    | nil => rfl
    | cons e entries ih =>
      rw [List.foldlM_cons, updateEntry_eq]
      cases he : e.parsedFile? with
      | none => rw [List.filterMap_cons_none he, ← ih]; rfl
      | some f =>
        rw [List.filterMap_cons_some he, List.foldlM_cons]
        exact Option.bind_congr fun state' _ => ih state'

/-- Only the files count, not how they are spread over the directories. -/
lemma collectSymbols_eq (dirs : List (Option (List Dirent))) :
    collectSymbols dirs = (parsedFiles dirs).foldlM KcsState.addFile .initial := by
  unfold collectSymbols parsedFiles
  generalize KcsState.initial = state
  induction dirs generalizing state with
  | nil => rfl
  | cons dir dirs ih =>
    rw [List.foldlM_cons, List.flatMap_cons, List.foldlM_append, updateDirectory_eq]
    exact Option.bind_congr fun state' _ => ih state'

end VulnerableKext.Host

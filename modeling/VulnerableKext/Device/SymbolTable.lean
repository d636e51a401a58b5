import VulnerableKext.Lib.TermString

/-!
# Installed symbol tables and their lookup

The chain of `kernelcache_symbol_table` blocks on the device.  A lookup compares
C strings in place, so it depends on the strings being terminated inside their
table: `none` is a lookup that reads outside of the installed tables.

The meaning of a chain is given by `find` on names and addresses, without any
strings in memory; on sound tables the lookup computes it.
-/

namespace VulnerableKext.Device

/-- An in-memory symbol table for the current kernelcache. -/
structure KernelcacheSymbolTable where
  /-- The arrays `symbol` and `address`, entry by entry.  A symbol is a pointer, given by its
  offset from the start of the string area of the table. -/
  entries : List (ℕ × ℕ)
  /-- The string area, which is the table's own copy. -/
  strings : List UInt8
deriving DecidableEq, Repr

namespace KernelcacheSymbolTable

def count (t : KernelcacheSymbolTable) : ℕ := t.entries.length

/-- The string at a symbol pointer, when it ends inside the table. -/
def nameAt (t : KernelcacheSymbolTable) (symbol : ℕ) : Option (List UInt8) :=
  Term.read 0 (t.strings.drop symbol)

/-- Every symbol of the table is a string that ends inside the table. -/
def Sound (t : KernelcacheSymbolTable) : Prop :=
  ∀ e ∈ t.entries, (t.nameAt e.1).isSome

end KernelcacheSymbolTable

open KernelcacheSymbolTable

/-- `strcmp(m, name) == 0` for the memory `m` from a symbol pointer to the end of its table, and
a name that is not itself in the table; `none` when the comparison runs past the end. -/
def strcmp : List UInt8 → List UInt8 → Option Bool
  | [], _ => none
  | c :: _, [] => some (c == 0)
  | c :: m, d :: name => if c = d then strcmp m name else some false

/-- The inner loop of the lookup. -/
def lookupEntries (strings name : List UInt8) : List (ℕ × ℕ) → Option (Option ℕ)
  | [] => some none
  | e :: es =>
    match strcmp (strings.drop e.1) name with
    | none => none
    | some true => some (some e.2)
    | some false => lookupEntries strings name es

/-- Look up the static kernelcache address corresponding to the given named symbol. -/
def kernelcacheSymbolTableLookup : List KernelcacheSymbolTable → List UInt8 → Option ℕ
  | [], _ => some 0
  | t :: chain, name =>
    match lookupEntries t.strings name t.entries with
    | none => none
    | some (some address) => some address
    | some none => kernelcacheSymbolTableLookup chain name

/-! ## What a chain means -/

/-- The address of the first entry with the given name. -/
def KernelcacheSymbolTable.find? (t : KernelcacheSymbolTable) (name : List UInt8) : Option ℕ :=
  (t.entries.find? fun e => t.nameAt e.1 == some name).map Prod.snd

/-- The address in the most recently installed table that contains the name, and 0 when no
table contains it. -/
def resolve (chain : List KernelcacheSymbolTable) (name : List UInt8) : ℕ :=
  (chain.findSome? fun t => t.find? name).getD 0

lemma strcmp_of_read {m s name : List UInt8} (h : Term.read 0 m = some s) (hname : 0 ∉ name) :
    strcmp m name = some (s == name) := by
  induction m generalizing s name with
  | nil => simp [Term.read] at h
  | cons c m ih =>
    rw [Term.read] at h
    split_ifs at h with hc
    · obtain rfl : [] = s := by simpa using h
      cases name with
      | nil => simp [strcmp, hc]
      | cons d name =>
        simp only [List.mem_cons, not_or] at hname
        have hcd : c ≠ d := by
          rw [hc]
          exact hname.1
        simp [strcmp, hcd]
    · obtain ⟨s', hs', rfl⟩ := Option.map_eq_some_iff.1 h
      cases name with
      | nil => simp [strcmp, hc]
      | cons d name =>
        simp only [List.mem_cons, not_or] at hname
        by_cases hcd : c = d
        · rw [strcmp, if_pos hcd, ih hs' hname.2, hcd]
          simp
        · rw [strcmp, if_neg hcd]
          simp [hcd]

lemma lookupEntries_eq {t : KernelcacheSymbolTable} {name : List UInt8} (hname : 0 ∉ name)
    {es : List (ℕ × ℕ)} (h : ∀ e ∈ es, (t.nameAt e.1).isSome) :
    lookupEntries t.strings name es =
      some ((es.find? fun e => t.nameAt e.1 == some name).map Prod.snd) := by
  induction es with
  | nil => rfl
  | cons e es ih =>
    obtain ⟨s, hs⟩ := Option.isSome_iff_exists.1 (h e (by simp))
    have hcmp : strcmp (t.strings.drop e.1) name = some (s == name) := strcmp_of_read hs hname
    rw [lookupEntries, hcmp]
    by_cases hsn : s = name
    · subst hsn
      simp [hs]
    · have hbeq : (s == name) = false := by simpa using hsn
      rw [hbeq, List.find?_cons_of_neg (by simpa [hs] using hsn)]
      exact ih fun e he => h e (by simp [he])

lemma lookupEntries_eq_find? {t : KernelcacheSymbolTable} {name : List UInt8} (hname : 0 ∉ name)
    (h : t.Sound) : lookupEntries t.strings name t.entries = some (t.find? name) :=
  lookupEntries_eq hname h

/-- A table in front of a chain does not disturb the lookups that it can not answer. -/
lemma lookup_cons_of_sound {t : KernelcacheSymbolTable} {chain : List KernelcacheSymbolTable}
    {name : List UInt8} (hname : 0 ∉ name) (ht : t.Sound) :
    kernelcacheSymbolTableLookup (t :: chain) name =
      (t.find? name).or (kernelcacheSymbolTableLookup chain name) := by
  rw [kernelcacheSymbolTableLookup, lookupEntries_eq_find? hname ht]
  cases t.find? name <;> rfl

/-- On sound tables the lookup stays inside the tables and finds the entry it is meant to. -/
lemma lookup_eq_resolve {chain : List KernelcacheSymbolTable} {name : List UInt8}
    (hname : 0 ∉ name) (h : ∀ t ∈ chain, t.Sound) :
    kernelcacheSymbolTableLookup chain name = some (resolve chain name) := by
  induction chain with
  | nil => rfl
  | cons t chain ih =>
    rw [lookup_cons_of_sound hname (h t (by simp)), ih fun t ht => h t (by simp [ht])]
    cases hf : t.find? name with
    | none => simp [resolve, hf]
    | some address => simp [resolve, hf]

end VulnerableKext.Device

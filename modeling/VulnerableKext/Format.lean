import VulnerableKext.Lib.Bytes

/-!
# The binary format of kernelcache symbol table upload data

The format that the comment in both programs documents, as a relation between an
upload, a UUID and what the upload says about it.  It mentions neither the
serialiser nor the decoder.

    u32 kernelcache_count;
    u32 symbol_strings_offset;
    kernelcache_count * { u8 kernelcache_uuid[16]; u32 kernelcache_symbols_offset; };
    @ kernelcache_symbols_offset:
    { u32 symbol_count; symbol_count * { u32 symbol_offset; u64 address; }; };
    @ symbol_strings_offset:
    char symbol_strings[];
-/

namespace VulnerableKext

open Bytes

/-- A kernelcache UUID. -/
abbrev Uuid : Type := List.Vector UInt8 16

namespace Format

/-- The `i`-th descriptor is the first one for `uuid` and gives the offset `o`. -/
def DescriptorAt (data : List UInt8) (uuid : Uuid) (i o : ℕ) : Prop :=
  window data (8 + 20 * i) 16 = some uuid.toList ∧
    readLE data (8 + 20 * i + 16) 4 = some o ∧
    ∀ j < i, window data (8 + 20 * j) 16 ≠ some uuid.toList

/-- The entry at position `q`: a string offset and an address. -/
def entry (data : List UInt8) (q : ℕ) : Option (ℕ × ℕ) :=
  (readLE data q 4).bind fun symbolOffset =>
    (readLE data (q + 4) 8).map fun address => (symbolOffset, address)

/-- The symbol list at offset `o` is `entries`. -/
def EntriesAt (data : List UInt8) (o : ℕ) (entries : List (ℕ × ℕ)) : Prop :=
  readLE data o 4 = some entries.length ∧
    ∀ k (h : k < entries.length), entry data (o + 4 + 12 * k) = some entries[k]

/-- Everything that the format asks of an upload except that the symbols point into the string
area: the header, the descriptor of the UUID and those before it, the symbol count and all
entries are in bounds, and the string area is not empty and ends with a zero byte. -/
def Framed (data : List UInt8) (uuid : Uuid) (entries : List (ℕ × ℕ)) (strings : List UInt8) :
    Prop :=
  ∃ n stringsOffset i o, readLE data 0 4 = some n ∧ readLE data 4 4 = some stringsOffset ∧
    i < n ∧ DescriptorAt data uuid i o ∧ EntriesAt data o entries ∧
    stringsOffset ≤ data.length ∧ strings = data.drop stringsOffset ∧ strings.getLast? = some 0

/-- The upload describes the symbols of the kernelcache `uuid` by these entries and strings. -/
def Describes (data : List UInt8) (uuid : Uuid) (entries : List (ℕ × ℕ)) (strings : List UInt8) :
    Prop :=
  Framed data uuid entries strings ∧ ∀ e ∈ entries, e.1 < strings.length

lemma entry_eq_some_iff {data : List UInt8} {q : ℕ} {e : ℕ × ℕ} :
    entry data q = some e ↔ readLE data q 4 = some e.1 ∧ readLE data (q + 4) 8 = some e.2 := by
  obtain ⟨off, a⟩ := e
  simp only [entry, Option.bind_eq_some_iff, Option.map_eq_some_iff, Prod.mk.injEq]
  constructor
  · rintro ⟨_, h₁, _, h₂, rfl, rfl⟩
    exact ⟨h₁, h₂⟩
  · rintro ⟨h₁, h₂⟩
    exact ⟨off, h₁, a, h₂, rfl, rfl⟩

end Format

end VulnerableKext

import VulnerableKext.Host.SymbolsFileRender
import VulnerableKext.Kext.Load

/-!
# Announcing a kernel extension

`kext_insert` adds a dictionary to the property list in the section `__PRELINK_INFO.__info`
of the kernelcache.  It works from the end of the section towards its start: one loop runs
over the zeros behind the text, and a second one looks for the closing tags of the list.
Only the second one compares its pointer with the start of the section.

The section is a part of the memory, and so is its header, whose address is what
`macho_get_section` returns.  Beside the two loops there are the positions that they
examine; these are not part of the program.
-/

namespace VulnerableKext.Kext

open Memory
open Host (ascii)

/-! ## The texts -/

/-- The lines of the constant `prelink_info_str`. -/
def prelinkInfoLines : List String := [
  "<dict>", "<key>CFBundleName</key>", "<string>KTRW_NNN0</string>",
  "<key>CFBundleIdentifier</key>", "<string>com.apple.kec.KTRW_NNN1</string>",
  "<key>CFBundleInfoDictionaryVersion</key>", "<string>6.0</string>",
  "<key>OSBundleCompatibleVersion</key>", "<string>1.0.0d1</string>",
  "<key>CFBundleVersion</key>", "<string>1.0.0</string>", "<key>CFBundleExecutable</key>",
  "<string>KTRW_HAX</string>", "<key>CFBundleSignature</key>", "<string>????</string>",
  "<key>CFBundlePackageType</key>", "<string>KEXT</string>",
  "<key>CFBundleDevelopmentRegion</key>", "<string>English</string>",
  "<key>CFBundleShortVersionString</key>", "<string>1.0.0</string>",
  "<key>CFBundleSupportedPlatforms</key>", "<array>", "<string>iPhoneOS</string>", "</array>",
  "<key>AppleKernelExternalComponent</key>", "<true/>",
  "<key>_PrelinkExecutableRelativePath</key>", "<string>KTRW_HAX</string>",
  "<key>_PrelinkExecutableLoadAddr</key>", "<integer size=\"64\">0xADDRESS_________</integer>",
  "<key>_PrelinkExecutableSize</key>", "<integer size=\"64\">0xSIZE____________</integer>",
  "<key>_PrelinkKmodInfo</key>", "<integer size=\"64\">0xKMODINFO________</integer>",
  "<key>UIRequiredDeviceCapabilities</key>", "<array>", "<string>arm64</string>", "</array>",
  "<key>MinimumOSVersion</key>", "<string>13.3</string>", "<key>IOKitPersonalities</key>",
  "<dict>", "</dict>", "<key>OSBundleLibraries</key>", "<dict>", "<key>com.apple.kpi.bsd</key>",
  "<string>8.0.0b1</string>", "<key>com.apple.kpi.libkern</key>", "<string>8.0.0b2</string>",
  "<key>com.apple.kpi.mach</key>", "<string>8.0.0b2</string>", "<key>com.apple.kpi.iokit</key>",
  "<string>8.0.0b2</string>", "<key>com.apple.kpi.unsupported</key>", "<string>8.0</string>",
  "</dict>", "<key>UIDeviceFamily</key>", "<array>", "<integer IDREF=\"2\"/>", "</array>",
  "</dict>"]

/-- A `__PRELINK_INFO.__info` `OSUnserializeXML` dictionary describing the kernel extension. -/
@[irreducible] def prelinkInfoStr : List UInt8 := prelinkInfoLines.flatMap ascii

/-- The closing tags at the end of the section. -/
def prelinkInfoEnd : List UInt8 := ascii "</array></dict>"

/-! ## Writing -/

/-- A table for converting a hexadecimal digit into its character representation. -/
def hexChar : List UInt8 := ascii "0123456789abcdef"

/-- Format a value as an `n`-character hexadecimal numeric string. -/
def formatHex (m : Mem) (buf : ℕ) : (n value : ℕ) → Mem
  | 0, _ => m
  | n + 1, value =>
    formatHex (storeBytes m (buf + n) [hexChar.getD (value % 16) 0]) buf n (value / 16)

/-- Copy a string and its terminator. -/
def strcpy (m : Mem) (dst : ℕ) (s : List UInt8) : Mem := storeBytes m dst (s ++ [0])

/-- The first occurrence of `needle` in the `n` bytes at `a`. -/
def memmem (m : Mem) (a n : ℕ) (needle : List UInt8) : Option ℕ :=
  (Term.find needle ((List.range n).map fun i => m (a + i))).map (a + ·)

/-! ## The section -/

/-- Fields of a `section_64`. -/
def sectAddr (m : Mem) (sect : ℕ) : ℕ := word m (sect + 32) 8
def sectSize (m : Mem) (sect : ℕ) : ℕ := word m (sect + 40) 8
def sizeofSection : ℕ := 80

/-- The string at `p` is `</array></dict>`. -/
def TailAt (m : Mem) (p : ℕ) : Prop := HoldsAt m p (prelinkInfoEnd ++ [0])

instance (m : Mem) (p : ℕ) : Decidable (TailAt m p) := inferInstanceAs (Decidable (HoldsAt _ _ _))

/-- `while (p[-1] == 0) p--`; it does not end when everything in front of `p` is zero. -/
def trimZeros (m : Mem) : (p : ℕ) → Option ℕ
  | 0 => none
  | p + 1 => if m p = 0 then trimZeros m p else some (p + 1)

/-- The positions that this loop examines. -/
def trimReads (m : Mem) : (p : ℕ) → List ℕ
  | 0 => []
  | p + 1 => p :: if m p = 0 then trimReads m p else []

/-- The search for the closing tags; there is no result when they are not found. -/
def findTail (m : Mem) (begin' : ℕ) : (p : ℕ) → Option ℕ
  | 0 => if TailAt m 0 then some 0 else none
  | p + 1 =>
    if TailAt m (p + 1) then some (p + 1)
    else if p + 1 ≤ begin' then none
    else findTail m begin' p

/-- The positions that `strcmp` examines when it compares the string at `p` with `s`. -/
def strcmpReads (m : Mem) : (p : ℕ) → (s : List UInt8) → List ℕ
  | _, [] => []
  | p, c :: s => p :: if m p = c then strcmpReads m (p + 1) s else []

/-- The positions that the search examines. -/
def findReads (m : Mem) (begin' : ℕ) : (p : ℕ) → List ℕ
  | 0 => strcmpReads m 0 (prelinkInfoEnd ++ [0])
  | p + 1 =>
    strcmpReads m (p + 1) (prelinkInfoEnd ++ [0]) ++
      if TailAt m (p + 1) ∨ p + 1 ≤ begin' then [] else findReads m begin' p

/-- The memory and the variable `kext_id`. -/
structure LoaderState where
  mem : Mem
  kextId : UInt32

/-- Write the dictionary over the closing tags at `p` and the closing tags behind it. -/
def insertAt (k : KernelLayout) (info : KextLoadInfo) (sect p : ℕ) (s : LoaderState) :
    Option LoaderState := do
  let m := strcpy s.mem p prelinkInfoStr
  let infoSize := prelinkInfoStr.length
  let m := strcpy m (p + infoSize) prelinkInfoEnd
  -- Patch up the info dict fields.
  let nnn0 ← memmem m p infoSize (ascii "NNN0")
  let nnn1 ← memmem m p infoSize (ascii "NNN1")
  let address ← memmem m p infoSize (ascii "ADDRESS")
  let size ← memmem m p infoSize (ascii "SIZE")
  let kmodinfo ← memmem m p infoSize (ascii "KMODINFO")
  let m := formatHex m address 16 (k.saForPtr info.kext)
  let m := formatHex m size 16 info.vmSize
  let m := formatHex m kmodinfo 16 (k.saForPtr info.kmodInfo)
  let m := formatHex m nnn0 4 s.kextId.toNat
  let m := formatHex m nnn1 4 s.kextId.toNat
  -- Adjust the __PRELINK_INFO metadata.
  let m := storeWord m (sect + 40) 8 ((sectSize m sect + infoSize) % 2 ^ 64)
  return ⟨m, s.kextId + 1⟩

/-- Insert the kernel extension into the `__PRELINK_INFO.__info` section, whose header is at
`sect`.  There is no result when the first loop runs through the whole memory. -/
def kextInsert (k : KernelLayout) (info : KextLoadInfo) (sect : ℕ) (s : LoaderState) :
    Option LoaderState := do
  let begin' := k.ptrForVa (sectAddr s.mem sect)
  let p ← trimZeros s.mem (begin' + sectSize s.mem sect)
  match findTail s.mem begin' p with
  -- "Could not insert kernel extension into __PRELINK_INFO.__info"
  | none => return s
  | some p => insertAt k info sect p s

/-! ## The two loops -/

section Loops

variable {m : Mem} {begin' p q a b : ℕ} {s : List UInt8}

/-- The first loop ends behind the last byte that is not zero. -/
lemma trimZeros_eq_some_iff :
    trimZeros m p = some (a + 1) ↔ a < p ∧ m a ≠ 0 ∧ ∀ b, a < b → b < p → m b = 0 := by
  induction p with
  | zero => simp [trimZeros]
  | succ p ih =>
    rw [trimZeros]
    by_cases hz : m p = 0
    · -- the loop goes on with what is in front of `p`
      rw [if_pos hz, ih]
      constructor
      · rintro ⟨hlt, hne, hzero⟩
        refine ⟨by omega, hne, fun b hab hbp => ?_⟩
        rcases Nat.lt_succ_iff_lt_or_eq.1 hbp with hlt' | rfl
        · exact hzero b hab hlt'
        · exact hz
      · rintro ⟨hlt, hne, hzero⟩
        have hap : a ≠ p := by
          rintro rfl
          exact hne hz
        exact ⟨by omega, hne, fun b hab hbp => hzero b hab (by omega)⟩
    · -- the loop ends here
      rw [if_neg hz, Option.some_inj]
      constructor
      · intro heq
        obtain rfl : p = a := by omega
        exact ⟨by omega, hz, fun b hab hbp => by omega⟩
      · rintro ⟨hlt, -, hzero⟩
        by_contra hne
        exact hz (hzero p (by omega) (by omega))

lemma exists_of_trimZeros (h : trimZeros m p = some q) : ∃ a, q = a + 1 := by
  induction p with
  | zero => cases h
  | succ p ih =>
    rw [trimZeros] at h
    split_ifs at h
    · exact ih h
    · exact ⟨p, (Option.some.inj h).symm⟩

/-- It ends when there is a byte that is not zero, and not in front of it. -/
lemma exists_trimZeros (hne : m a ≠ 0) (hap : a < p) :
    ∃ b, a ≤ b ∧ trimZeros m p = some (b + 1) := by
  induction p with
  | zero => omega
  | succ p ih =>
    rw [trimZeros]
    split_ifs with hz
    · have hap' : a ≠ p := by
        rintro rfl
        exact hne hz
      exact ih (by omega)
    · exact ⟨p, by omega, rfl⟩

lemma mem_trimReads : b ∈ trimReads m p ↔ b < p ∧ ∀ c, b < c → c < p → m c = 0 := by
  induction p with
  | zero => simp [trimReads]
  | succ p ih =>
    rw [trimReads, List.mem_cons]
    constructor
    · rintro (rfl | hmem)
      · exact ⟨by omega, fun c hbc hcp => by omega⟩
      · split_ifs at hmem with hz
        · obtain ⟨hlt, hzero⟩ := ih.1 hmem
          refine ⟨by omega, fun c hbc hcp => ?_⟩
          rcases Nat.lt_succ_iff_lt_or_eq.1 hcp with hlt' | rfl
          · exact hzero c hbc hlt'
          · exact hz
        · cases hmem
    · rintro ⟨hlt, hzero⟩
      rcases Nat.lt_succ_iff_lt_or_eq.1 hlt with hlt' | rfl
      · rw [if_pos (hzero p hlt' (by omega))]
        exact Or.inr (ih.2 ⟨hlt', fun c hbc hcp => hzero c hbc (by omega)⟩)
      · exact Or.inl rfl

/-- The first loop ends without looking in front of the section when something in the section is
not zero, and only then. -/
lemma trim_inside_iff :
    ((∃ q, trimZeros m p = some q) ∧ ∀ b ∈ trimReads m p, begin' ≤ b) ↔
      ∃ a, begin' ≤ a ∧ a < p ∧ m a ≠ 0 := by
  constructor
  · rintro ⟨⟨q, hq⟩, hreads⟩
    obtain ⟨a, rfl⟩ := exists_of_trimZeros hq
    obtain ⟨hap, hne, hzero⟩ := trimZeros_eq_some_iff.1 hq
    exact ⟨a, hreads a (mem_trimReads.2 ⟨hap, hzero⟩), hap, hne⟩
  · rintro ⟨a, hba, hap, hne⟩
    obtain ⟨b, -, hb⟩ := exists_trimZeros hne hap
    refine ⟨⟨_, hb⟩, fun c hc => ?_⟩
    -- a position in front of the section would have `a` behind it
    by_contra hlt
    exact hne ((mem_trimReads.1 hc).2 a (by omega) hap)

/-- The search ends at the last occurrence. -/
lemma findTail_spec (h : findTail m begin' p = some q) (hp : begin' ≤ p) :
    begin' ≤ q ∧ q ≤ p ∧ TailAt m q ∧ ∀ r, q < r → r ≤ p → ¬ TailAt m r := by
  induction p with
  | zero =>
    rw [findTail] at h
    split_ifs at h with htail
    obtain rfl : 0 = q := Option.some.inj h
    exact ⟨hp, le_rfl, htail, fun r hr hr' => by omega⟩
  | succ p ih =>
    rw [findTail] at h
    split_ifs at h with htail hle
    · obtain rfl : p + 1 = q := Option.some.inj h
      exact ⟨hp, le_rfl, htail, fun r hr hr' => by omega⟩
    · obtain ⟨hbegin, hqp, hq, hlast⟩ := ih h (by omega)
      refine ⟨hbegin, by omega, hq, fun r hr hr' => ?_⟩
      rcases Nat.le_succ_iff.1 hr' with hle' | rfl
      · exact hlast r hr hle'
      · exact htail

lemma findTail_eq_none_iff (hp : begin' ≤ p) :
    findTail m begin' p = none ↔ ∀ q, begin' ≤ q → q ≤ p → ¬ TailAt m q := by
  constructor
  · intro h q hbq hqp
    induction p with
    | zero =>
      rw [findTail] at h
      split_ifs at h with htail
      obtain rfl : q = 0 := by omega
      exact htail
    | succ p ih =>
      rw [findTail] at h
      split_ifs at h with htail hle
      · obtain rfl : q = p + 1 := by omega
        exact htail
      · rcases Nat.le_succ_iff.1 hqp with hle' | rfl
        · exact ih (by omega) h hle'
        · exact htail
  · intro h
    cases hfind : findTail m begin' p with
    | none => rfl
    | some q =>
      obtain ⟨hbegin, hqp, hq, -⟩ := findTail_spec hfind hp
      exact absurd hq (h q hbegin hqp)

lemma le_of_mem_strcmpReads (h : a ∈ strcmpReads m p s) : p ≤ a := by
  induction s generalizing p with
  | nil => cases h
  | cons c s ih =>
    rw [strcmpReads, List.mem_cons] at h
    rcases h with rfl | h
    · exact le_rfl
    · split_ifs at h
      · have hle := ih h
        omega
      · cases h

/-- The search stays in the section. -/
lemma le_of_mem_findReads (hp : begin' ≤ p) (h : a ∈ findReads m begin' p) : begin' ≤ a := by
  induction p with
  | zero => exact hp.trans (le_of_mem_strcmpReads h)
  | succ p ih =>
    rw [findReads, List.mem_append] at h
    rcases h with h | h
    · exact hp.trans (le_of_mem_strcmpReads h)
    · split_ifs at h with hend
      · cases h
      · exact ih (by omega) h

end Loops

/-! ## Staying inside the section -/

/-- The first byte of the section and the byte behind its last one. -/
def sectBegin (k : KernelLayout) (m : Mem) (sect : ℕ) : ℕ := k.ptrForVa (sectAddr m sect)
def sectStop (k : KernelLayout) (m : Mem) (sect : ℕ) : ℕ := sectBegin k m sect + sectSize m sect

/-- The text of the section, without the zeros behind it, ends with the closing tags and their
terminator. -/
def EndsWithTail (m : Mem) (begin' stop : ℕ) : Prop :=
  ∃ q, begin' ≤ q ∧ q + prelinkInfoEnd.length ≤ stop ∧ TailAt m q ∧
    ∀ b, q + prelinkInfoEnd.length ≤ b → b < stop → m b = 0

/-- Neither loop of `kext_insert` looks in front of the section, and a section whose text does not
end with the closing tags is left alone. -/
structure StaysInside (k : KernelLayout) (info : KextLoadInfo) (sect : ℕ) (s : LoaderState) :
    Prop where
  trimEnds : ∃ p, trimZeros s.mem (sectStop k s.mem sect) = some p
  trimInside : ∀ a ∈ trimReads s.mem (sectStop k s.mem sect), sectBegin k s.mem sect ≤ a
  findInside : ∀ p, trimZeros s.mem (sectStop k s.mem sect) = some p →
    ∀ a ∈ findReads s.mem (sectBegin k s.mem sect) p, sectBegin k s.mem sect ≤ a
  unchanged : ¬ EndsWithTail s.mem (sectBegin k s.mem sect) (sectStop k s.mem sect) →
    ∃ s', kextInsert k info sect s = some s' ∧
      (∀ b, sectBegin k s.mem sect ≤ b → b < sectStop k s.mem sect → s'.mem b = s.mem b) ∧
      sectSize s'.mem sect = sectSize s.mem sect ∧ s'.kextId = s.kextId

section Inside

variable {k : KernelLayout} {info : KextLoadInfo} {sect p : ℕ} {s s' : LoaderState}

/-- A dictionary that has been inserted is counted. -/
lemma kextId_insertAt (h : insertAt k info sect p s = some s') : s'.kextId = s.kextId + 1 := by
  simp only [insertAt, Option.bind_eq_bind, Option.bind_eq_some_iff, Option.pure_def,
    Option.some_inj] at h
  obtain ⟨_, -, _, -, _, -, _, -, _, -, rfl⟩ := h
  rfl

lemma kextInsert_of_found {q : ℕ} (htrim : trimZeros s.mem (sectStop k s.mem sect) = some p)
    (hfind : findTail s.mem (sectBegin k s.mem sect) p = some q) :
    kextInsert k info sect s = insertAt k info sect q s := by
  rw [sectStop, sectBegin] at htrim
  rw [sectBegin] at hfind
  simp only [kextInsert, Option.bind_eq_bind, htrim, Option.bind_some, hfind]

lemma kextInsert_of_missing (htrim : trimZeros s.mem (sectStop k s.mem sect) = some p)
    (hfind : findTail s.mem (sectBegin k s.mem sect) p = none) :
    kextInsert k info sect s = some s := by
  rw [sectStop, sectBegin] at htrim
  rw [sectBegin] at hfind
  simp only [kextInsert, Option.bind_eq_bind, htrim, Option.bind_some, hfind, Option.pure_def]

/-- `kext_insert` stays inside the section or leaves it alone exactly when the section holds a byte
that is not zero, and the closing tags are at the end of its text or do not start in it. -/
theorem staysInside_iff :
    StaysInside k info sect s ↔
      (∃ a, sectBegin k s.mem sect ≤ a ∧ a < sectStop k s.mem sect ∧ s.mem a ≠ 0) ∧
        (EndsWithTail s.mem (sectBegin k s.mem sect) (sectStop k s.mem sect) ∨
          ∀ q a, sectBegin k s.mem sect ≤ q → q ≤ a + 1 → a < sectStop k s.mem sect →
            s.mem a ≠ 0 → ¬ TailAt s.mem q) := by
  constructor
  · rintro ⟨hends, hinside, -, hunchanged⟩
    obtain ⟨a₀, hba₀, hap₀, hne₀⟩ := trim_inside_iff.1 ⟨hends, hinside⟩
    refine ⟨⟨a₀, hba₀, hap₀, hne₀⟩, or_iff_not_imp_left.2 fun htail => ?_⟩
    obtain ⟨e, hle, he⟩ := exists_trimZeros hne₀ hap₀
    obtain ⟨s', hs', -, -, hid⟩ := hunchanged htail
    cases hfind : findTail s.mem (sectBegin k s.mem sect) (e + 1) with
    | none =>
      intro q a hbq hqa hap hne hq
      -- the text ends behind `a` or later
      have hae : a ≤ e := by
        by_contra hlt
        exact hne ((trimZeros_eq_some_iff.1 he).2.2 a (by omega) hap)
      exact (findTail_eq_none_iff (by omega)).1 hfind q hbq (by omega) hq
    | some q =>
      -- something has been inserted
      rw [kextInsert_of_found he hfind] at hs'
      have hid' := kextId_insertAt hs'
      rw [hid] at hid'
      simp at hid'
  · rintro ⟨⟨a₀, hba₀, hap₀, hne₀⟩, htail⟩
    obtain ⟨hends, hinside⟩ := trim_inside_iff.2 ⟨a₀, hba₀, hap₀, hne₀⟩
    obtain ⟨e, hle, he⟩ := exists_trimZeros hne₀ hap₀
    refine ⟨hends, hinside, fun p hp a ha => ?_, fun hnot => ?_⟩
    · obtain rfl : e + 1 = p := Option.some.inj (he.symm.trans hp)
      exact le_of_mem_findReads (by omega) ha
    · obtain ⟨hep, hne, -⟩ := trimZeros_eq_some_iff.1 he
      have hfind : findTail s.mem (sectBegin k s.mem sect) (e + 1) = none :=
        (findTail_eq_none_iff (by omega)).2 fun q hbq hqe =>
          htail.resolve_left hnot q e hbq hqe hep hne
      exact ⟨s, kextInsert_of_missing he hfind, fun b _ _ => rfl, rfl, rfl⟩

end Inside

/-- A section of 16 zero bytes at 0x2000000, with its header at 0x3000000, behind another object. -/
def zeroSection : Mem :=
  storeWord (storeWord (storeBytes (fun _ => 0) 0x1ffffff [1]) (0x3000000 + 32) 8
    0xffffffe809004000) (0x3000000 + 40) 8 16

/-- In a section of zeros the first loop runs over the start of the section. -/
theorem not_staysInside_zeros :
    ¬ StaysInside ⟨0x800000000, 0⟩ ⟨0x1000000, 0x4000000, 0x4000, 0x4000, 0, 0x4001000, 0x40000b8,
      0x4000068, 0x10000d0, 0x10000f0, 0x10000f8⟩ 0x3000000 ⟨zeroSection, 0⟩ := by
  intro h
  have hbegin : sectBegin ⟨0x800000000, 0⟩ zeroSection 0x3000000 = 0x2000000 := by decide +kernel
  have hstop : sectStop ⟨0x800000000, 0⟩ zeroSection 0x3000000 = 0x2000010 := by decide +kernel
  have hread : 0x1ffffff ∈ trimReads zeroSection 0x2000010 := by decide +kernel
  have hle := h.trimInside 0x1ffffff (by rw [hstop]; exact hread)
  rw [hbegin] at hle
  omega

end VulnerableKext.Kext

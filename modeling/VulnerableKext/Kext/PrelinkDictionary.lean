import VulnerableKext.Kext.Prelink
import VulnerableKext.Lib.Updates

/-!
# The dictionary of a kernel extension

What `kext_insert` writes.  The dictionary is the constant text with five fields stored
over their placeholders (`dictionary`), and read as hexadecimal numbers these fields give
back the values that were written (`IsDictionary`).

When the section ends with the closing tags, the dictionary is put in front of them, and
behind them there is still nothing but zeros (`kextInsert_spec`).  The text in front of
the closing tags may be anything.
-/

namespace VulnerableKext.Kext

open Memory Host Host.Grammar
open Bytes (Write perform window)

/-! ## Fields -/

/-- The placeholders are found at these positions. -/
lemma find_placeholders : prelinkInfoStr.length = 1537 ∧
    Term.find (ascii "NNN0") prelinkInfoStr = some 42 ∧
    Term.find (ascii "com.apple.kec.KTRW_") prelinkInfoStr = some 92 ∧
    Term.find (ascii "NNN1") prelinkInfoStr = some 111 ∧
    Term.find (ascii "ADDRESS") prelinkInfoStr = some 812 ∧
    Term.find (ascii "SIZE") prelinkInfoStr = some 892 ∧
    Term.find (ascii "KMODINFO") prelinkInfoStr = some 966 := by
  decide +kernel

/-- The position of a placeholder. -/
def fieldPos (placeholder : String) : ℕ := (Term.find (ascii placeholder) prelinkInfoStr).getD 0

/-- The fields that are stored over the placeholders. -/
def fieldWrites (k : KernelLayout) (info : KextLoadInfo) (id : ℕ) : List Write :=
  [⟨fieldPos "ADDRESS", renderHex 16 (k.saForPtr info.kext)⟩,
    ⟨fieldPos "SIZE", renderHex 16 info.vmSize⟩,
    ⟨fieldPos "KMODINFO", renderHex 16 (k.saForPtr info.kmodInfo)⟩,
    ⟨fieldPos "NNN0", renderHex 4 id⟩, ⟨fieldPos "NNN1", renderHex 4 id⟩]

/-- The dictionary for a kernel extension. -/
def dictionary (k : KernelLayout) (info : KextLoadInfo) (id : ℕ) : List UInt8 :=
  (perform prelinkInfoStr (fieldWrites k info id)).getD []

/-- The number written in `n` digits at the placeholder is `v`. -/
def FieldReads (d : List UInt8) (placeholder : String) (n v : ℕ) : Prop :=
  ∃ w, window d (fieldPos placeholder) n = some w ∧ w ∈ HexDigits n v

/-- The placeholders and the lengths of their fields. -/
def placeholders : List (String × ℕ) :=
  [("ADDRESS", 16), ("SIZE", 16), ("KMODINFO", 16), ("NNN0", 4), ("NNN1", 4)]

/-- The text `d` is `prelink_info_str` with only the fields rewritten, and they have the values that
describe the kernel extension. -/
structure IsDictionary (k : KernelLayout) (info : KextLoadInfo) (id : ℕ) (d : List UInt8) : Prop where
  length : d.length = prelinkInfoStr.length
  others : ∀ i, (∀ f ∈ placeholders, i < fieldPos f.1 ∨ fieldPos f.1 + f.2 ≤ i) →
    d[i]? = prelinkInfoStr[i]?
  address : FieldReads d "ADDRESS" 16 (k.saForPtr info.kext)
  size : FieldReads d "SIZE" 16 info.vmSize
  kmodInfo : FieldReads d "KMODINFO" 16 (k.saForPtr info.kmodInfo)
  name : FieldReads d "NNN0" 4 id
  identifier : FieldReads d "NNN1" 4 id

/-- The bundle identifier in a dictionary. -/
def bundleIdentifier (d : List UInt8) : Option (List UInt8) :=
  window d (fieldPos "com.apple.kec.KTRW_") (ascii "com.apple.kec.KTRW_NNN1").length

section Dictionary

variable {k : KernelLayout} {info info' : KextLoadInfo} {id id' : ℕ} {d d' : List UInt8}

lemma length_prelinkInfoStr : prelinkInfoStr.length = 1537 := find_placeholders.1

/-- The positions, as numbers. -/
lemma fieldPos_eq : fieldPos "ADDRESS" = 812 ∧ fieldPos "SIZE" = 892 ∧ fieldPos "KMODINFO" = 966 ∧
    fieldPos "NNN0" = 42 ∧ fieldPos "NNN1" = 111 ∧ fieldPos "com.apple.kec.KTRW_" = 92 := by
  obtain ⟨-, hname, hprefix, hidentifier, haddress, hsize, hkmod⟩ := find_placeholders
  simp only [fieldPos, hname, hprefix, hidentifier, haddress, hsize, hkmod, Option.getD_some,
    and_self]

/-- The fields lie in the text. -/
lemma perform_fieldWrites (k : KernelLayout) (info : KextLoadInfo) (id : ℕ) :
    perform prelinkInfoStr (fieldWrites k info id) = some (dictionary k info id) := by
  obtain ⟨haddress, hsize, hkmod, hname, hidentifier, -⟩ := fieldPos_eq
  obtain ⟨d, hd⟩ : ∃ d, perform prelinkInfoStr (fieldWrites k info id) = some d := by
    refine Bytes.perform_isSome fun w hw => ?_
    rw [length_prelinkInfoStr]
    simp only [fieldWrites, List.mem_cons, List.not_mem_nil, or_false] at hw
    rcases hw with rfl | rfl | rfl | rfl | rfl <;>
      simp only [Write.stop, length_renderHex] <;> omega
  rw [dictionary, hd, Option.getD_some]

lemma length_dictionary (k : KernelLayout) (info : KextLoadInfo) (id : ℕ) :
    (dictionary k info id).length = prelinkInfoStr.length :=
  Bytes.length_of_perform (perform_fieldWrites k info id)

/-- No two fields meet. -/
lemma fieldWrites_pairwise (k : KernelLayout) (info : KextLoadInfo) (id : ℕ) :
    (fieldWrites k info id).Pairwise fun v w => v.stop ≤ w.off ∨ w.stop ≤ v.off := by
  obtain ⟨haddress, hsize, hkmod, hname, hidentifier, -⟩ := fieldPos_eq
  simp only [fieldWrites, List.pairwise_cons, List.mem_cons, List.not_mem_nil, or_false,
    forall_eq_or_imp, forall_eq, Write.stop, length_renderHex, haddress, hsize, hkmod, hname,
    hidentifier, IsEmpty.forall_iff, implies_true, List.Pairwise.nil, and_true]
  decide

lemma stop_field (p : String) (n v : ℕ) :
    Write.stop ⟨fieldPos p, renderHex n v⟩ = fieldPos p + n := by
  rw [Write.stop, length_renderHex]

/-- A store writes one of the fields. -/
lemma exists_placeholder {w : Write} (hw : w ∈ fieldWrites k info id) :
    ∃ f ∈ placeholders, ∃ v, w = ⟨fieldPos f.1, renderHex f.2 v⟩ := by
  simp only [fieldWrites, List.mem_cons, List.not_mem_nil, or_false] at hw
  rcases hw with rfl | rfl | rfl | rfl | rfl
  · exact ⟨("ADDRESS", 16), by simp [placeholders], _, rfl⟩
  · exact ⟨("SIZE", 16), by simp [placeholders], _, rfl⟩
  · exact ⟨("KMODINFO", 16), by simp [placeholders], _, rfl⟩
  · exact ⟨("NNN0", 4), by simp [placeholders], _, rfl⟩
  · exact ⟨("NNN1", 4), by simp [placeholders], _, rfl⟩

/-- A field is read back. -/
lemma fieldReads_dictionary {p : String} {n v : ℕ}
    (hw : ⟨fieldPos p, renderHex n v⟩ ∈ fieldWrites k info id) (hv : v < 16 ^ n) :
    FieldReads (dictionary k info id) p n v := by
  have hread := Bytes.window_perform (perform_fieldWrites k info id)
    (fieldWrites_pairwise k info id) hw
  rw [length_renderHex] at hread
  exact ⟨_, hread, renderHex_mem hv⟩

theorem isDictionary_dictionary (hsize : info.vmSize < 2 ^ 64) (hid : id < 16 ^ 4) :
    IsDictionary k info id (dictionary k info id) := by
  have hsa (ptr : ℕ) : k.saForPtr ptr < 16 ^ 16 := Nat.mod_lt _ (by norm_num)
  have hsize' : info.vmSize < 16 ^ 16 := hsize
  refine ⟨length_dictionary k info id, fun i hi => ?_, ?_, ?_, ?_, ?_, ?_⟩
  · refine Bytes.getElem?_perform_of_out (perform_fieldWrites k info id) fun w hw => ?_
    obtain ⟨f, hf, v, rfl⟩ := exists_placeholder hw
    rw [stop_field]
    exact hi f hf
  · exact fieldReads_dictionary (by simp [fieldWrites]) (hsa _)
  · exact fieldReads_dictionary (by simp [fieldWrites]) hsize'
  · exact fieldReads_dictionary (by simp [fieldWrites]) (hsa _)
  · exact fieldReads_dictionary (by simp [fieldWrites]) hid
  · exact fieldReads_dictionary (by simp [fieldWrites]) hid

/-- Dictionaries with one bundle identifier have one id. -/
lemma id_eq_of_bundleIdentifier (h : IsDictionary k info id d) (h' : IsDictionary k info' id' d')
    (heq : bundleIdentifier d = bundleIdentifier d') : id = id' := by
  obtain ⟨-, -, -, -, hidentifier, hprefix⟩ := fieldPos_eq
  have hlen : (ascii "com.apple.kec.KTRW_NNN1").length = 23 := by decide +kernel
  -- the digits are the end of the identifier
  have hdigits (e w : List UInt8) (he : e.length = prelinkInfoStr.length)
      (hw : window e (fieldPos "NNN1") 4 = some w) :
      (bundleIdentifier e).map (List.drop 19) = some w := by
    obtain ⟨-, hw'⟩ := Bytes.window_eq_some_iff.1 hw
    rw [length_prelinkInfoStr] at he
    rw [bundleIdentifier, hprefix, hlen, window, if_pos (by omega), Option.map_some, hw',
      hidentifier, List.drop_take, List.drop_drop]
  obtain ⟨w, hw, hmem⟩ := h.identifier
  obtain ⟨w', hw', hmem'⟩ := h'.identifier
  have hd := hdigits d w h.length hw
  rw [heq, hdigits d' w' h'.length hw'] at hd
  obtain rfl : w' = w := Option.some.inj hd
  exact eq_of_hexDigits hmem hmem'

end Dictionary

/-! ## Writing the dictionary -/

section Insert

variable {k : KernelLayout} {info : KextLoadInfo} {sect p : ℕ} {m : Mem} {s : LoaderState}

/-- The digits are written from the last one to the first one. -/
lemma formatHex_eq (m : Mem) (buf n v : ℕ) :
    formatHex m buf n v = storeBytes m buf (renderHex n v) := by
  induction n generalizing m v with
  | zero =>
    funext b
    exact (storeBytes_apply_of_out (Nat.lt_or_ge b buf)).symm
  | succ n ih => rw [formatHex, ih, renderHex, storeBytes_append, length_renderHex]; rfl

lemma map_of_holdsAt {a : ℕ} {bs : List UInt8} (h : HoldsAt m a bs) :
    ((List.range bs.length).map fun i => m (a + i)) = bs := by
  refine List.ext_getElem (by simp) fun i hi hi' => ?_
  rw [List.getElem_map, List.getElem_range, h i hi']

/-- A placeholder is searched in the copy of the text. -/
lemma memmem_eq {placeholder : String} {i : ℕ} (h : HoldsAt m p prelinkInfoStr)
    (hfind : Term.find (ascii placeholder) prelinkInfoStr = some i) :
    memmem m p prelinkInfoStr.length (ascii placeholder) = some (p + fieldPos placeholder) := by
  rw [memmem, map_of_holdsAt h, fieldPos, hfind, Option.map_some, Option.getD_some]

/-- The memory after the two strings have been copied. -/
def insertedText (m : Mem) (p : ℕ) : Mem :=
  strcpy (strcpy m p prelinkInfoStr) (p + prelinkInfoStr.length) prelinkInfoEnd

lemma holdsAt_insertedText (m : Mem) (p : ℕ) :
    HoldsAt (insertedText m p) p (prelinkInfoStr ++ (prelinkInfoEnd ++ [0])) := by
  refine holdsAt_append.2 ⟨?_, holdsAt_storeBytes _ _ _⟩
  have hcopy := (holdsAt_append.1 (holdsAt_storeBytes m p (prelinkInfoStr ++ [0]))).1
  exact hcopy.store_of_apart (Or.inl le_rfl)

lemma insertedText_apply_of_out {b : ℕ}
    (h : b < p ∨ p + (prelinkInfoStr.length + (prelinkInfoEnd.length + 1)) ≤ b) :
    insertedText m p b = m b := by
  rw [insertedText, strcpy, strcpy, storeBytes_apply_of_out, storeBytes_apply_of_out]
  · rw [List.length_append, List.length_singleton]
    omega
  · rw [List.length_append, List.length_singleton]
    omega

/-- The memory after the fields have been patched. -/
def insertedDictionary (k : KernelLayout) (info : KextLoadInfo) (p : ℕ) (s : LoaderState) : Mem :=
  storeAll (insertedText s.mem p) p (fieldWrites k info s.kextId.toNat)

/-- All placeholders are found, before the first field is patched. -/
lemma insertAt_eq (k : KernelLayout) (info : KextLoadInfo) (sect p : ℕ) (s : LoaderState) :
    insertAt k info sect p s = some ⟨storeWord (insertedDictionary k info p s) (sect + 40) 8
      ((sectSize (insertedDictionary k info p s) sect + prelinkInfoStr.length) % 2 ^ 64),
      s.kextId + 1⟩ := by
  obtain ⟨-, hname, -, hidentifier, haddress, hsize, hkmod⟩ := find_placeholders
  have htext := (holdsAt_append.1 (holdsAt_insertedText s.mem p)).1
  have hcopy : strcpy (strcpy s.mem p prelinkInfoStr) (p + prelinkInfoStr.length) prelinkInfoEnd =
    insertedText s.mem p := rfl
  simp only [insertAt, hcopy, memmem_eq htext hname, memmem_eq htext hidentifier,
    memmem_eq htext haddress, memmem_eq htext hsize, memmem_eq htext hkmod, formatHex_eq,
    Option.bind_eq_bind, Option.bind_some, Option.pure_def]
  rfl

/-- Patching stays in the dictionary. -/
lemma insertedDictionary_apply_of_out {b : ℕ} (h : b < p ∨ p + prelinkInfoStr.length ≤ b) :
    insertedDictionary k info p s b = insertedText s.mem p b := by
  obtain ⟨haddress, hsize, hkmod, hname, hidentifier, -⟩ := fieldPos_eq
  rw [length_prelinkInfoStr] at h
  refine storeAll_apply_of_out fun w hw => ?_
  simp only [fieldWrites, List.mem_cons, List.not_mem_nil, or_false] at hw
  rcases hw with rfl | rfl | rfl | rfl | rfl <;>
    simp only [Write.stop, length_renderHex] <;> omega

lemma holdsAt_insertedDictionary : HoldsAt (insertedDictionary k info p s) p
    (dictionary k info s.kextId.toNat ++ (prelinkInfoEnd ++ [0])) := by
  obtain ⟨htext, hend⟩ := holdsAt_append.1 (holdsAt_insertedText s.mem p)
  refine holdsAt_append.2 ⟨htext.storeAll (perform_fieldWrites _ _ _), ?_⟩
  rw [length_dictionary]
  refine hend.congr fun i _ => insertedDictionary_apply_of_out (Or.inr ?_)
  omega

/-- What an insertion does: the dictionary and the closing tags are at `p`, the size of the section
and the id have grown, and everything else is as before. -/
structure Inserted (k : KernelLayout) (info : KextLoadInfo) (sect p : ℕ) (s s' : LoaderState) :
    Prop where
  text : HoldsAt s'.mem p (dictionary k info s.kextId.toNat ++ (prelinkInfoEnd ++ [0]))
  others : ∀ b, (b < p ∨ p + (prelinkInfoStr.length + (prelinkInfoEnd.length + 1)) ≤ b) →
    (b < sect + 40 ∨ sect + 48 ≤ b) → s'.mem b = s.mem b
  addr : sectAddr s'.mem sect = sectAddr s.mem sect
  size : sectSize s'.mem sect = sectSize s.mem sect + prelinkInfoStr.length
  id : s'.kextId = s.kextId + 1

lemma insertAt_spec (k : KernelLayout) (info : KextLoadInfo)
    (hd : Apart p (prelinkInfoStr.length + (prelinkInfoEnd.length + 1)) sect sizeofSection)
    (hsize : sectSize s.mem sect + prelinkInfoStr.length < 2 ^ 64) :
    ∃ s', insertAt k info sect p s = some s' ∧ Inserted k info sect p s s' := by
  have hlen := length_dictionary k info s.kextId.toNat
  simp only [sizeofSection] at hd
  -- the header is not touched before its size is changed
  have hfield (o : ℕ) (ho : o + 8 ≤ 80) :
      word (insertedDictionary k info p s) (sect + o) 8 = word s.mem (sect + o) 8 := by
    refine word_congr fun i hi => ?_
    have hout : sect + o + i < p ∨
        p + (prelinkInfoStr.length + (prelinkInfoEnd.length + 1)) ≤ sect + o + i := by
      rcases hd with hd | hd
      · exact Or.inr (by omega)
      · exact Or.inl (by omega)
    rw [insertedDictionary_apply_of_out (hout.imp id (by omega)), insertedText_apply_of_out hout]
  refine ⟨_, insertAt_eq k info sect p s, ?_, fun b hb hb' => ?_, ?_, ?_, rfl⟩
  · refine holdsAt_insertedDictionary.congr fun i hi => storeWord_apply_of_out ?_
    simp only [List.length_append, List.length_singleton, hlen] at hi
    rcases hd with hd | hd
    · exact Or.inl (by omega)
    · exact Or.inr (by omega)
  · show storeWord _ _ _ _ b = _
    rw [storeWord_apply_of_out (by omega), insertedDictionary_apply_of_out (by omega),
      insertedText_apply_of_out hb]
  · show word (storeWord _ _ _ _) _ _ = _
    rw [word_storeWord_of_apart (Or.inr (by omega)), hfield 32 (by omega), sectAddr]
  · show word (storeWord _ _ _ _) _ _ = _
    rw [word_storeWord, sectSize, hfield 40 (by omega), ← sectSize, Nat.mod_eq_of_lt hsize]
    exact Nat.mod_eq_of_lt hsize

end Insert

/-! ## Behind the text -/

/-- From `start` on there is the text, then the closing tags, and then zeros up to `stop`. -/
structure TextAt (m : Mem) (start stop : ℕ) (text : List UInt8) : Prop where
  holds : HoldsAt m start (text ++ prelinkInfoEnd)
  room : start + (text.length + prelinkInfoEnd.length) < stop
  zeros : ∀ b, start + (text.length + prelinkInfoEnd.length) ≤ b → b < stop → m b = 0

section Text

variable {k : KernelLayout} {info : KextLoadInfo} {sect p start stop : ℕ} {m : Mem}
  {s s' : LoaderState} {text : List UInt8}

lemma length_prelinkInfoEnd : prelinkInfoEnd.length = 15 := by decide +kernel

/-- No byte of the closing tags is zero. -/
lemma prelinkInfoEnd_ne_zero {i : ℕ} (hi : i < prelinkInfoEnd.length) : prelinkInfoEnd[i] ≠ 0 := by
  have hall : ∀ c ∈ prelinkInfoEnd, c ≠ 0 := by decide +kernel
  exact hall _ (List.getElem_mem hi)

namespace TextAt

variable (h : TextAt m start stop text)
include h

lemma tailAt : TailAt m (start + text.length) := by
  refine holdsAt_append.2 ⟨(holdsAt_append.1 h.holds).2, fun i hi => ?_⟩
  obtain rfl : i = 0 := by simpa using hi
  exact h.zeros _ (by omega) (by have hroom := h.room; omega)

/-- The first loop ends behind the closing tags. -/
lemma trimZeros_eq (hle : start + (text.length + prelinkInfoEnd.length) ≤ p) (hp : p ≤ stop) :
    trimZeros m p = some (start + text.length + 14 + 1) := by
  have hlen := length_prelinkInfoEnd
  refine trimZeros_eq_some_iff.2 ⟨by omega, ?_, fun b hb hbp => h.zeros b (by omega) (by omega)⟩
  rw [(holdsAt_append.1 h.holds).2 14 (by omega)]
  exact prelinkInfoEnd_ne_zero (by omega)

/-- The second loop ends in front of them: an occurrence further behind would reach over the zero
that terminates them. -/
lemma findTail_eq : findTail m start (start + text.length + 14 + 1) = some (start + text.length) := by
  have hlen := length_prelinkInfoEnd
  have hroom := h.room
  have hzero := h.zeros (start + text.length + 15) (by omega) (by omega)
  have hlast : ∀ r, start + text.length < r → r ≤ start + text.length + 14 + 1 →
      ¬ TailAt m r := by
    intro r hr hr' htail
    have hbyte := (holdsAt_append.1 htail).1 (start + text.length + 15 - r) (by omega)
    rw [show r + (start + text.length + 15 - r) = start + text.length + 15 by omega,
      hzero] at hbyte
    exact prelinkInfoEnd_ne_zero _ hbyte.symm
  cases hfind : findTail m start (start + text.length + 14 + 1) with
  | none =>
    exact absurd h.tailAt ((findTail_eq_none_iff (by omega)).1 hfind _ (by omega) (by omega))
  | some q =>
    obtain ⟨-, hqp, hq, hq'⟩ := findTail_spec hfind (by omega)
    rcases lt_trichotomy q (start + text.length) with hlt | heq | hgt
    · exact absurd h.tailAt (hq' _ hlt (by omega))
    · rw [heq]
    · exact absurd hq (hlast q hgt hqp)

end TextAt

/-- The section ends between the text and the end of the zeros behind it. -/
structure SectionAt (k : KernelLayout) (m : Mem) (sect start stop : ℕ) (text : List UInt8) : Prop
    extends TextAt m start stop text where
  begins : sectBegin k m sect = start
  ends : text.length + prelinkInfoEnd.length ≤ sectSize m sect ∧ start + sectSize m sect ≤ stop

/-- The text after an insertion. -/
lemma TextAt.inserted (h : TextAt s.mem start stop text)
    (hins : Inserted k info sect (start + text.length) s s')
    (hd : Apart start (stop - start) sect sizeofSection)
    (hroom : start + (text.length + prelinkInfoStr.length + prelinkInfoEnd.length) < stop) :
    TextAt s'.mem start stop (text ++ dictionary k info s.kextId.toNat) := by
  have hlen := length_dictionary k info s.kextId.toNat
  simp only [sizeofSection] at hd
  have hheader (b : ℕ) (hb : start ≤ b) (hb' : b < stop) : b < sect + 40 ∨ sect + 48 ≤ b := by
    rcases hd with hd | hd
    · exact Or.inl (by omega)
    · exact Or.inr (by omega)
  obtain ⟨hdict, hend⟩ := holdsAt_append.1 hins.text
  obtain ⟨hend, hterm⟩ := holdsAt_append.1 hend
  refine ⟨?_, by rw [List.length_append, hlen]; exact hroom, fun b hb hb' => ?_⟩
  · refine holdsAt_append.2 ⟨holdsAt_append.2 ⟨fun i hi => ?_, hdict⟩, ?_⟩
    · -- the text that was there before
      rw [hins.others _ (Or.inl (by omega)) (hheader _ (by omega) (by omega))]
      exact (holdsAt_append.1 h.holds).1 i hi
    · rw [List.length_append, ← Nat.add_assoc]
      exact hend
  · rw [List.length_append, hlen] at hb
    rcases Nat.lt_or_ge b (start + text.length + prelinkInfoStr.length + prelinkInfoEnd.length + 1)
      with hlt | hge
    · -- the terminator
      have hzero := hterm 0 (by simp)
      rw [hlen] at hzero
      obtain rfl : b = start + text.length + prelinkInfoStr.length + prelinkInfoEnd.length + 0 := by
        omega
      exact hzero
    · rw [hins.others _ (Or.inr (by omega)) (hheader _ (by omega) hb')]
      exact h.zeros b (by omega) hb'

/-- `kext_insert` finds the closing tags behind the text. -/
lemma kextInsert_inserted (info : KextLoadInfo) (h : SectionAt k s.mem sect start stop text)
    (hd : Apart start (stop - start) sect sizeofSection) (hstop : stop < 2 ^ 64)
    (hsize : start + sectSize s.mem sect + prelinkInfoStr.length ≤ stop)
    (hroom : start + (text.length + prelinkInfoStr.length + prelinkInfoEnd.length) < stop) :
    ∃ s', kextInsert k info sect s = some s' ∧
      Inserted k info sect (start + text.length) s s' := by
  have hstart := h.begins
  obtain ⟨hends, hends'⟩ := h.ends
  have hlenEnd := length_prelinkInfoEnd
  have htrim := h.trimZeros_eq (p := sectStop k s.mem sect) (by rw [sectStop]; omega)
    (by rw [sectStop]; omega)
  have hfind : findTail s.mem (sectBegin k s.mem sect) (start + text.length + 14 + 1) =
      some (start + text.length) := by
    rw [hstart]
    exact h.findTail_eq
  have hapart : Apart (start + text.length) (prelinkInfoStr.length + (prelinkInfoEnd.length + 1))
      sect sizeofSection := by
    rcases hd with hd | hd
    · exact Or.inl (by omega)
    · exact Or.inr (by omega)
  obtain ⟨s', hs', hins⟩ := insertAt_spec k info hapart
    (show sectSize s.mem sect + prelinkInfoStr.length < 2 ^ 64 by omega)
  exact ⟨s', (kextInsert_of_found htrim hfind).trans hs', hins⟩

/-- `kext_insert` puts the dictionary between the text and the closing tags. -/
theorem kextInsert_spec (info : KextLoadInfo) (h : SectionAt k s.mem sect start stop text)
    (hd : Apart start (stop - start) sect sizeofSection) (hstop : stop < 2 ^ 64)
    (hsize : start + sectSize s.mem sect + prelinkInfoStr.length ≤ stop)
    (hroom : start + (text.length + prelinkInfoStr.length + prelinkInfoEnd.length) < stop) :
    ∃ s', kextInsert k info sect s = some s' ∧
      SectionAt k s'.mem sect start stop (text ++ dictionary k info s.kextId.toNat) ∧
      sectSize s'.mem sect = sectSize s.mem sect + prelinkInfoStr.length ∧
      s'.kextId = s.kextId + 1 := by
  obtain ⟨s', hs', hins⟩ := kextInsert_inserted info h hd hstop hsize hroom
  obtain ⟨hends, hends'⟩ := h.ends
  have hlen := length_dictionary k info s.kextId.toNat
  have hbegins : sectBegin k s'.mem sect = start := by
    rw [sectBegin, hins.addr, ← sectBegin, h.begins]
  refine ⟨s', hs', ⟨h.toTextAt.inserted hins hd hroom, hbegins, ?_⟩, hins.size, hins.id⟩
  rw [hins.size, List.length_append, hlen]
  omega

/-- Outside of the section, only its size is written. -/
lemma kextInsert_frame (info : KextLoadInfo) (h : SectionAt k s.mem sect start stop text)
    (hd : Apart start (stop - start) sect sizeofSection) (hstop : stop < 2 ^ 64)
    (hsize : start + sectSize s.mem sect + prelinkInfoStr.length ≤ stop)
    (hroom : start + (text.length + prelinkInfoStr.length + prelinkInfoEnd.length) < stop)
    (hs' : kextInsert k info sect s = some s') {b : ℕ} (hb : b < start ∨ stop ≤ b)
    (hb' : b < sect + 40 ∨ sect + 48 ≤ b) : s'.mem b = s.mem b := by
  obtain ⟨s₁, hs₁, hins⟩ := kextInsert_inserted info h hd hstop hsize hroom
  obtain rfl := Option.some.inj (hs₁.symm.trans hs')
  refine hins.others b ?_ hb'
  rcases hb with hb | hb
  · exact Or.inl (by omega)
  · exact Or.inr (by omega)

end Text

end VulnerableKext.Kext

import VulnerableKext.Kext.Parse

/-!
# The load commands of an accepted file

The commands of a file are found by position: each one starts where the size of the
one before it ends.  `ScanOk` says what the loop of `kext_parse` has established about
the first commands.  The loop changes the file while it reads it, in one byte of a
command `LC_SEGMENT_SPLIT_INFO`; commands shorter than their header overlap, and yet
the change is never seen by a command that has been visited.
-/

namespace VulnerableKext.Kext

open Memory Checked Bytes

/-- The position of the `i`-th load command. -/
def lcPosition (m : Mem) : ℕ → ℕ
  | 0 => sizeofHeader
  | i + 1 => lcPosition m i + lcCmdsize m (lcPosition m i)

/-- The `i`-th load command is an `LC_SEGMENT_64`. -/
def IsSegment (m : Mem) (i : ℕ) : Prop := lcCmd m (lcPosition m i) = LC_SEGMENT_64

instance (m : Mem) (i : ℕ) : Decidable (IsSegment m i) := inferInstanceAs (Decidable (_ = _))

/-- The total size of the segments before the `i`-th command. -/
def vmOffset (m : Mem) : ℕ → ℕ
  | 0 => 0
  | i + 1 => vmOffset m i + if IsSegment m i then segVmsize m (lcPosition m i) else 0

/-- What has been checked of a segment command. -/
structure SegmentOk (m : Mem) (size sizeofcmds vmBase i : ℕ) : Prop where
  cmdsize : sizeofSegmentCommand ≤ lcCmdsize m (lcPosition m i)
  fileoff : segFileoff m (lcPosition m i) ≤ size
  fileEnd : (segFileoff m (lcPosition m i) + segFilesize m (lcPosition m i)) % 2 ^ 64 ≤ size
  filesize : segFilesize m (lcPosition m i) ≤ segVmsize m (lcPosition m i)
  vmaddr : segVmaddr m (lcPosition m i) = vmBase + vmOffset m i
  noWrap : vmBase + vmOffset m (i + 1) < 2 ^ 64
  header : (∀ j < i, ¬ IsSegment m j) → segFileoff m (lcPosition m i) = 0 ∧
    sizeofHeader + sizeofcmds ≤ segFilesize m (lcPosition m i)

/-- What has been checked of the symbol table command at `p`. -/
structure SymtabOk (m : Mem) (size p : ℕ) : Prop where
  cmd : lcCmd m p = LC_SYMTAB
  cmdsize : sizeofSymtabCommand ≤ lcCmdsize m p
  symbols : symSymoff m p + symNsyms m p * sizeofNlist ≤ size
  strings : symStroff m p < size

/-- What has been checked of the dysymtab command at `p`. -/
structure DysymtabOk (m : Mem) (size p : ℕ) : Prop where
  cmd : lcCmd m p = LC_DYSYMTAB
  cmdsize : sizeofDysymtabCommand ≤ lcCmdsize m p
  externals : dysymExtreloff m p + dysymNextrel m p * sizeofRelocationInfo ≤ size
  locals : dysymLocreloff m p + dysymNlocrel m p * sizeofRelocationInfo ≤ size

/-- The first `n` commands lie in the area of the load commands, and their segments have been
checked. -/
structure CommandsOk (m : Mem) (size sizeofcmds vmBase n : ℕ) : Prop where
  inside : ∀ i < n, lcPosition m i + 8 ≤ sizeofHeader + sizeofcmds ∧
    lcPosition m (i + 1) ≤ sizeofHeader + sizeofcmds
  segment : ∀ i < n, IsSegment m i → SegmentOk m size sizeofcmds vmBase i

/-- The variables of the loop after `n` commands. -/
structure ScanOk (m : Mem) (size sizeofcmds n : ℕ) (st : ScanState) : Prop where
  commands : CommandsOk m size sizeofcmds st.vmBase n
  found : st.foundFirstSegment = true → (∃ i < n, IsSegment m i) ∧
    st.vmaddr = st.vmBase + vmOffset m n ∧ st.vmaddr < 2 ^ 64
  notFound : st.foundFirstSegment = false → ∀ i < n, ¬ IsSegment m i
  symtab : ∀ p, st.symtab = some p → (∃ i < n, p = lcPosition m i) ∧ SymtabOk m size p
  dysymtab : ∀ p, st.dysymtab = some p → (∃ i < n, p = lcPosition m i) ∧ DysymtabOk m size p

variable {m m' : Mem} {size sizeofcmds n i j p : ℕ} {st st' : ScanState} {buf buf' : Buffer}

lemma lcPosition_mono (m : Mem) (h : i ≤ j) : lcPosition m i ≤ lcPosition m j :=
  monotone_nat_of_le_succ (fun _ => Nat.le_add_right _ _) h

lemma le_lcPosition (m : Mem) (i : ℕ) : sizeofHeader ≤ lcPosition m i :=
  lcPosition_mono m (Nat.zero_le i)

lemma vmOffset_mono (m : Mem) (h : i ≤ j) : vmOffset m i ≤ vmOffset m j :=
  monotone_nat_of_le_succ (fun _ => Nat.le_add_right _ _) h

lemma vmOffset_eq_zero (h : ∀ i < n, ¬ IsSegment m i) : vmOffset m n = 0 := by
  induction n with
  | zero => rfl
  | succ n ih =>
    rw [vmOffset, ih fun i hi => h i (by omega), if_neg (h n (by omega))]

/-- A command of size 0 is visited again and again. -/
lemma lcPosition_of_cmdsize_zero (h : lcCmdsize m (lcPosition m i) = 0) (hij : i ≤ j) :
    lcPosition m j = lcPosition m i := by
  induction j with
  | zero =>
    obtain rfl : i = 0 := by omega
    rfl
  | succ j ih =>
    rcases Nat.le_succ_iff.1 hij with hle | rfl
    · rw [lcPosition, ih hle, h, Nat.add_zero]
    · rfl

/-! ## Changing the file -/

/-- The commands that the loader looks into. -/
def Special (cmd : ℕ) : Prop := cmd = LC_SEGMENT_64 ∨ cmd = LC_SYMTAB ∨ cmd = LC_DYSYMTAB

instance (cmd : ℕ) : Decidable (Special cmd) := inferInstanceAs (Decidable (_ ∨ _ ∨ _))

/-- Two files have the same first `n` commands, as far as the loader can see: the same sizes,
and the same contents of the special ones. -/
structure SameCommands (m m' : Mem) (n : ℕ) : Prop where
  cmdsize : ∀ i < n, lcCmdsize m' (lcPosition m i) = lcCmdsize m (lcPosition m i)
  contents : ∀ i < n,
    (¬ Special (lcCmd m (lcPosition m i)) ∧ ¬ Special (lcCmd m' (lcPosition m i))) ∨
    (lcCmd m' (lcPosition m i) = lcCmd m (lcPosition m i) ∧
      Agree m' (lcPosition m i) m (lcPosition m i) (lcCmdsize m (lcPosition m i)))

namespace SameCommands

variable (h : SameCommands m m' n)
include h

lemma lcPosition_eq (hi : i ≤ n) : lcPosition m' i = lcPosition m i := by
  induction i with
  | zero => rfl
  | succ i ih => rw [lcPosition, lcPosition, ih (by omega), h.cmdsize i (by omega)]

/-- A special command is the same in both files. -/
lemma agree (hi : i < n) (hsp : Special (lcCmd m (lcPosition m i))) :
    lcCmd m' (lcPosition m i) = lcCmd m (lcPosition m i) ∧
      Agree m' (lcPosition m i) m (lcPosition m i) (lcCmdsize m (lcPosition m i)) := by
  rcases h.contents i hi with ⟨hno, -⟩ | hyes
  · exact absurd hsp hno
  · exact hyes

lemma isSegment_iff (hi : i < n) : IsSegment m' i ↔ IsSegment m i := by
  rw [IsSegment, IsSegment, h.lcPosition_eq hi.le]
  rcases h.contents i hi with ⟨hno, hno'⟩ | ⟨heq, -⟩
  · exact ⟨fun hs => absurd (Or.inl hs) hno', fun hs => absurd (Or.inl hs) hno⟩
  · rw [heq]

/-- The fields of a segment, which lie in its first 72 bytes. -/
lemma segment_word (hi : i < n) (hs : IsSegment m i)
    (hsize : sizeofSegmentCommand ≤ lcCmdsize m (lcPosition m i)) {k w : ℕ} (hk : k + w ≤ 72) :
    word m' (lcPosition m i + k) w = word m (lcPosition m i + k) w :=
  (h.agree hi (Or.inl hs)).2.word_eq (by simp only [sizeofSegmentCommand] at hsize; omega)

lemma vmOffset_eq (hseg : ∀ i < n, IsSegment m i →
    sizeofSegmentCommand ≤ lcCmdsize m (lcPosition m i)) (hi : i ≤ n) :
    vmOffset m' i = vmOffset m i := by
  induction i with
  | zero => rfl
  | succ i ih =>
    have hlt : i < n := hi
    rw [vmOffset, vmOffset, ih (by omega), h.lcPosition_eq hlt.le]
    by_cases hs : IsSegment m i
    · rw [if_pos hs, if_pos ((h.isSegment_iff hlt).2 hs)]
      exact congrArg (vmOffset m i + ·) (h.segment_word hlt hs (hseg i hlt hs) (by omega))
    · rw [if_neg hs, if_neg (mt (h.isSegment_iff hlt).1 hs)]

lemma commandsOk {vmBase : ℕ} (hok : CommandsOk m size sizeofcmds vmBase n) :
    CommandsOk m' size sizeofcmds vmBase n := by
  have hseg : ∀ i < n, IsSegment m i → sizeofSegmentCommand ≤ lcCmdsize m (lcPosition m i) :=
    fun i hi hs => (hok.segment i hi hs).cmdsize
  refine ⟨fun i hi => ?_, fun i hi hs' => ?_⟩
  · rw [h.lcPosition_eq hi.le, h.lcPosition_eq (i := i + 1) hi]
    exact hok.inside i hi
  · have hs : IsSegment m i := (h.isSegment_iff hi).1 hs'
    obtain ⟨hcmdsize, hfileoff, hfileEnd, hfilesize, hvmaddr, hnoWrap, hheader⟩ := hok.segment i hi hs
    have hvm (k : ℕ) (hk : k ≤ n) := h.vmOffset_eq hseg (i := k) hk
    have hw (k : ℕ) (hk : k + 8 ≤ 72) := h.segment_word hi hs hcmdsize hk
    have hpos := h.lcPosition_eq hi.le
    refine ⟨?_, ?_, ?_, ?_, ?_, ?_, fun hfirst => ?_⟩
    · rw [hpos, h.cmdsize i hi]
      exact hcmdsize
    · rw [hpos, segFileoff, hw 40 (by omega)]
      exact hfileoff
    · rw [hpos, segFileoff, segFilesize, hw 40 (by omega), hw 48 (by omega)]
      exact hfileEnd
    · rw [hpos, segFilesize, segVmsize, hw 48 (by omega), hw 32 (by omega)]
      exact hfilesize
    · rw [hpos, segVmaddr, hw 24 (by omega), hvm i hi.le]
      exact hvmaddr
    · rw [hvm (i + 1) hi]
      exact hnoWrap
    · rw [hpos, segFileoff, segFilesize, hw 40 (by omega), hw 48 (by omega)]
      exact hheader fun j hj hsj => hfirst j hj ((h.isSegment_iff (hj.trans hi)).2 hsj)

lemma symtabOk (hi : i < n) (hok : SymtabOk m size (lcPosition m i)) :
    SymtabOk m' size (lcPosition m i) := by
  obtain ⟨hcmd, hcmdsize, hsymbols, hstrings⟩ := hok
  obtain ⟨hcmd', hag⟩ := h.agree hi (Or.inr (Or.inl hcmd))
  have hw (k : ℕ) (hk : k + 4 ≤ 24) : word m' (lcPosition m i + k) 4 = word m (lcPosition m i + k) 4 :=
    hag.word_eq (by simp only [sizeofSymtabCommand] at hcmdsize; omega)
  refine ⟨hcmd'.trans hcmd, ?_, ?_, ?_⟩
  · rw [h.cmdsize i hi]
    exact hcmdsize
  · rw [symSymoff, symNsyms, hw 8 (by omega), hw 12 (by omega)]
    exact hsymbols
  · rw [symStroff, hw 16 (by omega)]
    exact hstrings

lemma dysymtabOk (hi : i < n) (hok : DysymtabOk m size (lcPosition m i)) :
    DysymtabOk m' size (lcPosition m i) := by
  obtain ⟨hcmd, hcmdsize, hext, hloc⟩ := hok
  obtain ⟨hcmd', hag⟩ := h.agree hi (Or.inr (Or.inr hcmd))
  have hw (k : ℕ) (hk : k + 4 ≤ 80) : word m' (lcPosition m i + k) 4 = word m (lcPosition m i + k) 4 :=
    hag.word_eq (by simp only [sizeofDysymtabCommand] at hcmdsize; omega)
  refine ⟨hcmd'.trans hcmd, ?_, ?_, ?_⟩
  · rw [h.cmdsize i hi]
    exact hcmdsize
  · rw [dysymExtreloff, dysymNextrel, hw 64 (by omega), hw 68 (by omega)]
    exact hext
  · rw [dysymLocreloff, dysymNlocrel, hw 72 (by omega), hw 76 (by omega)]
    exact hloc

lemma scanOk (hok : ScanOk m size sizeofcmds n st) : ScanOk m' size sizeofcmds n st := by
  have hseg : ∀ i < n, IsSegment m i → sizeofSegmentCommand ≤ lcCmdsize m (lcPosition m i) :=
    fun i hi hs => (hok.commands.segment i hi hs).cmdsize
  refine ⟨h.commandsOk hok.commands, fun hf => ?_, fun hf i hi hs => ?_, fun p hp => ?_,
    fun p hp => ?_⟩
  · obtain ⟨⟨i, hi, hs⟩, hvm, hlt⟩ := hok.found hf
    exact ⟨⟨i, hi, (h.isSegment_iff hi).2 hs⟩, by rw [h.vmOffset_eq hseg le_rfl]; exact hvm, hlt⟩
  · exact hok.notFound hf i hi ((h.isSegment_iff hi).1 hs)
  · obtain ⟨⟨i, hi, rfl⟩, hsym⟩ := hok.symtab p hp
    exact ⟨⟨i, hi, (h.lcPosition_eq hi.le).symm⟩, h.symtabOk hi hsym⟩
  · obtain ⟨⟨i, hi, rfl⟩, hdysym⟩ := hok.dysymtab p hp
    exact ⟨⟨i, hi, (h.lcPosition_eq hi.le).symm⟩, h.dysymtabOk hi hdysym⟩

end SameCommands

lemma SameCommands.refl (m : Mem) (n : ℕ) : SameCommands m m n :=
  ⟨fun _ _ => rfl, fun _ _ => Or.inr ⟨rfl, Agree.refl _ _ _⟩⟩

lemma SameCommands.of_le {k : ℕ} (h : SameCommands m m' n) (hk : k ≤ n) : SameCommands m m' k :=
  ⟨fun i hi => h.cmdsize i (by omega), fun i hi => h.contents i (by omega)⟩

/-- The new value of the field `cmd` differs in the last byte only. -/
lemma destroyed_apply {b : ℕ} (hcmd : lcCmd m p = LC_SEGMENT_SPLIT_INFO) (hb : b ≠ p + 3) :
    storeWord m p 4 (LC_SEGMENT_SPLIT_INFO ^^^ 0x41000000) b = m b := by
  by_cases hin : p ≤ b ∧ b < p + 4
  · obtain ⟨i, rfl⟩ := Nat.exists_eq_add_of_le hin.1
    have hi : i < 3 := by omega
    have hbyte := byte_of_word m p (n := 4) (i := i) (by omega)
    rw [← lcCmd, hcmd] at hbyte
    rw [storeWord, if_pos hin, hbyte, Nat.add_sub_cancel_left]
    interval_cases i <;> decide
  · exact storeWord_apply_of_out (by omega)

/-- Destroying the command at the current position does not disturb the commands up to it. -/
lemma sameCommands_destroy (hcmd : lcCmd m (lcPosition m n) = LC_SEGMENT_SPLIT_INFO) :
    SameCommands m
      (storeWord m (lcPosition m n) 4 (LC_SEGMENT_SPLIT_INFO ^^^ 0x41000000)) (n + 1) := by
  -- behind a command that is not at the current position there is room for its own size
  have hroom (i : ℕ) (hi : i < n + 1) (hne : lcPosition m i ≠ lcPosition m n) :
      0 < lcCmdsize m (lcPosition m i) ∧
        lcPosition m i + lcCmdsize m (lcPosition m i) ≤ lcPosition m n := by
    have hin : i < n := by
      rcases Nat.lt_succ_iff_lt_or_eq.1 hi with hlt | rfl
      · exact hlt
      · exact absurd rfl hne
    refine ⟨Nat.pos_of_ne_zero fun h0 => hne ?_, lcPosition_mono m hin⟩
    exact (lcPosition_of_cmdsize_zero h0 hin.le).symm
  refine ⟨fun i hi => word_congr fun j hj => destroyed_apply hcmd ?_, fun i hi => ?_⟩
  · -- the changed byte could only lie in a size that begins with a byte of `LC_SEGMENT_SPLIT_INFO`
    intro heq
    obtain ⟨hpos, hle⟩ := hroom i hi (by omega)
    have hsize := byte_of_word m (lcPosition m i + 4) (n := 4) (i := 0) (by omega)
    obtain ⟨d, hd⟩ := Nat.exists_eq_add_of_le (show lcPosition m i ≤ lcPosition m n by omega)
    have hbyte := byte_of_word m (lcPosition m n) (n := 4) (i := 4 - d) (by omega)
    rw [← lcCmd, hcmd, show lcPosition m n + (4 - d) = lcPosition m i + 4 + 0 by omega, hsize,
      ← lcCmdsize] at hbyte
    generalize lcCmdsize m (lcPosition m i) = c at hpos hle hbyte
    have hc : c ≤ 4 := by omega
    have hd4 : 1 ≤ d ∧ d ≤ 4 := by omega
    obtain ⟨hd1, hd4⟩ := hd4
    interval_cases c <;> interval_cases d <;> simp [LC_SEGMENT_SPLIT_INFO] at hbyte
  · by_cases heq : lcPosition m i = lcPosition m n
    · left
      rw [heq, hcmd, lcCmd, word_storeWord]
      decide
    · right
      obtain ⟨hpos, hle⟩ := hroom i hi heq
      constructor
      · exact word_congr fun j hj => destroyed_apply hcmd (by omega)
      · exact fun j hj => destroyed_apply hcmd (by omega)

end VulnerableKext.Kext

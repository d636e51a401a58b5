import VulnerableKext.Kext.Accepted
import VulnerableKext.Lib.Latest

/-!
# Which load commands are accepted

`LoadCommandsOk` says, without reading the commands in any order, when the loop over the load
commands gets through and has found a segment, a symbol table and a dysymtab command.  The
commands `LC_SEGMENT_SPLIT_INFO` are destroyed while they are read, so the conditions are about
the file in which all of them have been destroyed.
-/

namespace VulnerableKext.Kext

open Memory Checked Latest

variable {m m' : Mem} {size sizeofcmds n i k lc sp dp vmBase : ℕ} {st st' : ScanState}
  {buf buf' : Buffer}

/-! ## Destroyed commands -/

/-- The file after the command at `lc` has been visited. -/
def destroyCommand (m : Mem) (lc : ℕ) : Mem :=
  if lcCmd m lc = LC_SEGMENT_SPLIT_INFO then
    storeWord m lc 4 (LC_SEGMENT_SPLIT_INFO ^^^ 0x41000000)
  else m

/-- The file after the first `n` commands have been visited. -/
def destroyed (m : Mem) : ℕ → Mem
  | 0 => m
  | n + 1 => destroyCommand (destroyed m n) (lcPosition (destroyed m n) n)

lemma destroySplitInfo_eq (buf : Buffer) (lc : ℕ) :
    destroySplitInfo buf (lcCmd buf.byte lc) lc = ⟨buf.size, destroyCommand buf.byte lc⟩ := by
  rw [destroySplitInfo, destroyCommand]
  split_ifs with h
  · rw [h]
  · rfl

lemma sameCommands_destroyCommand (m : Mem) (n : ℕ) :
    SameCommands m (destroyCommand m (lcPosition m n)) (n + 1) := by
  rw [destroyCommand]
  split_ifs with h
  · exact sameCommands_destroy h
  · exact SameCommands.refl m (n + 1)

lemma SameCommands.trans {m'' : Mem} (h : SameCommands m m' n) (h' : SameCommands m' m'' n) :
    SameCommands m m'' n := by
  refine ⟨fun i hi => ?_, fun i hi => ?_⟩
  · have hsize := h'.cmdsize i hi
    rw [h.lcPosition_eq hi.le] at hsize
    rw [hsize, h.cmdsize i hi]
  · have hcontents := h'.contents i hi
    rw [h.lcPosition_eq hi.le, h.cmdsize i hi] at hcontents
    rcases h.contents i hi with ⟨hno, hno'⟩ | ⟨heq, hag⟩
    · rcases hcontents with ⟨-, hno''⟩ | ⟨heq', -⟩
      · exact Or.inl ⟨hno, hno''⟩
      · exact Or.inl ⟨hno, heq' ▸ hno'⟩
    · rcases hcontents with ⟨hno', hno''⟩ | ⟨heq', hag'⟩
      · exact Or.inl ⟨heq ▸ hno', hno''⟩
      · exact Or.inr ⟨heq'.trans heq, hag'.trans hag⟩

/-- What has been visited is not changed any more. -/
lemma sameCommands_destroyed (m : Mem) (h : i ≤ n) :
    SameCommands (destroyed m i) (destroyed m n) i := by
  induction n with
  | zero =>
    obtain rfl : i = 0 := by omega
    exact SameCommands.refl _ _
  | succ n ih =>
    rcases Nat.le_succ_iff.1 h with hle | rfl
    · exact (ih hle).trans ((sameCommands_destroyCommand (destroyed m n) n).of_le (by omega))
    · exact SameCommands.refl _ _

lemma agree_destroyCommand (m : Mem) (h : sizeofHeader ≤ lc) :
    Agree (destroyCommand m lc) 0 m 0 sizeofHeader := by
  intro i hi
  rw [destroyCommand]
  split_ifs
  · exact storeWord_apply_of_out (by omega)
  · rfl

/-- The header is not changed. -/
lemma agree_destroyed (m : Mem) (n : ℕ) : Agree (destroyed m n) 0 m 0 sizeofHeader := by
  induction n with
  | zero => exact Agree.refl _ _ _
  | succ n ih => exact (agree_destroyCommand _ (le_lcPosition _ _)).trans ih

/-! ## One command -/

/-- A segment command passes its checks, in the state `st` of the loop. -/
structure SegmentFits (m : Mem) (size sizeofcmds lc : ℕ) (st : ScanState) : Prop where
  cmdsize : sizeofSegmentCommand ≤ lcCmdsize m lc
  fileoff : segFileoff m lc ≤ size
  fileEnd : (segFileoff m lc + segFilesize m lc) % 2 ^ 64 ≤ size
  filesize : segFilesize m lc ≤ segVmsize m lc
  noWrap : segVmaddr m lc ≤ (segVmaddr m lc + segVmsize m lc) % 2 ^ 64
  first : st.foundFirstSegment = false →
    segFileoff m lc = 0 ∧ sizeofHeader + sizeofcmds ≤ segFilesize m lc
  contiguous : st.foundFirstSegment = true → segVmaddr m lc = st.vmaddr

/-- The command at `lc` passes its checks. -/
structure CommandFits (m : Mem) (size sizeofcmds lc : ℕ) (st : ScanState) : Prop where
  header : lc + 8 ≤ sizeofHeader + sizeofcmds
  inside : lc + lcCmdsize m lc ≤ sizeofHeader + sizeofcmds
  segment : lcCmd m lc = LC_SEGMENT_64 → SegmentFits m size sizeofcmds lc st
  symtab : lcCmd m lc = LC_SYMTAB → st.symtab = none ∧ SymtabOk m size lc
  dysymtab : lcCmd m lc = LC_DYSYMTAB → st.dysymtab = none ∧ DysymtabOk m size lc

/-- The state behind a segment command. -/
def advanceSegment (m : Mem) (lc : ℕ) (st : ScanState) : ScanState :=
  if lcCmd m lc = LC_SEGMENT_64 then
    { st with
      foundFirstSegment := true
      vmBase := if st.foundFirstSegment then st.vmBase else segVmaddr m lc
      vmaddr := (segVmaddr m lc + segVmsize m lc) % 2 ^ 64 }
  else st

/-- The state behind a command. -/
def advance (m : Mem) (lc : ℕ) (st : ScanState) : ScanState :=
  { advanceSegment m lc st with
    symtab := if lcCmd m lc = LC_SYMTAB then some lc else st.symtab
    dysymtab := if lcCmd m lc = LC_DYSYMTAB then some lc else st.dysymtab }

section Scan

variable (hsize : lc + lcCmdsize buf.byte lc ≤ buf.size)
include hsize

lemma scanSegment_eq_ok_iff :
    scanSegment buf sizeofcmds (lcCmd buf.byte lc) (lcCmdsize buf.byte lc) lc st = .ok st' ↔
      (lcCmd buf.byte lc = LC_SEGMENT_64 → SegmentFits buf.byte buf.size sizeofcmds lc st) ∧
        st' = advanceSegment buf.byte lc st := by
  unfold scanSegment advanceSegment
  by_cases hcmd : lcCmd buf.byte lc = LC_SEGMENT_64
  · rw [if_neg (not_not.2 hcmd), if_pos hcmd]
    simp only [bind_eq_ok_iff, guard_eq_ok_iff, Buffer.get_eq_ok_iff, setBase_eq_ok_iff,
      pure_eq_ok_iff, and_assoc, exists_and_left, exists_eq_left, exists_const]
    rw [show word buf.byte (lc + 24) 8 = segVmaddr buf.byte lc from rfl,
      show word buf.byte (lc + 32) 8 = segVmsize buf.byte lc from rfl,
      show word buf.byte (lc + 40) 8 = segFileoff buf.byte lc from rfl,
      show word buf.byte (lc + 48) 8 = segFilesize buf.byte lc from rfl]
    constructor
    · rintro ⟨hcmdsize, -, -, -, -, hoff, hend, hle, hwrap, st₁, hbase, hcont, rfl⟩
      rcases hbase with ⟨hf, rfl⟩ | ⟨hf, hoff₀, hmapped, rfl⟩
      · refine ⟨fun _ => ⟨hcmdsize, hoff, hend, hle, hwrap, fun hf' => ?_, fun _ => hcont⟩, ?_⟩
        · rw [hf] at hf'
          cases hf'
        · rw [← hcont, if_pos hf, ← hf]
      · refine ⟨fun _ => ⟨hcmdsize, hoff, hend, hle, hwrap, fun _ => ⟨hoff₀, hmapped⟩, fun hf' => ?_⟩,
          ?_⟩
        · rw [hf] at hf'
          cases hf'
        · rw [hf]
          rfl
    · rintro ⟨hfits, rfl⟩
      obtain ⟨hcmdsize, hoff, hend, hle, hwrap, hfirst, hcont⟩ := hfits hcmd
      have hroom : lc + sizeofSegmentCommand ≤ buf.size := by omega
      simp only [sizeofSegmentCommand] at hroom
      refine ⟨hcmdsize, by omega, by omega, by omega, by omega, hoff, hend, hle, hwrap, ?_⟩
      cases hf : st.foundFirstSegment with
      | true =>
        refine ⟨st, Or.inl ⟨rfl, rfl⟩, hcont hf, ?_⟩
        rw [← hcont hf, if_pos rfl, ← hf]
      | false =>
        obtain ⟨hoff₀, hmapped⟩ := hfirst hf
        exact ⟨_, Or.inr ⟨rfl, hoff₀, hmapped, rfl⟩, rfl, rfl⟩
  · rw [if_pos hcmd, if_neg hcmd]
    constructor
    · intro h
      exact ⟨fun h' => absurd h' hcmd, (Except.ok.inj h).symm⟩
    · rintro ⟨-, rfl⟩
      rfl

lemma scanSymtab_eq_ok_iff :
    scanSymtab buf (lcCmd buf.byte lc) (lcCmdsize buf.byte lc) lc st = .ok st' ↔
      (lcCmd buf.byte lc = LC_SYMTAB → st.symtab = none ∧ SymtabOk buf.byte buf.size lc) ∧
        st' = if lcCmd buf.byte lc = LC_SYMTAB then { st with symtab := some lc } else st := by
  unfold scanSymtab
  by_cases hcmd : lcCmd buf.byte lc = LC_SYMTAB
  · rw [if_neg (not_not.2 hcmd), if_pos hcmd]
    simp only [bind_eq_ok_iff, guard_eq_ok_iff, Buffer.get_eq_ok_iff, pure_eq_ok_iff]
    constructor
    · rintro ⟨_, hnone, _, hcmdsize, nsyms, ⟨-, rfl⟩, symoff, ⟨-, rfl⟩, _, ⟨-, hsyms⟩, stroff,
        ⟨-, rfl⟩, _, hstr, rfl⟩
      exact ⟨fun _ => ⟨hnone, hcmd, hcmdsize, hsyms, hstr⟩, rfl⟩
    · rintro ⟨hfits, rfl⟩
      obtain ⟨hnone, -, hcmdsize, hsyms, hstr⟩ := hfits hcmd
      have hroom : lc + sizeofSymtabCommand ≤ buf.size := by omega
      simp only [sizeofSymtabCommand] at hroom
      exact ⟨(), hnone, (), hcmdsize, _, ⟨by omega, rfl⟩, _, ⟨by omega, rfl⟩, (),
        ⟨(Nat.le_add_right _ _).trans hsyms, hsyms⟩, _, ⟨by omega, rfl⟩, (), hstr, rfl⟩
  · rw [if_pos hcmd, if_neg hcmd]
    constructor
    · intro h
      exact ⟨fun h' => absurd h' hcmd, (Except.ok.inj h).symm⟩
    · rintro ⟨-, rfl⟩
      rfl

lemma scanDysymtab_eq_ok_iff :
    scanDysymtab buf (lcCmd buf.byte lc) (lcCmdsize buf.byte lc) lc st = .ok st' ↔
      (lcCmd buf.byte lc = LC_DYSYMTAB → st.dysymtab = none ∧ DysymtabOk buf.byte buf.size lc) ∧
        st' = if lcCmd buf.byte lc = LC_DYSYMTAB then { st with dysymtab := some lc } else st := by
  unfold scanDysymtab
  by_cases hcmd : lcCmd buf.byte lc = LC_DYSYMTAB
  · rw [if_neg (not_not.2 hcmd), if_pos hcmd]
    simp only [bind_eq_ok_iff, guard_eq_ok_iff, Buffer.get_eq_ok_iff, pure_eq_ok_iff]
    constructor
    · rintro ⟨_, hnone, _, hcmdsize, nextrel, ⟨-, rfl⟩, extreloff, ⟨-, rfl⟩, _, ⟨-, hext⟩, nlocrel,
        ⟨-, rfl⟩, locreloff, ⟨-, rfl⟩, _, ⟨-, hloc⟩, rfl⟩
      exact ⟨fun _ => ⟨hnone, hcmd, hcmdsize, hext, hloc⟩, rfl⟩
    · rintro ⟨hfits, rfl⟩
      obtain ⟨hnone, -, hcmdsize, hext, hloc⟩ := hfits hcmd
      have hroom : lc + sizeofDysymtabCommand ≤ buf.size := by omega
      simp only [sizeofDysymtabCommand] at hroom
      exact ⟨(), hnone, (), hcmdsize, _, ⟨by omega, rfl⟩, _, ⟨by omega, rfl⟩, (),
        ⟨(Nat.le_add_right _ _).trans hext, hext⟩, _, ⟨by omega, rfl⟩, _, ⟨by omega, rfl⟩, (),
        ⟨(Nat.le_add_right _ _).trans hloc, hloc⟩, rfl⟩
  · rw [if_pos hcmd, if_neg hcmd]
    constructor
    · intro h
      exact ⟨fun h' => absurd h' hcmd, (Except.ok.inj h).symm⟩
    · rintro ⟨-, rfl⟩
      rfl

end Scan

@[simp]
lemma advanceSegment_symtab (m : Mem) (lc : ℕ) (st : ScanState) :
    (advanceSegment m lc st).symtab = st.symtab := by
  rw [advanceSegment]
  split
  · rfl
  · rfl

@[simp]
lemma advanceSegment_dysymtab (m : Mem) (lc : ℕ) (st : ScanState) :
    (advanceSegment m lc st).dysymtab = st.dysymtab := by
  rw [advanceSegment]
  split
  · rfl
  · rfl

/-- The three checks of a command, one after the other. -/
lemma advance_eq (m : Mem) (lc : ℕ) (st : ScanState) :
    (let st₁ := if lcCmd m lc = LC_SYMTAB then { advanceSegment m lc st with symtab := some lc }
        else advanceSegment m lc st
      if lcCmd m lc = LC_DYSYMTAB then { st₁ with dysymtab := some lc } else st₁) =
      advance m lc st := by
  rw [advance]
  by_cases hs : lcCmd m lc = LC_SYMTAB
  · have hd : ¬ lcCmd m lc = LC_DYSYMTAB := by rw [hs]; decide
    simp only [if_pos hs, if_neg hd, advanceSegment_dysymtab]
  · by_cases hd : lcCmd m lc = LC_DYSYMTAB
    · simp only [if_neg hs, if_pos hd, advanceSegment_symtab]
    · simp only [if_neg hs, if_neg hd, ← advanceSegment_symtab m lc st,
        ← advanceSegment_dysymtab m lc st]

lemma lcCmdsize_destroyCommand (m : Mem) (lc : ℕ) :
    lcCmdsize (destroyCommand m lc) lc = lcCmdsize m lc := by
  rw [destroyCommand]
  split_ifs
  · exact word_congr fun j hj => storeWord_apply_of_out (by omega)
  · rfl

/-- One command is accepted if it is not an `LC_SEGMENT` and, once it has been destroyed, passes its
checks. -/
lemma scanCommand_eq_ok_iff {lc' : ℕ} (hfits : sizeofHeader + sizeofcmds ≤ buf.size) :
    scanCommand buf sizeofcmds lc st = .ok (buf', st', lc') ↔
      lcCmd buf.byte lc ≠ LC_SEGMENT ∧
        CommandFits (destroyCommand buf.byte lc) buf.size sizeofcmds lc st ∧
        buf' = ⟨buf.size, destroyCommand buf.byte lc⟩ ∧
        st' = advance (destroyCommand buf.byte lc) lc st ∧
        lc' = lc + lcCmdsize (destroyCommand buf.byte lc) lc := by
  simp only [scanCommand, bind_eq_ok_iff, guard_eq_ok_iff, Buffer.get_eq_ok_iff, pure_eq_ok_iff,
    and_assoc, exists_and_left, exists_eq_left, exists_const, Prod.mk.injEq]
  rw [show word buf.byte lc 4 = lcCmd buf.byte lc from rfl,
    show word buf.byte (lc + 4) 4 = lcCmdsize buf.byte lc from rfl, destroySplitInfo_eq,
    ← lcCmdsize_destroyCommand buf.byte lc]
  generalize destroyCommand buf.byte lc = m
  constructor
  · rintro ⟨hheader, -, hinside, -, hcmd, -, st₁, h₁, st₂, h₂, st₃, h₃, rfl, rfl, rfl⟩
    have hsize : lc + lcCmdsize (Buffer.mk buf.size m).byte lc ≤ (Buffer.mk buf.size m).size :=
      hinside.trans hfits
    obtain ⟨hsegment, rfl⟩ := (scanSegment_eq_ok_iff hsize).1 h₁
    obtain ⟨hsymtab, rfl⟩ := (scanSymtab_eq_ok_iff hsize).1 h₂
    obtain ⟨hdysymtab, rfl⟩ := (scanDysymtab_eq_ok_iff hsize).1 h₃
    refine ⟨hcmd, ⟨hheader, hinside, hsegment, ?_, ?_⟩, rfl, ?_, rfl⟩
    · rw [advanceSegment_symtab] at hsymtab
      exact hsymtab
    · intro hc
      have hne : ¬ lcCmd m lc = LC_SYMTAB := by rw [hc]; decide
      rw [if_neg hne, advanceSegment_dysymtab] at hdysymtab
      exact hdysymtab hc
    · exact advance_eq m lc st
  · rintro ⟨hcmd, ⟨hheader, hinside, hsegment, hsymtab, hdysymtab⟩, rfl, rfl, rfl⟩
    have hsize : lc + lcCmdsize (Buffer.mk buf.size m).byte lc ≤ (Buffer.mk buf.size m).size :=
      hinside.trans hfits
    have hroom : lc + 4 ≤ buf.size := by omega
    refine ⟨hheader, by omega, hinside, hroom, hcmd, hroom, _,
      (scanSegment_eq_ok_iff hsize).2 ⟨hsegment, rfl⟩, _,
      (scanSymtab_eq_ok_iff hsize).2 ⟨?_, rfl⟩, _,
      (scanDysymtab_eq_ok_iff hsize).2 ⟨?_, rfl⟩, rfl,
      advance_eq m lc st, rfl⟩
    · rw [advanceSegment_symtab]
      exact hsymtab
    · intro hc
      have hne : ¬ lcCmd m lc = LC_SYMTAB := by rw [hc]; decide
      rw [if_neg hne, advanceSegment_dysymtab]
      exact hdysymtab hc

/-! ## The loop over the commands -/

/-- Destroying a command does not make an `LC_SEGMENT` of it or of one before it, nor does it hide
one. -/
lemma lcCmd_destroyCommand_eq_segment (m : Mem) (h : i ≤ n) :
    lcCmd (destroyCommand m (lcPosition m n)) (lcPosition m i) = LC_SEGMENT ↔
      lcCmd m (lcPosition m i) = LC_SEGMENT := by
  rw [destroyCommand]
  split_ifs with hcmd
  · rcases (lcPosition_mono m h).eq_or_lt with heq | hlt
    · rw [heq, hcmd, lcCmd, word_storeWord]
      decide
    · have hkept : lcCmd (storeWord m (lcPosition m n) 4 (LC_SEGMENT_SPLIT_INFO ^^^ 0x41000000))
          (lcPosition m i) = lcCmd m (lcPosition m i) :=
        word_congr fun j hj => destroyed_apply hcmd (by omega)
      rw [hkept]
  · rfl

/-- A command is an `LC_SEGMENT` when it is visited if it is one in the end. -/
lemma lcCmd_destroyed_eq_segment (m : Mem) (h : i ≤ n) :
    lcCmd (destroyed m n) (lcPosition (destroyed m n) i) = LC_SEGMENT ↔
      lcCmd (destroyed m i) (lcPosition (destroyed m i) i) = LC_SEGMENT := by
  induction n with
  | zero =>
    obtain rfl : i = 0 := by omega
    rfl
  | succ n ih =>
    rcases Nat.le_succ_iff.1 h with hle | rfl
    · rw [← ih hle, destroyed,
        (sameCommands_destroyCommand (destroyed m n) n).lcPosition_eq (by omega)]
      exact lcCmd_destroyCommand_eq_segment (destroyed m n) hle
    · rfl

namespace SameCommands

lemma symm (h : SameCommands m m' n) : SameCommands m' m n := by
  refine ⟨fun i hi => ?_, fun i hi => ?_⟩
  · rw [h.lcPosition_eq hi.le]
    exact (h.cmdsize i hi).symm
  · rw [h.lcPosition_eq hi.le, h.cmdsize i hi]
    rcases h.contents i hi with ⟨hno, hno'⟩ | ⟨heq, hag⟩
    · exact Or.inl ⟨hno', hno⟩
    · exact Or.inr ⟨heq.symm, fun j hj => (hag j hj).symm⟩

variable (h : SameCommands m m' n) (hi : i < n)
include h hi

lemma cmd_eq_iff {c : ℕ} (hc : Special c) :
    lcCmd m' (lcPosition m i) = c ↔ lcCmd m (lcPosition m i) = c := by
  rcases h.contents i hi with ⟨hno, hno'⟩ | ⟨heq, -⟩
  · exact ⟨fun heq => absurd (heq ▸ hc) hno', fun heq => absurd (heq ▸ hc) hno⟩
  · rw [heq]

lemma segmentFits (hs : IsSegment m i)
    (hfits : SegmentFits m size sizeofcmds (lcPosition m i) st) :
    SegmentFits m' size sizeofcmds (lcPosition m i) st := by
  obtain ⟨hcmdsize, hoff, hend, hle, hwrap, hfirst, hcont⟩ := hfits
  have hw (k : ℕ) (hk : k + 8 ≤ 72) := h.segment_word hi hs hcmdsize hk
  refine ⟨?_, ?_, ?_, ?_, ?_, ?_, ?_⟩
  · rw [h.cmdsize i hi]
    exact hcmdsize
  · rw [segFileoff, hw 40 (by omega)]
    exact hoff
  · rw [segFileoff, segFilesize, hw 40 (by omega), hw 48 (by omega)]
    exact hend
  · rw [segFilesize, segVmsize, hw 48 (by omega), hw 32 (by omega)]
    exact hle
  · rw [segVmaddr, segVmsize, hw 24 (by omega), hw 32 (by omega)]
    exact hwrap
  · rw [segFileoff, segFilesize, hw 40 (by omega), hw 48 (by omega)]
    exact hfirst
  · rw [segVmaddr, hw 24 (by omega)]
    exact hcont

lemma commandFits (hfits : CommandFits m size sizeofcmds (lcPosition m i) st) :
    CommandFits m' size sizeofcmds (lcPosition m i) st := by
  obtain ⟨hheader, hinside, hsegment, hsymtab, hdysymtab⟩ := hfits
  refine ⟨hheader, ?_, fun hc => ?_, fun hc => ?_, fun hc => ?_⟩
  · rw [h.cmdsize i hi]
    exact hinside
  · have hs : IsSegment m i := (h.cmd_eq_iff hi (Or.inl rfl)).1 hc
    exact h.segmentFits hi hs (hsegment hs)
  · obtain ⟨hnone, hok⟩ := hsymtab ((h.cmd_eq_iff hi (Or.inr (Or.inl rfl))).1 hc)
    exact ⟨hnone, h.symtabOk hi hok⟩
  · obtain ⟨hnone, hok⟩ := hdysymtab ((h.cmd_eq_iff hi (Or.inr (Or.inr rfl))).1 hc)
    exact ⟨hnone, h.dysymtabOk hi hok⟩

lemma commandFits_iff : CommandFits m' size sizeofcmds (lcPosition m i) st ↔
    CommandFits m size sizeofcmds (lcPosition m i) st := by
  refine ⟨fun hfits => ?_, h.commandFits hi⟩
  rw [← h.lcPosition_eq hi.le] at hfits ⊢
  exact h.symm.commandFits hi hfits

lemma advance_eq (hfits : CommandFits m size sizeofcmds (lcPosition m i) st) :
    advance m' (lcPosition m i) st = advance m (lcPosition m i) st := by
  have hsegment : advanceSegment m' (lcPosition m i) st = advanceSegment m (lcPosition m i) st := by
    rw [advanceSegment, advanceSegment]
    by_cases hs : lcCmd m (lcPosition m i) = LC_SEGMENT_64
    · have hw (k : ℕ) (hk : k + 8 ≤ 72) := h.segment_word hi hs (hfits.segment hs).cmdsize hk
      rw [if_pos hs, if_pos ((h.cmd_eq_iff hi (Or.inl rfl)).2 hs), segVmaddr, segVmsize,
        hw 24 (by omega), hw 32 (by omega)]
      rfl
    · rw [if_neg hs, if_neg (mt (h.cmd_eq_iff hi (Or.inl rfl)).1 hs)]
  rw [advance, advance, hsegment]
  simp only [h.cmd_eq_iff hi (Or.inr (Or.inl rfl)), h.cmd_eq_iff hi (Or.inr (Or.inr rfl))]

end SameCommands

/-- The state of the loop in front of the `i`-th command. -/
def stateAt (m : Mem) : ℕ → ScanState
  | 0 => .initial
  | i + 1 => advance m (lcPosition m i) (stateAt m i)

/-- The `i`-th command passes its checks. -/
def StepFits (m : Mem) (size sizeofcmds i : ℕ) : Prop :=
  lcCmd m (lcPosition m i) ≠ LC_SEGMENT ∧
    CommandFits m size sizeofcmds (lcPosition m i) (stateAt m i)

/-- A command is checked in a file in which it has been destroyed, but not those behind it. -/
lemma scanCommand_destroyed_iff {lc' : ℕ} (hfits : sizeofHeader + sizeofcmds ≤ size) (h : k < n) :
    scanCommand ⟨size, destroyed m k⟩ sizeofcmds (lcPosition (destroyed m n) k)
        (stateAt (destroyed m n) k) = .ok (buf', st', lc') ↔
      StepFits (destroyed m n) size sizeofcmds k ∧ buf' = ⟨size, destroyed m (k + 1)⟩ ∧
        st' = stateAt (destroyed m n) (k + 1) ∧ lc' = lcPosition (destroyed m n) (k + 1) := by
  have hsame : SameCommands (destroyed m (k + 1)) (destroyed m n) (k + 1) :=
    sameCommands_destroyed m h
  have hk : k < k + 1 := Nat.lt_succ_self k
  have hpos : lcPosition (destroyed m n) k = lcPosition (destroyed m k) k :=
    (sameCommands_destroyed m h.le).lcPosition_eq le_rfl
  have hpos' : lcPosition (destroyed m n) k = lcPosition (destroyed m (k + 1)) k :=
    hsame.lcPosition_eq hk.le
  have hdestroy : destroyCommand (destroyed m k) (lcPosition (destroyed m n) k) =
      destroyed m (k + 1) := by rw [hpos, destroyed]
  have hcmd := lcCmd_destroyed_eq_segment m h.le
  rw [← hpos] at hcmd
  have hcommand : CommandFits (destroyed m n) size sizeofcmds (lcPosition (destroyed m n) k)
      (stateAt (destroyed m n) k) ↔ CommandFits (destroyed m (k + 1)) size sizeofcmds
      (lcPosition (destroyed m n) k) (stateAt (destroyed m n) k) := by
    rw [hpos']
    exact hsame.commandFits_iff hk
  have hadvance (hc : CommandFits (destroyed m (k + 1)) size sizeofcmds
      (lcPosition (destroyed m n) k) (stateAt (destroyed m n) k)) :
      advance (destroyed m n) (lcPosition (destroyed m n) k) (stateAt (destroyed m n) k) =
        advance (destroyed m (k + 1)) (lcPosition (destroyed m n) k) (stateAt (destroyed m n) k) := by
    rw [hpos'] at hc ⊢
    exact hsame.advance_eq hk hc
  have hnext : lcPosition (destroyed m n) (k + 1) = lcPosition (destroyed m n) k +
      lcCmdsize (destroyed m (k + 1)) (lcPosition (destroyed m n) k) := by
    rw [lcPosition, hpos', hsame.cmdsize k hk]
  rw [scanCommand_eq_ok_iff hfits, hdestroy, StepFits, stateAt, hnext, hcommand, Ne, Ne, hcmd,
    and_assoc]
  refine and_congr_right fun _ => and_congr_right fun hc => ?_
  rw [hadvance hc]

/-- The loop gets through when every command passes its checks. -/
lemma scanCommands_destroyed_iff (hfits : sizeofHeader + sizeofcmds ≤ size) (h : k + i = n) :
    scanCommands sizeofcmds i ⟨size, destroyed m k⟩ (lcPosition (destroyed m n) k)
        (stateAt (destroyed m n) k) = .ok (buf', st') ↔
      (∀ j, k ≤ j → j < n → StepFits (destroyed m n) size sizeofcmds j) ∧
        buf' = ⟨size, destroyed m n⟩ ∧ st' = stateAt (destroyed m n) n := by
  induction i generalizing k with
  | zero =>
    obtain rfl : k = n := by omega
    rw [scanCommands, Except.ok.injEq, Prod.mk.injEq]
    constructor
    · rintro ⟨rfl, rfl⟩
      exact ⟨fun j hj hjn => by omega, rfl, rfl⟩
    · rintro ⟨-, rfl, rfl⟩
      exact ⟨rfl, rfl⟩
  | succ i ih =>
    simp only [scanCommands, bind_eq_ok_iff, Prod.exists,
      scanCommand_destroyed_iff hfits (show k < n by omega)]
    constructor
    · rintro ⟨_, _, _, ⟨hstep, rfl, rfl, rfl⟩, hrest⟩
      obtain ⟨hsteps, hbuf, hst⟩ := (ih (by omega)).1 hrest
      refine ⟨fun j hj hjn => ?_, hbuf, hst⟩
      rcases hj.eq_or_lt with rfl | hlt
      · exact hstep
      · exact hsteps j hlt hjn
    · rintro ⟨hsteps, hbuf, hst⟩
      exact ⟨_, _, _, ⟨hsteps k le_rfl (by omega), rfl, rfl, rfl⟩,
        (ih (by omega)).2 ⟨fun j hj hjn => hsteps j (by omega) hjn, hbuf, hst⟩⟩

/-! ## What the commands are, taken together -/

/-- The load commands of a file belong together: the segments tile the image, there is no
`LC_SEGMENT`, and one `LC_SYMTAB` at `sp` and one `LC_DYSYMTAB` at `dp`. -/
structure LoadCommandsOk (m : Mem) (size sizeofcmds vmBase n sp dp : ℕ) : Prop where
  notSegment : ∀ i < n, lcCmd m (lcPosition m i) ≠ LC_SEGMENT
  commands : CommandsOk m size sizeofcmds vmBase n
  hasSegment : ∃ i < n, IsSegment m i
  symtab : SymtabOk m size sp
  onlySymtab : ∃ i < n, lcCmd m (lcPosition m i) = LC_SYMTAB ∧ lcPosition m i = sp ∧
    ∀ j < n, lcCmd m (lcPosition m j) = LC_SYMTAB → j = i
  dysymtab : DysymtabOk m size dp
  onlyDysymtab : ∃ i < n, lcCmd m (lcPosition m i) = LC_DYSYMTAB ∧ lcPosition m i = dp ∧
    ∀ j < n, lcCmd m (lcPosition m j) = LC_DYSYMTAB → j = i

lemma advanceSegment_of_segment (h : IsSegment m i) (st : ScanState) :
    advanceSegment m (lcPosition m i) st =
      { st with
        foundFirstSegment := true
        vmBase := if st.foundFirstSegment then st.vmBase else segVmaddr m (lcPosition m i)
        vmaddr := (segVmaddr m (lcPosition m i) + segVmsize m (lcPosition m i)) % 2 ^ 64 } :=
  if_pos h

lemma advanceSegment_of_not (h : ¬ IsSegment m i) (st : ScanState) :
    advanceSegment m (lcPosition m i) st = st :=
  if_neg h

lemma stateAt_found (m : Mem) (i : ℕ) :
    (stateAt m i).foundFirstSegment = true ↔ ∃ j < i, IsSegment m j := by
  induction i with
  | zero => simp [stateAt, ScanState.initial]
  | succ i ih =>
    show (advanceSegment m (lcPosition m i) (stateAt m i)).foundFirstSegment = true ↔ _
    by_cases hs : IsSegment m i
    · rw [advanceSegment_of_segment hs]
      exact ⟨fun _ => ⟨i, Nat.lt_succ_self i, hs⟩, fun _ => rfl⟩
    · rw [advanceSegment_of_not hs, ih]
      constructor
      · rintro ⟨j, hj, hsj⟩
        exact ⟨j, by omega, hsj⟩
      · rintro ⟨j, hj, hsj⟩
        rcases Nat.lt_succ_iff_lt_or_eq.1 hj with hlt | rfl
        · exact ⟨j, hlt, hsj⟩
        · exact absurd hsj hs

/-- The pointer to the `LC_SYMTAB` is the flag that says whether there has been one. -/
lemma stateAt_symtab (m : Mem) (i : ℕ) : (stateAt m i).symtab =
    latest (fun j => lcCmd m (lcPosition m j) = LC_SYMTAB) (fun j => some (lcPosition m j)) none
      i := by
  induction i with
  | zero => rfl
  | succ i ih =>
    rw [latest, ← ih]
    rfl

lemma stateAt_dysymtab (m : Mem) (i : ℕ) : (stateAt m i).dysymtab =
    latest (fun j => lcCmd m (lcPosition m j) = LC_DYSYMTAB) (fun j => some (lcPosition m j)) none
      i := by
  induction i with
  | zero => rfl
  | succ i ih =>
    rw [latest, ← ih]
    rfl

/-- One command of a kind. -/
lemma only_iff {c p : ℕ} :
    ((∀ i < n, lcCmd m (lcPosition m i) = c →
        latest (fun j => lcCmd m (lcPosition m j) = c) (fun j => some (lcPosition m j)) none i =
          none) ∧
      latest (fun j => lcCmd m (lcPosition m j) = c) (fun j => some (lcPosition m j)) none n =
        some p) ↔
    ∃ i < n, lcCmd m (lcPosition m i) = c ∧ lcPosition m i = p ∧
      ∀ j < n, lcCmd m (lcPosition m j) = c → j = i := by
  rw [passes_iff_of_flags (Option.some_ne_none p) fun i => Option.some_ne_none _]
  simp only [Option.some.injEq]

namespace LoadCommandsOk

variable (h : LoadCommandsOk m size sizeofcmds vmBase n sp dp)
include h

lemma stateAt_vm (hi : i ≤ n) (hf : (stateAt m i).foundFirstSegment = true) :
    (stateAt m i).vmBase = vmBase ∧ (stateAt m i).vmaddr = vmBase + vmOffset m i := by
  induction i with
  | zero => cases hf
  | succ i ih =>
    show (advanceSegment m (lcPosition m i) (stateAt m i)).vmBase = vmBase ∧
      (advanceSegment m (lcPosition m i) (stateAt m i)).vmaddr = vmBase + vmOffset m (i + 1)
    have hlt : i < n := hi
    by_cases hs : IsSegment m i
    · have hok := h.commands.segment i hlt hs
      have hnext : vmOffset m (i + 1) = vmOffset m i + segVmsize m (lcPosition m i) := by
        rw [vmOffset, if_pos hs]
      have hend := hok.noWrap
      rw [advanceSegment_of_segment hs, hok.vmaddr]
      refine ⟨?_, ?_⟩
      · show (if (stateAt m i).foundFirstSegment = true then _ else _) = vmBase
        split_ifs with hfi
        · exact (ih hlt.le hfi).1
        · -- there is no segment before the first one
          have hzero : vmOffset m i = 0 :=
            vmOffset_eq_zero fun j hj hsj => hfi ((stateAt_found m i).2 ⟨j, hj, hsj⟩)
          rw [hzero, Nat.add_zero]
      · show (vmBase + vmOffset m i + segVmsize m (lcPosition m i)) % 2 ^ 64 = _
        omega
    · have hfi : (stateAt m i).foundFirstSegment = true := by
        obtain ⟨j, hj, hsj⟩ := (stateAt_found m (i + 1)).1 hf
        rcases Nat.lt_succ_iff_lt_or_eq.1 hj with hjlt | rfl
        · exact (stateAt_found m i).2 ⟨j, hjlt, hsj⟩
        · exact absurd hsj hs
      rw [advanceSegment_of_not hs, vmOffset, if_neg hs, Nat.add_zero]
      exact ih hlt.le hfi

lemma segmentFits (hi : i < n) (hs : IsSegment m i) :
    SegmentFits m size sizeofcmds (lcPosition m i) (stateAt m i) := by
  obtain ⟨hcmdsize, hoff, hend, hle, hvmaddr, hwrap, hheader⟩ := h.commands.segment i hi hs
  refine ⟨hcmdsize, hoff, hend, hle, ?_, fun hf => hheader fun j hj hsj => ?_, fun hf => ?_⟩
  · rw [vmOffset, if_pos hs] at hwrap
    omega
  · have hfi := (stateAt_found m i).2 ⟨j, hj, hsj⟩
    rw [hf] at hfi
    cases hfi
  · rw [hvmaddr, (h.stateAt_vm hi.le hf).2]

lemma stepFits (hi : i < n) : StepFits m size sizeofcmds i := by
  obtain ⟨hheader, hinside⟩ := h.commands.inside i hi
  refine ⟨h.notSegment i hi, hheader, hinside, h.segmentFits hi, fun hc => ?_, fun hc => ?_⟩
  · rw [stateAt_symtab]
    refine ⟨(only_iff.2 h.onlySymtab).1 i hi hc, ?_⟩
    obtain ⟨j, -, -, hpos, honly⟩ := h.onlySymtab
    rw [honly i hi hc, hpos]
    exact h.symtab
  · rw [stateAt_dysymtab]
    refine ⟨(only_iff.2 h.onlyDysymtab).1 i hi hc, ?_⟩
    obtain ⟨j, -, -, hpos, honly⟩ := h.onlyDysymtab
    rw [honly i hi hc, hpos]
    exact h.dysymtab

/-- What the loop has found in the end. -/
lemma stateAt_eq : stateAt m n = ⟨vmBase + vmOffset m n, true, vmBase, some sp, some dp⟩ := by
  have hf := (stateAt_found m n).2 h.hasSegment
  obtain ⟨hbase, hvm⟩ := h.stateAt_vm le_rfl hf
  have hsp := (only_iff.2 h.onlySymtab).2
  have hdp := (only_iff.2 h.onlyDysymtab).2
  rw [← stateAt_symtab] at hsp
  rw [← stateAt_dysymtab] at hdp
  rw [← hf, ← hvm, ← hbase, ← hsp, ← hdp]

end LoadCommandsOk

/-- The loop over the load commands finds a segment and the two tables exactly when the load
commands belong together. -/
lemma scanCommands_eq_ok_iff (hfits : sizeofHeader + sizeofcmds ≤ buf.size) :
    (scanCommands sizeofcmds n buf sizeofHeader .initial = .ok (buf', st) ∧
      st.foundFirstSegment = true ∧ st.symtab = some sp ∧ st.dysymtab = some dp) ↔
    buf' = ⟨buf.size, destroyed buf.byte n⟩ ∧
      st = ⟨st.vmBase + vmOffset buf'.byte n, true, st.vmBase, some sp, some dp⟩ ∧
      LoadCommandsOk buf'.byte buf.size sizeofcmds st.vmBase n sp dp := by
  have hloop : scanCommands sizeofcmds n buf sizeofHeader .initial = .ok (buf', st) ↔
      (∀ j, 0 ≤ j → j < n → StepFits (destroyed buf.byte n) buf.size sizeofcmds j) ∧
        buf' = ⟨buf.size, destroyed buf.byte n⟩ ∧ st = stateAt (destroyed buf.byte n) n :=
    scanCommands_destroyed_iff hfits (Nat.zero_add n)
  constructor
  · rintro ⟨hscan, hf, hsp, hdp⟩
    obtain ⟨hok, hsize, -⟩ := scanCommands_spec (scanOk_initial _ _ _) rfl hscan
    obtain ⟨hsteps, hbuf, hst⟩ := hloop.1 hscan
    rw [hsize, Nat.zero_add] at hok
    obtain ⟨hseg, hvm, -⟩ := hok.found hf
    refine ⟨hbuf, ?_, ⟨fun i hi => ?_, hok.commands, hseg, (hok.symtab sp hsp).2, ?_,
      (hok.dysymtab dp hdp).2, ?_⟩⟩
    · rw [← hf, ← hvm, ← hsp, ← hdp]
    · rw [hbuf]
      exact (hsteps i (Nat.zero_le i) hi).1
    · rw [hst, stateAt_symtab] at hsp
      rw [hbuf]
      refine only_iff.1 ⟨fun i hi hc => ?_, hsp⟩
      rw [← stateAt_symtab]
      exact ((hsteps i (Nat.zero_le i) hi).2.symtab hc).1
    · rw [hst, stateAt_dysymtab] at hdp
      rw [hbuf]
      refine only_iff.1 ⟨fun i hi hc => ?_, hdp⟩
      rw [← stateAt_dysymtab]
      exact ((hsteps i (Nat.zero_le i) hi).2.dysymtab hc).1
  · rintro ⟨hbuf, hst, hcommands⟩
    rw [hbuf] at hcommands hst
    have hend := hcommands.stateAt_eq
    rw [← hst] at hend
    refine ⟨hloop.2 ⟨fun i _ hi => hcommands.stepFits hi, hbuf, hend.symm⟩, ?_, ?_, ?_⟩
    · rw [hst]
    · rw [hst]
    · rw [hst]

end VulnerableKext.Kext

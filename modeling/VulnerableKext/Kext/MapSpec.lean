import VulnerableKext.Kext.Accepted
import VulnerableKext.Kext.Load
import VulnerableKext.Lib.Updates

/-!
# The mapped image

What `kext_map` makes of an accepted upload is described as one object, the image of
`vm_size` bytes: the file contents of the segments (`fileImage`), the load commands in it
with new segment addresses (`patchedImage`), and the fields of the kmod_info written over
that (`kextImage`).  `kextMap_eq` says that the program puts this object in the place of
the image and changes nothing else.

The second loop of `kext_map` walks over load commands that it is changing.  It visits the
same commands as the first one, because the first segment maps all of them, no other
segment is copied over them, and the field that it changes lies behind the size of a
command and in front of the next one.
-/

namespace VulnerableKext.Kext

open Memory Device

/-! ## The image -/

/-- The image after the segments among the first `n` commands have been copied; `z` is what was
there before. -/
def fileImage (m z : Mem) : (n : ℕ) → Mem
  | 0 => z
  | n + 1 =>
    if IsSegment m n then fun o =>
      if vmOffset m n ≤ o ∧ o < vmOffset m n + segFilesize m (lcPosition m n) then
        m (segFileoff m (lcPosition m n) + (o - vmOffset m n))
      else fileImage m z n o
    else fileImage m z n

/-- The image `im` after the addresses of the segments among the first `n` commands have been
updated. -/
def patchedImage (m : Mem) (kextSa : ℕ) (im : Mem) : (n : ℕ) → Mem
  | 0 => im
  | n + 1 =>
    if IsSegment m n then
      storeWord (patchedImage m kextSa im n) (lcPosition m n + 24) 8
        ((vmOffset m n + kextSa) % 2 ^ 64)
    else patchedImage m kextSa im n

/-- The position of the kmod_info in the image. -/
def kmodOffset (info : KextLoadInfo) : ℕ := info.kmodInfo - info.vmBase

/-- The image that `kext_map` leaves behind. -/
def kextImage (k : KernelLayout) (info : KextLoadInfo) (m z : Mem) : Mem :=
  let im := patchedImage m (k.saForPtr info.kext) (fileImage m z (mhNcmds m 0)) (mhNcmds m 0)
  let im := storeWord im (kmodOffset info + kmodInfoAddress) 8 (k.saForPtr info.kext)
  storeWord im (kmodOffset info + kmodInfoSize) 8 info.vmSize

/-- The load information that `kext_map` leaves behind. -/
def mappedInfo (info : KextLoadInfo) (sp dp : ℕ) : KextLoadInfo :=
  { info with
    symtab := info.kext + sp
    dysymtab := info.kext + dp
    kmodInfo := info.kext + kmodOffset info }

/-- A call of `memcpy`. -/
structure Copy where
  dst : ℕ
  src : ℕ
  len : ℕ
deriving DecidableEq, Repr

/-- The copy that is made for the command at `lc`, if any. -/
def segmentCopy (info : KextLoadInfo) (m : Mem) (lc : ℕ) : List Copy :=
  if lcCmd m lc = LC_SEGMENT_64 then
    [⟨(info.kext + sub64 (segVmaddr m lc) info.vmBase) % 2 ^ 64,
      (info.header + segFileoff m lc) % 2 ^ 64, segFilesize m lc⟩]
  else []

/-- `copySegment` does exactly this copy. -/
lemma copySegment_eq_foldl (info : KextLoadInfo) (m : Mem) (lc : ℕ) :
    copySegment info m lc =
      (segmentCopy info m lc).foldl (fun m c => memcpy m c.dst c.src c.len) m := by
  rw [copySegment, segmentCopy]
  split_ifs
  · rfl
  · rfl

/-- The copy for the `i`-th command of a file. -/
def fileCopy (info : KextLoadInfo) (file : Mem) (i : ℕ) : Copy :=
  ⟨info.kext + (segVmaddr file (lcPosition file i) - info.vmBase),
    info.header + segFileoff file (lcPosition file i), segFilesize file (lcPosition file i)⟩

/-- The upload is in memory, the image is somewhere else, and neither wraps around. -/
structure Placed (buf : Buffer) (info : KextLoadInfo) (m : Mem) : Prop where
  loaded : Agree m info.header buf.byte 0 buf.size
  fileSize : buf.size < 2 ^ 32
  headerFits : info.header + buf.size < 2 ^ 64
  kextFits : info.kext + info.vmSize < 2 ^ 64
  apart : Apart info.kext info.vmSize info.header buf.size

/-! ## Positions in an accepted file -/

section Positions

variable {m : Mem} {size sizeofcmds vmBase n i j : ℕ}

/-- Different commands do not overlap. -/
lemma commands_apart (h : lcCmd m (lcPosition m i) ≠ lcCmd m (lcPosition m j)) :
    Apart (lcPosition m i) (lcCmdsize m (lcPosition m i)) (lcPosition m j)
      (lcCmdsize m (lcPosition m j)) := by
  rcases lt_trichotomy i j with hlt | rfl | hgt
  · exact Or.inl (lcPosition_mono m hlt)
  · exact absurd rfl h
  · exact Or.inr (lcPosition_mono m hgt)

/-- Updating the addresses of segments changes nothing but their addresses. -/
lemma patchedImage_apply {sa o : ℕ} {im : Mem}
    (ho : ∀ j < i, IsSegment m j → o < lcPosition m j + 24 ∨ lcPosition m j + 32 ≤ o) :
    patchedImage m sa im i o = im o := by
  induction i with
  | zero => rfl
  | succ i ih =>
    have hprev := ih fun j hj => ho j (by omega)
    rw [patchedImage]
    split_ifs with hs
    · rw [storeWord_apply_of_out (ho i (Nat.lt_succ_self i) hs)]
      exact hprev
    · exact hprev

namespace CommandsOk

variable (h : CommandsOk m size sizeofcmds vmBase n)
include h

/-- A segment command is long enough, and it ends in the area of the load commands. -/
lemma segment_end (hi : i < n) (hs : IsSegment m i) :
    lcPosition m i + 72 ≤ lcPosition m (i + 1) ∧
      lcPosition m (i + 1) ≤ sizeofHeader + sizeofcmds := by
  have hsize := (h.segment i hi hs).cmdsize
  simp only [sizeofSegmentCommand] at hsize
  exact ⟨Nat.add_le_add_left hsize _, (h.inside i hi).2⟩

/-- The first segment has room for the header and the load commands. -/
lemma header_le_vmOffset (hi : i ≤ n) (hs : ∃ j < i, IsSegment m j) :
    sizeofHeader + sizeofcmds ≤ vmOffset m i := by
  induction i with
  | zero =>
    obtain ⟨j, hj, -⟩ := hs
    omega
  | succ i ih =>
    by_cases hprev : ∃ j < i, IsSegment m j
    · exact (ih (by omega) hprev).trans (vmOffset_mono m (Nat.le_succ i))
    · obtain ⟨j, hj, hsj⟩ := hs
      obtain rfl : j = i := by
        rcases Nat.lt_succ_iff_lt_or_eq.1 hj with hlt | heq
        · exact absurd ⟨j, hlt, hsj⟩ hprev
        · exact heq
      have hok := h.segment j hi hsj
      have hfirst := (hok.header fun k hk hsk => hprev ⟨k, hk, hsk⟩).2
      rw [vmOffset, if_pos hsj]
      exact (hfirst.trans hok.filesize).trans (Nat.le_add_left _ _)

/-- The file contents of a segment fit into its part of the image. -/
lemma filesize_le_next (hi : i < n) (hs : IsSegment m i) :
    vmOffset m i + segFilesize m (lcPosition m i) ≤ vmOffset m (i + 1) := by
  have hle := (h.segment i hi hs).filesize
  rw [vmOffset, if_pos hs]
  omega

lemma filesize_le (hi : i < n) (hs : IsSegment m i) :
    vmOffset m i + segFilesize m (lcPosition m i) ≤ vmOffset m n :=
  (h.filesize_le_next hi hs).trans (vmOffset_mono m hi)

/-- The header and the load commands are mapped at the start of the image, and no segment is copied
over them. -/
lemma fileImage_header {z : Mem} {o : ℕ} (hi : i ≤ n) (hs : ∃ j < i, IsSegment m j)
    (ho : o < sizeofHeader + sizeofcmds) : fileImage m z i o = m o := by
  induction i with
  | zero =>
    obtain ⟨j, hj, -⟩ := hs
    omega
  | succ i ih =>
    rw [fileImage]
    by_cases hsi : IsSegment m i
    · rw [if_pos hsi]
      by_cases hprev : ∃ j < i, IsSegment m j
      · have hle := h.header_le_vmOffset (show i ≤ n by omega) hprev
        rw [if_neg (by omega)]
        exact ih (by omega) hprev
      · have hno : ∀ j < i, ¬ IsSegment m j := fun j hj hsj => hprev ⟨j, hj, hsj⟩
        obtain ⟨hoff, hsize⟩ := (h.segment i hi hsi).header hno
        rw [vmOffset_eq_zero hno, hoff, if_pos (by omega), Nat.zero_add, Nat.sub_zero]
    · rw [if_neg hsi]
      obtain ⟨j, hj, hsj⟩ := hs
      have hne : j ≠ i := fun heq => hsi (heq ▸ hsj)
      exact ih (by omega) ⟨j, by omega, hsj⟩

/-- The commands from the `i`-th one on lie behind the addresses of the segments before it. -/
lemma segment_behind (hi : i ≤ n) (hj : j < i) (hs : IsSegment m j) :
    lcPosition m j + 72 ≤ lcPosition m i :=
  (h.segment_end (by omega) hs).1.trans (lcPosition_mono m hj)

end CommandsOk

end Positions

/-! ## The two loops -/

section Map

variable {chain : List KernelcacheSymbolTable} {header sp dp i n : ℕ} {buf : Buffer}
  {info : KextLoadInfo} {m : Mem} {k : KernelLayout}

/-- The upload can be read whatever the image is. -/
lemma Placed.word_file {o w : ℕ} (hp : Placed buf info m) (obj : Mem) (ho : o + w ≤ buf.size) :
    word (splice m info.kext info.vmSize obj) (info.header + o) w = word buf.byte o w := by
  rw [((agree_splice_of_apart hp.apart).trans hp.loaded).word_eq ho, Nat.zero_add]

/-- The variables of the first loop after `i` commands. -/
def mapState (info : KextLoadInfo) (file m : Mem) (i : ℕ) : Mem × ℕ :=
  (splice m info.kext info.vmSize (fileImage file (fun o => m (info.kext + o)) i),
    info.header + lcPosition file i)

/-- The variables of the second loop after `i` commands. -/
def slideState (k : KernelLayout) (info : KextLoadInfo) (file m : Mem) (i : ℕ) : Mem × ℕ :=
  let im := fileImage file (fun o => m (info.kext + o)) (mhNcmds file 0)
  (splice m info.kext info.vmSize (patchedImage file (k.saForPtr info.kext) im i),
    info.kext + lcPosition file i)

/-- The second loop does not look at the pointers that have been changed before it. -/
lemma updateVmaddr_with (symtab dysymtab : ℕ) :
    updateVmaddr k { info with symtab, dysymtab } = updateVmaddr k info := rfl

namespace Accepted

variable (h : Accepted chain header buf info sp dp)
include h

/-- The header and the load commands lie in the image. -/
lemma header_le_vmSize : sizeofHeader + mhSizeofcmds buf.byte 0 ≤ info.vmSize := by
  rw [h.vmSize]
  exact h.commands.header_le_vmOffset le_rfl h.hasSegment

/-- The loader works on a copy of the load information in which the allocation is noted. -/
lemma alloc (kext : ℕ) : Accepted chain header buf { info with kext } sp dp :=
  ⟨h.headerFits, h.commands, h.hasSegment, h.vmSize, h.vmEnd, h.symtabAt, h.symtab, h.dysymtabAt,
    h.dysymtab, h.header_eq, h.fileSize_eq, h.symtab_eq, h.dysymtab_eq, h.nlist_eq, h.extrel_eq,
    h.locrel_eq, h.kmodInfo, h.kmodInfo_ne, h.symbolLoop, h.symbols, h.externals, h.locals⟩

/-- A segment of an accepted upload: its file contents lie in the file and go to the image. -/
lemma segment_bounds (hsize : buf.size < 2 ^ 32) (hvm : info.vmSize < 2 ^ 32)
    (hi : i < mhNcmds buf.byte 0) (hs : IsSegment buf.byte i) :
    segFileoff buf.byte (lcPosition buf.byte i) + segFilesize buf.byte (lcPosition buf.byte i) ≤
        buf.size ∧
      segVmaddr buf.byte (lcPosition buf.byte i) = info.vmBase + vmOffset buf.byte i ∧
      vmOffset buf.byte i + segFilesize buf.byte (lcPosition buf.byte i) ≤ info.vmSize := by
  obtain ⟨-, hfileoff, hfileEnd, -, hvmaddr, -, -⟩ := h.commands.segment i hi hs
  have hle := h.commands.filesize_le hi hs
  rw [← h.vmSize] at hle
  exact ⟨by omega, hvmaddr, hle⟩

/-- The first loop reads the upload, which it does not write to. -/
lemma segmentCopy_eq (hp : Placed buf info m) (hvm : info.vmSize < 2 ^ 32)
    (hi : i < mhNcmds buf.byte 0) (im : Mem) :
    segmentCopy info (splice m info.kext info.vmSize im) (info.header + lcPosition buf.byte i) =
      if IsSegment buf.byte i then [fileCopy info buf.byte i] else [] := by
  have hfits := h.headerFits
  have hin := (h.commands.inside i hi).1
  have hw (o w : ℕ) (ho : o + w ≤ buf.size) := hp.word_file im ho
  rw [segmentCopy, lcCmd, hw _ 4 (by omega), ← lcCmd]
  by_cases hs : IsSegment buf.byte i
  · have hcmd : lcCmd buf.byte (lcPosition buf.byte i) = LC_SEGMENT_64 := hs
    obtain ⟨hend, hend'⟩ := h.commands.segment_end hi hs
    obtain ⟨hfile, hvmaddr, himage⟩ := h.segment_bounds hp.fileSize hvm hi hs
    have hva := h.vmEnd
    have hkext := hp.kextFits
    have hheader := hp.headerFits
    rw [if_pos hcmd, if_pos hs, fileCopy, segVmaddr, segFileoff, segFilesize, Nat.add_assoc,
      Nat.add_assoc, Nat.add_assoc, hw _ 8 (by omega), hw _ 8 (by omega), hw _ 8 (by omega),
      ← segVmaddr, ← segFileoff, ← segFilesize, hvmaddr, sub64_of_le (by omega) (by omega),
      Nat.add_sub_cancel_left, Nat.mod_eq_of_lt (by omega), Nat.mod_eq_of_lt (by omega)]
  · have hcmd : lcCmd buf.byte (lcPosition buf.byte i) ≠ LC_SEGMENT_64 := hs
    rw [if_neg hcmd, if_neg hs]

lemma copySegment_eq (hp : Placed buf info m) (hvm : info.vmSize < 2 ^ 32)
    (hi : i < mhNcmds buf.byte 0) (z : Mem) :
    copySegment info (splice m info.kext info.vmSize (fileImage buf.byte z i))
        (info.header + lcPosition buf.byte i) =
      splice m info.kext info.vmSize (fileImage buf.byte z (i + 1)) := by
  rw [copySegment_eq_foldl, h.segmentCopy_eq hp hvm hi, fileImage]
  by_cases hs : IsSegment buf.byte i
  · obtain ⟨hfile, hvmaddr, himage⟩ := h.segment_bounds hp.fileSize hvm hi hs
    rw [if_pos hs, if_pos hs, List.foldl_cons, List.foldl_nil, fileCopy, hvmaddr,
      Nat.add_sub_cancel_left]
    have hsrc : Apart info.kext info.vmSize
        (info.header + segFileoff buf.byte (lcPosition buf.byte i))
        (segFilesize buf.byte (lcPosition buf.byte i)) := by
      rcases hp.apart with hap | hap
      · exact Or.inl (by omega)
      · exact Or.inr (by omega)
    rw [memcpy_splice himage hsrc]
    refine congrArg (splice m info.kext info.vmSize) (funext fun o => ?_)
    split_ifs with ho
    · rw [Nat.add_assoc, hp.loaded _ (by omega), Nat.zero_add]
    · rfl
  · rw [if_neg hs, if_neg hs, List.foldl_nil]

lemma mapSegment_mapState (hp : Placed buf info m) (hvm : info.vmSize < 2 ^ 32)
    (hi : i < mhNcmds buf.byte 0) :
    mapSegment info i (mapState info buf.byte m i) = some (mapState info buf.byte m (i + 1)) := by
  have hfits := h.headerFits
  have hin := (h.commands.inside i hi).1
  show some (copySegment _ _ _, _ + lcCmdsize (copySegment _ _ _) _) = some (_, _)
  rw [h.copySegment_eq hp hvm hi, lcCmdsize, Nat.add_assoc, Nat.add_assoc, hp.word_file _ (by omega),
    ← lcCmdsize, lcPosition]

/-- The first loop. -/
lemma mapSegments_eq (hp : Placed buf info m) (hvm : info.vmSize < 2 ^ 32) :
    countedLoop (fun s => mhNcmds s.1 info.header) (mapSegment info) (2 ^ 32) 0
      (m, info.header + sizeofHeader) = some (mapState info buf.byte m (mhNcmds buf.byte 0)) := by
  have hfits := h.headerFits
  have hncmds : mhNcmds buf.byte 0 < 256 ^ 4 := word_lt buf.byte (0 + 16) 4
  have hinit : (m, info.header + sizeofHeader) = mapState info buf.byte m 0 := by
    rw [mapState, fileImage, splice_self, lcPosition]
  rw [hinit]
  refine countedLoop_eq (fun i _ => ?_) (fun i hi => h.mapSegment_mapState hp hvm hi) (by omega)
  simp only [sizeofHeader] at hfits
  rw [mapState, mhNcmds, hp.word_file _ (by omega), mhNcmds, Nat.zero_add]

/-- A field of the mapped load commands that is not the address of a segment visited before. -/
lemma word_slideState {o w : ℕ}
    (ho : ∀ j < i, IsSegment buf.byte j →
      o + w ≤ lcPosition buf.byte j + 24 ∨ lcPosition buf.byte j + 32 ≤ o)
    (hend : o + w ≤ sizeofHeader + mhSizeofcmds buf.byte 0) :
    word (slideState k info buf.byte m i).1 (info.kext + o) w = word buf.byte o w := by
  have hle := h.header_le_vmSize
  rw [slideState, word_splice (by omega)]
  refine word_congr fun c hc => ?_
  rw [patchedImage_apply fun j hj hs => (ho j hj hs).imp (by omega) (by omega)]
  exact h.commands.fileImage_header le_rfl h.hasSegment (by omega)

/-- The current command in the second loop, and the commands behind it. -/
lemma word_slideState_behind {o w : ℕ} (hi : i ≤ mhNcmds buf.byte 0)
    (ho : lcPosition buf.byte i ≤ o) (hend : o + w ≤ sizeofHeader + mhSizeofcmds buf.byte 0) :
    word (slideState k info buf.byte m i).1 (info.kext + o) w = word buf.byte o w := by
  refine h.word_slideState (fun j hj hs => Or.inr ?_) hend
  have hbehind := h.commands.segment_behind hi hj hs
  omega

/-- One step of the second loop. -/
lemma slideSegment_eq (hi : i < mhNcmds buf.byte 0) :
    slideSegment k info (slideState k info buf.byte m i).1 (info.kext + lcPosition buf.byte i) =
      (slideState k info buf.byte m (i + 1)).1 := by
  have hin := (h.commands.inside i hi).1
  rw [slideSegment, lcCmd, h.word_slideState_behind hi.le le_rfl (by omega), ← lcCmd]
  by_cases hs : IsSegment buf.byte i
  · have hcmd : lcCmd buf.byte (lcPosition buf.byte i) = LC_SEGMENT_64 := hs
    obtain ⟨hend, hend'⟩ := h.commands.segment_end hi hs
    obtain ⟨-, -, -, -, hvmaddr, hnoWrap, -⟩ := h.commands.segment i hi hs
    have hmono := vmOffset_mono buf.byte (show i ≤ i + 1 by omega)
    have hle := h.header_le_vmSize
    rw [if_pos hcmd, segVmaddr, Nat.add_assoc,
      h.word_slideState_behind hi.le (by omega) (by omega), ← segVmaddr, hvmaddr,
      sub64_of_le (by omega) (by omega), Nat.add_sub_cancel_left]
    rw [slideState, slideState, patchedImage, if_pos hs, storeWord_splice (by omega)]
  · have hcmd : lcCmd buf.byte (lcPosition buf.byte i) ≠ LC_SEGMENT_64 := hs
    rw [if_neg hcmd]
    rw [slideState, slideState, patchedImage, if_neg hs]

lemma updateVmaddr_slideState (hi : i < mhNcmds buf.byte 0) :
    updateVmaddr k info i (slideState k info buf.byte m i) =
      some (slideState k info buf.byte m (i + 1)) := by
  have hin := (h.commands.inside i hi).1
  have hcurrent : updateVmaddr k info i (slideState k info buf.byte m i) =
      let m' := slideSegment k info (slideState k info buf.byte m i).1
        (info.kext + lcPosition buf.byte i)
      some (m', info.kext + lcPosition buf.byte i +
        lcCmdsize m' (info.kext + lcPosition buf.byte i)) := rfl
  -- the size of the current command lies in front of its address
  have hfield : ∀ j < i + 1, IsSegment buf.byte j → lcPosition buf.byte i + 4 + 4 ≤
      lcPosition buf.byte j + 24 ∨ lcPosition buf.byte j + 32 ≤ lcPosition buf.byte i + 4 := by
    intro j hj hs
    rcases Nat.lt_succ_iff_lt_or_eq.1 hj with hlt | rfl
    · have hbehind := h.commands.segment_behind hi.le hlt hs
      exact Or.inr (by omega)
    · exact Or.inl (by omega)
  rw [hcurrent, h.slideSegment_eq hi]
  show some (_, _ + lcCmdsize _ _) = _
  rw [lcCmdsize, Nat.add_assoc, Nat.add_assoc, h.word_slideState hfield (by omega), ← lcCmdsize,
    ← lcPosition]
  rfl

/-- The second loop. -/
lemma updateVmaddrs_eq :
    countedLoop (fun s => mhNcmds s.1 info.kext) (updateVmaddr k info) (2 ^ 32) 0
        (slideState k info buf.byte m 0) =
      some (slideState k info buf.byte m (mhNcmds buf.byte 0)) := by
  have hncmds : mhNcmds buf.byte 0 < 256 ^ 4 := word_lt buf.byte (0 + 16) 4
  refine countedLoop_eq (fun i _ => ?_) (fun i hi => h.updateVmaddr_slideState hi) (by omega)
  have hfield : ∀ j < i, IsSegment buf.byte j →
      16 + 4 ≤ lcPosition buf.byte j + 24 ∨ lcPosition buf.byte j + 32 ≤ 16 :=
    fun j _ _ => Or.inl (Nat.le_add_left_of_le (by norm_num))
  rw [mhNcmds, h.word_slideState hfield (Nat.le_add_right_of_le (by decide)), mhNcmds,
    Nat.zero_add]

/-! ## The result -/

lemma kmodOffset_le : kmodOffset info + sizeofKmodInfo ≤ info.vmSize := by
  have hkmod := h.kmodInfo
  rw [kmodOffset]
  omega

/-- A position of a load command, and of what follows in it, lies in the image. -/
lemma lcPosition_le_vmSize (hi : i < mhNcmds buf.byte 0) :
    lcPosition buf.byte i + 8 ≤ info.vmSize :=
  (h.commands.inside i hi).1.trans h.header_le_vmSize

/-- `kext_map` puts the mapped image in its place, and changes nothing else. -/
theorem kextMap_eq (hp : Placed buf info m) (hvm : info.vmSize < 2 ^ 32) :
    kextMap k info m = some
      (splice m info.kext info.vmSize
        (kextImage k info buf.byte fun o => m (info.kext + o)), mappedInfo info sp dp) := by
  obtain ⟨i, hi, hsp⟩ := h.symtabAt
  obtain ⟨j, hj, hdp⟩ := h.dysymtabAt
  have hspIn := h.lcPosition_le_vmSize hi
  have hdpIn := h.lcPosition_le_vmSize hj
  rw [← hsp] at hspIn
  rw [← hdp] at hdpIn
  have hslide (p : ℕ) (hpIn : p + 8 ≤ info.vmSize) :
      (header + p + sub64 info.kext header) % 2 ^ 64 = info.kext + p := by
    have hkext := hp.kextFits
    have hheader := hp.headerFits
    rw [h.header_eq] at hheader
    rw [sub64]
    omega
  have hkmodIn := h.kmodOffset_le
  have hkmod : (info.kext + sub64 info.kmodInfo info.vmBase) % 2 ^ 64 =
      info.kext + kmodOffset info := by
    have hkmodInfo := h.kmodInfo
    have hend := h.vmEnd
    have hkext := hp.kextFits
    rw [sub64_of_le (by omega) hkmodInfo.1, ← kmodOffset]
    omega
  simp only [sizeofKmodInfo] at hkmodIn
  simp only [kextMap, Option.bind_eq_bind, h.mapSegments_eq hp hvm, Option.bind_some]
  have hloop : countedLoop (fun s => mhNcmds s.1 info.kext) (updateVmaddr k info) (2 ^ 32) 0
      ((mapState info buf.byte m (mhNcmds buf.byte 0)).1, info.kext + sizeofHeader) =
        some (slideState k info buf.byte m (mhNcmds buf.byte 0)) := h.updateVmaddrs_eq
  rw [updateVmaddr_with, hloop, Option.bind_some, hkmod, h.symtab_eq, h.dysymtab_eq, h.header_eq,
    hslide sp hspIn, hslide dp hdpIn, slideState, Nat.add_assoc, Nat.add_assoc,
    storeWord_splice, storeWord_splice]
  · rw [← h.header_eq]
    rfl
  · simp only [kmodInfoSize]
    omega
  · simp only [kmodInfoAddress]
    omega

/-! ## The commands that are used later -/

/-- A field of `LC_SYMTAB` or `LC_DYSYMTAB`, or of another command that is not a segment, has its
value from the file unless the fields of the kmod_info are written over it. -/
lemma word_kextImage {z : Mem} {p o w : ℕ} (hp : ∃ i < mhNcmds buf.byte 0, p = lcPosition buf.byte i)
    (hcmd : lcCmd buf.byte p ≠ LC_SEGMENT_64) (ho : o + w ≤ lcCmdsize buf.byte p)
    (hkmod : Apart (kmodOffset info + kmodInfoAddress) 16 (p + o) w) :
    word (kextImage k info buf.byte z) (p + o) w = word buf.byte (p + o) w := by
  obtain ⟨i, hi, rfl⟩ := hp
  have hend := (h.commands.inside i hi).2
  rw [lcPosition] at hend
  refine word_congr fun c hc => ?_
  have hkmod' : lcPosition buf.byte i + o + c < kmodOffset info + kmodInfoAddress ∨
      kmodOffset info + kmodInfoAddress + 16 ≤ lcPosition buf.byte i + o + c := by
    rcases hkmod with hkmod | hkmod
    · exact Or.inr (by omega)
    · exact Or.inl (by omega)
  simp only [kmodInfoAddress] at hkmod'
  rw [kextImage, storeWord_apply_of_out, storeWord_apply_of_out, patchedImage_apply]
  · exact h.commands.fileImage_header le_rfl h.hasSegment (by omega)
  · intro j hj hs
    have hcmd' : lcCmd buf.byte (lcPosition buf.byte j) ≠ lcCmd buf.byte (lcPosition buf.byte i) :=
      fun heq => hcmd (heq ▸ hs)
    have hsegment := (h.commands.segment j hj hs).cmdsize
    simp only [sizeofSegmentCommand] at hsegment
    rcases commands_apart hcmd' with hap | hap
    · exact Or.inr (by omega)
    · exact Or.inl (by omega)
  · simp only [kmodInfoAddress]
    omega
  · simp only [kmodInfoSize]
    omega

end Accepted

end Map

/-- The memory after an upload, and nothing else. -/
def uploaded (buf : Buffer) (header : ℕ) : Mem := fun b => buf.byte (b - header)

lemma placed_uploaded {buf : Buffer} {info : KextLoadInfo} (hsize : buf.size = 0x4000)
    (hheader : info.header = 0x1000000) (hkext : info.kext = 0x2000000)
    (hvm : info.vmSize < 2 ^ 32) : Placed buf info (uploaded buf 0x1000000) := by
  refine ⟨fun i _ => ?_, ?_, ?_, ?_, ?_⟩
  · rw [uploaded, hheader, Nat.add_sub_cancel_left, Nat.zero_add]
  · omega
  · omega
  · omega
  · rw [hsize, hheader, hkext]
    exact Or.inr (by norm_num)

lemma placed_small (vmBase kmodInfo external local' : ℕ) :
    Placed (smallUpload vmBase kmodInfo external local')
      { smallInfo vmBase kmodInfo with kext := 0x2000000 }
      (uploaded (smallUpload vmBase kmodInfo external local') 0x1000000) :=
  placed_uploaded rfl rfl rfl (show 0x4000 < 2 ^ 32 by norm_num)

end VulnerableKext.Kext

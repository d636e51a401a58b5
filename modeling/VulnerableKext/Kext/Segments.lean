import VulnerableKext.Kext.RelocationBounds

/-!
# Segments and their copies

The segments of an accepted file tile the range of addresses from `vm_base` on, and the
copies that `kext_map` makes for them go to disjoint parts of the image.  For this the
first loop is run once more with a list of its copies (`mapCopies`).

The second half describes the image of `kext_map` byte by byte, in terms of the file.
-/

namespace VulnerableKext.Kext

open Memory Bytes Device

/-! ## Tiling -/

/-- Ranges, given by their start and their size, that follow one another from `lo` to `hi`. -/
def Tiles : (lo : ℕ) → List (ℕ × ℕ) → (hi : ℕ) → Prop
  | lo, [], hi => lo = hi
  | lo, r :: rs, hi => r.1 = lo ∧ Tiles (lo + r.2) rs hi

lemma Tiles.append {lo mid hi : ℕ} {rs rs' : List (ℕ × ℕ)} (h : Tiles lo rs mid)
    (h' : Tiles mid rs' hi) : Tiles lo (rs ++ rs') hi := by
  induction rs generalizing lo with
  | nil =>
    obtain rfl : lo = mid := h
    exact h'
  | cons r rs ih => exact ⟨h.1, ih h.2⟩

/-- The `LC_SEGMENT_64` commands among the first `n`, by their index. -/
def segments (m : Mem) (n : ℕ) : List ℕ := (List.range n).filter fun i => decide (IsSegment m i)

/-- The address range of the `i`-th command. -/
def segmentRange (m : Mem) (i : ℕ) : ℕ × ℕ :=
  (segVmaddr m (lcPosition m i), segVmsize m (lcPosition m i))

lemma mem_segments {m : Mem} {n i : ℕ} : i ∈ segments m n ↔ i < n ∧ IsSegment m i := by
  rw [segments, List.mem_filter, List.mem_range, decide_eq_true_iff]

lemma segments_succ (m : Mem) (n : ℕ) :
    segments m (n + 1) = segments m n ++ if IsSegment m n then [n] else [] := by
  rw [segments, List.range_succ, List.filter_append, ← segments]
  by_cases hs : IsSegment m n
  · rw [if_pos hs]
    simp [hs]
  · rw [if_neg hs]
    simp [hs]

namespace CommandsOk

variable {m : Mem} {size sizeofcmds vmBase n i : ℕ}

/-- The segments before the `i`-th command. -/
lemma tiles (h : CommandsOk m size sizeofcmds vmBase n) (hi : i ≤ n) :
    Tiles vmBase ((segments m i).map (segmentRange m)) (vmBase + vmOffset m i) := by
  induction i with
  | zero => exact rfl
  | succ i ih =>
    have hprev := ih (by omega)
    rw [segments_succ, List.map_append]
    by_cases hs : IsSegment m i
    · rw [if_pos hs, vmOffset, if_pos hs, ← Nat.add_assoc]
      exact hprev.append ⟨(h.segment i hi hs).vmaddr, rfl⟩
    · rw [if_neg hs, vmOffset, if_neg hs, List.map_nil, List.append_nil, Nat.add_zero]
      exact hprev

/-- The total size of the segments. -/
lemma sum_vmsize : ((segments m n).map fun i => segVmsize m (lcPosition m i)).sum = vmOffset m n := by
  induction n with
  | zero => rfl
  | succ n ih =>
    rw [segments_succ, List.map_append, List.sum_append, ih, vmOffset]
    by_cases hs : IsSegment m n
    · rw [if_pos hs, if_pos hs, List.map_singleton, List.sum_singleton]
    · rw [if_neg hs, if_neg hs, List.map_nil, List.sum_nil]

end CommandsOk

/-! ## Copies -/

/-- The first loop of `kext_map` with a list of the copies that have been made. -/
def mapCopies (info : KextLoadInfo) (m : Mem) : Option (List Copy) :=
  (countedLoop (fun s : (Mem × ℕ) × List Copy => mhNcmds s.1.1 info.header)
    (fun i s => (mapSegment info i s.1).map fun s' => (s', s.2 ++ segmentCopy info s.1.1 s.1.2))
    (2 ^ 32) 0 ((m, info.header + sizeofHeader), [])).map Prod.snd

section Partition

variable {allocStatic : ℕ → Option ℕ} {chain : List KernelcacheSymbolTable} {header sp dp : ℕ}
  {buf buf' : Buffer} {info info' : KextLoadInfo} {m : Mem}

/-- The copies of the first loop, on an accepted upload. -/
lemma Accepted.mapCopies_eq (h : Accepted chain header buf info sp dp) (hp : Placed buf info m)
    (hvm : info.vmSize < 2 ^ 32) :
    mapCopies info m =
      some ((segments buf.byte (mhNcmds buf.byte 0)).map (fileCopy info buf.byte)) := by
  have hfits := h.headerFits
  have hncmds : mhNcmds buf.byte 0 < 256 ^ 4 := word_lt buf.byte (0 + 16) 4
  have hinit : ((m, info.header + sizeofHeader), ([] : List Copy)) =
      (mapState info buf.byte m 0, (segments buf.byte 0).map (fileCopy info buf.byte)) := by
    rw [mapState, fileImage, splice_self, lcPosition]
    rfl
  rw [mapCopies, hinit]
  refine (congrArg (Option.map Prod.snd) (countedLoop_eq (n := mhNcmds buf.byte 0)
    (S := fun i => (mapState info buf.byte m i, (segments buf.byte i).map (fileCopy info buf.byte)))
    (fun i _ => ?_) (fun i hi => ?_) (by omega))).trans rfl
  · simp only [sizeofHeader] at hfits
    rw [mapState, mhNcmds, hp.word_file _ (by omega), mhNcmds, Nat.zero_add]
  · rw [h.mapSegment_mapState hp hvm hi, Option.map_some, segments_succ, List.map_append,
      apply_ite (List.map _), List.map_singleton, List.map_nil, ← h.segmentCopy_eq hp hvm hi]
    rfl

/-- What `kext_alloc` asks for: the size of the image, rounded up, with nothing cut off. -/
lemma kextAlloc_exact (h : kextAlloc allocStatic info = some info') :
    ∃ kext, info' = { info with kext } ∧ info.vmSize < 2 ^ 32 ∧
      allocStatic ((info.vmSize + 0x3fff) / 0x4000 * 0x4000) = some kext := by
  simp only [kextAlloc] at h
  split_ifs at h with hsize
  obtain ⟨kext, hkext, rfl⟩ := Option.map_eq_some_iff.1 h
  have hexact : allocSize info.vmSize % 2 ^ 32 = (info.vmSize + 0x3fff) / 0x4000 * 0x4000 := by
    simp only [allocSize] at hsize ⊢
    omega
  rw [hexact] at hkext
  have hlt : allocSize info.vmSize % 2 ^ 32 < 2 ^ 32 := Nat.mod_lt _ (by norm_num)
  exact ⟨kext, rfl, by omega, hkext⟩

/-- The segments tile the addresses of the image, the image has been allocated in full, and the
copies are in bounds and do not meet. -/
structure SegmentsPartition (allocStatic : ℕ → Option ℕ) (buf : Buffer) (info : KextLoadInfo) :
    Prop where
  noWrap : info.vmBase + info.vmSize < 2 ^ 64
  tiles : Tiles info.vmBase ((segments buf.byte (mhNcmds buf.byte 0)).map (segmentRange buf.byte))
    (info.vmBase + info.vmSize)
  vmSize : info.vmSize = ((segments buf.byte (mhNcmds buf.byte 0)).map fun i =>
    segVmsize buf.byte (lcPosition buf.byte i)).sum
  allocated : ∃ size, allocStatic size = some info.kext ∧ info.vmSize ≤ size ∧ size % 0x4000 = 0 ∧
    size = (info.vmSize + 0x3fff) / 0x4000 * 0x4000
  copies : ∀ m, Placed buf info m → mapCopies info m =
    some ((segments buf.byte (mhNcmds buf.byte 0)).map (fileCopy info buf.byte))
  reads : ∀ i ∈ segments buf.byte (mhNcmds buf.byte 0),
    segFileoff buf.byte (lcPosition buf.byte i) + segFilesize buf.byte (lcPosition buf.byte i) ≤
      buf.size
  writes : ∀ i ∈ segments buf.byte (mhNcmds buf.byte 0),
    info.vmBase ≤ segVmaddr buf.byte (lcPosition buf.byte i) ∧
      segVmaddr buf.byte (lcPosition buf.byte i) - info.vmBase +
        segFilesize buf.byte (lcPosition buf.byte i) ≤ info.vmSize
  disjoint : (segments buf.byte (mhNcmds buf.byte 0)).Pairwise fun i j =>
    Apart (segVmaddr buf.byte (lcPosition buf.byte i) - info.vmBase)
      (segFilesize buf.byte (lcPosition buf.byte i))
      (segVmaddr buf.byte (lcPosition buf.byte j) - info.vmBase)
      (segFilesize buf.byte (lcPosition buf.byte j))

/-- The segments of an accepted and allocated upload partition the image. -/
theorem kextParse_segmentsPartition (hsize : buf.size < 2 ^ 32)
    (hparse : kextParse chain header buf = .ok (buf', info))
    (halloc : kextAlloc allocStatic info = some info') :
    SegmentsPartition allocStatic buf' info' := by
  obtain ⟨sp, dp, hacc₀⟩ := kextParse_accepted hparse
  obtain ⟨kext, rfl, hvm, hkext⟩ := kextAlloc_exact halloc
  have hacc := hacc₀.alloc kext
  have hsize' : buf'.size < 2 ^ 32 := by
    rw [kextParse_size hparse]
    exact hsize
  have hbounds (i : ℕ) (hi : i ∈ segments buf'.byte (mhNcmds buf'.byte 0)) :=
    hacc.segment_bounds hsize' hvm (mem_segments.1 hi).1 (mem_segments.1 hi).2
  refine ⟨hacc.vmEnd, ?_, ?_, ⟨_, hkext, ?_, Nat.mul_mod_left _ _, rfl⟩,
    fun m hp => hacc.mapCopies_eq hp hvm, fun i hi => (hbounds i hi).1, fun i hi => ?_, ?_⟩
  · rw [hacc.vmSize]
    exact hacc.commands.tiles le_rfl
  · rw [hacc.vmSize, CommandsOk.sum_vmsize]
  · show info.vmSize ≤ (info.vmSize + 0x3fff) / 0x4000 * 0x4000
    omega
  · obtain ⟨-, hvmaddr, himage⟩ := hbounds i hi
    rw [hvmaddr, Nat.add_sub_cancel_left]
    exact ⟨Nat.le_add_right _ _, himage⟩
  · refine (List.pairwise_lt_range.filter _).imp_of_mem fun {i j} hi hj hlt => ?_
    obtain ⟨-, hvi, -⟩ := hbounds i hi
    obtain ⟨-, hvj, -⟩ := hbounds j hj
    have hend := CommandsOk.filesize_le_next hacc.commands (mem_segments.1 hi).1 (mem_segments.1 hi).2
    have hmono := vmOffset_mono buf'.byte (show i + 1 ≤ j from hlt)
    rw [hvi, hvj, Nat.add_sub_cancel_left, Nat.add_sub_cancel_left]
    exact Or.inl (hend.trans hmono)

end Partition

/-- The fields of a file with two segments, of which the second one holds the kmod_info. -/
def twoSegmentFields : List (ℕ × ℕ) :=
  [(4, MH_MAGIC_64), (8, 0), (4, MH_KEXT_BUNDLE), (4, 4), (4, 248), (8, 0)] ++
  [(4, LC_SEGMENT_64), (4, 72), (16, 0), (8, 0x1000), (8, 0x2000), (8, 0), (8, 344), (16, 0)] ++
  [(4, LC_SEGMENT_64), (4, 72), (16, 0), (8, 0x3000), (8, 0x4000), (8, 344), (8, 16), (16, 0)] ++
  [(4, LC_DYSYMTAB), (4, 80), (56, 0), (4, 312), (4, 1), (4, 320), (4, 1)] ++
  [(4, LC_SYMTAB), (4, 24), (4, 280), (4, 2), (4, 328), (4, 14)] ++
  [(4, 0), (1, N_SECT), (3, 0), (8, 0x3100)] ++ [(4, 11), (4, 1), (8, 0)] ++
  [(4, 0x1800), (4, 1 + 3 * 2 ^ 25 + 2 ^ 27)] ++ [(4, 0x4900), (4, 3 * 2 ^ 25)]

/-- The upload of the file, with 16 bytes of data for the second segment. -/
def twoSegmentUpload : Buffer :=
  let file := twoSegmentFields.flatMap (fun f => leBytes f.1 f.2) ++ kmodInfoName ++ [0] ++
    [95, 102, 0] ++ [0, 0] ++ List.replicate 16 0xaa
  ⟨0x4000, fun i => file.getD i 0⟩

/-- What `kext_parse` finds in it. -/
def twoSegmentInfo : KextLoadInfo :=
  ⟨0x1000000, 0, 0x4000, 0x6000, 0x1000, 0x3100, 0x1000000 + 256, 0x1000000 + 176, 0x1000000 + 280,
    0x1000000 + 312, 0x1000000 + 320⟩

lemma kextParse_twoSegments :
    kextParse smallChain 0x1000000 twoSegmentUpload = .ok (twoSegmentUpload, twoSegmentInfo) :=
  kextParse_of_keeps (by decide +kernel) (by decide +kernel)

lemma kextAlloc_twoSegments :
    kextAlloc smallAlloc twoSegmentInfo = some { twoSegmentInfo with kext := 0x2000000 } := by
  decide +kernel

/-- Both segments of the file. -/
theorem kextParse_segmentsPartition_two :
    SegmentsPartition smallAlloc twoSegmentUpload { twoSegmentInfo with kext := 0x2000000 } ∧
      segments twoSegmentUpload.byte (mhNcmds twoSegmentUpload.byte 0) = [0, 1] := by
  have hsize : twoSegmentUpload.size < 2 ^ 32 := by decide
  exact ⟨kextParse_segmentsPartition hsize kextParse_twoSegments kextAlloc_twoSegments,
    by decide +kernel⟩

/-! ## The image, byte by byte -/

section Image

variable {chain : List KernelcacheSymbolTable} {header sp dp i n o : ℕ} {buf : Buffer}
  {info : KextLoadInfo} {m z im : Mem} {k : KernelLayout}

/-- The position lies in the address field of a mapped segment command. -/
def InVmaddr (file : Mem) (o : ℕ) : Prop :=
  ∃ i ∈ segments file (mhNcmds file 0), lcPosition file i + 24 ≤ o ∧ o < lcPosition file i + 32

/-- The position lies in the fields `address` and `size` of the kmod_info. -/
def InKmodFields (info : KextLoadInfo) (o : ℕ) : Prop :=
  kmodOffset info + 156 ≤ o ∧ o < kmodOffset info + 172

namespace CommandsOk

variable {size sizeofcmds vmBase : ℕ} (h : CommandsOk m size sizeofcmds vmBase n)
include h

/-- A byte that a segment backs from the file. -/
lemma fileImage_backed {j : ℕ} (hj : j ≤ n) (hi : i < j) (hs : IsSegment m i)
    (hlo : vmOffset m i ≤ o) (hhi : o < vmOffset m i + segFilesize m (lcPosition m i)) :
    fileImage m z j o = m (segFileoff m (lcPosition m i) + (o - vmOffset m i)) := by
  induction j with
  | zero => omega
  | succ j ih =>
    rw [fileImage]
    rcases Nat.lt_succ_iff_lt_or_eq.1 hi with hlt | rfl
    · -- the segments behind the one that backs the byte start behind it
      have hnext := h.filesize_le_next (by omega) hs
      have hmono := vmOffset_mono m (show i + 1 ≤ j from hlt)
      have hprev := ih (by omega) hlt
      split_ifs
      · exact (if_neg (by omega)).trans hprev
      · exact hprev
    · rw [if_pos hs]
      exact if_pos ⟨hlo, hhi⟩

/-- The address of a segment in the mapped load commands. -/
lemma patchedImage_vmaddr {sa j c : ℕ} (hj : j ≤ n) (hi : i < j) (hs : IsSegment m i) (hc : c < 8) :
    patchedImage m sa im j (lcPosition m i + 24 + c) =
      UInt8.ofNat ((vmOffset m i + sa) % 2 ^ 64 / 256 ^ c) := by
  induction j with
  | zero => omega
  | succ j ih =>
    rw [patchedImage]
    rcases Nat.lt_succ_iff_lt_or_eq.1 hi with hlt | rfl
    · have hprev := ih (by omega) hlt
      have hbehind := h.segment_behind (show j ≤ n by omega) hlt hs
      split_ifs
      · rw [storeWord_apply_of_out (Or.inl (by omega))]
        exact hprev
      · exact hprev
    · rw [if_pos hs, storeWord, if_pos (by omega), Nat.add_sub_cancel_left]

end CommandsOk

/-- A byte that no segment backs. -/
lemma fileImage_unbacked (ho : ∀ i < n, IsSegment m i → o < vmOffset m i ∨
      vmOffset m i + segFilesize m (lcPosition m i) ≤ o) : fileImage m z n o = z o := by
  induction n with
  | zero => rfl
  | succ n ih =>
    have hprev := ih fun i hi => ho i (by omega)
    rw [fileImage]
    split_ifs with hs
    · have hout := ho n (by omega) hs
      exact (if_neg (by omega)).trans hprev
    · exact hprev

/-- Outside of its two fields, the kmod_info is mapped like everything else. -/
lemma kextImage_apply (ho : ¬ InKmodFields info o) :
    kextImage k info m z o = patchedImage m (k.saForPtr info.kext) (fileImage m z (mhNcmds m 0))
      (mhNcmds m 0) o := by
  rw [InKmodFields] at ho
  rw [kextImage, storeWord_apply_of_out (by simp only [kmodInfoSize]; omega),
    storeWord_apply_of_out (by simp only [kmodInfoAddress]; omega)]

/-- What `kext_map` does to memory and to the load information. -/
structure MappedAsSpecified (k : KernelLayout) (buf : Buffer) (info : KextLoadInfo) (m m₁ : Mem)
    (info₁ : KextLoadInfo) : Prop where
  /-- A byte that a segment backs is the byte of the file. -/
  backed : ∀ i ∈ segments buf.byte (mhNcmds buf.byte 0), ∀ o,
    segVmaddr buf.byte (lcPosition buf.byte i) - info.vmBase ≤ o →
    o < segVmaddr buf.byte (lcPosition buf.byte i) - info.vmBase +
      segFilesize buf.byte (lcPosition buf.byte i) →
    ¬ InVmaddr buf.byte o → ¬ InKmodFields info o →
    m₁ (info.kext + o) = buf.byte (segFileoff buf.byte (lcPosition buf.byte i) +
      (o - (segVmaddr buf.byte (lcPosition buf.byte i) - info.vmBase)))
  /-- A byte that no segment backs is the one that was there before. -/
  unbacked : ∀ o < info.vmSize, (∀ i ∈ segments buf.byte (mhNcmds buf.byte 0),
      o < segVmaddr buf.byte (lcPosition buf.byte i) - info.vmBase ∨
      segVmaddr buf.byte (lcPosition buf.byte i) - info.vmBase +
        segFilesize buf.byte (lcPosition buf.byte i) ≤ o) →
    ¬ InVmaddr buf.byte o → ¬ InKmodFields info o → m₁ (info.kext + o) = m (info.kext + o)
  /-- The addresses in the mapped segment commands, where the kmod_info is not over them. -/
  vmaddr : ∀ i ∈ segments buf.byte (mhNcmds buf.byte 0), ∀ c < 8,
    ¬ InKmodFields info (lcPosition buf.byte i + 24 + c) →
    m₁ (info.kext + (lcPosition buf.byte i + 24 + c)) =
      UInt8.ofNat ((segVmaddr buf.byte (lcPosition buf.byte i) - info.vmBase +
        k.saForPtr info.kext) % 2 ^ 64 / 256 ^ c)
  kmodAddress : word m₁ (info.kext + kmodOffset info + kmodInfoAddress) 8 = k.saForPtr info.kext
  kmodSize : word m₁ (info.kext + kmodOffset info + kmodInfoSize) 8 = info.vmSize
  upload : Agree m₁ info.header m info.header buf.size
  outside : ∀ b, b < info.kext ∨ info.kext + info.vmSize ≤ b → m₁ b = m b
  symtab : info₁.symtab = info.kext + (info.symtab - info.header)
  dysymtab : info₁.dysymtab = info.kext + (info.dysymtab - info.header)
  kmodInfo : info₁.kmodInfo = info.kext + kmodOffset info

namespace Accepted

variable (h : Accepted chain header buf info sp dp)
include h

/-- The offset of a segment from `vm_base`. -/
lemma vmaddr_sub (hi : i ∈ segments buf.byte (mhNcmds buf.byte 0)) :
    segVmaddr buf.byte (lcPosition buf.byte i) - info.vmBase = vmOffset buf.byte i := by
  obtain ⟨hlt, hs⟩ := mem_segments.1 hi
  rw [(h.commands.segment i hlt hs).vmaddr, Nat.add_sub_cancel_left]

lemma kmodField_inside : kmodOffset info + kmodInfoSize + 8 ≤ info.vmSize := by
  have hle := h.kmodOffset_le
  simp only [sizeofKmodInfo] at hle
  simp only [kmodInfoSize]
  omega

theorem mappedAsSpecified (hp : Placed buf info m) (hvm : info.vmSize < 2 ^ 32) :
    MappedAsSpecified k buf info m
      (splice m info.kext info.vmSize (kextImage k info buf.byte fun o => m (info.kext + o)))
      (mappedInfo info sp dp) := by
  have hkmod := h.kmodField_inside
  have hsa : k.saForPtr info.kext < 256 ^ 8 :=
    (Nat.mod_lt _ (by norm_num)).trans_eq (by norm_num)
  have hinside (i : ℕ) (hi : i ∈ segments buf.byte (mhNcmds buf.byte 0)) :
      lcPosition buf.byte i + 72 ≤ info.vmSize ∧
      vmOffset buf.byte i + segFilesize buf.byte (lcPosition buf.byte i) ≤ info.vmSize := by
    obtain ⟨hlt, hs⟩ := mem_segments.1 hi
    obtain ⟨hend, hend'⟩ := h.commands.segment_end hlt hs
    have hle := h.header_le_vmSize
    have hfile := h.commands.filesize_le hlt hs
    rw [← h.vmSize] at hfile
    exact ⟨by omega, hfile⟩
  -- away from the address fields, the mapped file is seen
  have hfile (o : ℕ) (ho : ¬ InVmaddr buf.byte o) (ho' : ¬ InKmodFields info o) :
      kextImage k info buf.byte (fun o => m (info.kext + o)) o =
        fileImage buf.byte (fun o => m (info.kext + o)) (mhNcmds buf.byte 0) o := by
    rw [kextImage_apply ho']
    refine patchedImage_apply fun j hj hs => ?_
    by_contra hin
    exact ho ⟨j, mem_segments.2 ⟨hj, hs⟩, by omega, by omega⟩
  refine ⟨fun i hi o hlo hhi ho ho' => ?_, fun o hlt hout ho ho' => ?_, fun i hi c hc ho' => ?_,
    ?_, ?_,
    agree_splice_of_apart hp.apart, fun b hb => splice_apply_of_out hb, ?_, ?_, rfl⟩
  · obtain ⟨hlt, hs⟩ := mem_segments.1 hi
    rw [h.vmaddr_sub hi] at hlo hhi ⊢
    have hle := (hinside i hi).2
    rw [splice_apply (by omega), hfile o ho ho']
    exact h.commands.fileImage_backed le_rfl hlt hs hlo hhi
  · rw [splice_apply hlt, hfile o ho ho']
    refine fileImage_unbacked fun i hi hs => ?_
    have hout' := hout i (mem_segments.2 ⟨hi, hs⟩)
    rwa [h.vmaddr_sub (mem_segments.2 ⟨hi, hs⟩)] at hout'
  · obtain ⟨hlt, hs⟩ := mem_segments.1 hi
    have hle := (hinside i hi).1
    rw [h.vmaddr_sub hi, splice_apply (by omega), kextImage_apply ho']
    exact h.commands.patchedImage_vmaddr le_rfl hlt hs hc
  · simp only [kmodInfoSize] at hkmod
    rw [Nat.add_assoc, word_splice (by simp only [kmodInfoAddress]; omega), kextImage,
      word_storeWord_of_apart (Or.inr (by simp only [kmodInfoAddress, kmodInfoSize]; omega)),
      word_storeWord, Nat.mod_eq_of_lt hsa]
  · rw [Nat.add_assoc, word_splice hkmod, kextImage, word_storeWord, Nat.mod_eq_of_lt (by omega)]
  · show info.kext + sp = _
    rw [h.symtab_eq, h.header_eq, Nat.add_sub_cancel_left]
  · show info.kext + dp = _
    rw [h.dysymtab_eq, h.header_eq, Nat.add_sub_cancel_left]

end Accepted

variable {allocStatic : ℕ → Option ℕ} {buf' : Buffer} {info' : KextLoadInfo}

/-- `kext_map` builds the right image, for every accepted and allocated upload. -/
theorem kextMap_asSpecified (hparse : kextParse chain header buf = .ok (buf', info))
    (halloc : kextAlloc allocStatic info = some info') (hp : Placed buf' info' m) :
    ∃ m₁ info₁, kextMap k info' m = some (m₁, info₁) ∧
      MappedAsSpecified k buf' info' m m₁ info₁ := by
  obtain ⟨sp, dp, hacc⟩ := kextParse_accepted hparse
  obtain ⟨kext, size, rfl, -, -, hvm⟩ := kextAlloc_eq_some halloc
  exact ⟨_, _, (hacc.alloc kext).kextMap_eq hp hvm, (hacc.alloc kext).mappedAsSpecified hp hvm⟩

end Image

/-- The image of the file with two segments; the data of the second one are at 0x2000. -/
theorem kextMap_asSpecified_two :
    ∃ m₁ info₁, kextMap ⟨0x800000000, 0⟩ { twoSegmentInfo with kext := 0x2000000 }
        (uploaded twoSegmentUpload 0x1000000) = some (m₁, info₁) ∧
      MappedAsSpecified ⟨0x800000000, 0⟩ twoSegmentUpload { twoSegmentInfo with kext := 0x2000000 }
        (uploaded twoSegmentUpload 0x1000000) m₁ info₁ ∧ m₁ 0x2002000 = 0xaa := by
  have hp : Placed twoSegmentUpload { twoSegmentInfo with kext := 0x2000000 }
      (uploaded twoSegmentUpload 0x1000000) :=
    placed_uploaded rfl rfl rfl (show 0x6000 < 2 ^ 32 by norm_num)
  have hdata : ((kextMap ⟨0x800000000, 0⟩ { twoSegmentInfo with kext := 0x2000000 }
      (uploaded twoSegmentUpload 0x1000000)).map fun s => s.1 0x2002000) = some 0xaa := by
    decide +kernel
  obtain ⟨m₁, info₁, hmap, hspec⟩ := kextMap_asSpecified kextParse_twoSegments kextAlloc_twoSegments hp
  rw [hmap] at hdata
  exact ⟨m₁, info₁, hmap, hspec, Option.some.inj hdata⟩

end VulnerableKext.Kext

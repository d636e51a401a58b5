import VulnerableKext.Kext.AddressTests

/-!
# The bounds check on relocations

`r_address` is the offset of a slot from the start of the first segment.  The check of
`kext_parse` adds `vm_base` to it before it compares it with `vm_size`, and the address that
`kext_relocate` and `kext_link` write to is computed by subtracting `vm_base` from it.  Both
are right when `vm_base` is 0.  In general the two agree with each other and with the
meaning of `r_address` exactly when no entry of the file makes the difference visible.
-/

namespace VulnerableKext.Kext

open Memory Checked Device

/-! ## Agreement -/

/-- The `r_address` of every relocation of a file. -/
def relocationAddresses (file : Mem) (dp : ℕ) : List ℕ :=
  (externalEntries file dp ++ localEntries file dp).map RelocationInfo.rAddress

/-- The 8 bytes that are written for a relocation lie in the image. -/
def SlotInImage (info : KextLoadInfo) (r : ℕ) : Prop :=
  info.kext ≤ slotAddress info r ∧ slotAddress info r + 8 ≤ info.kext + info.vmSize

instance (info : KextLoadInfo) (r : ℕ) : Decidable (SlotInImage info r) :=
  inferInstanceAs (Decidable (_ ∧ _))

/-- The check and the use of relocation addresses agree: what passes the check is written inside
of the image, and what is rejected for its address would have been outside. -/
structure AddressesAgree (allocStatic : ℕ → Option ℕ) (chain : List KernelcacheSymbolTable)
    (header : ℕ) (buf : Buffer) : Prop where
  applied : ∀ buf' info info', kextParse chain header buf = .ok (buf', info) →
    kextAlloc allocStatic info = some info' →
    ∀ r ∈ relocationAddresses buf'.byte (info.dysymtab - header), SlotInImage info' r
  rejected : ∀ e vmBase vmSize r, kextParse chain header buf = .error e →
    e.badAddress = some (vmBase, vmSize, r) → ¬ r + 8 ≤ vmSize

section Agreement

variable {allocStatic : ℕ → Option ℕ} {chain : List KernelcacheSymbolTable} {header sp dp : ℕ}
  {buf : Buffer} {info info' : KextLoadInfo}

/-- What `kext_alloc` has established when it returns true. -/
lemma kextAlloc_eq_some (h : kextAlloc allocStatic info = some info') :
    ∃ kext size, info' = { info with kext } ∧ allocStatic size = some kext ∧ info.vmSize ≤ size ∧
      info.vmSize < 2 ^ 32 := by
  simp only [kextAlloc] at h
  have hmod : allocSize info.vmSize % 2 ^ 32 < 2 ^ 32 := Nat.mod_lt _ (by norm_num)
  split_ifs at h with hsize
  obtain ⟨kext, hkext, rfl⟩ := Option.map_eq_some_iff.1 h
  exact ⟨kext, _, rfl, hkext, by omega, by omega⟩

/-- An address of an accepted file. -/
lemma Accepted.relocationAddresses_le (h : Accepted chain header buf info sp dp)
    (hvm : info.vmSize < 2 ^ 32) {r : ℕ} (hr : r ∈ relocationAddresses buf.byte dp) :
    info.vmBase + r + 8 ≤ info.vmSize := by
  obtain ⟨er, her, rfl⟩ := List.mem_map.1 hr
  rcases List.mem_append.1 her with her | her
  · obtain ⟨i, hi, rfl⟩ := List.mem_map.1 her
    exact (addressInBounds_iff (externalEntry_lt _ _ _) hvm h.vmEnd).1
      (h.externals i (List.mem_range.1 hi)).inBounds
  · obtain ⟨i, hi, rfl⟩ := List.mem_map.1 her
    exact (addressInBounds_iff (localEntry_lt _ _ _) hvm h.vmEnd).1
      (h.locals i (List.mem_range.1 hi)).inBounds

/-- The slot of an accepted relocation lies in the image unless the subtraction of `vm_base` wraps
around. -/
lemma slotInImage_iff {r : ℕ} (hr : info.vmBase + r + 8 ≤ info.vmSize)
    (hend : info.vmBase + info.vmSize < 2 ^ 64) (hkext : info.kext + info.vmSize < 2 ^ 64) :
    SlotInImage info r ↔ info.vmBase ≤ r := by
  rw [SlotInImage, slotAddress, sub64]
  omega

/-- There is memory for an image of this size. -/
def Allocatable (allocStatic : ℕ → Option ℕ) (vmSize : ℕ) : Prop :=
  vmSize ≤ allocSize vmSize % 2 ^ 32 ∧ (allocStatic (allocSize vmSize % 2 ^ 32)).isSome

lemma kextAlloc_isSome_iff :
    (∃ info', kextAlloc allocStatic info = some info') ↔ Allocatable allocStatic info.vmSize := by
  simp only [kextAlloc, Allocatable, Option.isSome_iff_exists]
  split_ifs with hsize
  · refine iff_of_false (by simp) fun ⟨hle, _⟩ => ?_
    omega
  · simp only [Option.map_eq_some_iff]
    constructor
    · rintro ⟨_, alloc, halloc, -⟩
      exact ⟨by omega, alloc, halloc⟩
    · rintro ⟨-, alloc, halloc⟩
      exact ⟨_, alloc, halloc, rfl⟩

lemma loadInfo_dysymtab_sub {vmBase kmodInfo : ℕ} :
    (loadInfo header buf vmBase kmodInfo sp dp).dysymtab - header = dp :=
  Nat.add_sub_cancel_left header dp

lemma loadInfo_vmSize {vmBase kmodInfo : ℕ} :
    (loadInfo header buf vmBase kmodInfo sp dp).vmSize = imageSize buf.byte :=
  rfl

/-- The slots of a file that is accepted and allocated. -/
lemma slotInImage_kextFile (halloc : ∀ n a, allocStatic n = some a → a + n < 2 ^ 64)
    {vmBase kmodInfo r : ℕ} (hfile : KextFile chain (destroyedUpload buf) vmBase kmodInfo sp dp)
    (hinfo : info = loadInfo header (destroyedUpload buf) vmBase kmodInfo sp dp)
    (hkext : kextAlloc allocStatic info = some info')
    (hr : r ∈ relocationAddresses (destroyedUpload buf).byte dp) :
    SlotInImage info' r ↔ vmBase ≤ r := by
  have hparse : kextParse chain header buf = .ok (destroyedUpload buf, info) := by
    rw [hinfo]
    exact kextParse_of_kextFile hfile
  have hbase : info.vmBase = vmBase := by
    rw [hinfo]
    rfl
  have hdp : info.dysymtab - header = dp := by
    rw [hinfo]
    exact loadInfo_dysymtab_sub
  obtain ⟨sp', dp', hacc⟩ := kextParse_accepted hparse
  obtain rfl : dp = dp' := hdp.symm.trans hacc.dysymtab_sub
  obtain ⟨kext, size, rfl, hsome, hsize, hvm⟩ := kextAlloc_eq_some hkext
  have hfits := halloc size kext hsome
  have hle := hacc.relocationAddresses_le hvm hr
  rw [← hbase]
  exact slotInImage_iff hle hacc.vmEnd (show kext + info.vmSize < 2 ^ 64 by omega)

/-- For every upload, the check and the use of relocation addresses agree if and only if no address
of a file that is accepted and allocated is below `vm_base`, and every address that is tested, and
whose slot lies in the image, leaves room for `vm_base` behind it. -/
theorem addressesAgree_iff (halloc : ∀ n a, allocStatic n = some a → a + n < 2 ^ 64) :
    AddressesAgree allocStatic chain header buf ↔
      (∀ vmBase kmodInfo sp dp, KextFile chain (destroyedUpload buf) vmBase kmodInfo sp dp →
        Allocatable allocStatic (imageSize (destroyedUpload buf).byte) →
        ∀ r ∈ relocationAddresses (destroyedUpload buf).byte dp, vmBase ≤ r) ∧
      (∀ vmBase kmodInfo sp dp r, RelocationsReached (destroyedUpload buf) vmBase kmodInfo sp dp →
        AddressTested chain (destroyedUpload buf) vmBase sp dp r →
        r + 8 ≤ imageSize (destroyedUpload buf).byte →
        vmBase + r + 8 ≤ imageSize (destroyedUpload buf).byte) := by
  constructor
  · rintro ⟨happlied, hrejected⟩
    refine ⟨fun vmBase kmodInfo sp dp hfile hsome r hr => ?_,
      fun vmBase kmodInfo sp dp r hreached htested hle => ?_⟩
    · have hparse : kextParse chain header buf = .ok (destroyedUpload buf,
          loadInfo header (destroyedUpload buf) vmBase kmodInfo sp dp) :=
        kextParse_of_kextFile hfile
      have hsize : Allocatable allocStatic
          (loadInfo header (destroyedUpload buf) vmBase kmodInfo sp dp).vmSize := by
        rwa [loadInfo_vmSize]
      obtain ⟨info', hkext⟩ := kextAlloc_isSome_iff.2 hsize
      refine (slotInImage_kextFile halloc hfile rfl hkext hr).1 (happlied _ _ _ hparse hkext r ?_)
      rwa [loadInfo_dysymtab_sub]
    -- an address without that room is refused, though its slot lies in the image
    · by_contra hno
      have hend : vmBase + imageSize (destroyedUpload buf).byte < 2 ^ 64 :=
        hreached.commands.vmEnd_lt
      have hout : ¬ AddressInBounds vmBase (imageSize (destroyedUpload buf).byte) r := by
        simp only [AddressInBounds]
        omega
      obtain ⟨e, hparse, he⟩ :=
        kextParse_about_iff.2 ⟨kmodInfo, sp, dp, hreached, rfl, htested, hout⟩
      exact hrejected e _ _ r hparse he hle
  · rintro ⟨happlied, hrejected⟩
    refine ⟨fun buf' info info' hparse hkext r hr => ?_, fun e b s r hparse he hle => ?_⟩
    · obtain ⟨rfl, vmBase, kmodInfo, sp, dp, hfile, rfl⟩ := kextFile_of_kextParse hparse
      rw [loadInfo_dysymtab_sub] at hr
      have hsize := kextAlloc_isSome_iff.1 ⟨info', hkext⟩
      rw [loadInfo_vmSize] at hsize
      exact (slotInImage_kextFile halloc hfile rfl hkext hr).2
        (happlied vmBase kmodInfo sp dp hfile hsize r hr)
    -- the error names an address that has been tested
    · obtain ⟨kmodInfo, sp, dp, hreached, rfl, htested, hout⟩ :=
        kextParse_about_iff.1 ⟨e, hparse, he⟩
      have hend : b + imageSize (destroyedUpload buf).byte < 2 ^ 64 := hreached.commands.vmEnd_lt
      have hin := hrejected b kmodInfo sp dp r hreached htested hle
      refine hout ?_
      simp only [AddressInBounds]
      omega

end Agreement

/-- The small file is allocated at 0x2000000. -/
lemma kextAlloc_small (vmBase kmodInfo : ℕ) :
    kextAlloc smallAlloc (smallInfo vmBase kmodInfo) =
      some { smallInfo vmBase kmodInfo with kext := 0x2000000 } := by
  simp [kextAlloc, allocSize, smallInfo, smallAlloc]

/-- An address that is tested is one of a relocation. -/
lemma AddressTested.mem {chain : List KernelcacheSymbolTable} {buf : Buffer} {vmBase sp dp r : ℕ}
    (h : AddressTested chain buf vmBase sp dp r) : r ∈ relocationAddresses buf.byte dp := by
  rw [relocationAddresses, List.mem_map]
  rcases h with ⟨i, htested, rfl⟩ | ⟨i, htested, rfl⟩
  · exact ⟨_, List.mem_append_left _ (List.mem_map_of_mem (List.mem_range.2 htested.lt)), rfl⟩
  · exact ⟨_, List.mem_append_right _ (List.mem_map_of_mem (List.mem_range.2 htested.lt)), rfl⟩

/-- What the loop over the load commands finds in the small file. -/
def SmallScanned (external local' : ℕ) : Prop :=
  let buf := smallUpload 0x1000 0x2000 external local'
  (scanCommands (mhSizeofcmds buf.byte 0) (mhNcmds buf.byte 0) buf sizeofHeader .initial).map
    Prod.snd = .ok ⟨0x5000, true, 0x1000, some 184, some 104⟩ ∧
  relocationAddresses (destroyedUpload buf).byte 104 = [external, local']

instance (external local' : ℕ) : Decidable (SmallScanned external local') :=
  inferInstanceAs (Decidable (_ ∧ _))

lemma SmallScanned.addresses {external local' vmBase sp dp r : ℕ} (h : SmallScanned external local')
    (hok : HeaderOk (destroyedUpload (smallUpload 0x1000 0x2000 external local')) vmBase sp dp)
    (hr : r ∈ relocationAddresses
      (destroyedUpload (smallUpload 0x1000 0x2000 external local')).byte dp) :
    vmBase = 0x1000 ∧
      imageSize (destroyedUpload (smallUpload 0x1000 0x2000 external local')).byte = 0x4000 ∧
      (r = external ∨ r = local') := by
  obtain ⟨hscan, haddresses⟩ := h
  rw [hok.scanCommands_eq, Except.map, Except.ok.injEq, commandsFound, ScanState.mk.injEq] at hscan
  obtain ⟨hend, -, rfl, -, hdp⟩ := hscan
  obtain rfl := Option.some.inj hdp
  rw [haddresses, List.mem_cons, List.mem_singleton] at hr
  exact ⟨rfl, by omega, hr⟩

/-- With `vm_base` 0x1000 the theorem applies to a file whose addresses are above it, and to one
whose external relocation is refused and is outside of the image. -/
theorem addressesAgree_small :
    AddressesAgree smallAlloc smallChain 0x1000000 (smallUpload 0x1000 0x2000 0x1800 0x1900) ∧
    AddressesAgree smallAlloc smallChain 0x1000000 (smallUpload 0x1000 0x2000 0x4000 0x1900) ∧
    (kextParse smallChain 0x1000000 (smallUpload 0x1000 0x2000 0x4000 0x1900)).map Prod.snd =
      .error (.externalBadAddress 0x1000 0x4000 0x4000) := by
  have hscanned : SmallScanned 0x1800 0x1900 := by decide +kernel
  have hscanned' : SmallScanned 0x4000 0x1900 := by decide +kernel
  refine ⟨(addressesAgree_iff smallAlloc_fits).2 ⟨?_, ?_⟩,
    (addressesAgree_iff smallAlloc_fits).2 ⟨?_, ?_⟩, by decide +kernel⟩
  · intro vmBase kmodInfo sp dp hfile _ r hr
    obtain ⟨rfl, -, rfl | rfl⟩ := hscanned.addresses hfile.toHeaderOk hr
    · decide
    · decide
  · intro vmBase kmodInfo sp dp r hreached htested hle
    obtain ⟨rfl, hsize, hr⟩ := hscanned.addresses hreached.toHeaderOk htested.mem
    omega
  · intro vmBase kmodInfo sp dp hfile _ r hr
    obtain ⟨rfl, -, rfl | rfl⟩ := hscanned'.addresses hfile.toHeaderOk hr
    · decide
    · decide
  · intro vmBase kmodInfo sp dp r hreached htested hle
    obtain ⟨rfl, hsize, hr⟩ := hscanned'.addresses hreached.toHeaderOk htested.mem
    omega

/-- With `vm_base` 0x1000, a slot at offset 0x800 passes the check, and 0x800 bytes below the image
are written to. -/
theorem not_addressesAgree_smallBase :
    ¬ AddressesAgree smallAlloc smallChain 0x1000000 (smallUpload 0x1000 0x2000 0x800 0x900) := by
  intro h
  have hparse := kextParse_small smallAccepted_below
  have hslot := h.applied _ _ _ hparse (kextAlloc_small _ _) 0x800 (by decide +kernel)
  revert hslot
  decide

end VulnerableKext.Kext

import VulnerableKext.Format

/-!
# The UUID of the running kernelcache

`kernelcache_find_uuid` walks the load commands of the kernel's Mach-O header.
Positions are offsets from `mh_execute_header`, and the kernel's memory is
readable beyond the load commands.
-/

namespace VulnerableKext.Device

open Bytes

/-- The memory of the kernel, from `mh_execute_header` on. -/
abbrev Kernel : Type := ℕ → UInt8

namespace Kernel

/-- The `n`-byte little-endian word at offset `a`. -/
def word (kernel : Kernel) (a n : ℕ) : ℕ := leNat ((List.range n).map fun i => kernel (a + i))

def ncmds (kernel : Kernel) : ℕ := kernel.word 16 4

def sizeofcmds (kernel : Kernel) : ℕ := kernel.word 20 4

/-- The fields of the load command at `lc`. -/
def cmd (kernel : Kernel) (lc : ℕ) : ℕ := kernel.word lc 4

def cmdsize (kernel : Kernel) (lc : ℕ) : ℕ := kernel.word (lc + 4) 4

/-- The field `uuid` of the `uuid_command` at `lc`. -/
def uuidPayload (kernel : Kernel) (lc : ℕ) : Uuid := List.Vector.ofFn fun i => kernel (lc + 8 + i)

/-- `sizeof(struct mach_header_64)`, where the load commands start. -/
def sizeofHeader : ℕ := 32

/-- The end of the load commands. -/
def lcEnd (kernel : Kernel) : ℕ := sizeofHeader + kernel.sizeofcmds

end Kernel

def LC_UUID : ℕ := 0x1b

/-- `sizeof(struct uuid_command)` -/
def sizeofUuidCommand : ℕ := 24

/-- The loop over the load commands; `none` is one of the two messages that no UUID was found. -/
def findUuidCommand (kernel : Kernel) : ℕ → ℕ → Option ℕ
  | 0, _ => none
  | n + 1, lc =>
    if kernel.lcEnd < lc + 8 ∨ kernel.lcEnd < lc + kernel.cmdsize lc then none
    else if kernel.cmd lc = LC_UUID then some lc
    else findUuidCommand kernel n (lc + kernel.cmdsize lc)

/-- The variables `kernelcache_uuid` and `kernelcache_uuid_found`. -/
structure KernelcacheUuid where
  uuid : Uuid
  found : Bool
deriving DecidableEq

/-- Static storage: the UUID is zero until it is found. -/
def KernelcacheUuid.initial : KernelcacheUuid := ⟨List.Vector.replicate 16 0, false⟩

/-- Find the UUID of the current kernelcache. -/
def kernelcacheFindUuid (kernel : Kernel) (k : KernelcacheUuid) : KernelcacheUuid :=
  if k.found then k
  else
    match findUuidCommand kernel kernel.ncmds Kernel.sizeofHeader with
    | some lc => ⟨kernel.uuidPayload lc, true⟩
    | none => k

/-- The search is idempotent. -/
@[simp] lemma kernelcacheFindUuid_idem (kernel : Kernel) (k : KernelcacheUuid) :
    kernelcacheFindUuid kernel (kernelcacheFindUuid kernel k) = kernelcacheFindUuid kernel k := by
  unfold kernelcacheFindUuid
  cases hk : k.found with
  | true => simp [hk]
  | false => cases hf : findUuidCommand kernel kernel.ncmds Kernel.sizeofHeader <;> simp [hk]

/-! ## The load commands of a kernel -/

/-- The position of the `i`-th load command. -/
def Kernel.commandAt (kernel : Kernel) : ℕ → ℕ
  | 0 => Kernel.sizeofHeader
  | i + 1 => kernel.commandAt i + kernel.cmdsize (kernel.commandAt i)

/-- At `lc` stands the first `LC_UUID` command among the first `ncmds` load commands; it has its
whole payload, and lies inside the area of the load commands. -/
def Kernel.FirstUuidCommand (kernel : Kernel) (lc : ℕ) : Prop :=
  ∃ i < kernel.ncmds, lc = kernel.commandAt i ∧ kernel.cmd lc = LC_UUID ∧
    (∀ j < i, kernel.cmd (kernel.commandAt j) ≠ LC_UUID) ∧
    sizeofUuidCommand ≤ kernel.cmdsize lc ∧ lc + kernel.cmdsize lc ≤ kernel.lcEnd

/-- What the loop has found from the `k`-th command on. -/
lemma findUuidCommand_some {kernel : Kernel} {n k lc : ℕ}
    (h : findUuidCommand kernel n (kernel.commandAt k) = some lc) :
    ∃ i, k ≤ i ∧ i < k + n ∧ lc = kernel.commandAt i ∧ kernel.cmd lc = LC_UUID ∧
      (∀ j, k ≤ j → j < i → kernel.cmd (kernel.commandAt j) ≠ LC_UUID) ∧
      lc + kernel.cmdsize lc ≤ kernel.lcEnd := by
  induction n generalizing k with
  | zero => simp [findUuidCommand] at h
  | succ n ih =>
    rw [findUuidCommand] at h
    split_ifs at h with hbad huuid
    · obtain rfl : kernel.commandAt k = lc := by simpa using h
      exact ⟨k, le_rfl, by omega, rfl, huuid, fun j hkj hj => by omega, by omega⟩
    · obtain ⟨i, hki, hi, hlc, hcmd, hfirst, hin⟩ := ih (k := k + 1) h
      refine ⟨i, by omega, by omega, hlc, hcmd, ?_, hin⟩
      intro j hkj hj
      rcases Nat.eq_or_lt_of_le hkj with rfl | hlt
      · exact huuid
      · exact hfirst j hlt hj

/-- The command that the search finds is the first `LC_UUID` command, as soon as it has its
payload. -/
lemma firstUuidCommand_of_find {kernel : Kernel} {lc : ℕ}
    (h : findUuidCommand kernel kernel.ncmds Kernel.sizeofHeader = some lc)
    (hpayload : sizeofUuidCommand ≤ kernel.cmdsize lc) : kernel.FirstUuidCommand lc := by
  obtain ⟨i, -, hi, hlc, hcmd, hfirst, hsize⟩ := findUuidCommand_some (k := 0) h
  exact ⟨i, by omega, hlc, hcmd, fun j hj => hfirst j (by omega) hj, hpayload, hsize⟩

/-! ## What the search reads -/

/-- The ranges that the loop reads: the two fields of every load command up to the one that is
found, and its payload. -/
def uuidCommandReads (kernel : Kernel) : ℕ → ℕ → List (ℕ × ℕ)
  | 0, _ => []
  | n + 1, lc =>
    if kernel.lcEnd < lc + 8 then []
    else
      (lc, 8) ::
        if kernel.lcEnd < lc + kernel.cmdsize lc then []
        else if kernel.cmd lc = LC_UUID then [(lc + 8, 16)]
        else uuidCommandReads kernel n (lc + kernel.cmdsize lc)

/-- The ranges that `kernelcache_find_uuid` reads. -/
def uuidReads (kernel : Kernel) : List (ℕ × ℕ) :=
  (16, 8) :: uuidCommandReads kernel kernel.ncmds Kernel.sizeofHeader

section Reads

variable {kernel kernel' : Kernel} {n lc a w i : ℕ}

/-- Two kernels have the same bytes at the given ranges. -/
def Kernel.Same (ranges : List (ℕ × ℕ)) (kernel kernel' : Kernel) : Prop :=
  ∀ p ∈ ranges, ∀ j < p.2, kernel' (p.1 + j) = kernel (p.1 + j)

lemma Kernel.word_congr (h : ∀ j < n, kernel' (a + j) = kernel (a + j)) (hi : i + w ≤ n) :
    kernel'.word (a + i) w = kernel.word (a + i) w := by
  rw [Kernel.word, Kernel.word]
  congr 1
  refine List.map_congr_left fun j hj => ?_
  have hj' := List.mem_range.1 hj
  rw [Nat.add_assoc]
  exact h (i + j) (by omega)

/-- The loop finds the same command with the same payload. -/
lemma findUuidCommand_congr (hend : kernel'.lcEnd = kernel.lcEnd)
    (h : Kernel.Same (uuidCommandReads kernel n lc) kernel kernel') :
    findUuidCommand kernel' n lc = findUuidCommand kernel n lc ∧
      ∀ found, findUuidCommand kernel n lc = some found →
        kernel'.uuidPayload found = kernel.uuidPayload found := by
  induction n generalizing lc with
  | zero => exact ⟨rfl, fun _ hfound => by cases hfound⟩
  | succ n ih =>
    rw [findUuidCommand, findUuidCommand, hend]
    rw [uuidCommandReads] at h
    by_cases hbound : kernel.lcEnd < lc + 8
    · rw [if_pos (Or.inl hbound), if_pos (Or.inl hbound)]
      exact ⟨rfl, fun _ hfound => by cases hfound⟩
    · rw [if_neg hbound] at h
      have hfields : ∀ j < 8, kernel' (lc + j) = kernel (lc + j) := h (lc, 8) (by simp)
      have hcmd : kernel'.cmd lc = kernel.cmd lc :=
        Kernel.word_congr (i := 0) hfields (by omega)
      have hsize : kernel'.cmdsize lc = kernel.cmdsize lc := Kernel.word_congr hfields (by omega)
      rw [hcmd, hsize]
      by_cases hin : kernel.lcEnd < lc + kernel.cmdsize lc
      · rw [if_pos (Or.inr hin), if_pos (Or.inr hin)]
        exact ⟨rfl, fun _ hfound => by cases hfound⟩
      · have hnot : ¬ (kernel.lcEnd < lc + 8 ∨ kernel.lcEnd < lc + kernel.cmdsize lc) :=
          not_or.2 ⟨hbound, hin⟩
        rw [if_neg hin] at h
        rw [if_neg hnot, if_neg hnot]
        by_cases huuid : kernel.cmd lc = LC_UUID
        · rw [if_pos huuid, if_pos huuid]
          rw [if_pos huuid] at h
          refine ⟨rfl, fun found hfound => ?_⟩
          obtain rfl : lc = found := Option.some.inj hfound
          refine List.Vector.ext fun j => ?_
          rw [Kernel.uuidPayload, Kernel.uuidPayload, List.Vector.get_ofFn, List.Vector.get_ofFn]
          exact h (lc + 8, 16) (by simp) j j.isLt
        · rw [if_neg huuid, if_neg huuid]
          rw [if_neg huuid] at h
          exact ih fun p hp => h p (List.mem_cons_of_mem _ hp)

/-- `kernelcache_find_uuid` depends on nothing else. -/
lemma kernelcacheFindUuid_congr (h : Kernel.Same (uuidReads kernel) kernel kernel')
    (k : KernelcacheUuid) : kernelcacheFindUuid kernel' k = kernelcacheFindUuid kernel k := by
  have hheader : ∀ j < 8, kernel' (16 + j) = kernel (16 + j) := h (16, 8) (by simp [uuidReads])
  have hncmds : kernel'.ncmds = kernel.ncmds := Kernel.word_congr (i := 0) hheader (by omega)
  have hsizeof : kernel'.sizeofcmds = kernel.sizeofcmds :=
    Kernel.word_congr (i := 4) hheader (by omega)
  obtain ⟨hfind, hpayload⟩ := findUuidCommand_congr
    (show kernel'.lcEnd = kernel.lcEnd by rw [Kernel.lcEnd, Kernel.lcEnd, hsizeof])
    fun p hp => h p (List.mem_cons_of_mem _ hp)
  rw [kernelcacheFindUuid, kernelcacheFindUuid, hncmds, hfind]
  cases hfound : findUuidCommand kernel kernel.ncmds Kernel.sizeofHeader with
  | none => rfl
  | some found =>
    dsimp only
    rw [hpayload found hfound]

end Reads

end VulnerableKext.Device

import VulnerableKext.Device.DecoderFormat
import VulnerableKext.Device.DecoderStores

/-!
# The chain of symbol tables over whole runs

Two things can go wrong in a run.  An upload with a wrapped symbol offset installs a
symbol that a later lookup follows out of the table, and a `symbol_strings_offset`
behind the end of the upload makes the size of the block wrap around, so that the
fields of the table are written behind the block.  In a run without such uploads
every command keeps the chain or prepends one table, and a lookup is answered by the
most recent table that knows the name.

The UUID that descriptors are compared with is static storage.  As long as no UUID
has been found it is zero, and it is compared with all the same.
-/

namespace VulnerableKext.Device

open Bytes Checked Format

variable {kernel : Kernel} {s s' : SymbolState} {r : Request} {rs : List Request}

/-! ## Runs -/

/-- The upload has neither of the two defects for this UUID and this allocator. -/
structure Request.Clean (uuid : Uuid) (r : Request) : Prop where
  noShortBlock : ¬ GrantsShortBlock r.upload.data uuid r.malloc
  noWrap : ¬ InstallsWrapped r.upload.data uuid r.malloc

/-- A command consumes its upload and keeps the chain or prepends the table that the upload
describes; afterwards a lookup finds the first entry of the name in the most recent table that
contains it. -/
structure Orderly (kernel : Kernel) (s : SymbolState) (r : Request) (s' : SymbolState) : Prop where
  step_eq : step kernel s r = some s'
  consumed : s'.loaderXferRecvCount = 0
  chain : s'.kernelcacheSymbolTable = s.kernelcacheSymbolTable ∨
    ∃ t, s'.kernelcacheSymbolTable = t :: s.kernelcacheSymbolTable ∧
      Describes r.upload.data (s.uuidFor kernel) t.entries t.strings
  lookup : ∀ name, 0 ∉ name → kernelcacheSymbolTableLookup s'.kernelcacheSymbolTable name =
    some (resolve s'.kernelcacheSymbolTable name)

lemma run_append_singleton (kernel : Kernel) (s : SymbolState) (rs : List Request) (r : Request) :
    run kernel s (rs ++ [r]) = (run kernel s rs).bind fun s' => step kernel s' r := by
  simp [run]

lemma uuidFor_run (h : run kernel s rs = some s') : s'.uuidFor kernel = s.uuidFor kernel := by
  induction rs using List.reverseRecOn generalizing s' with
  | nil =>
    obtain rfl : s = s' := by simpa [run] using h
    rfl
  | append_singleton rs r ih =>
    rw [run_append_singleton] at h
    obtain ⟨s₁, h₁, hstep⟩ := Option.bind_eq_some_iff.1 h
    rw [uuidFor_step hstep, ih h₁]

/-- One clean command from a chain of sound tables. -/
lemma orderly_step (hr : r.Clean (s.uuidFor kernel))
    (hsound : ∀ t ∈ s.kernelcacheSymbolTable, t.Sound) :
    ∃ s', Orderly kernel s r s' ∧ ∀ t ∈ s'.kernelcacheSymbolTable, t.Sound := by
  obtain ⟨s', hs'⟩ : ∃ s', step kernel s r = some s' :=
    step_isSome fun h => hr.noShortBlock (grantsShortBlock_of_heapOverflow r.upload.length_lt h)
  refine ⟨s', ?_⟩
  rcases step_cases hs' with ⟨_, -, -, rfl⟩ | ⟨t, ht, rfl⟩
  · exact ⟨⟨hs', rfl, Or.inl rfl, fun name hname => lookup_eq_resolve hname hsound⟩, hsound⟩
  · have hd := describes_of_decode hr.noWrap ht
    have hsound' : ∀ t' ∈ t :: s.kernelcacheSymbolTable, t'.Sound := by
      rintro t' (_ | ⟨_, ht'⟩)
      · exact sound_of_describes hd
      · exact hsound t' ht'
    exact ⟨⟨hs', rfl, Or.inr ⟨t, rfl, hd⟩, fun name hname => lookup_eq_resolve hname hsound'⟩,
      hsound'⟩

/-- A clean run is defined and leaves a chain of sound tables. -/
lemma sound_of_run (hrs : ∀ r ∈ rs, r.Clean (SymbolState.initial.uuidFor kernel)) :
    ∃ s, run kernel .initial rs = some s ∧ ∀ t ∈ s.kernelcacheSymbolTable, t.Sound := by
  induction rs using List.reverseRecOn with
  | nil => exact ⟨.initial, rfl, by simp [SymbolState.initial]⟩
  | append_singleton rs r ih =>
    obtain ⟨s, hs, hsound⟩ := ih fun r' hr' => hrs r' (by simp [hr'])
    have hr := hrs r (by simp)
    rw [← uuidFor_run hs] at hr
    obtain ⟨s', ho, hsound'⟩ := orderly_step hr hsound
    exact ⟨s', by rw [run_append_singleton, hs, Option.bind_some, ho.step_eq], hsound'⟩

/-- In a clean run every command is orderly. -/
theorem run_orderly (hrs : ∀ r' ∈ rs ++ [r], r'.Clean (SymbolState.initial.uuidFor kernel)) :
    ∃ s s', run kernel .initial rs = some s ∧ Orderly kernel s r s' := by
  have hrs' : ∀ r' ∈ rs, r'.Clean (SymbolState.initial.uuidFor kernel) :=
    fun r' hr' => hrs r' (by simp [hr'])
  obtain ⟨s, hs, hsound⟩ := sound_of_run hrs'
  have hr := hrs r (by simp)
  rw [← uuidFor_run hs] at hr
  obtain ⟨s', ho, -⟩ := orderly_step hr hsound
  exact ⟨s, s', hs, ho⟩

/-- Symbols for the UUID zero: one symbol, whose name is empty. -/
def blankUpload : Upload where
  data := leBytes 4 1 ++ (leBytes 4 44 ++ (leBytes 16 0 ++ (leBytes 4 28 ++ (leBytes 4 1 ++
    (leBytes 4 0 ++ (leBytes 8 0xfffffff007004000 ++ [0]))))))
  length_lt := by simp

lemma framed_blankUpload :
    Framed blankUpload.data KernelcacheUuid.initial.uuid [(0, 0xfffffff007004000)] [0] := by
  refine ⟨1, 44, 0, 28, by decide, by decide, by decide, ⟨by decide, by decide, by simp⟩,
    ⟨by decide, ?_⟩, by decide, by decide, by decide⟩
  intro k hk
  have hk0 : k = 0 := by simpa using hk
  subst hk0
  exact (by decide : entry blankUpload.data 32 = some (0, 0xfffffff007004000))

lemma clean_blankUpload (malloc : ℕ → Bool) :
    Request.Clean (SymbolState.initial.uuidFor blankKernel) ⟨blankUpload, malloc⟩ := by
  rw [uuidFor_blankKernel]
  have hso : readLE blankUpload.data 4 4 = some 44 := by decide
  have hle : 44 ≤ blankUpload.data.length := by decide
  exact ⟨not_grantsShortBlock blankUpload.length_lt hso hle,
    not_installsWrapped framed_blankUpload (by decide)⟩

/-- An allocation that fails, and then the same upload again. -/
theorem run_orderly_blankUpload :
    ∃ s s', run blankKernel .initial [⟨blankUpload, fun _ => false⟩] = some s ∧
      Orderly blankKernel s blankUpload.granted s' := by
  refine run_orderly ?_
  rintro r (_ | ⟨_, _ | ⟨_, _ | _⟩⟩)
  · exact clean_blankUpload _
  · exact clean_blankUpload _

/-- After an upload with a wrapped offset a lookup reads outside of the table. -/
theorem not_orderly_wrappedUpload :
    ¬ ∀ (kernel : Kernel) (rs : List Request) (r : Request),
      ∃ s s', run kernel .initial rs = some s ∧ Orderly kernel s r s' := by
  intro h
  obtain ⟨s, s', hs, ho⟩ := h blankKernel [] wrappedUpload.granted
  obtain rfl : SymbolState.initial = s := by simpa [run] using hs
  have hdec : decodeSymbolTable wrappedUpload.data KernelcacheUuid.initial.uuid (fun _ => true) =
      .ok ⟨[(2 ^ 32 - 1, 0xfffffff007004000)], [0]⟩ := by
    decide
  rw [← uuidFor_blankKernel] at hdec
  have hstep := ho.step_eq
  rw [step_eq] at hstep
  simp only [Upload.granted, hdec, Option.some.injEq] at hstep
  have hlookup := ho.lookup [0x41] (by decide)
  rw [← hstep] at hlookup
  revert hlookup
  decide

/-! ## The UUID of the running kernel -/

/-- Tables are installed only for the payload of the kernel's first `LC_UUID` command. -/
def InstallsForKernel (kernel : Kernel) (s : SymbolState) (r : Request) : Prop :=
  ∀ t, Installs kernel s r t → ∃ lc n i o, kernel.FirstUuidCommand lc ∧
    readLE r.upload.data 0 4 = some n ∧ i < n ∧
    DescriptorAt r.upload.data (kernel.uuidPayload lc) i o

/-- The search ends at an `LC_UUID` command only if the command has all of its payload. -/
def Kernel.UuidFits (kernel : Kernel) : Prop :=
  ∀ lc, findUuidCommand kernel kernel.ncmds Kernel.sizeofHeader = some lc →
    sizeofUuidCommand ≤ kernel.cmdsize lc

/-- The search finds no `LC_UUID` command. -/
def Kernel.NoUuid (kernel : Kernel) : Prop :=
  findUuidCommand kernel kernel.ncmds Kernel.sizeofHeader = none

/-- The upload holds a table for the UUID zero, whose symbol offsets pass the check of the source,
and there is memory for it. -/
def DescribesZero (r : Request) : Prop :=
  ∃ t : KernelcacheSymbolTable,
    Framed r.upload.data KernelcacheUuid.initial.uuid t.entries t.strings ∧
      (∀ e ∈ t.entries, e.1 < t.strings.length ∨ e.1 = 2 ^ 32 - 1) ∧ r.malloc t.blockSize

lemma uuidFor_of_find {lc : ℕ}
    (h : findUuidCommand kernel kernel.ncmds Kernel.sizeofHeader = some lc) :
    SymbolState.initial.uuidFor kernel = kernel.uuidPayload lc := by
  simp [SymbolState.uuidFor, SymbolState.initial, kernelcacheFindUuid, KernelcacheUuid.initial, h]

lemma uuidFor_of_noUuid (h : kernel.NoUuid) :
    SymbolState.initial.uuidFor kernel = KernelcacheUuid.initial.uuid := by
  unfold Kernel.NoUuid at h
  simp [SymbolState.uuidFor, SymbolState.initial, kernelcacheFindUuid, KernelcacheUuid.initial, h]

lemma installs_iff {t : KernelcacheSymbolTable} :
    Installs kernel s r t ↔ Framed r.upload.data (s.uuidFor kernel) t.entries t.strings ∧
      (∀ e ∈ t.entries, e.1 < t.strings.length ∨ e.1 = 2 ^ 32 - 1) ∧ r.malloc t.blockSize :=
  installs_iff_decode.trans decode_iff

lemma framed_of_installs {t : KernelcacheSymbolTable} (h : Installs kernel s r t) :
    Framed r.upload.data (s.uuidFor kernel) t.entries t.strings :=
  (installs_iff.1 h).1

/-- When the found command has its payload, and no zero table is uploaded while none is found, tables
are installed only for the running kernel. -/
theorem run_installsForKernel (hfits : kernel.UuidFits) (hzero : kernel.NoUuid → ¬ DescribesZero r) :
    ∀ s, run kernel .initial rs = some s → InstallsForKernel kernel s r := by
  intro s hs t ht
  have hdesc := installs_iff.1 ht
  rw [uuidFor_run hs] at hdesc
  cases hfind : findUuidCommand kernel kernel.ncmds Kernel.sizeofHeader with
  | none =>
    rw [uuidFor_of_noUuid hfind] at hdesc
    exact absurd ⟨t, hdesc⟩ (hzero hfind)
  | some lc =>
    rw [uuidFor_of_find hfind] at hdesc
    obtain ⟨⟨n, so, i, o, hn, -, hi, hat, -⟩, -⟩ := hdesc
    exact ⟨lc, n, i, o, firstUuidCommand_of_find hfind (hfits lc hfind), hn, hi, hat⟩

/-- A kernel whose only load command is an `LC_UUID` command. -/
def uuidKernel : Kernel := fun a =>
  if a = 16 then 1 else if a = 20 then 24 else if a = 32 then 0x1b else if a = 36 then 24 else 0

theorem run_installsForKernel_uuidKernel :
    ∃ s, run uuidKernel .initial [⟨blankUpload, fun _ => false⟩] = some s ∧
      InstallsForKernel uuidKernel s blankUpload.granted := by
  have hrun : (run uuidKernel .initial [⟨blankUpload, fun _ => false⟩]).isSome := by decide
  obtain ⟨s, hs⟩ := Option.isSome_iff_exists.1 hrun
  have hfind : findUuidCommand uuidKernel uuidKernel.ncmds Kernel.sizeofHeader = some 32 := by
    decide
  refine ⟨s, hs, run_installsForKernel ?_ ?_ s hs⟩
  · intro lc hlc
    obtain rfl : 32 = lc := Option.some.inj (hfind.symm.trans hlc)
    decide
  · intro hno
    exact absurd (hfind.symm.trans hno) (by simp)

/-- A table for the UUID zero is installed on a kernel that has no UUID. -/
theorem not_installsForKernel_blankKernel :
    ¬ ∀ (kernel : Kernel) (rs : List Request) (r : Request) (s : SymbolState),
      run kernel .initial rs = some s → InstallsForKernel kernel s r := by
  intro h
  have hi : Installs blankKernel .initial blankUpload.granted
      ⟨[(0, 0xfffffff007004000)], [0]⟩ := by
    rw [installs_granted_iff, uuidFor_blankKernel]
    exact ⟨framed_blankUpload, by decide⟩
  obtain ⟨lc, -, -, -, ⟨i, hi, -⟩, -⟩ := h blankKernel [] blankUpload.granted .initial rfl _ hi
  have hn : blankKernel.ncmds = 0 := by decide
  omega

end VulnerableKext.Device

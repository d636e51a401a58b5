import VulnerableKext.Device.Decoder
import VulnerableKext.Device.KernelUuid

/-!
# Runs of the `kernelcache-symbols` command

The command consumes the bulk upload, looks for the UUID of the kernelcache, decodes
the upload and links the new table in front of the chain.  A run is a sequence of
uploads with the answers of the allocator.
-/

namespace VulnerableKext.Device

open Bytes Checked Format

/-- A bulk upload.  Its size is held in the 32-bit `loader_xfer_recv_count`. -/
structure Upload where
  data : List UInt8
  length_lt : data.length < 2 ^ 32
deriving DecidableEq

/-- The state of the module that the command reads and writes. -/
structure SymbolState where
  kernelcacheSymbolTable : List KernelcacheSymbolTable
  kernelcacheUuid : KernelcacheUuid
  loaderXferRecvCount : ℕ
  loaderXferRecvData : List UInt8
deriving DecidableEq

namespace SymbolState

/-- The state when the module has been loaded. -/
def initial : SymbolState := ⟨[], .initial, 0, []⟩

/-- A bulk upload has been received. -/
def receive (s : SymbolState) (u : Upload) : SymbolState :=
  { s with loaderXferRecvCount := u.data.length, loaderXferRecvData := u.data }

end SymbolState

/-- Handles the "kernelcache-symbols" command; `none` when a store left the allocated block. -/
def commandKernelcacheSymbols (kernel : Kernel) (malloc : ℕ → Bool) (s : SymbolState) :
    Option SymbolState :=
  let data := s.loaderXferRecvData.take s.loaderXferRecvCount
  let s := { s with
    loaderXferRecvCount := 0
    kernelcacheUuid := kernelcacheFindUuid kernel s.kernelcacheUuid }
  match decodeSymbolTable data s.kernelcacheUuid.uuid malloc with
  | .ok t => some { s with kernelcacheSymbolTable := t :: s.kernelcacheSymbolTable }
  | .error .heapOverflow => none
  | .error _ => some s

/-- An upload together with the answers that `malloc` gives while it is processed. -/
structure Request where
  upload : Upload
  malloc : ℕ → Bool

/-- One upload followed by the command. -/
def step (kernel : Kernel) (s : SymbolState) (r : Request) : Option SymbolState :=
  commandKernelcacheSymbols kernel r.malloc (s.receive r.upload)

/-- A sequence of uploads, each followed by the command. -/
def run (kernel : Kernel) (s : SymbolState) (rs : List Request) : Option SymbolState :=
  rs.foldlM (step kernel) s

/-! ## What one command can do -/

variable {kernel : Kernel} {s s' : SymbolState} {r : Request}

/-- The state after a command, apart from the chain. -/
def SymbolState.consumed (kernel : Kernel) (s : SymbolState) (u : Upload) : SymbolState :=
  { s.receive u with
    loaderXferRecvCount := 0
    kernelcacheUuid := kernelcacheFindUuid kernel s.kernelcacheUuid }

/-- The UUID that the command compares with. -/
def SymbolState.uuidFor (kernel : Kernel) (s : SymbolState) : Uuid :=
  (kernelcacheFindUuid kernel s.kernelcacheUuid).uuid

lemma step_eq (kernel : Kernel) (s : SymbolState) (r : Request) :
    step kernel s r =
      match decodeSymbolTable r.upload.data (s.uuidFor kernel) r.malloc with
      | .ok t => some { s.consumed kernel r.upload with
          kernelcacheSymbolTable := t :: s.kernelcacheSymbolTable }
      | .error .heapOverflow => none
      | .error _ => some (s.consumed kernel r.upload) := by
  simp only [step, commandKernelcacheSymbols, SymbolState.receive, List.take_length,
    SymbolState.uuidFor, SymbolState.consumed]

/-- A command leaves the chain alone or prepends the table it has decoded. -/
lemma step_cases (h : step kernel s r = some s') :
    (∃ e, decodeSymbolTable r.upload.data (s.uuidFor kernel) r.malloc = .error e ∧
      e ≠ .heapOverflow ∧ s' = s.consumed kernel r.upload) ∨
    ∃ t, decodeSymbolTable r.upload.data (s.uuidFor kernel) r.malloc = .ok t ∧
      s' = { s.consumed kernel r.upload with
        kernelcacheSymbolTable := t :: s.kernelcacheSymbolTable } := by
  rw [step_eq] at h
  cases hd : decodeSymbolTable r.upload.data (s.uuidFor kernel) r.malloc with
  | ok t =>
    rw [hd] at h
    exact Or.inr ⟨t, rfl, (Option.some.inj h).symm⟩
  | error e =>
    rw [hd] at h
    cases e with
    | heapOverflow => simp at h
    | noMatchingKernelcache => exact Or.inl ⟨_, rfl, by simp, (Option.some.inj h).symm⟩
    | invalidSymbolTable => exact Or.inl ⟨_, rfl, by simp, (Option.some.inj h).symm⟩
    | allocationFailed => exact Or.inl ⟨_, rfl, by simp, (Option.some.inj h).symm⟩

/-- The chain after a command. -/
lemma step_chain (h : step kernel s r = some s') :
    s'.kernelcacheSymbolTable = (decodeSymbolTable r.upload.data (s.uuidFor kernel)
        r.malloc).toOption.toList ++ s.kernelcacheSymbolTable ∧
      s'.kernelcacheUuid = kernelcacheFindUuid kernel s.kernelcacheUuid ∧
      s'.loaderXferRecvCount = 0 := by
  rcases step_cases h with ⟨e, hdecode, -, rfl⟩ | ⟨t, hdecode, rfl⟩
  · rw [hdecode]
    exact ⟨rfl, rfl, rfl⟩
  · rw [hdecode]
    exact ⟨rfl, rfl, rfl⟩

/-- Only a store outside of the block leaves a command without a next state. -/
lemma step_isSome (h : decodeSymbolTable r.upload.data (s.uuidFor kernel) r.malloc ≠
    .error .heapOverflow) : ∃ s', step kernel s r = some s' := by
  rw [step_eq]
  cases hd : decodeSymbolTable r.upload.data (s.uuidFor kernel) r.malloc with
  | ok t => exact ⟨_, rfl⟩
  | error e =>
    cases e with
    | heapOverflow => exact absurd hd h
    | noMatchingKernelcache => exact ⟨_, rfl⟩
    | invalidSymbolTable => exact ⟨_, rfl⟩
    | allocationFailed => exact ⟨_, rfl⟩

/-- The UUID that commands compare with is the same in a whole run. -/
lemma uuidFor_step (h : step kernel s r = some s') : s'.uuidFor kernel = s.uuidFor kernel := by
  rcases step_cases h with ⟨_, _, _, rfl⟩ | ⟨_, _, rfl⟩ <;>
    simp [SymbolState.uuidFor, SymbolState.consumed]

end VulnerableKext.Device

import VulnerableKext.Device.SymbolRuns
import VulnerableKext.Kext.PrelinkRuns

/-!
# The pongoOS module

The two commands of the module work on the same variables and the same memory: the upload
in the USB buffer, the kernelcache with its load commands and its section
`__PRELINK_INFO.__info`, and the memory that `alloc_static` gives.  A run of the module is a
sequence of uploads, each followed by a command.  A command that is sent without a new upload
finds an upload of no bytes, because every command consumes what it has been given.

What a run is for is said without a memory (`AbstractModule`): there is a chain of symbol
tables and a list of kernel extensions that have been loaded, each with the tables that it
was linked against.
-/

namespace VulnerableKext.Kext

/-- The file that a list of bytes is. -/
def Buffer.ofBytes (data : List UInt8) : Buffer := ⟨data.length, fun i => data.getD i 0⟩

end VulnerableKext.Kext

namespace VulnerableKext.System

open Memory Bytes Checked Device Kext

/-! ## The program -/

/-- What the module finds around it: `mh_execute_header` and `kernel_slide`, the address of the USB
buffer, and the header of the section that `macho_get_section` returns. -/
structure Pongo where
  layout : KernelLayout
  loaderXferRecvData : ℕ
  prelinkInfoSection : ℕ

/-- The variables of the module and the memory. -/
structure ModuleState where
  mem : Mem
  loaderXferRecvCount : ℕ
  kernelcacheSymbolTable : List KernelcacheSymbolTable
  kernelcacheUuid : KernelcacheUuid
  kextId : UInt32

/-- The commands that `module_entry` registers, with the answers of the allocator that they call. -/
inductive ModuleCommand
  | kernelcacheSymbols (malloc : ℕ → Bool)
  | kextload (allocStatic : ℕ → Option ℕ)

def ModuleCommand.isKextload : ModuleCommand → Bool
  | .kernelcacheSymbols _ => false
  | .kextload _ => true

/-- An upload and the command that follows it. -/
structure ModuleRequest where
  upload : Upload
  command : ModuleCommand

/-- The file in the upload. -/
def ModuleRequest.file (r : ModuleRequest) : Buffer := Buffer.ofBytes r.upload.data

section Program

variable (os : Pongo)

/-- The kernelcache from its header on. -/
def Pongo.kernel (m : Mem) : Kernel := fun o => m (os.layout.mhExecuteHeader + o)

namespace ModuleState

/-- The variables when the module has been loaded. -/
def initial (m : Mem) : ModuleState := ⟨m, 0, [], .initial, 0⟩

/-- A bulk upload has been received. -/
def receive (s : ModuleState) (u : Upload) : ModuleState :=
  { s with
    mem := withUpload s.mem os.loaderXferRecvData (Buffer.ofBytes u.data)
    loaderXferRecvCount := u.data.length }

/-- The bytes that the USB buffer holds. -/
def received (s : ModuleState) : List UInt8 :=
  (List.range s.loaderXferRecvCount).map fun i => s.mem (os.loaderXferRecvData + i)

/-- The variables that the symbols command looks at. -/
def symbols (s : ModuleState) : SymbolState :=
  ⟨s.kernelcacheSymbolTable, s.kernelcacheUuid, s.loaderXferRecvCount, s.received os⟩

/-- Handles a command.  There is no next state after undefined behaviour. -/
def command (s : ModuleState) : ModuleCommand → Option ModuleState
  | .kernelcacheSymbols malloc =>
    (commandKernelcacheSymbols (os.kernel s.mem) malloc (s.symbols os)).map fun t =>
      { s with
        loaderXferRecvCount := t.loaderXferRecvCount
        kernelcacheSymbolTable := t.kernelcacheSymbolTable
        kernelcacheUuid := t.kernelcacheUuid }
  | .kextload allocStatic =>
    let r : KextRequest := ⟨os.loaderXferRecvData, Buffer.ofBytes (s.received os), allocStatic⟩
    (commandKextload os.layout s.kernelcacheSymbolTable os.prelinkInfoSection r
      ⟨s.mem, s.kextId⟩).map fun t =>
        { s with mem := t.1.mem, loaderXferRecvCount := 0, kextId := t.1.kextId }

end ModuleState

/-- One upload followed by the command. -/
def moduleStep (s : ModuleState) (r : ModuleRequest) : Option ModuleState :=
  (s.receive os r.upload).command os r.command

/-- A sequence of uploads, each followed by a command. -/
def runModule (s : ModuleState) (rs : List ModuleRequest) : Option ModuleState :=
  rs.foldlM (moduleStep os) s

end Program

/-! ## What it is for -/

/-- A kernel extension that has been loaded: the tables it was linked against, its file, and what
has been found in the file, with the address of the image. -/
structure LoadedKext where
  chain : List KernelcacheSymbolTable
  file : Buffer
  info : KextLoadInfo

namespace LoadedKext

variable (l : LoadedKext)

/-- The positions of the symbol tables in the file. -/
def sp : ℕ := l.info.symtab - l.info.header
def dp : ℕ := l.info.dysymtab - l.info.header

/-- What is announced to the kernel. -/
def announced : KextLoadInfo := mappedInfo l.info l.sp l.dp

/-- The linked image.  What the file does not say about it is left as it was in `z`. -/
def image (k : KernelLayout) (z : Mem) : Mem :=
  imageLinked k l.chain l.info l.file l.sp l.dp
    (kextImage k l.info l.file.byte fun o => z (l.info.kext + o))

end LoadedKext

/-- An upload is loaded if it is accepted and there is memory for it. -/
def loadKext (chain : List KernelcacheSymbolTable) (header : ℕ) (file : Buffer)
    (allocStatic : ℕ → Option ℕ) : Option LoadedKext :=
  if file.size < 0x4000 then none
  else (kextParse chain header file).toOption.bind fun t =>
    (kextAlloc allocStatic t.2).map fun info => ⟨chain, t.1, info⟩

/-- The tables that are installed and the kernel extensions that have been loaded. -/
structure AbstractModule where
  tables : List KernelcacheSymbolTable
  kexts : List LoadedKext

namespace AbstractModule

def initial : AbstractModule := ⟨[], []⟩

/-- A request adds a table, or a kernel extension, or nothing. -/
def step (uuid : Uuid) (header : ℕ) (a : AbstractModule) (r : ModuleRequest) : AbstractModule :=
  match r.command with
  | .kernelcacheSymbols malloc =>
    { a with tables := (decodeSymbolTable r.upload.data uuid malloc).toOption.toList ++ a.tables }
  | .kextload allocStatic =>
    { a with kexts := a.kexts ++ (loadKext a.tables header r.file allocStatic).toList }

section Step

variable {uuid : Uuid} {header : ℕ} {a : AbstractModule} {r : ModuleRequest}

lemma step_kernelcacheSymbols {malloc : ℕ → Bool} (h : r.command = .kernelcacheSymbols malloc) :
    a.step uuid header r = { a with
      tables := (decodeSymbolTable r.upload.data uuid malloc).toOption.toList ++ a.tables } := by
  rw [step, h]

lemma step_kextload {allocStatic : ℕ → Option ℕ} (h : r.command = .kextload allocStatic) :
    a.step uuid header r = { a with
      kexts := a.kexts ++ (loadKext a.tables header r.file allocStatic).toList } := by
  rw [step, h]

end Step

def run (uuid : Uuid) (header : ℕ) (rs : List ModuleRequest) : AbstractModule :=
  rs.foldl (step uuid header) initial

section Run

variable {uuid : Uuid} {header : ℕ} {rs all : List ModuleRequest}

lemma run_append_singleton (r : ModuleRequest) :
    run uuid header (rs ++ [r]) = step uuid header (run uuid header rs) r := by
  simp [run]

/-- Nothing that has been loaded is unloaded. -/
lemma kexts_run_append (rs' : List ModuleRequest) :
    (run uuid header rs).kexts <+: (run uuid header (rs ++ rs')).kexts := by
  induction rs' using List.reverseRecOn with
  | nil => rw [List.append_nil]
  | append_singleton rs' r ih =>
    rw [← List.append_assoc, run_append_singleton]
    refine ih.trans ?_
    rw [step]
    cases r.command with
    | kernelcacheSymbols malloc => exact List.prefix_rfl
    | kextload allocStatic => exact List.prefix_append _ _

/-- A kernel extension has been loaded by one of the requests, against the tables that had been
installed before. -/
lemma exists_of_mem_kexts {l : LoadedKext} (hl : l ∈ (run uuid header rs).kexts) :
    ∃ before r after allocStatic, rs = before ++ r :: after ∧ r.command = .kextload allocStatic ∧
      loadKext (run uuid header before).tables header r.file allocStatic = some l := by
  induction rs using List.reverseRecOn with
  | nil => cases hl
  | append_singleton rs r ih =>
    have hold (hl : l ∈ (run uuid header rs).kexts) : ∃ before r' after allocStatic,
        rs ++ [r] = before ++ r' :: after ∧ r'.command = .kextload allocStatic ∧
          loadKext (run uuid header before).tables header r'.file allocStatic = some l := by
      obtain ⟨before, r', after, allocStatic, rfl, hcommand, hload⟩ := ih hl
      exact ⟨before, r', after ++ [r], allocStatic, by simp, hcommand, hload⟩
    rw [run_append_singleton] at hl
    cases hcommand : r.command with
    | kernelcacheSymbols malloc =>
      rw [step_kernelcacheSymbols hcommand] at hl
      exact hold hl
    | kextload allocStatic =>
      rw [step_kextload hcommand] at hl
      rcases List.mem_append.1 hl with hl | hl
      · exact hold hl
      · exact ⟨rs, r, [], allocStatic, rfl, hcommand, Option.mem_toList.1 hl⟩

lemma kexts_run_prefix (uuid : Uuid) (header : ℕ) (h : rs <+: all) :
    (run uuid header rs).kexts.length ≤ (run uuid header all).kexts.length := by
  obtain ⟨rs', rfl⟩ := h
  exact (kexts_run_append rs').length_le

/-- Only a `kextload` command loads something, and only one kernel extension. -/
lemma length_kexts_run_le :
    (run uuid header rs).kexts.length ≤ rs.countP fun r => r.command.isKextload := by
  induction rs using List.reverseRecOn with
  | nil => exact le_rfl
  | append_singleton rs r ih =>
    rw [run_append_singleton, List.countP_append, List.countP_singleton]
    cases hcommand : r.command with
    | kernelcacheSymbols malloc =>
      rw [step_kernelcacheSymbols hcommand]
      exact ih.trans (Nat.le_add_right _ _)
    | kextload allocStatic =>
      rw [step_kextload hcommand, List.length_append, ModuleCommand.isKextload, if_pos rfl]
      have hone := Option.length_toList_le
        (o := loadKext (run uuid header rs).tables header r.file allocStatic)
      omega

end Run

end AbstractModule

end VulnerableKext.System

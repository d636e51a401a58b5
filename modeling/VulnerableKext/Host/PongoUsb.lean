import VulnerableKext.Host.TextParser

/-!
# Loading over USB

`pongo_instance_load_kext` uploads the module, the symbol table and the kernel extensions to
the device and boots it.  Each of the transfers can fail by itself.  The answers of the
device are given by the position of the transfer, and the log records the transfers that are
made, with their success.

Mapping a file and generating the symbol table are inputs: `none` is the null pointer.
-/

namespace VulnerableKext.Host

/-- A transfer to the device: a `DeviceRequest` or a `WritePipe` on pipe 2. -/
inductive UsbTransfer
  | deviceRequest (bmRequestType bRequest wValue wIndex : ℕ) (pData : List UInt8)
  | writePipe (data : List UInt8)
deriving DecidableEq, Repr

abbrev UsbLog : Type := List (UsbTransfer × Bool)

/-- The answers to the transfers: `none` for a failure, otherwise `wLenDone`. -/
abbrev UsbAnswers : Type := ℕ → Option ℕ

/-- A command string.  With its terminator it is shorter than 256 bytes, as the source asserts. -/
structure Command where
  text : List UInt8
  length_lt : text.length + 1 < 256

namespace Command

def xfb : Command := ⟨ascii "xfb\n", by decide⟩
def modload : Command := ⟨ascii "modload\n", by decide⟩
def kernelcacheSymbols : Command := ⟨ascii "kernelcache-symbols\n", by decide⟩
def kextload : Command := ⟨ascii "kextload\n", by decide⟩
def bootx : Command := ⟨ascii "bootx\n", by decide⟩

/-- The request that sends the command. -/
def request (c : Command) : UsbTransfer := .deviceRequest 0x21 0x3 0 0 (c.text ++ [0])

end Command

section Usb

variable (answer : UsbAnswers)

/-- Make a transfer. -/
def transfer (t : UsbTransfer) : StateM UsbLog (Option ℕ) := fun log =>
  (answer log.length, log ++ [(t, (answer log.length).isSome)])

/-- A control request that returns the number of bytes, or -1. -/
def controlRequest (t : UsbTransfer) : StateM UsbLog ℤ := do
  match ← transfer answer t with
  | none => return -1
  | some wLenDone => return wLenDone

/-- Send a command string synchronously to pongoOS. -/
def pongoUsbSendCommand (c : Command) : StateM UsbLog ℤ := controlRequest answer c.request

/-- Initialize bulk data upload to pongoOS. -/
def pongoUsbInitBulkUpload : StateM UsbLog ℤ :=
  controlRequest answer (.deviceRequest 0x21 0x1 0 0 [])

/-- Clear bulk data uploaded to pongoOS. -/
def pongoUsbDiscardBulkUpload : StateM UsbLog ℤ :=
  controlRequest answer (.deviceRequest 0x21 0x2 0 0 [])

/-- Upload bulk data synchronously to pongoOS. -/
def pongoUsbSendBulkData (data : List UInt8) : StateM UsbLog Bool := do
  let result ← transfer answer (.writePipe data)
  if result.isNone then
    let _ ← pongoUsbDiscardBulkUpload answer
  return result.isSome

/-- Upload some data and send the command that processes it.  No result is looked at. -/
def uploadAndRun (data : List UInt8) (c : Command) : StateM UsbLog Unit := do
  let _ ← pongoUsbInitBulkUpload answer
  let _ ← pongoUsbSendBulkData answer data
  let _ ← pongoUsbSendCommand answer c

/-- Load the kextload pongo module. -/
def pongoKextLoadInit (kextloadModule : Option (List UInt8)) : StateM UsbLog Bool :=
  match kextloadModule with
  | none => return false
  | some kextloadModule => do
    let _ ← pongoUsbSendCommand answer .xfb
    uploadAndRun answer kextloadModule .modload
    return true

/-- Load a symbol table to the pongoOS device. -/
def pongoKextLoadSymbols (symbolTable : Option (List UInt8)) : StateM UsbLog Bool :=
  match symbolTable with
  | none => return false
  | some symbolTable => do
    uploadAndRun answer symbolTable .kernelcacheSymbols
    return true

/-- Load an XNU kernel extension. -/
def pongoKextLoad (kext : Option (List UInt8)) : StateM UsbLog Bool :=
  match kext with
  | none => return false
  | some kext => do
    uploadAndRun answer kext .kextload
    return true

/-- Boot XNU. -/
def pongoKextBootXnu : StateM UsbLog Unit := do
  let _ ← pongoUsbSendCommand answer .bootx

/-- The loop over the kernel extensions, up to the first that can not be loaded. -/
def loadKexts : List (Option (List UInt8)) → StateM UsbLog Bool
  | [] => return true
  | kext :: kexts => do
    let ok ← pongoKextLoad answer kext
    if ok then loadKexts kexts else return false

/-- What the load operation reads: the module, the symbol table and the kernel extensions. -/
structure LoadFiles where
  kextloadModule : Option (List UInt8)
  symbolTable : Option (List UInt8)
  kexts : List (Option (List UInt8))

/-- Perform the kext loading operation on the pongo_instance object. -/
def pongoInstanceLoadKext (files : LoadFiles) : StateM UsbLog Bool := do
  let ok ← pongoKextLoadInit answer files.kextloadModule
  if !ok then return false
  let ok ← pongoKextLoadSymbols answer files.symbolTable
  if !ok then return false
  let ok ← loadKexts answer files.kexts
  if !ok then return false
  pongoKextBootXnu answer
  return true

end Usb

/-! ## What a step of the load operation does -/

variable {answer : UsbAnswers} {α β : Type} {x : StateM UsbLog α} {f : α → StateM UsbLog β}
  {start n m : ℕ} {new new' log : UsbLog} {c : Command} {files : LoadFiles}

/-- `bootx` is not among the transfers. -/
def NoBoot (log : UsbLog) : Prop := ∀ e ∈ log, e.1 ≠ Command.bootx.request

def AllSucceed (log : UsbLog) : Prop := ∀ e ∈ log, e.2 = true

/-- The transfers of an attempt that takes `n` of them when nothing fails. -/
structure Attempt (answer : UsbAnswers) (start n : ℕ) (new : UsbLog) : Prop where
  noBoot : NoBoot new
  length_eq : AllSucceed new → new.length = n
  succeed_iff : AllSucceed new ↔ ∀ i < n, (answer (start + i)).isSome

lemma allSucceed_append : AllSucceed (new ++ new') ↔ AllSucceed new ∧ AllSucceed new' :=
  List.forall_mem_append

lemma noBoot_append : NoBoot (new ++ new') ↔ NoBoot new ∧ NoBoot new' := List.forall_mem_append

lemma Attempt.append (h : Attempt answer start n new)
    (h' : Attempt answer (start + new.length) m new') :
    Attempt answer start (n + m) (new ++ new') := by
  refine ⟨noBoot_append.2 ⟨h.noBoot, h'.noBoot⟩, ?_, ?_⟩
  · intro hall
    obtain ⟨h₁, h₂⟩ := allSucceed_append.1 hall
    rw [List.length_append, h.length_eq h₁, h'.length_eq h₂]
  · rw [allSucceed_append, h.succeed_iff]
    constructor
    · rintro ⟨h₁, h₂⟩ i hi
      have hlen := h.length_eq (h.succeed_iff.2 h₁)
      rcases Nat.lt_or_ge i n with hlt | hge
      · exact h₁ i hlt
      · have := h'.succeed_iff.1 h₂ (i - n) (by omega)
        rwa [hlen, show start + n + (i - n) = start + i by omega] at this
    · intro hall
      have h₁ : ∀ i < n, (answer (start + i)).isSome := fun i hi => hall i (by omega)
      refine ⟨h₁, h'.succeed_iff.2 fun i hi => ?_⟩
      rw [h.length_eq (h.succeed_iff.2 h₁), Nat.add_assoc]
      exact hall (n + i) (by omega)

/-- Every run of `x` is an attempt that takes `n` transfers. -/
def Makes (answer : UsbAnswers) (x : StateM UsbLog α) (n : ℕ) : Prop :=
  ∀ log, ∃ new, (x log).2 = log ++ new ∧ Attempt answer log.length n new

lemma makes_pure (a : α) : Makes answer (pure a) 0 :=
  fun log => ⟨[], (List.append_nil log).symm, by simp [NoBoot], by simp, by simp [AllSucceed]⟩

lemma Makes.bind (hx : Makes answer x n) (hf : ∀ a, Makes answer (f a) m) :
    Makes answer (x >>= f) (n + m) := by
  intro log
  obtain ⟨new, hnew, h⟩ := hx log
  obtain ⟨new', hnew', h'⟩ := hf (x log).1 (x log).2
  refine ⟨new ++ new', ?_, h.append ?_⟩
  · rw [← List.append_assoc, ← hnew, ← hnew']
    rfl
  · rwa [hnew, List.length_append] at h'

lemma makes_transfer {t : UsbTransfer} (ht : t ≠ Command.bootx.request) :
    Makes answer (transfer answer t) 1 := by
  intro log
  refine ⟨[(t, (answer log.length).isSome)], rfl, ?_, fun _ => rfl, ?_⟩
  · simpa [NoBoot] using ht
  · simp [AllSucceed]

lemma makes_controlRequest {t : UsbTransfer} (ht : t ≠ Command.bootx.request) :
    Makes answer (controlRequest answer t) 1 := by
  refine Makes.bind (m := 0) (makes_transfer ht) fun result => ?_
  cases result with
  | none => exact makes_pure _
  | some wLenDone => exact makes_pure _

lemma makes_discardBulkUpload : Makes answer (pongoUsbDiscardBulkUpload answer) 1 :=
  makes_controlRequest (by decide)

/-- A bulk write that fails is followed by a request that clears the data. -/
lemma makes_sendBulkData (data : List UInt8) :
    Makes answer (pongoUsbSendBulkData answer data) 1 := by
  intro log
  cases hans : answer log.length with
  | some n =>
    refine ⟨[(.writePipe data, true)], ?_, ?_, fun _ => rfl, ?_⟩
    · simp [pongoUsbSendBulkData, transfer, hans, bind, StateT.bind, pure, StateT.pure]
    · simp [NoBoot, Command.request]
    · simp [AllSucceed, hans]
  | none =>
    have hdiscard : Makes answer (pongoUsbDiscardBulkUpload answer) 1 := makes_discardBulkUpload
    obtain ⟨new, hnew, hatt⟩ := hdiscard (log ++ [(.writePipe data, false)])
    have hfail : ¬ AllSucceed ((.writePipe data, false) :: new) := by
      intro hall
      exact absurd (hall _ List.mem_cons_self) (by simp)
    refine ⟨(.writePipe data, false) :: new, ?_, ?_, fun hall => absurd hall hfail, ?_⟩
    · rw [List.append_cons, ← hnew]
      simp only [pongoUsbSendBulkData, transfer, hans, bind, StateT.bind, pure, StateT.pure,
        Option.isNone_none, if_true, Option.isSome_none]
      rfl
    · rintro e (_ | ⟨_, he⟩)
      · simp [Command.request]
      · exact hatt.noBoot e he
    · refine iff_of_false hfail fun hall => ?_
      exact absurd (hall 0 Nat.one_pos) (by simp [hans])

lemma makes_uploadAndRun (data : List UInt8) (hc : c.request ≠ Command.bootx.request) :
    Makes answer (uploadAndRun answer data c) 3 := by
  have hinit : Makes answer (pongoUsbInitBulkUpload answer) 1 := makes_controlRequest (by decide)
  have hcommand : Makes answer (pongoUsbSendCommand answer c) 1 := makes_controlRequest hc
  exact hinit.bind (m := 2) fun _ => (makes_sendBulkData data).bind (m := 1) fun _ =>
    hcommand.bind (m := 0) fun _ => makes_pure _

/-- No run of `x` boots the device. -/
def Quiet (x : StateM UsbLog α) : Prop := ∀ log, ∃ new, (x log).2 = log ++ new ∧ NoBoot new

lemma quiet_pure (a : α) : Quiet (pure a) :=
  fun log => ⟨[], (List.append_nil log).symm, by simp [NoBoot]⟩

lemma Makes.quiet (h : Makes answer x n) : Quiet x := by
  intro log
  obtain ⟨new, hnew, hatt⟩ := h log
  exact ⟨new, hnew, hatt.noBoot⟩

lemma Quiet.bind (hx : Quiet x) (hf : ∀ a, Quiet (f a)) : Quiet (x >>= f) := by
  intro log
  obtain ⟨new, hnew, h⟩ := hx log
  obtain ⟨new', hnew', h'⟩ := hf (x log).1 (x log).2
  refine ⟨new ++ new', ?_, noBoot_append.2 ⟨h, h'⟩⟩
  rw [← List.append_assoc, ← hnew, ← hnew']
  rfl

/-- A step of the load operation: whether it is reported as a success depends on its inputs only,
and if so it makes `n` transfers. -/
structure Loads (answer : UsbAnswers) (x : StateM UsbLog Bool) (ok : Bool) (n : ℕ) : Prop where
  result : ∀ log, (x log).1 = ok
  quiet : Quiet x
  makes : ok = true → Makes answer x n

section Loads

variable {x : StateM UsbLog Bool} {f : Bool → StateM UsbLog Bool} {ok ok' : Bool}

lemma loads_false : Loads answer (pure false) false n :=
  ⟨fun _ => rfl, quiet_pure _, by simp⟩

lemma Makes.loads {x : StateM UsbLog α} (h : Makes answer x n) :
    Loads answer (x >>= fun _ => pure true) true n :=
  ⟨fun _ => rfl, h.quiet.bind fun _ => quiet_pure _,
    fun _ => h.bind (m := 0) fun _ => makes_pure _⟩

/-- The next step is made only after a success. -/
lemma Loads.bind (hx : Loads answer x ok n) (htrue : Loads answer (f true) ok' m)
    (hfalse : f false = pure false) : Loads answer (x >>= f) (ok && ok') (n + m) := by
  have hrun : (x >>= f) = x >>= fun _ => f ok := by
    funext log
    show f (x log).1 (x log).2 = f ok (x log).2
    rw [hx.result log]
  rw [hrun]
  cases ok with
  | false =>
    rw [hfalse]
    exact ⟨fun _ => rfl, hx.quiet.bind fun _ => quiet_pure _, by simp⟩
  | true =>
    exact ⟨fun log => htrue.result _, hx.quiet.bind fun _ => htrue.quiet,
      fun hok => (hx.makes rfl).bind fun _ => htrue.makes hok⟩

lemma loads_init (kextloadModule : Option (List UInt8)) :
    Loads answer (pongoKextLoadInit answer kextloadModule) kextloadModule.isSome 4 := by
  cases kextloadModule with
  | none => exact loads_false
  | some data =>
    have hxfb : Makes answer (pongoUsbSendCommand answer .xfb) 1 := makes_controlRequest (by decide)
    exact (hxfb.bind (m := 3) fun _ => makes_uploadAndRun data (by decide)).loads

lemma loads_symbols (symbolTable : Option (List UInt8)) :
    Loads answer (pongoKextLoadSymbols answer symbolTable) symbolTable.isSome 3 := by
  cases symbolTable with
  | none => exact loads_false
  | some data => exact (makes_uploadAndRun data (by decide)).loads

lemma loads_kext (kext : Option (List UInt8)) :
    Loads answer (pongoKextLoad answer kext) kext.isSome 3 := by
  cases kext with
  | none => exact loads_false
  | some data => exact (makes_uploadAndRun data (by decide)).loads

lemma loads_kexts (kexts : List (Option (List UInt8))) :
    Loads answer (loadKexts answer kexts) (kexts.all (·.isSome)) (3 * kexts.length) := by
  induction kexts with
  | nil => exact ⟨fun _ => rfl, quiet_pure _, fun _ => makes_pure _⟩
  | cons kext kexts ih =>
    rw [List.all_cons, List.length_cons, show 3 * (kexts.length + 1) = 3 + 3 * kexts.length by ring]
    exact (loads_kext kext).bind ih rfl

end Loads

/-! ## The whole load operation -/

/-- Everything before the device is booted. -/
def loadAll (answer : UsbAnswers) (files : LoadFiles) : StateM UsbLog Bool :=
  pongoKextLoadInit answer files.kextloadModule >>= fun ok =>
    if !ok then pure false
    else pongoKextLoadSymbols answer files.symbolTable >>= fun ok =>
      if !ok then pure false else loadKexts answer files.kexts

/-- Every file could be mapped, and there is a symbol table. -/
def LoadFiles.AllMapped (files : LoadFiles) : Prop :=
  files.kextloadModule.isSome ∧ files.symbolTable.isSome ∧ ∀ kext ∈ files.kexts, kext.isSome

instance (files : LoadFiles) : Decidable files.AllMapped := inferInstanceAs (Decidable (_ ∧ _ ∧ _))

/-- The number of transfers before the device is booted. -/
def LoadFiles.transferCount (files : LoadFiles) : ℕ := 7 + 3 * files.kexts.length

lemma loads_all (answer : UsbAnswers) (files : LoadFiles) :
    Loads answer (loadAll answer files) (decide files.AllMapped) files.transferCount := by
  have hok : decide files.AllMapped = (files.kextloadModule.isSome &&
      (files.symbolTable.isSome && files.kexts.all (·.isSome))) := by
    rw [Bool.eq_iff_iff, decide_eq_true_iff]
    simp [LoadFiles.AllMapped]
  rw [hok, LoadFiles.transferCount, show 7 + 3 * files.kexts.length =
    4 + (3 + 3 * files.kexts.length) by omega]
  exact (loads_init _).bind ((loads_symbols _).bind (loads_kexts _) rfl) rfl

/-- The device is booted when everything has been loaded. -/
lemma loadKext_eq (answer : UsbAnswers) (files : LoadFiles) (log : UsbLog) :
    pongoInstanceLoadKext answer files log =
      if files.AllMapped then
        (true, (loadAll answer files log).2 ++ [(Command.bootx.request,
          (answer (loadAll answer files log).2.length).isSome)])
      else (false, (loadAll answer files log).2) := by
  have hseq : pongoInstanceLoadKext answer files = loadAll answer files >>= fun ok =>
      if !ok then pure false else pongoKextBootXnu answer >>= fun _ => pure true := by
    rw [loadAll, bind_assoc]
    refine bind_congr fun ok => ?_
    cases ok with
    | false => rfl
    | true =>
      refine Eq.trans ?_ (bind_assoc _ _ _).symm
      exact bind_congr fun ok => by cases ok <;> rfl
  have hrun : pongoInstanceLoadKext answer files log =
      (if !(loadAll answer files log).1 then pure false
        else pongoKextBootXnu answer >>= fun _ => pure true : StateM UsbLog Bool)
          (loadAll answer files log).2 := congrFun hseq log
  rw [hrun, (loads_all answer files).result]
  by_cases hall : files.AllMapped
  · rw [if_pos hall, decide_eq_true hall]
    cases hans : answer (loadAll answer files log).2.length <;>
      simp [pongoKextBootXnu, pongoUsbSendCommand, controlRequest, transfer, bind, StateT.bind,
        pure, StateT.pure, hans]
  · rw [if_neg hall, decide_eq_false hall]
    rfl

def BootSent (log : UsbLog) : Prop := ∃ ok, (Command.bootx.request, ok) ∈ log

/-- Everything before the boot has succeeded: the files could be mapped and no transfer failed. -/
def Complete (files : LoadFiles) (log : UsbLog) : Prop :=
  files.AllMapped ∧ ∀ e ∈ log, e.1 ≠ Command.bootx.request → e.2 = true

/-- The device is booted, and success returned, only after a complete load; otherwise the load
operation fails without booting the device. -/
structure BootsComplete (answer : UsbAnswers) (files : LoadFiles) : Prop where
  complete : (pongoInstanceLoadKext answer files []).1 = true ∨
    BootSent (pongoInstanceLoadKext answer files []).2 →
      Complete files (pongoInstanceLoadKext answer files []).2
  refused : ¬ Complete files (pongoInstanceLoadKext answer files []).2 →
    (pongoInstanceLoadKext answer files []).1 = false ∧
      ¬ BootSent (pongoInstanceLoadKext answer files []).2

/-- The transfers before the boot are all successes exactly if the answers are. -/
lemma complete_iff (hall : files.AllMapped) :
    Complete files (pongoInstanceLoadKext answer files []).2 ↔
      ∀ i < files.transferCount, (answer i).isSome := by
  obtain ⟨new, hnew, hatt⟩ := (loads_all answer files).makes (decide_eq_true hall) []
  rw [loadKext_eq, if_pos hall, hnew, List.nil_append]
  have hsucceed := hatt.succeed_iff
  simp only [List.length_nil, Nat.zero_add] at hsucceed
  rw [← hsucceed]
  constructor
  · rintro ⟨-, hlog⟩ e he
    exact hlog e (List.mem_append_left _ he) (hatt.noBoot e he)
  · intro hlog
    refine ⟨hall, fun e he hne => ?_⟩
    rcases List.mem_append.1 he with he | he
    · exact hlog e he
    · exact absurd (by rw [List.mem_singleton.1 he]) hne

lemma not_bootSent (hall : ¬ files.AllMapped) :
    ¬ BootSent (pongoInstanceLoadKext answer files []).2 := by
  obtain ⟨new, hnew, hquiet⟩ := (loads_all answer files).quiet []
  rw [loadKext_eq, if_neg hall, hnew, List.nil_append]
  rintro ⟨ok, hmem⟩
  exact hquiet _ hmem rfl

/-- The boot waits for the files to be mapped, and not for the transfers to succeed. -/
theorem bootsComplete_iff (answer : UsbAnswers) (files : LoadFiles) :
    BootsComplete answer files ↔
      (files.AllMapped → ∀ i < files.transferCount, (answer i).isSome) := by
  constructor
  · rintro ⟨hcomplete, -⟩ hall
    refine (complete_iff hall).1 (hcomplete (Or.inl ?_))
    rw [loadKext_eq, if_pos hall]
  · intro h
    by_cases hall : files.AllMapped
    · have hcomplete := (complete_iff hall).2 (h hall)
      exact ⟨fun _ => hcomplete, fun hnot => absurd hcomplete hnot⟩
    · have hfalse : (pongoInstanceLoadKext answer files []).1 = false := by
        rw [loadKext_eq, if_neg hall]
      refine ⟨?_, fun _ => ⟨hfalse, not_bootSent hall⟩⟩
      rintro (htrue | hsent)
      · rw [hfalse] at htrue
        simp at htrue
      · exact absurd hsent (not_bootSent hall)

/-- The upload of the module fails, and the device is booted without it. -/
theorem not_bootsComplete :
    ¬ ∀ (answer : UsbAnswers) (files : LoadFiles), BootsComplete answer files := by
  intro h
  have hfail := (h (fun i => if i = 2 then none else some 0) ⟨some [0], some [0], [some [0]]⟩).complete
  obtain ⟨-, hlog⟩ := hfail (Or.inl (by decide))
  exact absurd (hlog (.writePipe [0], false) (by decide)) (by decide)

end VulnerableKext.Host

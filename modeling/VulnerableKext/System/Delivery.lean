import VulnerableKext.Host.PongoUsb
import VulnerableKext.System.EndToEnd

/-!
# From transfers to commands

The host makes transfers, and the module on the device handles commands.  In between is
pongoOS, which is not part of the repository: a device is any state machine that does with the
upload what the host relies on.

The host does not look at most of the results, and goes on after a transfer that has failed.  A
failed bulk write may leave anything on the device, which is why it is followed by a request to
discard it.  As long as these requests and the commands themselves get through, each command finds
the data that was meant for it, or nothing.
-/

namespace VulnerableKext.System

open Memory Device Host Kext Runs

/-! ## The device -/

/-- What a command can see: the upload that has been received, and before it the commands that have
been handled, each with the upload that it has found. -/
structure UsbBuffer where
  received : List UInt8
  handled : List (List UInt8 × List UInt8)

/-- A command for which data is uploaded. -/
def TakesUpload (c : Command) : Prop := c ≠ .xfb ∧ c ≠ .bootx

/-- A device, and what the host relies on when a transfer has succeeded or failed. -/
structure UsbDevice (σ : Type) where
  initial : σ
  see : σ → UsbTransfer × Bool → σ
  buffer : σ → UsbBuffer
  buffer_initial : buffer initial = ⟨[], []⟩
  -- a request that fails does not reach the device
  buffer_failed : ∀ s bRequest pData,
    buffer (see s (.deviceRequest 0x21 bRequest 0 0 pData, false)) = buffer s
  buffer_write : ∀ s data, (buffer s).received = [] →
    buffer (see s (.writePipe data, true)) = ⟨data, (buffer s).handled⟩
  -- of a bulk write that fails, anything may have been received
  handled_write : ∀ s data, (buffer (see s (.writePipe data, false))).handled = (buffer s).handled
  buffer_init : ∀ s, buffer (see s (.deviceRequest 0x21 0x1 0 0 [], true)) = ⟨[], (buffer s).handled⟩
  buffer_discard : ∀ s,
    buffer (see s (.deviceRequest 0x21 0x2 0 0 [], true)) = ⟨[], (buffer s).handled⟩
  handled_command : ∀ s (c : Command), (buffer (see s (c.request, true))).handled =
    (buffer s).handled ++ [(c.text ++ [0], (buffer s).received)]
  received_command : ∀ s (c : Command), TakesUpload c ∨ (buffer s).received = [] →
    (buffer (see s (c.request, true))).received = []

namespace UsbDevice

variable {σ : Type} (d : UsbDevice σ)

/-- The device after some transfers. -/
def run (s : σ) (log : UsbLog) : σ := log.foldl d.see s

lemma run_append (s : σ) (log new : UsbLog) : d.run s (log ++ new) = d.run (d.run s log) new :=
  List.foldl_append

lemma run_singleton (s : σ) (e : UsbTransfer × Bool) : d.run s [e] = d.see s e := rfl

/-- A command takes what is in the buffer. -/
lemma buffer_command {s : σ} {c : Command} (h : TakesUpload c ∨ (d.buffer s).received = []) :
    d.buffer (d.see s (c.request, true)) =
      ⟨[], (d.buffer s).handled ++ [(c.text ++ [0], (d.buffer s).received)]⟩ := by
  rw [← d.handled_command, ← d.received_command s c h]

/-- Clearing an empty buffer. -/
lemma buffer_init_empty {s : σ} (hempty : (d.buffer s).received = []) (ok : Bool) :
    d.buffer (d.see s (.deviceRequest 0x21 0x1 0 0 [], ok)) = d.buffer s := by
  cases ok with
  | false => exact d.buffer_failed s 0x1 []
  | true => rw [d.buffer_init, ← hempty]

end UsbDevice

/-- The commands get through, and so do the requests that clear a failed upload. -/
structure Recovers (log : UsbLog) : Prop where
  commands : ∀ c : Command, ∀ ok, (c.request, ok) ∈ log → ok = true
  discards : ∀ ok, (UsbTransfer.deviceRequest 0x21 0x2 0 0 [], ok) ∈ log → ok = true

lemma Recovers.of_subset {log new : UsbLog} (h : Recovers log) (hsub : new ⊆ log) : Recovers new :=
  ⟨fun c ok hc => h.commands c ok (hsub hc), fun ok hok => h.discards ok (hsub hok)⟩

/-! ## What the device gets of a step -/

/-- A command that is handled with its own data, or with none. -/
def Own (step : Command × List UInt8) (handled : List UInt8 × List UInt8) : Prop :=
  handled.1 = step.1.text ++ [0] ∧ (handled.2 = step.2 ∨ handled.2 = [])

/-- A command with the data that is meant for it. -/
def whole (step : Command × List UInt8) : List UInt8 × List UInt8 := (step.1.text ++ [0], step.2)

section Hands

variable {σ : Type} {d : UsbDevice σ} {answer : UsbAnswers} {α β : Type} {x : StateM UsbLog α}
  {f : α → StateM UsbLog β} {steps steps' : List (Command × List UInt8)} {log : UsbLog}

/-- The transfers are those of the given steps: on a device whose buffer is empty, each command is
handled once, with its own data or with none if the host recovers from what fails, and with its own
data if nothing fails. -/
structure Delivers (d : UsbDevice σ) (steps : List (Command × List UInt8)) (new : UsbLog) :
    Prop where
  own : ∀ s, (d.buffer s).received = [] → Recovers new → ∃ handled, List.Forall₂ Own steps handled ∧
    d.buffer (d.run s new) = ⟨[], (d.buffer s).handled ++ handled⟩
  whole : ∀ s, (d.buffer s).received = [] → AllSucceed new →
    d.buffer (d.run s new) = ⟨[], (d.buffer s).handled ++ steps.map whole⟩

/-- Every run of `x` makes the transfers of the given steps. -/
def Hands (d : UsbDevice σ) (x : StateM UsbLog α) (steps : List (Command × List UInt8)) : Prop :=
  ∀ log, ∃ new, (x log).2 = log ++ new ∧ Delivers d steps new

lemma hands_pure (a : α) : Hands d (pure a) [] := by
  refine fun log => ⟨[], (List.append_nil log).symm, fun s hempty _ => ⟨[], .nil, ?_⟩,
    fun s hempty _ => ?_⟩
  · rw [List.append_nil, ← hempty]
    rfl
  · rw [List.map_nil, List.append_nil, ← hempty]
    rfl

lemma Hands.bind (hx : Hands d x steps) (hf : ∀ a, Hands d (f a) steps') :
    Hands d (x >>= f) (steps ++ steps') := by
  intro log
  obtain ⟨new, hnew, h⟩ := hx log
  obtain ⟨new', hnew', h'⟩ := hf (x log).1 (x log).2
  refine ⟨new ++ new', ?_, fun s hempty hok => ?_, fun s hempty hok => ?_⟩
  · rw [← List.append_assoc, ← hnew, ← hnew']
    rfl
  · obtain ⟨hs, hown, hafter⟩ := h.own s hempty (hok.of_subset (List.subset_append_left _ _))
    obtain ⟨hs', hown', hafter'⟩ := h'.own (d.run s new) (by rw [hafter])
      (hok.of_subset (List.subset_append_right _ _))
    refine ⟨hs ++ hs', List.rel_append hown hown', ?_⟩
    rw [UsbDevice.run_append, hafter', hafter, List.append_assoc]
  · obtain ⟨hok₁, hok₂⟩ := allSucceed_append.1 hok
    have hafter := h.whole s hempty hok₁
    have hafter' := h'.whole (d.run s new) (by rw [hafter]) hok₂
    rw [UsbDevice.run_append, hafter', hafter, List.map_append, List.append_assoc]

/-- A control request makes one transfer. -/
lemma log_controlRequest (answer : UsbAnswers) (t : UsbTransfer) (log : UsbLog) :
    (controlRequest answer t log).2 = log ++ [(t, (answer log.length).isSome)] := by
  cases h : answer log.length with
  | none => simp [controlRequest, Host.transfer, h, bind, StateT.bind, pure, StateT.pure]
  | some n => simp [controlRequest, Host.transfer, h, bind, StateT.bind, pure, StateT.pure]

/-- A bulk write makes one, and one more when it fails. -/
lemma log_sendBulkData (answer : UsbAnswers) (data : List UInt8) (log : UsbLog) :
    (pongoUsbSendBulkData answer data log).2 = log ++ [(.writePipe data, true)] ∨
      ∃ ok, (pongoUsbSendBulkData answer data log).2 = log ++
        [(.writePipe data, false), (.deviceRequest 0x21 0x2 0 0 [], ok)] := by
  cases h : answer log.length with
  | none =>
    right
    refine ⟨(answer (log ++ [(UsbTransfer.writePipe data, false)]).length).isSome, ?_⟩
    have hdiscard := log_controlRequest answer (.deviceRequest 0x21 0x2 0 0 [])
      (log ++ [(UsbTransfer.writePipe data, false)])
    rw [List.append_assoc] at hdiscard
    simp only [pongoUsbSendBulkData, Host.transfer, h, bind, StateT.bind, pure, StateT.pure,
      Option.isNone_none, if_true, Option.isSome_none]
    exact hdiscard
  | some n =>
    left
    simp [pongoUsbSendBulkData, Host.transfer, h, bind, StateT.bind, pure, StateT.pure]

/-- A command without data. -/
lemma hands_sendCommand (c : Command) : Hands d (pongoUsbSendCommand answer c) [(c, [])] := by
  intro log
  have hlog : (pongoUsbSendCommand answer c log).2 = _ := log_controlRequest answer c.request log
  generalize (answer log.length).isSome = sent at hlog
  refine ⟨_, hlog, fun s hempty hok => ?_, fun s hempty hok => ?_⟩
  · obtain rfl := hok.commands c sent (List.mem_singleton.2 rfl)
    refine ⟨[(c.text ++ [0], [])], .cons ⟨rfl, Or.inl rfl⟩ .nil, ?_⟩
    rw [UsbDevice.run_singleton, d.buffer_command (Or.inr hempty), hempty]
  · obtain rfl : sent = true := hok (c.request, sent) (List.mem_singleton.2 rfl)
    rw [UsbDevice.run_singleton, d.buffer_command (Or.inr hempty), hempty]
    rfl

/-- The buffer after an upload: the data, or nothing if the host has discarded it. -/
lemma buffer_upload {s : σ} (hempty : (d.buffer s).received = []) {data : List UInt8} (init : Bool) :
    d.buffer (d.run s [(.deviceRequest 0x21 0x1 0 0 [], init), (.writePipe data, true)]) =
        ⟨data, (d.buffer s).handled⟩ ∧
      d.buffer (d.run s [(.deviceRequest 0x21 0x1 0 0 [], init), (.writePipe data, false),
        (.deviceRequest 0x21 0x2 0 0 [], true)]) = ⟨[], (d.buffer s).handled⟩ := by
  have hinit := d.buffer_init_empty hempty init
  constructor
  · show d.buffer (d.see (d.see s _) _) = _
    rw [d.buffer_write _ _ (by rw [hinit]; exact hempty), hinit]
  · show d.buffer (d.see (d.see (d.see s _) _) _) = _
    rw [d.buffer_discard, d.handled_write, hinit]

/-- An upload and its command make three transfers, and one more when the upload fails. -/
lemma log_uploadAndRun (answer : UsbAnswers) (data : List UInt8) (c : Command) (log : UsbLog) :
    ∃ init, (∃ sent, (uploadAndRun answer data c log).2 = log ++
        ([(.deviceRequest 0x21 0x1 0 0 [], init), (.writePipe data, true)] ++ [(c.request, sent)])) ∨
      ∃ discarded sent, (uploadAndRun answer data c log).2 = log ++
        ([(.deviceRequest 0x21 0x1 0 0 [], init), (.writePipe data, false),
          (.deviceRequest 0x21 0x2 0 0 [], discarded)] ++ [(c.request, sent)]) := by
  have hlog : (uploadAndRun answer data c log).2 = (pongoUsbSendCommand answer c
    (pongoUsbSendBulkData answer data (pongoUsbInitBulkUpload answer log).2).2).2 := rfl
  have hinit : (pongoUsbInitBulkUpload answer log).2 = _ :=
    log_controlRequest answer (.deviceRequest 0x21 0x1 0 0 []) log
  have hcommand (log : UsbLog) : ∃ sent, (pongoUsbSendCommand answer c log).2 =
      log ++ [(c.request, sent)] := ⟨_, log_controlRequest answer c.request log⟩
  refine ⟨(answer log.length).isSome, ?_⟩
  rw [hlog, hinit]
  rcases log_sendBulkData answer data (log ++ [(.deviceRequest 0x21 0x1 0 0 [],
    (answer log.length).isSome)]) with hbulk | ⟨discarded, hbulk⟩
  · left
    rw [hbulk]
    obtain ⟨sent, hsent⟩ := hcommand _
    refine ⟨sent, hsent.trans ?_⟩
    rw [List.append_assoc, List.append_assoc]
    rfl
  · right
    rw [hbulk]
    obtain ⟨sent, hsent⟩ := hcommand _
    refine ⟨discarded, sent, hsent.trans ?_⟩
    rw [List.append_assoc, List.append_assoc]
    rfl

/-- A command with data. -/
lemma hands_uploadAndRun (data : List UInt8) {c : Command} (hc : TakesUpload c) :
    Hands d (uploadAndRun answer data c) [(c, data)] := by
  intro log
  obtain ⟨init, ⟨sent, hlog⟩ | ⟨discarded, sent, hlog⟩⟩ := log_uploadAndRun answer data c log
  · -- the data has been received
    refine ⟨_, hlog, fun s hempty hok => ?_, fun s hempty hok => ?_⟩
    · obtain rfl := hok.commands c sent (by simp)
      refine ⟨[(c.text ++ [0], data)], .cons ⟨rfl, Or.inl rfl⟩ .nil, ?_⟩
      rw [UsbDevice.run_append, UsbDevice.run_singleton, d.buffer_command (Or.inl hc),
        (buffer_upload hempty init).1]
    · obtain rfl : sent = true := hok (c.request, sent) (by simp)
      rw [UsbDevice.run_append, UsbDevice.run_singleton, d.buffer_command (Or.inl hc),
        (buffer_upload hempty init).1]
      rfl
  · -- the upload has failed, and what is left of it is discarded
    refine ⟨_, hlog, fun s hempty hok => ?_, fun s hempty hok => ?_⟩
    · obtain rfl := hok.commands c sent (by simp)
      obtain rfl := hok.discards discarded (by simp)
      refine ⟨[(c.text ++ [0], [])], .cons ⟨rfl, Or.inr rfl⟩ .nil, ?_⟩
      rw [UsbDevice.run_append, UsbDevice.run_singleton, d.buffer_command (Or.inl hc),
        (buffer_upload hempty init).2]
    · have hfailed := hok (.writePipe data, false) (by simp)
      cases hfailed

/-- What follows a step depends on its result only. -/
lemma Hands.bind_of_result {x : StateM UsbLog Bool} {f : Bool → StateM UsbLog β}
    (hx : Hands d x steps) (hresult : ∀ log, (x log).1 = true) (hf : Hands d (f true) steps') :
    Hands d (x >>= f) (steps ++ steps') := by
  have hrun : (x >>= f) = x >>= fun _ => f true := by
    funext log
    show f (x log).1 (x log).2 = f true (x log).2
    rw [hresult log]
  rw [hrun]
  exact hx.bind fun _ => hf

lemma hands_upload (data : List UInt8) {c : Command} (hc : TakesUpload c) :
    Hands d (uploadAndRun answer data c >>= fun _ => pure true) [(c, data)] :=
  (hands_uploadAndRun data hc).bind fun _ => hands_pure true

lemma takesUpload_modload : TakesUpload .modload :=
  ⟨fun h => absurd (congrArg Command.text h) (by decide),
    fun h => absurd (congrArg Command.text h) (by decide)⟩

lemma takesUpload_kernelcacheSymbols : TakesUpload .kernelcacheSymbols :=
  ⟨fun h => absurd (congrArg Command.text h) (by decide),
    fun h => absurd (congrArg Command.text h) (by decide)⟩

lemma takesUpload_kextload : TakesUpload .kextload :=
  ⟨fun h => absurd (congrArg Command.text h) (by decide),
    fun h => absurd (congrArg Command.text h) (by decide)⟩

/-- The commands that load kernel extensions. -/
def kextSteps (kexts : List (List UInt8)) : List (Command × List UInt8) :=
  kexts.map fun kext => (.kextload, kext)

lemma hands_loadKexts (kexts : List (List UInt8)) :
    Hands d (loadKexts answer (kexts.map some)) (kextSteps kexts) := by
  induction kexts with
  | nil => exact hands_pure true
  | cons kext kexts ih =>
    exact (hands_upload kext takesUpload_kextload).bind_of_result (fun _ => rfl) ih

end Hands

/-! ## The load operation -/

/-- The commands of a load operation whose files could be mapped, with their data. -/
def loadSteps (kextloadModule blob : List UInt8) (kexts : List (List UInt8)) :
    List (Command × List UInt8) :=
  [(.xfb, []), (.modload, kextloadModule), (.kernelcacheSymbols, blob)] ++
    kextSteps kexts ++ [(.bootx, [])]

section Load

variable {σ : Type} {d : UsbDevice σ} {answer : UsbAnswers} {kextloadModule blob : List UInt8}
  {kexts : List (List UInt8)}

lemma hands_loadAll : Hands d (loadAll answer ⟨some kextloadModule, some blob, kexts.map some⟩)
    ([(.xfb, []), (.modload, kextloadModule), (.kernelcacheSymbols, blob)] ++ kextSteps kexts) := by
  have hinit : Hands d (pongoKextLoadInit answer (some kextloadModule))
      [(.xfb, []), (.modload, kextloadModule)] :=
    (hands_sendCommand .xfb).bind fun _ => hands_upload kextloadModule takesUpload_modload
  exact hinit.bind_of_result (fun _ => rfl)
    ((hands_upload blob takesUpload_kernelcacheSymbols).bind_of_result (fun _ => rfl)
      (hands_loadKexts kexts))

/-- The transfers of a load operation. -/
lemma delivers_loadKext (d : UsbDevice σ) : Delivers d (loadSteps kextloadModule blob kexts)
    (pongoInstanceLoadKext answer ⟨some kextloadModule, some blob, kexts.map some⟩ []).2 := by
  have hall : LoadFiles.AllMapped ⟨some kextloadModule, some blob, kexts.map some⟩ :=
    ⟨rfl, rfl, fun kext hkext => by obtain ⟨k, -, rfl⟩ := List.mem_map.1 hkext; rfl⟩
  have hboot : Hands d (loadAll answer ⟨some kextloadModule, some blob, kexts.map some⟩ >>= fun _ =>
      pongoUsbSendCommand answer .bootx) (loadSteps kextloadModule blob kexts) :=
    hands_loadAll.bind fun _ => hands_sendCommand .bootx
  obtain ⟨new, hnew, h⟩ := hboot []
  have hlog : (pongoInstanceLoadKext answer ⟨some kextloadModule, some blob, kexts.map some⟩ []).2 =
      new := by
    rw [List.nil_append] at hnew
    rw [loadKext_eq, if_pos hall, ← hnew]
    exact (log_controlRequest answer Command.bootx.request _).symm
  rw [hlog]
  exact h

/-- The commands that the device has handled. -/
def handledCommands (d : UsbDevice σ) (log : UsbLog) : List (List UInt8 × List UInt8) :=
  (d.buffer (d.run d.initial log)).handled

/-- If the host recovers, each command is handled once, in order, with its own data or with none. -/
lemma own_handledCommands (h : Recovers
      (pongoInstanceLoadKext answer ⟨some kextloadModule, some blob, kexts.map some⟩ []).2) :
    List.Forall₂ Own (loadSteps kextloadModule blob kexts) (handledCommands d
      (pongoInstanceLoadKext answer ⟨some kextloadModule, some blob, kexts.map some⟩ []).2) := by
  have hinitial := d.buffer_initial
  obtain ⟨handled, hown, hafter⟩ := (delivers_loadKext d).own d.initial (by rw [hinitial]) h
  rw [hinitial, List.nil_append] at hafter
  rw [handledCommands, hafter]
  exact hown

/-- If every transfer gets through, with its own data. -/
lemma handledCommands_eq (h : AllSucceed
      (pongoInstanceLoadKext answer ⟨some kextloadModule, some blob, kexts.map some⟩ []).2) :
    handledCommands d
        (pongoInstanceLoadKext answer ⟨some kextloadModule, some blob, kexts.map some⟩ []).2 =
      (loadSteps kextloadModule blob kexts).map whole := by
  have hinitial := d.buffer_initial
  have hafter := (delivers_loadKext d).whole d.initial (by rw [hinitial]) h
  rw [hinitial, List.nil_append] at hafter
  rw [handledCommands, hafter]

end Load

/-! ## The requests of the module -/

/-- What the allocators answer while the commands are handled that come after the module has been
loaded, by the position of the command. -/
structure Allocators where
  malloc : ℕ → ℕ → Bool
  allocStatic : ℕ → ℕ → Option ℕ

/-- The command of the module with this name. -/
def moduleCommand? (allocators : Allocators) (i : ℕ) (text : List UInt8) : Option ModuleCommand :=
  if text = Command.kernelcacheSymbols.text ++ [0] then
    some (.kernelcacheSymbols (allocators.malloc i))
  else if text = Command.kextload.text ++ [0] then some (.kextload (allocators.allocStatic i))
  else none

/-- A command that is handled, if it is one of the module. -/
def moduleRequest? (allocators : Allocators) (i : ℕ) (e : List UInt8 × List UInt8) :
    Option ModuleRequest :=
  if h : e.2.length < 2 ^ 32 then (moduleCommand? allocators i e.1).map fun c => ⟨⟨e.2, h⟩, c⟩
  else none

/-- The commands after the module has been loaded. -/
def behindModload (kextloadModule : List UInt8) :
    List (List UInt8 × List UInt8) → List (List UInt8 × List UInt8)
  | [] => []
  | e :: es =>
    if e = (Command.modload.text ++ [0], kextloadModule) then es
    else behindModload kextloadModule es

def requestsFrom (allocators : Allocators) : ℕ → List (List UInt8 × List UInt8) → List ModuleRequest
  | _, [] => []
  | i, e :: es => (moduleRequest? allocators i e).toList ++ requestsFrom allocators (i + 1) es

/-- What the module has to do, given the transfers of the host. -/
def moduleRequests {σ : Type} (d : UsbDevice σ) (allocators : Allocators) (kextloadModule : List UInt8)
    (log : UsbLog) : List ModuleRequest :=
  requestsFrom allocators 0 (behindModload kextloadModule (handledCommands d log))

/-- The kernel extensions that are loaded by the commands from the `i`-th on. -/
def kextsFrom (allocators : Allocators) : ℕ → List Upload → List HostRequest
  | _, [] => []
  | i, kext :: kexts =>
    .kext kext (allocators.allocStatic i) :: kextsFrom allocators (i + 1) kexts

/-- The requests of a load operation. -/
def loadRequests (allocators : Allocators) (blob : Upload) (kexts : List Upload) :
    List ModuleRequest :=
  ⟨blob, .kernelcacheSymbols (allocators.malloc 0)⟩ ::
    (kextsFrom allocators 1 kexts).map HostRequest.request

section Requests

variable {allocators : Allocators} {i : ℕ} {kexts : List Upload} {blob : Upload}
  {kextloadModule : List UInt8} {handled : List (List UInt8 × List UInt8)}

lemma moduleRequest?_symbols (allocators : Allocators) (i : ℕ) (u : Upload) :
    moduleRequest? allocators i (Command.kernelcacheSymbols.text ++ [0], u.data) =
      some ⟨u, .kernelcacheSymbols (allocators.malloc i)⟩ := by
  rw [moduleRequest?, dif_pos u.length_lt, moduleCommand?, if_pos rfl, Option.map_some]

lemma moduleRequest?_kextload (allocators : Allocators) (i : ℕ) (u : Upload) :
    moduleRequest? allocators i (Command.kextload.text ++ [0], u.data) =
      some ⟨u, .kextload (allocators.allocStatic i)⟩ := by
  have hne : Command.kextload.text ++ [0] ≠ Command.kernelcacheSymbols.text ++ [0] := by decide
  rw [moduleRequest?, dif_pos u.length_lt, moduleCommand?, if_neg hne, if_pos rfl, Option.map_some]

lemma moduleRequest?_bootx (allocators : Allocators) (i : ℕ) (data : List UInt8) :
    moduleRequest? allocators i (Command.bootx.text ++ [0], data) = none := by
  have hne : Command.bootx.text ++ [0] ≠ Command.kernelcacheSymbols.text ++ [0] := by decide
  have hne' : Command.bootx.text ++ [0] ≠ Command.kextload.text ++ [0] := by decide
  rw [moduleRequest?, moduleCommand?, if_neg hne, if_neg hne']
  split_ifs
  · rfl
  · rfl

/-- The upload that a command finds: its own, or nothing. -/
def Emptied (u u' : Upload) : Prop := u' = u ∨ u'.data = []

/-- The last commands of a load operation. -/
lemma requestsFrom_of_own (allocators : Allocators) (i : ℕ)
    (h : List.Forall₂ Own (kextSteps (kexts.map Upload.data) ++ [(.bootx, [])]) handled) :
    ∃ kexts', List.Forall₂ Emptied kexts kexts' ∧
      requestsFrom allocators i handled = (kextsFrom allocators i kexts').map HostRequest.request := by
  induction kexts generalizing i handled with
  | nil =>
    obtain ⟨e, hs, ⟨htext, -⟩, hnil, rfl⟩ := List.forall₂_cons_left_iff.1 h
    obtain rfl := List.forall₂_nil_left_iff.1 hnil
    obtain ⟨text, data⟩ := e
    obtain rfl : text = _ := htext
    refine ⟨[], .nil, ?_⟩
    rw [requestsFrom, moduleRequest?_bootx]
    rfl
  | cons kext kexts ih =>
    obtain ⟨e, hs, ⟨htext, hdata⟩, hrest, rfl⟩ := List.forall₂_cons_left_iff.1 h
    obtain ⟨kexts', hkexts', hrequests⟩ := ih (i + 1) hrest
    obtain ⟨text, data⟩ := e
    obtain rfl : text = _ := htext
    have hfound : ∃ u : Upload, Emptied kext u ∧ data = u.data := by
      rcases hdata with hdata | hdata
      · exact ⟨kext, Or.inl rfl, hdata⟩
      · exact ⟨⟨[], by norm_num⟩, Or.inr rfl, hdata⟩
    obtain ⟨u, hu, rfl⟩ := hfound
    refine ⟨u :: kexts', .cons hu hkexts', ?_⟩
    rw [requestsFrom, moduleRequest?_kextload, hrequests]
    rfl

/-- When everything has been delivered, the kernel extensions are loaded one after the other. -/
lemma requestsFrom_whole : requestsFrom allocators i
    ((kextSteps (kexts.map Upload.data) ++ [(Command.bootx, [])]).map whole) =
      (kextsFrom allocators i kexts).map HostRequest.request := by
  induction kexts generalizing i with
  | nil =>
    show (moduleRequest? allocators i (Command.bootx.text ++ [0], [])).toList ++ [] = []
    rw [moduleRequest?_bootx]
    rfl
  | cons kext kexts ih =>
    show (moduleRequest? allocators i (Command.kextload.text ++ [0], kext.data)).toList ++
      requestsFrom allocators (i + 1)
        ((kextSteps (kexts.map Upload.data) ++ [(Command.bootx, [])]).map whole) = _
    rw [moduleRequest?_kextload, ih]
    rfl

lemma behindModload_eq_nil (h : ∀ e ∈ handled, e.1 ≠ Command.modload.text ++ [0]) :
    behindModload kextloadModule handled = [] := by
  induction handled with
  | nil => rfl
  | cons e es ih =>
    have hne : e ≠ (Command.modload.text ++ [0], kextloadModule) := by
      rintro rfl
      exact h _ List.mem_cons_self rfl
    rw [behindModload, if_neg hne]
    exact ih fun e he => h e (List.mem_cons_of_mem _ he)

/-- Commands other than `modload` do not load the module. -/
lemma ne_modload_of_own {steps : List (Command × List UInt8)} (h : List.Forall₂ Own steps handled)
    (hsteps : ∀ step ∈ steps, step.1.text ++ [0] ≠ Command.modload.text ++ [0]) :
    ∀ e ∈ handled, e.1 ≠ Command.modload.text ++ [0] := by
  intro e he
  obtain ⟨step, hstep, hown⟩ := exists_of_forall₂ h.flip he
  rw [hown.1]
  exact hsteps step hstep

end Requests

section Load

variable {σ : Type} {d : UsbDevice σ} {answer : UsbAnswers} {allocators : Allocators}
  {kextloadModule : List UInt8} {blob : Upload} {kexts : List Upload}

/-- The transfers of a load operation. -/
def loadLog (answer : UsbAnswers) (kextloadModule : List UInt8) (blob : Upload) (kexts : List Upload) :
    UsbLog :=
  (pongoInstanceLoadKext answer ⟨some kextloadModule, some blob.data,
    (kexts.map Upload.data).map some⟩ []).2

/-- When every transfer succeeds, the module installs the symbols and loads the kernel extensions. -/
lemma moduleRequests_of_allSucceed (h : AllSucceed (loadLog answer kextloadModule blob kexts)) :
    moduleRequests d allocators kextloadModule (loadLog answer kextloadModule blob kexts) =
      loadRequests allocators blob kexts := by
  have htext : Command.xfb.text ++ [0] ≠ Command.modload.text ++ [0] := by decide
  have hmodload : ¬ whole (.xfb, []) = (Command.modload.text ++ [0], kextloadModule) :=
    fun heq => htext (congrArg Prod.fst heq)
  have hsteps : (loadSteps kextloadModule blob.data (kexts.map Upload.data)).map whole =
      whole (.xfb, []) :: (Command.modload.text ++ [0], kextloadModule) ::
        (Command.kernelcacheSymbols.text ++ [0], blob.data) ::
          (kextSteps (kexts.map Upload.data) ++ [(Command.bootx, [])]).map whole := by
    rw [loadSteps, List.append_assoc]
    rfl
  rw [moduleRequests, loadLog, handledCommands_eq h, hsteps, behindModload, if_neg hmodload,
    behindModload, if_pos rfl, requestsFrom, moduleRequest?_symbols, requestsFrom_whole]
  rfl

/-- When the host recovers, the module is not loaded, or it has the requests of the host, and
finds for each of them the upload of the host or nothing. -/
lemma moduleRequests_of_recovers (d : UsbDevice σ) (allocators : Allocators)
    (h : Recovers (loadLog answer kextloadModule blob kexts)) :
    moduleRequests d allocators kextloadModule (loadLog answer kextloadModule blob kexts) = [] ∨
      ∃ blob' kexts', Emptied blob blob' ∧ List.Forall₂ Emptied kexts kexts' ∧
        moduleRequests d allocators kextloadModule (loadLog answer kextloadModule blob kexts) =
          loadRequests allocators blob' kexts' := by
  have hown := own_handledCommands (d := d) h
  rw [moduleRequests]
  change List.Forall₂ Own _ (handledCommands d (loadLog answer kextloadModule blob kexts)) at hown
  generalize handledCommands d (loadLog answer kextloadModule blob kexts) = handled at hown ⊢
  rw [loadSteps, List.append_assoc] at hown
  obtain ⟨e₀, hs₁, ⟨htext₀, -⟩, hown₁, rfl⟩ := List.forall₂_cons_left_iff.1 hown
  obtain ⟨e₁, hs₂, -, hown₂, rfl⟩ := List.forall₂_cons_left_iff.1 hown₁
  have htext : Command.xfb.text ++ [0] ≠ Command.modload.text ++ [0] := by decide
  have hmodload : ¬ e₀ = (Command.modload.text ++ [0], kextloadModule) := by
    rintro rfl
    exact htext htext₀.symm
  rw [behindModload, if_neg hmodload, behindModload]
  by_cases he₁ : e₁ = (Command.modload.text ++ [0], kextloadModule)
  · -- the module has been loaded
    right
    rw [if_pos he₁]
    obtain ⟨⟨text, data⟩, hs₃, ⟨htext₂, hdata₂⟩, hown₃, rfl⟩ := List.forall₂_cons_left_iff.1 hown₂
    obtain rfl : text = _ := htext₂
    have hfound : ∃ u : Upload, Emptied blob u ∧ data = u.data := by
      rcases hdata₂ with hdata | hdata
      · exact ⟨blob, Or.inl rfl, hdata⟩
      · exact ⟨⟨[], by norm_num⟩, Or.inr rfl, hdata⟩
    obtain ⟨u, hu, rfl⟩ := hfound
    obtain ⟨kexts', hkexts', hrequests⟩ := requestsFrom_of_own allocators 1 hown₃
    refine ⟨u, kexts', hu, hkexts', ?_⟩
    rw [requestsFrom, moduleRequest?_symbols, hrequests]
    rfl
  · left
    rw [if_neg he₁, behindModload_eq_nil (ne_modload_of_own hown₂ ?_)]
    · rfl
    · have hsymbols : Command.kernelcacheSymbols.text ++ [0] ≠ Command.modload.text ++ [0] := by decide
      have hkextload : Command.kextload.text ++ [0] ≠ Command.modload.text ++ [0] := by decide
      have hbootx : Command.bootx.text ++ [0] ≠ Command.modload.text ++ [0] := by decide
      rintro step (_ | ⟨_, hstep⟩)
      · exact hsymbols
      · have hrest : step ∈ kextSteps (kexts.map Upload.data) ++ [(Command.bootx, [])] := hstep
        rcases List.mem_append.1 hrest with hstep | hstep
        · obtain ⟨kext, -, rfl⟩ := List.mem_map.1 hstep
          exact hkextload
        · rw [List.mem_singleton.1 hstep]
          exact hbootx

end Load

/-! ## What the host loads -/

/-- The memory that is given to different commands is different. -/
def Allocators.Separate (allocators : Allocators) : Prop :=
  ∀ i j, i ≠ j → ∀ n a n' a', allocators.allocStatic i n = some a →
    allocators.allocStatic j n' = some a' → Apart a n a' n'

section Admissible

variable {os : Pongo} {room start stop i : ℕ} {m₀ : Mem} {allocators : Allocators} {u u' : Upload}
  {command : ModuleCommand} {kexts kexts' : List Upload}

/-- An upload that is missing does no harm. -/
lemma admissible_emptied (h : ModuleRequest.Admissible os room start stop m₀ ⟨u, command⟩)
    (hu : Emptied u u') : ModuleRequest.Admissible os room start stop m₀ ⟨u', command⟩ := by
  rcases hu with rfl | hnil
  · exact h
  have hread (n : ℕ) : Bytes.readLE u'.data 0 4 ≠ some n := by
    rw [hnil]
    simp [Bytes.readLE, Bytes.window]
  refine ⟨?_, fun malloc _ => ⟨?_, ?_⟩, h.grants, ?_⟩
  · show u'.data.length ≤ room
    rw [hnil]
    exact Nat.zero_le _
  · rintro ⟨n, _, _, _, _, hn, _⟩
    exact hread n hn
  · rintro ⟨_, ⟨n, _, _, _, hn, _⟩, _⟩
    exact hread n hn
  · intro allocStatic chain buf info info' _ hparse
    exfalso
    have hsize : (ModuleRequest.file ⟨u', command⟩).size = 0 := by
      show u'.data.length = 0
      rw [hnil]
      rfl
    have hget : (ModuleRequest.file ⟨u', command⟩).get 0 4 = .error .fault := by
      rw [Buffer.get, if_neg (by rw [hsize]; decide)]
    rw [kextParse, hget] at hparse
    cases hparse

/-- The requests of the kernel extensions are admissible, because each of them is. -/
lemma admissible_kextsFrom (hkexts : ∀ j kext, kexts[j]? = some kext →
      ModuleRequest.Admissible os room start stop m₀
        ⟨kext, .kextload (allocators.allocStatic (i + j))⟩) :
    ∀ h ∈ kextsFrom allocators i kexts, h.Admissible os room start stop m₀ := by
  induction kexts generalizing i with
  | nil => exact fun h hh => by cases hh
  | cons kext kexts ih =>
    rintro h (_ | ⟨_, hh⟩)
    · exact hkexts 0 kext rfl
    · refine ih (fun j kext' hj => ?_) h hh
      rw [Nat.add_assoc, Nat.add_comm 1]
      exact hkexts (j + 1) kext' hj

/-- They are given memory by different answers of the allocator. -/
lemma mem_kextsFrom {h : HostRequest} (hh : h ∈ kextsFrom allocators i kexts) :
    ∃ j kext, i ≤ j ∧ kext ∈ kexts ∧ h = .kext kext (allocators.allocStatic j) := by
  induction kexts generalizing i with
  | nil => cases hh
  | cons kext kexts ih =>
    rcases List.mem_cons.1 hh with rfl | hh
    · exact ⟨i, kext, le_rfl, List.mem_cons_self, rfl⟩
    · obtain ⟨j, kext', hij, hkext', rfl⟩ := ih hh
      exact ⟨j, kext', by omega, List.mem_cons_of_mem _ hkext', rfl⟩

lemma grantsApart_kextsFrom (h : allocators.Separate) :
    ((kextsFrom allocators i kexts).map HostRequest.request).Pairwise ModuleRequest.GrantsApart := by
  induction kexts generalizing i with
  | nil => exact .nil
  | cons kext kexts ih =>
    refine List.pairwise_cons.2 ⟨fun r hr => ?_, ih⟩
    obtain ⟨h', hh', rfl⟩ := List.mem_map.1 hr
    obtain ⟨j, kext', hij, -, rfl⟩ := mem_kextsFrom hh'
    rintro n a n' a' ⟨_, hcommand, hgrant⟩ ⟨_, hcommand', hgrant'⟩
    obtain rfl := ModuleCommand.kextload.inj hcommand
    obtain rfl := ModuleCommand.kextload.inj hcommand'
    exact h i j (by omega) n a n' a' hgrant hgrant'

/-- The symbols are given no memory by `alloc_static`. -/
lemma grantsApart_symbols {malloc : ℕ → Bool} {rs : List ModuleRequest}
    (h : rs.Pairwise ModuleRequest.GrantsApart) :
    (⟨u, .kernelcacheSymbols malloc⟩ :: rs).Pairwise ModuleRequest.GrantsApart := by
  refine List.pairwise_cons.2 ⟨fun r _ => ?_, h⟩
  rintro n a n' a' ⟨_, hcommand, _⟩
  cases hcommand

lemma countP_kextsFrom : ((kextsFrom allocators i kexts).map HostRequest.request).countP
    (fun r => r.command.isKextload) = kexts.length := by
  induction kexts generalizing i with
  | nil => rfl
  | cons kext kexts ih =>
    rw [kextsFrom, List.map_cons, List.countP_cons, ih]
    rfl

lemma admissible_loadRequests
    (hblob : ModuleRequest.Admissible os room start stop m₀
      ⟨u, .kernelcacheSymbols (allocators.malloc 0)⟩)
    (hkexts : ∀ j kext, kexts[j]? = some kext →
      ModuleRequest.Admissible os room start stop m₀
        ⟨kext, .kextload (allocators.allocStatic (1 + j))⟩) :
    ∀ r ∈ loadRequests allocators u kexts, r.Admissible os room start stop m₀ := by
  rintro r (_ | ⟨_, hr⟩)
  · exact hblob
  · obtain ⟨h, hh, rfl⟩ := List.mem_map.1 hr
    exact (admissible_kextsFrom hkexts h hh).request

/-- Kernel extensions have no symbols. -/
lemma symbolsAfter_symbols_kexts {uuid : Uuid} {files : List ParsedFile} {hs : List HostRequest}
    (h : ∀ r ∈ hs, ∃ file allocStatic, r = .kext file allocStatic) :
    HostRequest.symbolsAfter uuid (.symbols files u :: hs) = symbolsFor uuid files := by
  rw [HostRequest.symbolsAfter, List.reverse_cons, List.flatMap_append, List.flatMap_singleton]
  have hnil : hs.reverse.flatMap (HostRequest.symbolsOf uuid) = [] := by
    refine List.flatMap_eq_nil_iff.2 fun r hr => ?_
    obtain ⟨file, allocStatic, rfl⟩ := h r (List.mem_reverse.1 hr)
    rfl
  rw [hnil]
  rfl

lemma grantsApart_loadRequests (h : allocators.Separate) :
    (loadRequests allocators u kexts).Pairwise ModuleRequest.GrantsApart :=
  grantsApart_symbols (grantsApart_kextsFrom h)

lemma length_kexts_loadRequests (uuid : Uuid) (header : ℕ) :
    (AbstractModule.run uuid header (loadRequests allocators u kexts)).kexts.length ≤
      kexts.length := by
  have hle : (AbstractModule.run uuid header (loadRequests allocators u kexts)).kexts.length ≤ _ :=
    AbstractModule.length_kexts_run_le
  rw [loadRequests, List.countP_cons, countP_kextsFrom] at hle
  exact hle

end Admissible

/-! ## The files that are loaded -/

section Files

variable {uuid : Uuid} {header i : ℕ} {rs : List ModuleRequest} {allocators : Allocators} {u : Upload}
  {kexts kexts' : List Upload}

/-- A request that can load a file. -/
def ModuleRequest.isFile (r : ModuleRequest) : Bool := r.command.isKextload && !r.upload.data.isEmpty

/-- The files that are loaded are among those that are uploaded, in their order. -/
lemma files_kexts_run : List.Sublist ((AbstractModule.run uuid header rs).kexts.map LoadedKext.file)
    ((rs.filter ModuleRequest.isFile).map fun r => patchedUpload r.file) := by
  induction rs using List.reverseRecOn with
  | nil => exact List.Sublist.refl []
  | append_singleton rs r ih =>
    rw [AbstractModule.run_append_singleton, List.filter_append, List.map_append]
    cases hcommand : r.command with
    | kernelcacheSymbols malloc =>
      rw [AbstractModule.step_kernelcacheSymbols hcommand]
      exact ih.trans (List.sublist_append_left _ _)
    | kextload allocStatic =>
      rw [AbstractModule.step_kextload hcommand, List.map_append]
      refine ih.append ?_
      cases hload : loadKext (AbstractModule.run uuid header rs).tables header r.file allocStatic with
      | none => exact List.nil_sublist _
      | some l =>
        obtain ⟨hsmall, -, info, hparse, -⟩ := loadKext_eq_some hload
        have hsize : ¬ r.upload.data.length < 0x4000 := hsmall
        have hne : r.upload.data.isEmpty = false := by
          rw [List.isEmpty_eq_false_iff]
          rintro hnil
          rw [hnil] at hsize
          exact hsize (by decide)
        have hfile : r.isFile = true := by
          rw [ModuleRequest.isFile, hcommand, hne]
          rfl
        rw [List.filter_singleton, hfile, Option.toList_some, List.map_singleton,
          kextParse_patched hparse]
        exact List.Sublist.refl _

/-- What is uploaded is what the host has sent, or nothing. -/
lemma files_kextsFrom (h : List.Forall₂ Emptied kexts kexts') : List.Sublist
    ((((kextsFrom allocators i kexts').map HostRequest.request).filter ModuleRequest.isFile).map
      fun r => patchedUpload r.file)
      (kexts.map fun kext => patchedUpload (Buffer.ofBytes kext.data)) := by
  induction h generalizing i with
  | nil => exact List.Sublist.refl []
  | @cons kext kext' kexts kexts' hempty _ ih =>
    rw [kextsFrom, List.map_cons, List.filter_cons, List.map_cons]
    split_ifs with hfile
    · rcases hempty with rfl | hnil
      · exact (ih (i := i + 1)).cons_cons _
      · simp [ModuleRequest.isFile, HostRequest.request, hnil] at hfile
    · exact (ih (i := i + 1)).cons _

lemma files_loadRequests (h : List.Forall₂ Emptied kexts kexts') : List.Sublist
    ((AbstractModule.run uuid header (loadRequests allocators u kexts')).kexts.map LoadedKext.file)
    (kexts.map fun kext => patchedUpload (Buffer.ofBytes kext.data)) :=
  files_kexts_run.trans (files_kextsFrom h)

end Files

/-- What the module is for when it gets these requests. -/
def Pongo.abstract (os : Pongo) (m₀ : Mem) (rs : List ModuleRequest) : AbstractModule :=
  .run (SymbolState.initial.uuidFor (os.kernel m₀)) os.loaderXferRecvData rs

section Loading

variable {σ : Type} {d : UsbDevice σ} {answer : UsbAnswers} {os : Pongo} {room start stop : ℕ}
  {c : List UInt8} {m₀ : Mem} {allocators : Allocators} {kextloadModule : List UInt8} {blob : Upload}
  {kexts : List Upload} {files : List ParsedFile}

/-- When every transfer succeeds, the module handles the symbols and then the kernel extensions, in
order, and the load operation links the kernel extensions to the symbol files. -/
theorem loadKext_linkedToSymbols (hsep : os.Separate room start stop m₀)
    (hallocators : allocators.Separate) (hmalloc : ∀ n, allocators.malloc 0 n = true)
    (hfiles : Generated files blob.data) (hfits : blob.data.length ≤ room)
    (hkexts : ∀ i kext, kexts[i]? = some kext → ModuleRequest.Admissible os room start stop m₀
      ⟨kext, .kextload (allocators.allocStatic (1 + i))⟩)
    (hinit : PrelinkInitial os.layout os.prelinkInfoSection start stop kexts.length c ⟨m₀, 0⟩)
    (hcount : kexts.length ≤ 65536) (h : AllSucceed (loadLog answer kextloadModule blob kexts)) :
    ∃ s a, moduleRequests d allocators kextloadModule (loadLog answer kextloadModule blob kexts) =
        loadRequests allocators blob kexts ∧
      runModule os (.initial m₀)
        (moduleRequests d allocators kextloadModule
          (loadLog answer kextloadModule blob kexts)) = some s ∧
      os.abstract m₀ (moduleRequests d allocators kextloadModule
        (loadLog answer kextloadModule blob kexts)) = a ∧
      List.Sublist (a.kexts.map LoadedKext.file)
        (kexts.map fun kext => patchedUpload (Buffer.ofBytes kext.data)) ∧
      ∀ l ∈ a.kexts, l.info.vmBase = 0 → SlotsDisjoint l.file.byte l.dp → LinkedToSymbols os.layout
        (symbolsFor (SymbolState.initial.uuidFor (os.kernel m₀)) files) l m₀ s.mem := by
  have hrequests : loadRequests allocators blob kexts =
      (HostRequest.symbols files blob :: kextsFrom allocators 1 kexts).map HostRequest.request := by
    rw [loadRequests, List.map_cons, show allocators.malloc 0 = fun _ => true from funext hmalloc]
    rfl
  have hadmissible : ∀ h ∈ HostRequest.symbols files blob :: kextsFrom allocators 1 kexts,
      h.Admissible os room start stop m₀ := by
    rintro h (_ | ⟨_, hh⟩)
    · exact ⟨hfiles, hfits⟩
    · exact admissible_kextsFrom hkexts h hh
  have hgrants : (loadRequests allocators blob kexts).Pairwise ModuleRequest.GrantsApart :=
    grantsApart_loadRequests hallocators
  have hlength : (os.abstract m₀ (loadRequests allocators blob kexts)).kexts.length ≤ kexts.length :=
    length_kexts_loadRequests _ _
  have hsublist : List.Sublist
      ((os.abstract m₀ (loadRequests allocators blob kexts)).kexts.map LoadedKext.file)
      (kexts.map fun kext => patchedUpload (Buffer.ofBytes kext.data)) :=
    files_loadRequests (List.forall₂_same.2 fun _ _ => Or.inl rfl)
  rw [moduleRequests_of_allSucceed h]
  rw [hrequests] at hgrants hlength hsublist ⊢
  obtain ⟨s, hrun, hsim⟩ := runModule_simulates hsep (admissible_requests hadmissible) hgrants hinit
    hlength hcount
  refine ⟨s, _, rfl, hrun, rfl, hsublist, fun l hl => ?_⟩
  obtain ⟨before, file, allocStatic, after, hsplit, -, hlinked⟩ :=
    linked_of_simulates hadmissible hsim hl
  -- the symbols come first, and all that follows is a kernel extension
  rcases before with _ | ⟨_, before⟩
  · cases (List.cons.inj hsplit).1
  obtain ⟨rfl, hafter⟩ := List.cons.inj hsplit
  have hsymbols : HostRequest.symbolsAfter (SymbolState.initial.uuidFor (os.kernel m₀))
      (.symbols files blob :: before) =
        symbolsFor (SymbolState.initial.uuidFor (os.kernel m₀)) files := by
    refine symbolsAfter_symbols_kexts fun h hh => ?_
    have hmem : h ∈ kextsFrom allocators 1 kexts := by
      rw [hafter]
      exact List.mem_append_left _ hh
    obtain ⟨_, kext, -, -, rfl⟩ := mem_kextsFrom hmem
    exact ⟨_, _, rfl⟩
  rwa [hsymbols] at hlinked

/-- Whatever transfers fail, as long as the host recovers, the module is left in the state that the
commands are for which it has handled, and has loaded nothing but kernel extensions of the host. -/
theorem loadKext_represents (hsep : os.Separate room start stop m₀) (hallocators : allocators.Separate)
    (hblob : ModuleRequest.Admissible os room start stop m₀
      ⟨blob, .kernelcacheSymbols (allocators.malloc 0)⟩)
    (hkexts : ∀ i kext, kexts[i]? = some kext → ModuleRequest.Admissible os room start stop m₀
      ⟨kext, .kextload (allocators.allocStatic (1 + i))⟩)
    (hinit : PrelinkInitial os.layout os.prelinkInfoSection start stop kexts.length c ⟨m₀, 0⟩)
    (hcount : kexts.length ≤ 65536) (h : Recovers (loadLog answer kextloadModule blob kexts)) :
    ∃ s a, runModule os (.initial m₀)
        (moduleRequests d allocators kextloadModule
          (loadLog answer kextloadModule blob kexts)) = some s ∧
      os.abstract m₀ (moduleRequests d allocators kextloadModule
        (loadLog answer kextloadModule blob kexts)) = a ∧
      Represents os room start stop c m₀ a s ∧
      List.Sublist (a.kexts.map LoadedKext.file)
        (kexts.map fun kext => patchedUpload (Buffer.ofBytes kext.data)) := by
  rcases moduleRequests_of_recovers d allocators h with
    hnil | ⟨blob', kexts', hblob', hkexts', hrequests⟩
  · -- the module has not been loaded
    rw [hnil]
    have hnone : ∀ r ∈ ([] : List ModuleRequest), r.Admissible os room start stop m₀ :=
      fun r hr => by cases hr
    obtain ⟨s, hrun, hsim⟩ := runModule_simulates hsep hnone .nil hinit (Nat.zero_le _) hcount
    exact ⟨s, _, hrun, rfl, hsim.represents (Nat.zero_le _), List.nil_sublist _⟩
  · rw [hrequests]
    have hlength : (os.abstract m₀ (loadRequests allocators blob' kexts')).kexts.length ≤
        kexts.length := by
      rw [hkexts'.length_eq]
      exact length_kexts_loadRequests _ _
    have hadmissible : ∀ i kext', kexts'[i]? = some kext' → ModuleRequest.Admissible os room start stop
        m₀ ⟨kext', .kextload (allocators.allocStatic (1 + i))⟩ := by
      intro i kext' hi
      obtain ⟨hlt', rfl⟩ := List.getElem?_eq_some_iff.1 hi
      have hlt : i < kexts.length := hkexts'.length_eq ▸ hlt'
      exact admissible_emptied (hkexts i kexts[i] (List.getElem?_eq_getElem hlt))
        (hkexts'.get hlt hlt')
    obtain ⟨s, hrun, hsim⟩ := runModule_simulates hsep (admissible_loadRequests
      (admissible_emptied hblob hblob') hadmissible) (grantsApart_loadRequests hallocators)
      hinit hlength hcount
    exact ⟨s, _, hrun, rfl, hsim.represents (hlength.trans hcount), files_loadRequests hkexts'⟩

end Loading

/-! ## A small load operation -/

/-- A device that keeps nothing but the buffer, in which a failed write leaves a byte. -/
def smallDevice : UsbDevice UsbBuffer where
  initial := ⟨[], []⟩
  see s
    | (.writePipe data, true) => { s with received := data }
    | (.writePipe _, false) => { s with received := [0xff] }
    | (.deviceRequest _ bRequest _ _ pData, true) =>
      if bRequest = 0x3 then ⟨[], s.handled ++ [(pData, s.received)]⟩ else { s with received := [] }
    | (.deviceRequest _ _ _ _ _, false) => s
  buffer := id
  buffer_initial := rfl
  buffer_failed _ _ _ := rfl
  buffer_write _ _ _ := rfl
  handled_write _ _ := rfl
  buffer_init _ := rfl
  buffer_discard _ := rfl
  handled_command _ _ := rfl
  received_command _ _ _ := rfl

/-- Memory for the first kernel extension. -/
def smallAllocators : Allocators where
  malloc _ _ := true
  allocStatic
    | 1 => smallAlloc
    | _ => fun _ => none

lemma allocStatic_smallAllocators {i n a : ℕ}
    (h : smallAllocators.allocStatic i n = some a) : i = 1 := by
  match i, h with
  | 1, _ => rfl
  | 0, h => cases h
  | _ + 2, h => cases h

lemma separate_smallAllocators : smallAllocators.Separate := by
  intro i j hij n a n' a' h h'
  exact absurd ((allocStatic_smallAllocators h).trans (allocStatic_smallAllocators h').symm) hij

lemma admissible_smallKexts (i : ℕ) (kext : Upload) (h : [smallKext][i]? = some kext) :
    ModuleRequest.Admissible smallOs 0x4000 0x4000000 0x4001000 smallMemory
      ⟨kext, .kextload (smallAllocators.allocStatic (1 + i))⟩ := by
  obtain ⟨hlt, rfl⟩ := List.getElem?_eq_some_iff.1 h
  obtain rfl : i = 0 := Nat.lt_one_iff.1 hlt
  exact admissible_smallKext

lemma prelinkInitial_smallMemory : PrelinkInitial smallOs.layout smallOs.prelinkInfoSection 0x4000000
    0x4001000 1 (ascii "<array>") ⟨smallMemory, 0⟩ := by
  have hlenText : (ascii "<array>").length = 7 := by decide +kernel
  have hlenStr := length_prelinkInfoStr
  have hlenEnd := length_prelinkInfoEnd
  exact prelinkInitial_sectionMemory (by decide +kernel) (by omega) (by omega) (by decide) (by omega)
    (by omega)

/-- Every transfer succeeds. -/
lemma allSucceed_small (kextloadModule : List UInt8) (blob kext : Upload) :
    AllSucceed (loadLog (fun _ => some 0) kextloadModule blob [kext]) := by
  have hlog : (loadLog (fun _ => some 0) kextloadModule blob [kext]).map Prod.snd =
      List.replicate 11 true := rfl
  intro e he
  have hmem := List.mem_map_of_mem (f := Prod.snd) he
  rw [hlog] at hmem
  exact List.eq_of_mem_replicate hmem

theorem loadKext_linkedToSymbols_small : ∃ s, runModule smallOs (.initial smallMemory)
      (moduleRequests smallDevice smallAllocators [0x7f]
        (loadLog (fun _ => some 0) [0x7f] smallSymbols [smallKext])) = some s ∧
      LinkedToSymbols smallOs.layout [(ascii "_f", 0xfffffff007100000)] ⟨smallChain,
        smallUpload 0 0x1000 0x800 0x900, { smallInfo 0 0x1000 with kext := 0x2000000 }⟩ smallMemory
        s.mem := by
  have hall := allSucceed_small [0x7f] smallSymbols smallKext
  obtain ⟨s, a, -, hs, ha, -, hlinked⟩ := loadKext_linkedToSymbols (d := smallDevice) separate_smallOs
    separate_smallAllocators (fun _ => rfl) generated_smallSymbols (by decide) admissible_smallKexts
    prelinkInitial_smallMemory (by decide) hall
  rw [moduleRequests_of_allSucceed hall] at ha
  have hrun : smallOs.abstract smallMemory smallRequests = a := ha
  rw [Pongo.abstract, run_smallRequests] at hrun
  have hsymbols : symbolsFor (SymbolState.initial.uuidFor (smallOs.kernel smallMemory))
      (parsedFiles smallDirectory) = [(ascii "_f", 0xfffffff007100000)] := by
    rw [kernel_smallMemory, uuidFor_blankKernel, parsedFiles_smallDirectory]
    decide +kernel
  rw [← hrun, hsymbols] at hlinked
  exact ⟨s, hs, hlinked _ (List.mem_singleton.2 rfl) rfl (by decide +kernel)⟩

/-- The upload of the symbols fails. -/
def smallFailure : UsbAnswers := fun n => if n = 5 then none else some 0

/-- The host discards what is left of it, and goes on. -/
lemma recovers_small (kextloadModule : List UInt8) (blob kext : Upload) :
    Recovers (loadLog smallFailure kextloadModule blob [kext]) := by
  have hlog : loadLog smallFailure kextloadModule blob [kext] =
      [(Command.xfb.request, true), (.deviceRequest 0x21 0x1 0 0 [], true),
        (.writePipe kextloadModule, true), (Command.modload.request, true),
        (.deviceRequest 0x21 0x1 0 0 [], true), (.writePipe blob.data, false),
        (.deviceRequest 0x21 0x2 0 0 [], true), (Command.kernelcacheSymbols.request, true),
        (.deviceRequest 0x21 0x1 0 0 [], true), (.writePipe kext.data, true),
        (Command.kextload.request, true), (Command.bootx.request, true)] := rfl
  rw [hlog]
  refine ⟨fun c ok hc => ?_, fun ok hok => ?_⟩
  · cases ok with
    | true => rfl
    | false => simp [Command.request] at hc
  · cases ok with
    | true => rfl
    | false => simp [Command.request] at hok

theorem loadKext_represents_small : ∃ s a, runModule smallOs (.initial smallMemory)
      (moduleRequests smallDevice smallAllocators [0x7f]
        (loadLog smallFailure [0x7f] smallSymbols [smallKext])) = some s ∧
      smallOs.abstract smallMemory (moduleRequests smallDevice smallAllocators [0x7f]
        (loadLog smallFailure [0x7f] smallSymbols [smallKext])) = a ∧
      Represents smallOs 0x4000 0x4000000 0x4001000 (ascii "<array>") smallMemory a s ∧
      List.Sublist (a.kexts.map LoadedKext.file)
        ([smallKext].map fun kext => patchedUpload (Buffer.ofBytes kext.data)) :=
  loadKext_represents separate_smallOs separate_smallAllocators admissible_smallSymbols
    admissible_smallKexts prelinkInitial_smallMemory (by decide)
    (recovers_small [0x7f] smallSymbols smallKext)

end VulnerableKext.System

import VulnerableKext.Host.PongoUsb

/-!
# Device instances and their references

The program keeps a list of the pongoOS devices that it has opened.  `IOIteratorNext` hands
its caller one reference on the object that it returns, and `IOObjectRelease` drops one; the
references that the program holds are counted for every object.  A count below zero says that
more references have been dropped than were handed out.

The calls that `pongo_usb_open` makes can fail at any step.  Their answers are inputs.
-/

namespace VulnerableKext.Host

/-- An `io_object_t` other than `IO_OBJECT_NULL`. -/
structure IoObject where
  name : ℕ
  ne_null : name ≠ 0
deriving DecidableEq

/-- The references that the program holds on each object. -/
abbrev Refs : Type := IoObject → ℤ

/-- The reference that comes with an object, from `IOIteratorNext` or with a new iterator. -/
def handOut (refs : Refs) (o : IoObject) : Refs := refs + Pi.single o 1

def ioObjectRelease (refs : Refs) (o : IoObject) : Refs := refs - Pi.single o 1

/-! ## Opening a device -/

/-- The answers to the calls of `pongo_usb_open`.  The calls in its two loops are answered for
each try; `CreateInterfaceIterator` gives an iterator with its first interface, if any. -/
structure OpenAnswers where
  createDevicePlugIn : Bool
  queryDevice : Bool
  deviceOpen : ℕ → Bool
  interfaceIterator : ℕ → Option (IoObject × Option IoObject)
  createInterfacePlugIn : Bool
  queryInterface : Bool
  interfaceOpen : Bool
  getNumEndpoints : Bool
  createAsyncPort : Bool
  insertMember : Bool

/-- The maximum number of tries to open. -/
def PONGO_USB_OPEN_MAX_TRIES : ℕ := 5

/-- Open the device.  This may take multiple tries. -/
def tryDeviceOpen (answers : OpenAnswers) : (left try' : ℕ) → Bool
  | 0, try' => answers.deviceOpen try'
  | left + 1, try' => answers.deviceOpen try' || tryDeviceOpen answers left (try' + 1)

/-- Try to find the interface.  This may take multiple tries. -/
def findInterface (answers : OpenAnswers) (left try' : ℕ) (refs : Refs) :
    Option IoObject × Refs :=
  match answers.interfaceIterator try' with
  | none => (none, refs)
  | some (interfaces, first) =>
    let refs := handOut refs interfaces
    -- Grab the first interface match.
    match first, left with
    | some interfaceService, _ =>
      (some interfaceService, ioObjectRelease (handOut refs interfaceService) interfaces)
    | none, 0 => (none, ioObjectRelease refs interfaces)
    | none, left + 1 => findInterface answers left (try' + 1) (ioObjectRelease refs interfaces)

/-- The fields `device` and `interface` are not null once the device is open. -/
structure PongoUsbDevice where
  service : IoObject
deriving DecidableEq

/-- Open the pongoOS USB device.  The result `none` is `PONGO_USB_NULL`. -/
def pongoUsbOpen (answers : OpenAnswers) (service : IoObject) (refs : Refs) :
    Option PongoUsbDevice × Refs :=
  if !answers.createDevicePlugIn || !answers.queryDevice then (none, refs)
  else if !tryDeviceOpen answers PONGO_USB_OPEN_MAX_TRIES 0 then (none, refs)
  else
    match findInterface answers PONGO_USB_OPEN_MAX_TRIES 0 refs with
    | (none, refs) => (none, refs)
    | (some interfaceService, refs) =>
      let refs := ioObjectRelease refs interfaceService
      if !answers.createInterfacePlugIn || !answers.queryInterface then (none, refs)
      else if !answers.interfaceOpen || !answers.getNumEndpoints then (none, refs)
      else if !answers.createAsyncPort || !answers.insertMember then (none, refs)
      -- The service is stored without a reference of its own.
      else (some ⟨service⟩, refs)

/-- Close the device returned by pongo_usb_open(). -/
def pongoUsbClose (pongo : PongoUsbDevice) (refs : Refs) : Refs :=
  ioObjectRelease refs pongo.service

/-- Checks whether the specified IOService corresponds to the pongoOS USB device. -/
def pongoUsbMatchesService (pongo : PongoUsbDevice) (service : IoObject) : Bool :=
  pongo.service == service

/-! ## The list of instances -/

/-- State for a currently tracked pongoOS device. -/
structure PongoInstance where
  device : PongoUsbDevice
deriving DecidableEq

/-- State for the pongoOS kext loading subsystem, with the references that are held and the
transfers that have been made to the devices. -/
structure LoaderState where
  instances : List PongoInstance
  refs : Refs
  sent : List (IoObject × UsbLog)

namespace LoaderState

def initial : LoaderState := ⟨[], 0, []⟩

/-- The services in the list. -/
def services (st : LoaderState) : List IoObject := st.instances.map (·.device.service)

end LoaderState

/-- Create a pongo_instance to keep track of a pongoOS device on which we will operate. -/
def pongoInstanceCreate (st : LoaderState) (service : IoObject) (answers : OpenAnswers) :
    LoaderState × Option PongoInstance :=
  match pongoUsbOpen answers service st.refs with
  | (none, refs) => ({ st with refs }, none)
  | (some device, refs) =>
    ({ st with refs, instances := ⟨device⟩ :: st.instances }, some ⟨device⟩)

/-- Find the matching instance in the linked list, and unlink it. -/
def unlinkInstance (service : IoObject) :
    List PongoInstance → Option (PongoInstance × List PongoInstance)
  | [] => none
  | inst :: next =>
    if pongoUsbMatchesService inst.device service then some (inst, next)
    else (unlinkInstance service next).map fun (found, next) => (found, inst :: next)

/-- Destroy a pongo_instance and clean up state once the pongoOS device goes away. -/
def pongoInstanceDestroy (st : LoaderState) (service : IoObject) : LoaderState :=
  match unlinkInstance service st.instances with
  | none => st
  | some (inst, instances) =>
    { st with instances, refs := pongoUsbClose inst.device st.refs }

/-- A service from the iterator of added devices, with the answers of the calls that are made for
it. -/
structure AddedDevice where
  service : IoObject
  openAnswers : OpenAnswers
  usbAnswers : UsbAnswers

/-- Open a pongoOS device and load the kernel extensions.  Nothing depends on the result. -/
def addDevice (files : LoadFiles) (st : LoaderState) (d : AddedDevice) : LoaderState :=
  match pongoInstanceCreate { st with refs := handOut st.refs d.service } d.service
      d.openAnswers with
  | (st, none) => { st with refs := ioObjectRelease st.refs d.service }
  | (st, some inst) =>
    let log := (pongoInstanceLoadKext d.usbAnswers files []).2
    { st with
      refs := ioObjectRelease st.refs d.service
      sent := st.sent ++ [(inst.device.service, log)] }

/-- A pongoOS device was added. Do the kext load operation. -/
def pongoDeviceAdded (files : LoadFiles) (st : LoaderState) (iterator : List AddedDevice) :
    LoaderState :=
  iterator.foldl (addDevice files) st

def removeDevice (st : LoaderState) (service : IoObject) : LoaderState :=
  let st := pongoInstanceDestroy { st with refs := handOut st.refs service } service
  { st with refs := ioObjectRelease st.refs service }

/-- A pongoOS device was removed. -/
def pongoDeviceRemoved (st : LoaderState) (iterator : List IoObject) : LoaderState :=
  iterator.foldl removeDevice st

/-- A notification with what its iterator delivers. -/
inductive Notification
  | added (iterator : List AddedDevice)
  | removed (iterator : List IoObject)

def handleNotification (files : LoadFiles) (st : LoaderState) : Notification → LoaderState
  | .added iterator => pongoDeviceAdded files st iterator
  | .removed iterator => pongoDeviceRemoved st iterator

/-- The state after a sequence of notifications. -/
def runLoader (files : LoadFiles) (ns : List Notification) : LoaderState :=
  ns.foldl (handleNotification files) .initial

/-! ## What one device does -/

variable {files : LoadFiles} {st : LoaderState} {d : AddedDevice} {service : IoObject}
  {n : Notification} {ns : List Notification} {instances : List PongoInstance}

/-- The iterator is released, and the interface that is found comes with a reference. -/
lemma findInterface_eq (answers : OpenAnswers) (left try' : ℕ) :
    ∃ o, ∀ refs, findInterface answers left try' refs = (o, o.elim refs (handOut refs)) := by
  induction left generalizing try' with
  | zero =>
    rcases h : answers.interfaceIterator try' with _ | ⟨interfaces, _ | interfaceService⟩
    · exact ⟨none, fun refs => by rw [findInterface, h, Option.elim_none]⟩
    · refine ⟨none, fun refs => ?_⟩
      rw [findInterface, h, Option.elim_none]
      exact Prod.ext rfl (add_sub_cancel_right _ _)
    · refine ⟨some interfaceService, fun refs => ?_⟩
      rw [findInterface, h, Option.elim_some]
      exact Prod.ext rfl (by simp only [ioObjectRelease, handOut]; abel)
  | succ left ih =>
    rcases h : answers.interfaceIterator try' with _ | ⟨interfaces, _ | interfaceService⟩
    · exact ⟨none, fun refs => by rw [findInterface, h, Option.elim_none]⟩
    · obtain ⟨o, ho⟩ := ih (try' + 1)
      refine ⟨o, fun refs => ?_⟩
      rw [findInterface, h]
      simp only [ho, ioObjectRelease, handOut, add_sub_cancel_right]
    · refine ⟨some interfaceService, fun refs => ?_⟩
      rw [findInterface, h, Option.elim_some]
      exact Prod.ext rfl (by simp only [ioObjectRelease, handOut]; abel)

/-- Opening a device leaves the references as they are, on success and on every failure. -/
lemma pongoUsbOpen_eq (answers : OpenAnswers) (service : IoObject) :
    ∃ o : Option PongoUsbDevice, (∀ device ∈ o, device.service = service) ∧
      ∀ refs, pongoUsbOpen answers service refs = (o, refs) := by
  obtain ⟨o, ho⟩ := findInterface_eq answers PONGO_USB_OPEN_MAX_TRIES 0
  have hrefs : ∀ (refs : Refs) (s : IoObject), ioObjectRelease (handOut refs s) s = refs :=
    fun refs s => add_sub_cancel_right _ _
  -- what is opened does not depend on the references, so the cases are split before they vary
  cases o with
  | none =>
    refine ⟨none, by simp, fun refs => ?_⟩
    rw [pongoUsbOpen, ho]
    split_ifs <;> rfl
  | some interfaceService =>
    simp only [pongoUsbOpen, ho, Option.elim_some, hrefs]
    split_ifs
    · exact ⟨none, by simp, fun _ => rfl⟩
    · exact ⟨none, by simp, fun _ => rfl⟩
    · exact ⟨none, by simp, fun _ => rfl⟩
    · exact ⟨none, by simp, fun _ => rfl⟩
    · exact ⟨none, by simp, fun _ => rfl⟩
    · exact ⟨some ⟨service⟩, by simp, fun _ => rfl⟩

/-- `pongo_usb_open` succeeds for the device. -/
def AddedDevice.Opens (d : AddedDevice) : Prop :=
  (pongoUsbOpen d.openAnswers d.service 0).1.isSome

instance (d : AddedDevice) : Decidable d.Opens := inferInstanceAs (Decidable (_ = true))

/-- A device that can not be opened changes nothing. -/
lemma addDevice_of_not_opens (h : ¬ d.Opens) : addDevice files st d = st := by
  obtain ⟨o, -, ho⟩ := pongoUsbOpen_eq d.openAnswers d.service
  obtain rfl : o = none := by
    rw [AddedDevice.Opens, ho] at h
    simpa using h
  have hrefs : ioObjectRelease (handOut st.refs d.service) d.service = st.refs :=
    add_sub_cancel_right _ _
  simp only [addDevice, pongoInstanceCreate, ho, hrefs]

/-- A device that is opened becomes the first of the list.  The reference that came with it is
dropped all the same. -/
lemma addDevice_of_opens (h : d.Opens) : (addDevice files st d).services = d.service :: st.services ∧
    (addDevice files st d).refs = st.refs := by
  obtain ⟨o, hservice, ho⟩ := pongoUsbOpen_eq d.openAnswers d.service
  rw [AddedDevice.Opens, ho] at h
  obtain ⟨device, rfl⟩ := Option.isSome_iff_exists.1 h
  have hrefs : ioObjectRelease (handOut st.refs d.service) d.service = st.refs :=
    add_sub_cancel_right _ _
  simp only [addDevice, pongoInstanceCreate, ho, hrefs, LoaderState.services, List.map_cons,
    hservice device rfl, and_self]

lemma unlinkInstance_eq_none_iff :
    unlinkInstance service instances = none ↔ service ∉ instances.map (·.device.service) := by
  induction instances with
  | nil => simp [unlinkInstance]
  | cons inst instances ih =>
    rw [unlinkInstance, pongoUsbMatchesService]
    split_ifs with h
    · simpa using fun hne => absurd (beq_iff_eq.1 h).symm hne
    · have hne : service ≠ inst.device.service := fun he => h (beq_iff_eq.2 he.symm)
      simp [ih, hne]

/-- The first entry of the service is unlinked, and the others keep their order. -/
lemma unlinkInstance_eq_some {inst : PongoInstance} {rest : List PongoInstance}
    (h : unlinkInstance service instances = some (inst, rest)) : inst.device.service = service ∧
      rest.map (·.device.service) = (instances.map (·.device.service)).erase service := by
  induction instances generalizing rest with
  | nil => simp [unlinkInstance] at h
  | cons first instances ih =>
    rw [unlinkInstance, pongoUsbMatchesService] at h
    split_ifs at h with hmatch
    · obtain ⟨rfl, rfl⟩ := Prod.mk.inj (Option.some.inj h)
      have hs : first.device.service = service := beq_iff_eq.1 hmatch
      exact ⟨hs, by rw [List.map_cons, hs, List.erase_cons_head]⟩
    · obtain ⟨⟨found, next⟩, hnext, heq⟩ := Option.map_eq_some_iff.1 h
      obtain ⟨rfl, rfl⟩ := Prod.mk.inj heq
      obtain ⟨hs, hrest⟩ := ih hnext
      have hne : ¬ first.device.service == service := hmatch
      exact ⟨hs, by rw [List.map_cons, List.map_cons, hrest, List.erase_cons_tail hne]⟩

/-- Removing a device that is not in the list changes nothing. -/
lemma removeDevice_of_notMem (h : service ∉ st.services) : removeDevice st service = st := by
  have hrefs : ioObjectRelease (handOut st.refs service) service = st.refs :=
    add_sub_cancel_right _ _
  simp only [removeDevice, pongoInstanceDestroy, unlinkInstance_eq_none_iff.2 h, hrefs]

/-- Removing a device from the list drops the reference that came with the notification, and then
one that is not held. -/
lemma removeDevice_of_mem (h : service ∈ st.services) :
    (removeDevice st service).services = st.services.erase service ∧
      (removeDevice st service).refs = st.refs - Pi.single service 1 := by
  obtain ⟨⟨inst, rest⟩, hunlink⟩ : ∃ p, unlinkInstance service st.instances = some p := by
    rw [← Option.ne_none_iff_exists']
    exact fun hnone => unlinkInstance_eq_none_iff.1 hnone h
  obtain ⟨hs, hrest⟩ := unlinkInstance_eq_some hunlink
  simp only [removeDevice, pongoInstanceDestroy, hunlink, LoaderState.services, hrest, pongoUsbClose,
    hs, ioObjectRelease, handOut, add_sub_cancel_right, and_self]

lemma services_addDevice : (addDevice files st d).services =
    if d.Opens then d.service :: st.services else st.services := by
  split_ifs with h
  · exact (addDevice_of_opens h).1
  · rw [addDevice_of_not_opens h]

lemma services_removeDevice :
    (removeDevice st service).services = st.services.erase service := by
  by_cases h : service ∈ st.services
  · exact (removeDevice_of_mem h).1
  · rw [removeDevice_of_notMem h, List.erase_of_not_mem h]

/-! ## Runs -/

/-- What a notification means for the services that have been added, opened and not removed. -/
def Notification.openServices (services : List IoObject) : Notification → List IoObject
  | .added iterator =>
    iterator.foldl (fun l d => if d.Opens then d.service :: l else l) services
  | .removed iterator => iterator.foldl List.erase services

/-- The services that have been added, opened and not removed, most recently added first. -/
def openServices (ns : List Notification) : List IoObject :=
  ns.foldl Notification.openServices []

/-- In every run the list holds the open services. -/
theorem services_runLoader (files : LoadFiles) (ns : List Notification) :
    (runLoader files ns).services = openServices ns := by
  have hadded : ∀ (iterator : List AddedDevice) (st : LoaderState),
      (pongoDeviceAdded files st iterator).services =
        (Notification.added iterator).openServices st.services := by
    intro iterator
    induction iterator with
    | nil => exact fun _ => rfl
    | cons d iterator ih => exact fun st => (ih _).trans (by rw [services_addDevice]; rfl)
  have hremoved : ∀ (iterator : List IoObject) (st : LoaderState),
      (pongoDeviceRemoved st iterator).services =
        (Notification.removed iterator).openServices st.services := by
    intro iterator
    induction iterator with
    | nil => exact fun _ => rfl
    | cons s iterator ih => exact fun st => (ih _).trans (by rw [services_removeDevice]; rfl)
  have hrun : ∀ st : LoaderState, (ns.foldl (handleNotification files) st).services =
      ns.foldl Notification.openServices st.services := by
    induction ns with
    | nil => exact fun _ => rfl
    | cons n ns ih =>
      intro st
      rw [List.foldl_cons, List.foldl_cons, ih]
      cases n with
      | added iterator => rw [← hadded]; rfl
      | removed iterator => rw [← hremoved]; rfl
  exact hrun .initial

/-- No step of a run leaves more references than there were. -/
lemma refs_handleNotification_le (files : LoadFiles) (st : LoaderState) (n : Notification)
    (o : IoObject) : (handleNotification files st n).refs o ≤ st.refs o := by
  cases n with
  | added iterator =>
    refine iterator.foldlRecOn (motive := fun st' => st'.refs o ≤ st.refs o) (addDevice files)
      le_rfl ?_
    intro st' hle d _
    by_cases h : d.Opens
    · rwa [(addDevice_of_opens h).2]
    · rwa [addDevice_of_not_opens h]
  | removed iterator =>
    refine iterator.foldlRecOn (motive := fun st' => st'.refs o ≤ st.refs o) removeDevice le_rfl ?_
    intro st' hle service _
    by_cases h : service ∈ st'.services
    · have hpos : (0 : ℤ) ≤ (Pi.single service 1 : Refs) o := by
        rw [Pi.single_apply]
        split_ifs <;> norm_num
      rw [(removeDevice_of_mem h).2, Pi.sub_apply]
      omega
    · rwa [removeDevice_of_notMem h]

lemma refs_runLoader_le (files : LoadFiles) (ns : List Notification) (o : IoObject) :
    (runLoader files ns).refs o ≤ 0 :=
  ns.foldlRecOn (motive := fun st => st.refs o ≤ 0) (handleNotification files) le_rfl
    fun st hle n _ => (refs_handleNotification_le files st n o).trans hle

/-- Some device of the notification is opened. -/
def Notification.Opens : Notification → Prop
  | .added iterator => ∃ d ∈ iterator, d.Opens
  | .removed _ => False

/-- As long as no device has been opened a notification changes nothing. -/
lemma handleNotification_of_not_opens (hservices : st.services = []) (h : ¬ n.Opens) :
    handleNotification files st n = st := by
  cases n with
  | added iterator =>
    refine iterator.foldlRecOn (motive := fun st' => st' = st) (addDevice files) rfl ?_
    rintro st' rfl d hd
    exact addDevice_of_not_opens fun hopens => h ⟨d, hd, hopens⟩
  | removed iterator =>
    refine iterator.foldlRecOn (motive := fun st' => st' = st) removeDevice rfl ?_
    rintro st' rfl service -
    exact removeDevice_of_notMem (by simp [hservices])

lemma runLoader_of_not_opens (h : ∀ n ∈ ns, ¬ n.Opens) : runLoader files ns = .initial := by
  refine ns.foldlRecOn (motive := fun st => st = .initial) (handleNotification files) rfl ?_
  rintro st rfl n hn
  exact handleNotification_of_not_opens rfl (h n hn)

lemma openServices_ne_nil (hn : n.Opens) (services : List IoObject) :
    n.openServices services ≠ [] := by
  cases n with
  | removed iterator => exact hn.elim
  | added iterator =>
    obtain ⟨d, hd, hopens⟩ := hn
    obtain ⟨before, after, rfl⟩ := List.append_of_mem hd
    simp only [Notification.openServices, List.foldl_append, List.foldl_cons, if_pos hopens]
    refine after.foldlRecOn (motive := fun l => l ≠ []) _ (List.cons_ne_nil _ _) fun l hl d' _ => ?_
    split_ifs
    · exact List.cons_ne_nil _ _
    · exact hl

/-- After the notifications the list has one entry for each open service, most recently added
first, and the program holds one reference on each of them and none on anything else. -/
structure OwnsReferences (files : LoadFiles) (ns : List Notification) : Prop where
  services_eq : (runLoader files ns).services = openServices ns
  nodup : (runLoader files ns).services.Nodup
  refs_eq : ∀ o, (runLoader files ns).refs o = if o ∈ (runLoader files ns).services then 1 else 0

/-- The references are right after every notification only while no device is opened. -/
theorem ownsReferences_iff (files : LoadFiles) (ns : List Notification) :
    (∀ ns', ns' <+: ns → OwnsReferences files ns') ↔ ∀ n ∈ ns, ¬ n.Opens := by
  constructor
  · intro h n hn hopens
    obtain ⟨before, after, rfl⟩ := List.append_of_mem hn
    have howns := h (before ++ [n]) ⟨after, by simp⟩
    have hne : (runLoader files (before ++ [n])).services ≠ [] := by
      rw [services_runLoader, openServices, List.foldl_append]
      exact openServices_ne_nil hopens _
    obtain ⟨o, ho⟩ := List.exists_mem_of_ne_nil _ hne
    have hone := howns.refs_eq o
    have hle := refs_runLoader_le files (before ++ [n]) o
    rw [if_pos ho] at hone
    omega
  · intro h ns' hns'
    have hrun : runLoader files ns' = .initial :=
      runLoader_of_not_opens fun n hn => h n (hns'.subset hn)
    refine ⟨services_runLoader files ns', ?_, ?_⟩
    · rw [hrun]
      exact List.nodup_nil
    · intro o
      rw [hrun]
      rfl

/-- Every call succeeds at the first try. -/
def openAnswers : OpenAnswers where
  createDevicePlugIn := true
  queryDevice := true
  deviceOpen _ := true
  interfaceIterator _ := some (⟨2, by decide⟩, some ⟨3, by decide⟩)
  createInterfacePlugIn := true
  queryInterface := true
  interfaceOpen := true
  getNumEndpoints := true
  createAsyncPort := true
  insertMember := true

/-- A device is added and removed: its reference is dropped twice. -/
theorem not_ownsReferences :
    ¬ ∀ (files : LoadFiles) (ns : List Notification), OwnsReferences files ns := by
  intro h
  have hrefs := (h ⟨none, none, []⟩ [.added [⟨⟨1, by decide⟩, openAnswers, fun _ => none⟩],
    .removed [⟨1, by decide⟩]]).refs_eq ⟨1, by decide⟩
  revert hrefs
  decide

end VulnerableKext.Host

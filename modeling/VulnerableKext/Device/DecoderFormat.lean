import VulnerableKext.Device.SymbolCommands

/-!
# The decoder and the documented format

The decoder compares `symbol_offset + 1` with the size of the string area.  Both
operands of the addition are 32 bits wide, so the offset `2^32 - 1` passes the check
and becomes a symbol that points far behind the table.  On every other upload the
command installs a table exactly when the upload is in the documented format.
-/

namespace VulnerableKext.Device

open Bytes Checked Format

/-- A request whose allocation succeeds. -/
def Upload.granted (u : Upload) : Request := ⟨u, fun _ => true⟩

/-- The command links `t` in front of the chain. -/
def Installs (kernel : Kernel) (s : SymbolState) (r : Request) (t : KernelcacheSymbolTable) : Prop :=
  ∃ s', step kernel s r = some s' ∧ s'.kernelcacheSymbolTable = t :: s.kernelcacheSymbolTable

/-- What the format asks of the command: it installs a table exactly for the uploads in the
format, with the addresses of the entries and with symbols that end in the table's own copy of
the strings, so that lookups stay inside the installed tables. -/
structure FollowsFormat (kernel : Kernel) (s : SymbolState) (u : Upload) : Prop where
  installs_iff : (∃ t, Installs kernel s u.granted t) ↔
    ∃ entries strings, Describes u.data (s.uuidFor kernel) entries strings
  contents : ∀ t, Installs kernel s u.granted t → ∃ entries strings,
    Framed u.data (s.uuidFor kernel) entries strings ∧
      t.entries.map Prod.snd = entries.map Prod.snd ∧ t.strings = strings ∧
      ∀ e ∈ t.entries, e.1 < t.strings.length ∧ (t.nameAt e.1).isSome
  lookup_inside : ∀ t, Installs kernel s u.granted t → ∀ name, 0 ∉ name →
    (kernelcacheSymbolTableLookup s.kernelcacheSymbolTable name).isSome →
      (kernelcacheSymbolTableLookup (t :: s.kernelcacheSymbolTable) name).isSome

/-- The upload is in the format but for one or more symbol offsets that are `2^32 - 1`. -/
def Wraps (data : List UInt8) (uuid : Uuid) : Prop :=
  ∃ entries strings, Framed data uuid entries strings ∧ (∃ e ∈ entries, e.1 = 2 ^ 32 - 1) ∧
    ∀ e ∈ entries, e.1 < strings.length ∨ e.1 = 2 ^ 32 - 1

variable {kernel : Kernel} {s : SymbolState} {u : Upload} {t : KernelcacheSymbolTable}

lemma installs_iff_decode {r : Request} :
    Installs kernel s r t ↔ decodeSymbolTable r.upload.data (s.uuidFor kernel) r.malloc = .ok t := by
  constructor
  · rintro ⟨s', hs', hchain⟩
    rcases step_cases hs' with ⟨_, -, -, rfl⟩ | ⟨t', ht', rfl⟩
    · have := congrArg List.length hchain
      simp [SymbolState.consumed, SymbolState.receive] at this
    · obtain rfl : t' = t := (List.cons.inj hchain).1
      exact ht'
  · intro h
    refine ⟨_, by rw [step_eq, h], rfl⟩

lemma symbolOffset_lt_of_framed {data : List UInt8} {uuid : Uuid} {es : List (ℕ × ℕ)}
    {strings : List UInt8} (h : Framed data uuid es strings) : ∀ e ∈ es, e.1 < 2 ^ 32 := by
  obtain ⟨n, so, i, o, -, -, -, -, ⟨-, hes⟩, -⟩ := h
  intro e he
  obtain ⟨k, hk, rfl⟩ := List.getElem_of_mem he
  exact readLE_lt (entry_eq_some_iff.1 (hes k hk)).1

lemma strings_length_lt_of_framed {es : List (ℕ × ℕ)} {uuid : Uuid} {strings : List UInt8}
    (h : Framed u.data uuid es strings) : strings.length < 2 ^ 32 := by
  obtain ⟨n, so, i, o, -, -, -, -, -, -, rfl, -⟩ := h
  have := u.length_lt
  rw [List.length_drop]
  omega

/-- The check of the source lets through the offsets inside the string area and `2^32 - 1`. -/
lemma offset_check_iff {off ss : ℕ} (hoff : off < 2 ^ 32) (hss : ss < 2 ^ 32) :
    (off + 1) % 2 ^ 32 ≤ ss ↔ off < ss ∨ off = 2 ^ 32 - 1 := by
  omega

/-- What is decoded, for any allocator. -/
lemma decode_iff {uuid : Uuid} {malloc : ℕ → Bool} :
    decodeSymbolTable u.data uuid malloc = .ok t ↔
      Framed u.data uuid t.entries t.strings ∧
        (∀ e ∈ t.entries, e.1 < t.strings.length ∨ e.1 = 2 ^ 32 - 1) ∧ malloc t.blockSize := by
  rw [decode_eq_ok_iff u.length_lt]
  refine and_congr_right fun hf => and_congr_left fun _ => forall₂_congr fun e he => ?_
  exact offset_check_iff (symbolOffset_lt_of_framed hf e he) (strings_length_lt_of_framed hf)

lemma decode_granted_iff {uuid : Uuid} :
    decodeSymbolTable u.data uuid (fun _ => true) = .ok t ↔
      Framed u.data uuid t.entries t.strings ∧
        ∀ e ∈ t.entries, e.1 < t.strings.length ∨ e.1 = 2 ^ 32 - 1 := by
  rw [decode_iff]
  simp only [and_true]

lemma installs_granted_iff :
    Installs kernel s u.granted t ↔ Framed u.data (s.uuidFor kernel) t.entries t.strings ∧
      ∀ e ∈ t.entries, e.1 < t.strings.length ∨ e.1 = 2 ^ 32 - 1 :=
  installs_iff_decode.trans decode_granted_iff

/-- The upload has wrapped offsets, and there is memory for its table. -/
def InstallsWrapped (data : List UInt8) (uuid : Uuid) (malloc : ℕ → Bool) : Prop :=
  ∃ t : KernelcacheSymbolTable, Framed data uuid t.entries t.strings ∧
    (∃ e ∈ t.entries, e.1 = 2 ^ 32 - 1) ∧
    (∀ e ∈ t.entries, e.1 < t.strings.length ∨ e.1 = 2 ^ 32 - 1) ∧ malloc t.blockSize

lemma InstallsWrapped.wraps {data : List UInt8} {uuid : Uuid} {malloc : ℕ → Bool}
    (h : InstallsWrapped data uuid malloc) : Wraps data uuid := by
  obtain ⟨t, hf, hmax, hchk, -⟩ := h
  exact ⟨t.entries, t.strings, hf, hmax, hchk⟩

lemma not_installsWrapped {data : List UInt8} {uuid : Uuid} {malloc : ℕ → Bool}
    {es : List (ℕ × ℕ)} {strings : List UInt8} (hf : Framed data uuid es strings)
    (hes : ∀ e ∈ es, e.1 ≠ 2 ^ 32 - 1) : ¬ InstallsWrapped data uuid malloc := by
  rintro ⟨t, hf', ⟨e, he, hmax⟩, -⟩
  rw [(framed_unique hf' hf).1] at he
  exact hes e he hmax

/-- Without a wrapped offset the decoder returns what the upload describes. -/
lemma describes_of_decode {r : Request} {uuid : Uuid}
    (hw : ¬ InstallsWrapped r.upload.data uuid r.malloc)
    (h : decodeSymbolTable r.upload.data uuid r.malloc = .ok t) :
    Describes r.upload.data uuid t.entries t.strings := by
  obtain ⟨hf, hchk, hmalloc⟩ := decode_iff.1 h
  refine ⟨hf, fun e he => ?_⟩
  rcases hchk e he with hlt | hmax
  · exact hlt
  · exact absurd ⟨t, hf, ⟨e, he, hmax⟩, hchk, hmalloc⟩ hw

lemma sound_of_describes {data : List UInt8} {uuid : Uuid}
    (h : Describes data uuid t.entries t.strings) : t.Sound := by
  obtain ⟨⟨n, so, i, o, -, -, -, -, -, -, -, hlast⟩, hin⟩ := h
  exact sound_of_inside hlast hin

/-- A wrapped offset is installed, although it does not point into the strings. -/
lemma not_followsFormat_of_wraps (h : Wraps u.data (s.uuidFor kernel)) :
    ¬ FollowsFormat kernel s u := by
  obtain ⟨es, strings, hf, ⟨e, he, hmax⟩, hchk⟩ := h
  intro hformat
  have hi : Installs kernel s u.granted ⟨es, strings⟩ := installs_granted_iff.2 ⟨hf, hchk⟩
  obtain ⟨-, -, -, -, -, hin⟩ := hformat.contents _ hi
  have hlt : e.1 < strings.length := (hin e he).1
  have hss := strings_length_lt_of_framed hf
  omega

lemma followsFormat_of_not_wraps (hw : ¬ Wraps u.data (s.uuidFor kernel)) :
    FollowsFormat kernel s u := by
  have hdesc {t} (h : Installs kernel s u.granted t) :
      Describes u.data (s.uuidFor kernel) t.entries t.strings :=
    describes_of_decode (r := u.granted) (fun h => hw h.wraps) (installs_iff_decode.1 h)
  refine ⟨⟨?_, ?_⟩, ?_, ?_⟩
  · rintro ⟨t, h⟩
    exact ⟨_, _, hdesc h⟩
  · rintro ⟨es, strings, hf, hin⟩
    exact ⟨⟨es, strings⟩, installs_granted_iff.2 ⟨hf, fun e he => Or.inl (hin e he)⟩⟩
  · intro t h
    refine ⟨_, _, (hdesc h).1, rfl, rfl, fun e he => ?_⟩
    exact ⟨(hdesc h).2 e he, sound_of_describes (hdesc h) e he⟩
  · intro t h name hname hsome
    rw [lookup_cons_of_sound hname (sound_of_describes (hdesc h))]
    cases t.find? name with
    | none => exact hsome
    | some address => rfl

/-- The command follows the format exactly when the upload has no wrapped symbol offset. -/
theorem followsFormat_iff_not_wraps (kernel : Kernel) (s : SymbolState) (u : Upload) :
    FollowsFormat kernel s u ↔ ¬ Wraps u.data (s.uuidFor kernel) :=
  ⟨fun h hw => not_followsFormat_of_wraps hw h, followsFormat_of_not_wraps⟩

/-- One entry, whose offset is `2^32 - 1`, for the UUID zero. -/
def wrappedUpload : Upload where
  data := leBytes 4 1 ++ (leBytes 4 44 ++ (leBytes 16 0 ++ (leBytes 4 28 ++ (leBytes 4 1 ++
    (leBytes 4 (2 ^ 32 - 1) ++ (leBytes 8 0xfffffff007004000 ++ [0]))))))
  length_lt := by simp

lemma wraps_wrappedUpload : Wraps wrappedUpload.data KernelcacheUuid.initial.uuid := by
  refine ⟨[(2 ^ 32 - 1, 0xfffffff007004000)], [0], ⟨1, 44, 0, 28, ?_⟩, by decide, by decide⟩
  refine ⟨by decide, by decide, by decide, ⟨by decide, by decide, by simp⟩, ⟨by decide, ?_⟩,
    by decide, by decide, by decide⟩
  intro k hk
  have hk0 : k = 0 := by simpa using hk
  subst hk0
  exact (by decide : entry wrappedUpload.data 32 = some (2 ^ 32 - 1, 0xfffffff007004000))

/-- A kernel whose load commands hold no UUID. -/
def blankKernel : Kernel := fun _ => 0

lemma uuidFor_blankKernel :
    SymbolState.initial.uuidFor blankKernel = KernelcacheUuid.initial.uuid := by
  have hn : blankKernel.ncmds = 0 := by decide
  simp [SymbolState.uuidFor, SymbolState.initial, kernelcacheFindUuid, KernelcacheUuid.initial, hn,
    findUuidCommand]

/-- The symbol offset `2^32 - 1` is accepted. -/
theorem not_followsFormat_wrappedUpload :
    ¬ ∀ (kernel : Kernel) (s : SymbolState) (u : Upload), FollowsFormat kernel s u := by
  intro h
  have hw := wraps_wrappedUpload
  rw [← uuidFor_blankKernel] at hw
  exact not_followsFormat_of_wraps hw (h blankKernel .initial wrappedUpload)

end VulnerableKext.Device

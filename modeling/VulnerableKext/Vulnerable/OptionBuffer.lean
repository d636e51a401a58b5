import VulnerableKext.Vulnerable.DoubleFetch

/-!
# Accesses to the option buffer

Which bytes of the option buffer a handler accesses.  Most handlers copy the whole buffer
and nothing else of it; the two that take it for a structure also read the fields of the
structure, whether the buffer is long enough for them or not.
-/

namespace VulnerableKext.Vulnerable

open Memory Shared Prog

/-- The offsets in the option buffer that an event accesses. -/
def Event.optionBytes : Event → Set ℕ
  | .load p n _ => p.optionBytes n
  | .bcopy src dst n => src.optionBytes n ∪ dst.optionBytes n
  | .copyin src dst n => src.optionBytes n ∪ dst.optionBytes n
  | .copyout src dst n => src.optionBytes n ∪ dst.optionBytes n
  | _ => ∅

/-- Where a copy goes. -/
def Event.dst : Event → Option Pointer
  | .bcopy _ dst _ => some dst
  | .copyin _ dst _ => some dst
  | .copyout _ dst _ => some dst
  | _ => none

/-- The object that the vulnerability of an option is about. -/
def vulnerabilityTarget (opt : ℤ) : Region :=
  if opt = HEAP_OVERFLOW ∨ opt = DOUBLE_FETCH then .allocation
  else if opt = BUFFER_OVERFLOW then .stack
  else if opt = ARBITRARY_WRITE then .absolute
  else .optionBuffer

/-- The option buffer of `dataLen` bytes is not left, and copies go to the target only. -/
def EventInside (target : Region) (dataLen : ℕ) (e : Event) : Prop :=
  (∀ o ∈ e.optionBytes, o < dataLen) ∧ ∀ p, e.dst = some p → p.region = target

/-- Every event of a call is inside. -/
def StaysInside (opt : ℤ) (dataLen : ℕ) (log : List Event) : Prop :=
  ∀ e ∈ log, EventInside (vulnerabilityTarget opt) dataLen e

/-! ## Handlers that copy the option buffer -/

section Logs

variable {P : Event → Prop} (k : Kernel)

lemma logs_malloc_bind {α : Type} {f : Pointer → Handler α} {size : ℕ}
    (h : P (.malloc (mallocPtr k size) size)) (hf : Logs P (f (mallocPtr k size))) :
    Logs P (malloc k size >>= f) := by
  have hmalloc : Logs P (malloc k size) := (logs_emit h).bind fun _ => logs_pure _
  refine hmalloc.bind_of ?_
  rintro p ⟨r, r', hr⟩
  cases hr
  exact hf

lemma logs_free {p : Pointer} (h : P (.free p)) : Logs P (free p) := logs_emit h

lemma logs_loadKernproc : Logs P (loadKernproc k) := logs_access fun _ => nofun

/-- Whatever the bounds are, no more than the size of the option is copied. -/
lemma logs_sooptcopyin {sopt : Sockopt} {buf : Pointer} {len minlen : ℕ}
    (h : ∀ n ≤ sopt.valsize, P (.bcopy sopt.val buf n) ∧ P (.copyin sopt.val buf n)) :
    Logs P (sooptcopyin k sopt buf len minlen) := by
  rw [sooptcopyin]
  refine Logs.ite (fun _ => logs_pure _) fun _ => ?_
  have hval : (if len < sopt.valsize then { sopt with valsize := len } else sopt).val =
      sopt.val := by split_ifs <;> rfl
  have hsize : (if len < sopt.valsize then { sopt with valsize := len } else sopt).valsize ≤
      sopt.valsize := by
    split_ifs with hlt
    · exact hlt.le
    · exact le_rfl
  generalize (if len < sopt.valsize then { sopt with valsize := len } else sopt) = sopt' at *
  obtain ⟨hbcopy, hcopyin⟩ := h _ hsize
  rw [← hval] at hbcopy hcopyin
  refine (logs_loadKernproc k).bind fun proc => Logs.ite (fun _ => ?_) fun _ => ?_
  · exact (logs_access fun s => List.forall_mem_singleton.2 hcopyin).bind fun _ => logs_pure _
  · exact (logs_access fun s => List.forall_mem_singleton.2 hbcopy).bind fun _ => logs_pure _

lemma logs_sooptcopyout {sopt : Sockopt} {buf : Pointer} {len : ℕ}
    (h : ∀ n ≤ sopt.valsize, P (.bcopy buf sopt.val n) ∧ P (.copyout buf sopt.val n)) :
    Logs P (sooptcopyout k sopt buf len) := by
  have hsize : (if len < sopt.valsize then len else sopt.valsize) ≤ sopt.valsize := by
    split_ifs with hlt
    · exact hlt.le
    · exact le_rfl
  obtain ⟨hbcopy, hcopyout⟩ := h _ hsize
  rw [sooptcopyout]
  refine Logs.ite (fun _ => ?_) fun _ => logs_pure _
  refine (logs_loadKernproc k).bind fun proc => Logs.ite (fun _ => ?_) fun _ => ?_
  · exact (logs_access fun s => List.forall_mem_singleton.2 hcopyout).bind fun _ => logs_pure _
  · exact (logs_access fun s => List.forall_mem_singleton.2 hbcopy).bind fun _ => logs_pure _

end Logs

lemma mem_optionBytes_add {data off n o : ℕ} :
    o ∈ ((dataPtr data).add off).optionBytes n ↔ off ≤ o ∧ o < off + n := by
  simp [Pointer.optionBytes, Pointer.add, dataPtr]

lemma mem_optionBytes {data n o : ℕ} : o ∈ (dataPtr data).optionBytes n ↔ o < n := by
  simp [Pointer.optionBytes, dataPtr]

lemma optionBytes_of_region {p : Pointer} (h : p.region ≠ .optionBuffer) (n : ℕ) :
    p.optionBytes n = ∅ :=
  Set.eq_empty_of_forall_notMem fun _ ho => h ho.1

section Handlers

variable (k : Kernel) (data dataLen : ℕ) {target : Region}

lemma eventInside_malloc (p : Pointer) (size : ℕ) : EventInside target dataLen (.malloc p size) :=
  ⟨fun _ ho => absurd ho (Set.notMem_empty _), nofun⟩

lemma eventInside_free (p : Pointer) : EventInside target dataLen (.free p) :=
  ⟨fun _ ho => absurd ho (Set.notMem_empty _), nofun⟩

lemma eventInside_call (a b : ℕ) : EventInside target dataLen (.call a b) :=
  ⟨fun _ ho => absurd ho (Set.notMem_empty _), nofun⟩

lemma eventInside_load_iff {off n v : ℕ} (hn : 0 < n) :
    EventInside target dataLen (.load ((dataPtr data).add off) n v) ↔ off + n ≤ dataLen := by
  constructor
  · rintro ⟨hbytes, -⟩
    have hlast := hbytes (off + n - 1) (mem_optionBytes_add.2 ⟨by omega, by omega⟩)
    omega
  · intro hle
    exact ⟨fun o ho => lt_of_lt_of_le (mem_optionBytes_add.1 ho).2 hle, nofun⟩

/-- A copy out of the option buffer, of no more than its length. -/
lemma eventInside_copyin {buf : Pointer} (hne : buf.region ≠ .optionBuffer) {n : ℕ}
    (hn : n ≤ dataLen) :
    EventInside buf.region dataLen (.bcopy (dataPtr data) buf n) ∧
      EventInside buf.region dataLen (.copyin (dataPtr data) buf n) := by
  have hbytes : ∀ o ∈ (dataPtr data).optionBytes n ∪ buf.optionBytes n, o < dataLen := by
    rw [optionBytes_of_region hne, Set.union_empty]
    intro o ho
    exact lt_of_lt_of_le (mem_optionBytes.1 ho) hn
  have hdst : ∀ p, some buf = some p → p.region = buf.region := by
    rintro p ⟨⟩
    rfl
  exact ⟨⟨hbytes, hdst⟩, hbytes, hdst⟩

/-- A copy that the option buffer has no part in. -/
lemma eventInside_of_copyin {src dst : Pointer} {n : ℕ} {e : Event}
    (hsrc : src.region ≠ .optionBuffer) (hdst : dst.region ≠ .optionBuffer)
    (he : IsCopyin src dst n e) : EventInside dst.region dataLen e := by
  have hbytes : ∀ o ∈ src.optionBytes n ∪ dst.optionBytes n, o < dataLen := by
    rw [optionBytes_of_region hsrc, optionBytes_of_region hdst, Set.union_empty]
    exact fun o ho => absurd ho (Set.notMem_empty o)
  have htarget : ∀ p, some dst = some p → p.region = dst.region := by
    rintro p ⟨⟩
    rfl
  rcases he with rfl | rfl
  · exact ⟨hbytes, htarget⟩
  · exact ⟨hbytes, htarget⟩

/-- A copy into the option buffer, of no more than its length. -/
lemma eventInside_copyout {buf : Pointer} (hne : buf.region ≠ .optionBuffer) {n : ℕ}
    (hn : n ≤ dataLen) :
    EventInside .optionBuffer dataLen (.bcopy buf (dataPtr data) n) ∧
      EventInside .optionBuffer dataLen (.copyout buf (dataPtr data) n) := by
  have hbytes : ∀ o ∈ buf.optionBytes n ∪ (dataPtr data).optionBytes n, o < dataLen := by
    rw [optionBytes_of_region hne, Set.empty_union]
    intro o ho
    exact lt_of_lt_of_le (mem_optionBytes.1 ho) hn
  have hdst : ∀ p, some (dataPtr data) = some p → p.region = .optionBuffer := by
    rintro p ⟨⟩
    rfl
  exact ⟨⟨hbytes, hdst⟩, hbytes, hdst⟩

lemma logs_triggerHeapOverflow :
    Logs (EventInside .allocation dataLen) (triggerHeapOverflow k data dataLen) := by
  refine (logs_loadKernproc k).bind fun proc => ?_
  refine logs_malloc_bind k (eventInside_malloc _ _ _) (Logs.ite (fun _ => logs_halt _) fun _ => ?_)
  refine (logs_sooptcopyin k fun n hn => ?_).bind fun _ => ?_
  · exact eventInside_copyin data dataLen (show Region.allocation ≠ _ by decide) hn
  · exact (logs_free (eventInside_free _ _)).bind fun _ => logs_pure _

lemma logs_triggerInfoLeak :
    Logs (EventInside .optionBuffer dataLen) (triggerInfoLeak k data dataLen) := by
  refine (logs_loadKernproc k).bind fun proc => ?_
  refine logs_malloc_bind k (eventInside_malloc _ _ _) (Logs.ite (fun _ => logs_halt _) fun _ => ?_)
  refine (logs_sooptcopyout k fun n hn => ?_).bind fun _ => ?_
  · exact eventInside_copyout data dataLen (show Region.allocation ≠ _ by decide) hn
  · exact (logs_free (eventInside_free _ _)).bind fun _ => logs_pure _

lemma logs_triggerBufferOverflow :
    Logs (EventInside .stack dataLen) (triggerBufferOverflow k data dataLen) := by
  refine (logs_loadKernproc k).bind fun proc => ?_
  refine (logs_sooptcopyin k fun n hn => ?_).bind fun _ => logs_pure _
  exact eventInside_copyin data dataLen (show Region.stack ≠ _ by decide) hn

lemma logs_triggerCrash (a : ℕ) : Logs (EventInside target dataLen) (triggerCrash a) :=
  (logs_emit (eventInside_call _ _ _)).bind fun _ => logs_pure _

end Handlers

/-! ## Handlers that take it for a structure -/

section Structures

variable (k : Kernel) (s : SystemState) (data dataLen : ℕ)

/-- The value that is written starts behind the address, but is as long as the whole buffer. -/
lemma not_staysInside_arbitraryWrite :
    ¬ StaysInside ARBITRARY_WRITE dataLen ((triggerArbitraryWrite k data dataLen).events s) := by
  obtain ⟨proc, r₁, h₁⟩ := steps_loadKernproc k ⟨0, s, []⟩
  obtain ⟨r₂, h₂⟩ := steps_load k r₁ (dataPtr data) 8
  generalize word (k.interfere r₁.clock r₁.shared).mem (dataPtr data).addr 8 = writeWhere at h₂
  obtain ⟨a, e, r₃, he, h₃⟩ :=
    steps_sooptcopyin k r₂ ⟨.set, (dataPtr data).add 8, dataLen, proc⟩ (Pointer.ofInt writeWhere)
  have hrun : Steps (triggerArbitraryWrite k data dataLen) ⟨0, s, []⟩ KERN_SUCCESS
      [.load (dataPtr data) 8 writeWhere, e] r₃ :=
    h₁.bind (h₂.bind (h₃.bind (steps_pure _ _)))
  rw [hrun.outcome.2]
  intro hall
  -- the last byte of the address, or else the last byte of the copy
  rcases Nat.lt_or_ge dataLen 8 with hlt | hge
  · have h := (hall _ List.mem_cons_self).1 7 (mem_optionBytes.2 (by decide))
    omega
  · have hlast : dataLen + 7 ∈ e.optionBytes := by
      have hsrc : dataLen + 7 ∈ ((dataPtr data).add 8).optionBytes dataLen :=
        mem_optionBytes_add.2 ⟨by omega, by omega⟩
      rcases he with rfl | rfl
      · exact Or.inl hsrc
      · exact Or.inl hsrc
    have h := (hall e (by simp)).1 _ hlast
    omega

/-- The fields of the structure must lie in the buffer, as far as they are read. -/
lemma staysInside_doubleFetch_iff :
    StaysInside DOUBLE_FETCH dataLen ((triggerDoubleFetch k data dataLen).events s) ↔
      (mallocPtr k 255).addr = 0 ∨
        4 ≤ dataLen ∧ (Rejected k s data dataLen ∨ 16 ≤ dataLen) := by
  have hsize : ∀ v, EventInside .allocation dataLen (.load (dataPtr data) 4 v) ↔ 4 ≤ dataLen := by
    intro v
    have h : EventInside .allocation dataLen (.load ((dataPtr data).add 0) 4 v) ↔
        0 + 4 ≤ dataLen := eventInside_load_iff data dataLen (by decide)
    rwa [Nat.zero_add] at h
  have hbuffer : ∀ v,
      EventInside .allocation dataLen (.load ((dataPtr data).add 8) 8 v) ↔ 16 ≤ dataLen :=
    fun v => eventInside_load_iff data dataLen (by decide)
  have htarget : vulnerabilityTarget DOUBLE_FETCH = .allocation := by decide
  rw [StaysInside, htarget]
  by_cases h : (mallocPtr k 255).addr = 0
  · rw [(triggerDoubleFetch_of_panic k s data dataLen h).2]
    refine iff_of_true ?_ (Or.inl h)
    exact List.forall_mem_singleton.2 (eventInside_malloc _ _ _)
  by_cases hr : Rejected k s data dataLen
  · -- only the size field is read
    rw [(triggerDoubleFetch_of_rejected k s data dataLen h hr).2]
    simp only [List.forall_mem_cons, eventInside_malloc, eventInside_free, hsize, h,
      List.not_mem_nil, false_imp_iff, implies_true, and_true, true_and, false_or]
    exact (and_iff_left (Or.inl hr)).symm
  · obtain ⟨-, buffer, size, e, he, hlog⟩ :=
      triggerDoubleFetch_of_accepted k s data dataLen h hr
    have hcopy : EventInside .allocation dataLen e :=
      eventInside_of_copyin dataLen (show Region.absolute ≠ _ by decide)
        (show Region.allocation ≠ _ by decide) he
    rw [hlog]
    simp only [List.forall_mem_cons, eventInside_malloc, eventInside_free, hsize, hbuffer, hcopy, h,
      hr, List.not_mem_nil, false_imp_iff, implies_true, and_true, true_and, false_or]
    omega

/-- A call stays inside of the option buffer unless the option is the arbitrary write, or the
double fetch of a buffer that is too short for the fields it reads. -/
theorem setopt_staysInside_iff (opt : ℤ) :
    StaysInside opt dataLen ((setopt k opt data dataLen).events s) ↔
      opt ≠ ARBITRARY_WRITE ∧
        (opt = DOUBLE_FETCH → (mallocPtr k 255).addr = 0 ∨
          4 ≤ dataLen ∧ (Rejected k s data dataLen ∨ 16 ≤ dataLen)) := by
  by_cases hwrite : opt = ARBITRARY_WRITE
  · subst hwrite
    exact iff_of_false (not_staysInside_arbitraryWrite k s data dataLen) fun h => h.1 rfl
  by_cases hfetch : opt = DOUBLE_FETCH
  · subst hfetch
    rw [and_iff_right hwrite, forall_prop_of_true rfl]
    exact staysInside_doubleFetch_iff k s data dataLen
  · refine iff_of_true (Logs.events ?_ s) ⟨hwrite, fun h => absurd h hfetch⟩
    -- the remaining handlers are one case each
    rw [setopt]
    refine Logs.ite (fun _ => logs_triggerCrash _ _) fun _ => ?_
    refine Logs.ite (fun h => ?_) fun _ => ?_
    · subst h
      exact logs_triggerHeapOverflow k data dataLen
    refine Logs.ite (fun h => ?_) fun _ => ?_
    · subst h
      exact logs_triggerInfoLeak k data dataLen
    refine Logs.ite (fun h => ?_) fun _ => ?_
    · subst h
      exact logs_triggerBufferOverflow k data dataLen
    refine Logs.ite (fun _ => logs_pure _) fun _ => ?_
    refine Logs.ite (fun _ => logs_pure _) fun _ => ?_
    exact Logs.ite (fun h => absurd h hfetch) fun _ =>
      Logs.ite (fun h => absurd h hwrite) fun _ => logs_pure _

/-- An address and a value of 8 bytes for the arbitrary write: the copy goes on for 8 bytes
behind the option buffer. -/
theorem not_staysInside_16 :
    ¬ StaysInside ARBITRARY_WRITE 16
      ((setopt quietKernel ARBITRARY_WRITE 0x1000 16).events (bufferOfSize 0)) := by
  have hlog : (setopt quietKernel ARBITRARY_WRITE 0x1000 16).events (bufferOfSize 0) =
      [.load (dataPtr 0x1000) 8 0, .bcopy ((dataPtr 0x1000).add 8) (Pointer.ofInt 0) 16] := by
    decide +kernel
  rw [hlog]
  intro hall
  have h := (hall (.bcopy ((dataPtr 0x1000).add 8) (Pointer.ofInt 0) 16) (by simp)).1 23
    (Or.inl (mem_optionBytes_add.2 (by decide)))
  omega

end Structures

end VulnerableKext.Vulnerable

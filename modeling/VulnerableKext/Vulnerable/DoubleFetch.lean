import VulnerableKext.Vulnerable.Handlers

/-!
# The double fetch

The handler checks the size field of the option buffer, reads it again and copies as many
bytes as the second read says.  The events of a call are given case by case, and from them
follows how many bytes are copied into the allocation.
-/

namespace VulnerableKext.Vulnerable

open Memory Shared Prog

/-! ## The steps of a handler -/

section Steps

variable (k : Kernel) (r : Run SystemState Event)

lemma steps_malloc (size : ℕ) :
    ∃ r', Steps (malloc k size) r (mallocPtr k size) [.malloc (mallocPtr k size) size] r' ∧
      r'.clock = r.clock ∧ r'.shared = r.shared :=
  ⟨_, (steps_emit _ r).bind (steps_pure _ _), rfl, rfl⟩

lemma steps_free (p : Pointer) : ∃ r', Steps (free p) r () [.free p] r' := ⟨_, steps_emit _ r⟩

lemma steps_load (p : Pointer) (n : ℕ) :
    ∃ r', Steps (load k p n) r (word (k.interfere r.clock r.shared).mem p.addr n)
      [.load p n (word (k.interfere r.clock r.shared).mem p.addr n)] r' :=
  ⟨_, rfl, rfl⟩

lemma steps_loadKernproc : ∃ proc r', Steps (loadKernproc k) r proc [] r' := ⟨_, _, rfl, rfl⟩

lemma steps_bcopy (src dst : Pointer) (n : ℕ) :
    ∃ r', Steps (bcopy k src dst n) r () [.bcopy src dst n] r' := ⟨_, rfl, rfl⟩

lemma steps_copyin (src dst : Pointer) (n : ℕ) :
    ∃ error r', Steps (copyin k src dst n) r error [.copyin src dst n] r' := ⟨_, _, rfl, rfl⟩

/-- The event of a copy of `n` bytes from an option. -/
def IsCopyin (src dst : Pointer) (n : ℕ) (e : Event) : Prop :=
  e = .bcopy src dst n ∨ e = .copyin src dst n

/-- Called with the size of the option as its two bounds, `sooptcopyin` copies all of it. -/
lemma steps_sooptcopyin (sopt : Sockopt) (buf : Pointer) :
    ∃ a e r', IsCopyin sopt.val buf sopt.valsize e ∧
      Steps (sooptcopyin k sopt buf sopt.valsize sopt.valsize) r a [e] r' := by
  obtain ⟨proc, r₁, h₁⟩ := steps_loadKernproc k r
  rw [sooptcopyin, if_neg (lt_irrefl _), if_neg (lt_irrefl _)]
  by_cases hproc : sopt.p ≠ proc
  · obtain ⟨error, r₂, h₂⟩ := steps_copyin k r₁ sopt.val buf sopt.valsize
    refine ⟨(error, sopt), _, r₂, Or.inr rfl, h₁.bind ?_⟩
    rw [if_pos hproc]
    exact h₂.bind (steps_pure _ _)
  · obtain ⟨r₂, h₂⟩ := steps_bcopy k r₁ sopt.val buf sopt.valsize
    refine ⟨(0, sopt), _, r₂, Or.inl rfl, h₁.bind ?_⟩
    rw [if_neg hproc]
    exact h₂.bind (steps_pure _ _)

end Steps

/-! ## The events of a call -/

section Call

variable (k : Kernel) (s : SystemState) (data dataLen : ℕ)

/-- The size field as the first fetch finds it. -/
def firstSize : ℕ := word (k.interfere 0 s).mem (dataPtr data).addr 4

/-- The guard refuses the call. -/
abbrev Rejected : Prop := 255 < firstSize k s data ∧ dataLen ≤ firstSize k s data

lemma triggerDoubleFetch_of_panic (h : (mallocPtr k 255).addr = 0) :
    (triggerDoubleFetch k data dataLen ⟨0, s, []⟩).1 =
        .error "[heap_overflow] === Failed to MALLOC ===" ∧
      (triggerDoubleFetch k data dataLen).events s = [.malloc (mallocPtr k 255) 255] := by
  obtain ⟨r₁, h₁, -, -⟩ := steps_malloc k ⟨0, s, []⟩ 255
  rw [events, triggerDoubleFetch, bind_ok h₁.1, if_pos h]
  exact ⟨rfl, h₁.2⟩

lemma triggerDoubleFetch_of_rejected (h : (mallocPtr k 255).addr ≠ 0)
    (hr : Rejected k s data dataLen) :
    (triggerDoubleFetch k data dataLen ⟨0, s, []⟩).1 = .ok KERN_FAILURE ∧
      (triggerDoubleFetch k data dataLen).events s =
        [.malloc (mallocPtr k 255) 255, .load (dataPtr data) 4 (firstSize k s data),
          .free (mallocPtr k 255)] := by
  obtain ⟨r₁, h₁, hclock, hshared⟩ := steps_malloc k ⟨0, s, []⟩ 255
  obtain ⟨r₂, h₂⟩ := steps_load k r₁ (dataPtr data) 4
  rw [hclock, hshared, ← firstSize] at h₂
  obtain ⟨r₃, h₃⟩ := steps_free r₂ (mallocPtr k 255)
  have hrun : Steps (triggerDoubleFetch k data dataLen) ⟨0, s, []⟩ KERN_FAILURE
      [.malloc (mallocPtr k 255) 255, .load (dataPtr data) 4 (firstSize k s data),
        .free (mallocPtr k 255)] r₃ := by
    refine h₁.bind ?_
    rw [if_neg h]
    refine h₂.bind ?_
    rw [if_pos hr]
    exact h₃.bind (steps_pure _ _)
  exact hrun.outcome

/-- Once the guard is passed, the number of bytes is the size field of the second fetch. -/
lemma triggerDoubleFetch_of_accepted (h : (mallocPtr k 255).addr ≠ 0)
    (hr : ¬ Rejected k s data dataLen) :
    (triggerDoubleFetch k data dataLen ⟨0, s, []⟩).1 = .ok KERN_SUCCESS ∧
      ∃ buffer size e, IsCopyin (Pointer.ofInt buffer) (mallocPtr k 255) size e ∧
        (triggerDoubleFetch k data dataLen).events s =
          [.malloc (mallocPtr k 255) 255, .load (dataPtr data) 4 (firstSize k s data),
            .load ((dataPtr data).add 8) 8 buffer, .load (dataPtr data) 4 size, e,
            .free (mallocPtr k 255)] := by
  obtain ⟨r₁, h₁, hclock, hshared⟩ := steps_malloc k ⟨0, s, []⟩ 255
  obtain ⟨r₂, h₂⟩ := steps_load k r₁ (dataPtr data) 4
  rw [hclock, hshared, ← firstSize] at h₂
  obtain ⟨r₃, h₃⟩ := steps_load k r₂ ((dataPtr data).add 8) 8
  generalize word (k.interfere r₂.clock r₂.shared).mem ((dataPtr data).add 8).addr 8 = buffer at h₃
  obtain ⟨r₄, h₄⟩ := steps_load k r₃ (dataPtr data) 4
  generalize word (k.interfere r₃.clock r₃.shared).mem (dataPtr data).addr 4 = size at h₄
  obtain ⟨proc, r₅, h₅⟩ := steps_loadKernproc k r₄
  obtain ⟨a, e, r₆, he, h₆⟩ :=
    steps_sooptcopyin k r₅ ⟨.set, Pointer.ofInt buffer, size, proc⟩ (mallocPtr k 255)
  obtain ⟨r₇, h₇⟩ := steps_free r₆ (mallocPtr k 255)
  have hrun : Steps (triggerDoubleFetch k data dataLen) ⟨0, s, []⟩ KERN_SUCCESS
      [.malloc (mallocPtr k 255) 255, .load (dataPtr data) 4 (firstSize k s data),
        .load ((dataPtr data).add 8) 8 buffer, .load (dataPtr data) 4 size, e,
        .free (mallocPtr k 255)] r₇ := by
    refine h₁.bind ?_
    rw [if_neg h]
    refine h₂.bind ?_
    rw [if_neg hr]
    exact h₃.bind (h₄.bind (h₅.bind (h₆.bind (h₇.bind (steps_pure _ _)))))
  exact ⟨hrun.outcome.1, buffer, size, e, he, hrun.outcome.2⟩

end Call

/-! ## How much is copied -/

/-- The number of bytes that an event copies into an allocation. -/
def Event.copied : Event → ℕ
  | .bcopy _ dst n => if dst.region = .allocation then n else 0
  | .copyin _ dst n => if dst.region = .allocation then n else 0
  | _ => 0

def Event.IsCopy : Event → Prop
  | .bcopy .. => True
  | .copyin .. => True
  | .copyout .. => True
  | _ => False

/-- The fetches of the size field have found the same value. -/
def SizeUnchanged (data : ℕ) (log : List Event) : Prop :=
  ∀ v v', .load (dataPtr data) 4 v ∈ log → .load (dataPtr data) 4 v' ∈ log → v = v'

/-- A call is refused without a copy, or it copies at most 255 bytes, all of them into its
allocation; and the allocation is freed exactly once. -/
structure CopiesInBounds (k : Kernel) (outcome : Except String ℕ) (log : List Event) : Prop where
  bounded : (outcome = .ok KERN_FAILURE ∧ ∀ e ∈ log, ¬ e.IsCopy) ∨
    (log.map Event.copied).sum ≤ 255 ∧
      ∀ e ∈ log, e.IsCopy → ∃ src n, IsCopyin src (mallocPtr k 255) n e
  freed : ∀ p n, .malloc p n ∈ log → p.addr ≠ 0 → log.count (.free p) = 1

section Bounds

variable (k : Kernel) (s : SystemState) (data dataLen : ℕ)

lemma IsCopyin.copied {src : Pointer} {size n : ℕ} {e : Event}
    (h : IsCopyin src (mallocPtr k size) n e) : e.copied = n := by
  rcases h with rfl | rfl
  · rfl
  · rfl

/-- A call that was refused, whatever the size field was. -/
lemma copiesInBounds_of_rejected (h : (mallocPtr k 255).addr ≠ 0)
    (hr : Rejected k s data dataLen) :
    CopiesInBounds k (triggerDoubleFetch k data dataLen ⟨0, s, []⟩).1
      ((triggerDoubleFetch k data dataLen).events s) := by
  obtain ⟨hout, hlog⟩ := triggerDoubleFetch_of_rejected k s data dataLen h hr
  rw [hout, hlog]
  refine ⟨Or.inl ⟨rfl, ?_⟩, ?_⟩
  · simp [Event.IsCopy]
  · simp

/-- When the size field does not change, the copy is in bounds except for the sizes that the
guard lets through although they are too large. -/
theorem triggerDoubleFetch_copiesInBounds_iff
    (hsame : SizeUnchanged data ((triggerDoubleFetch k data dataLen).events s)) :
    CopiesInBounds k (triggerDoubleFetch k data dataLen ⟨0, s, []⟩).1
        ((triggerDoubleFetch k data dataLen).events s) ↔
      (mallocPtr k 255).addr = 0 ∨ firstSize k s data ≤ 255 ∨ dataLen ≤ firstSize k s data := by
  by_cases h : (mallocPtr k 255).addr = 0
  · -- the handler panics before it reads anything
    obtain ⟨-, hlog⟩ := triggerDoubleFetch_of_panic k s data dataLen h
    refine iff_of_true ?_ (Or.inl h)
    rw [hlog]
    refine ⟨Or.inr ⟨by simp [Event.copied], by simp [Event.IsCopy]⟩, ?_⟩
    intro p n hp hne
    simp only [List.mem_singleton, Event.malloc.injEq] at hp
    exact absurd (hp.1 ▸ h) hne
  by_cases hr : Rejected k s data dataLen
  · exact iff_of_true (copiesInBounds_of_rejected k s data dataLen h hr) (Or.inr (Or.inr hr.2))
  · obtain ⟨hout, buffer, size, e, he, hlog⟩ :=
      triggerDoubleFetch_of_accepted k s data dataLen h hr
    have hsize : size = firstSize k s data := by
      rw [hlog] at hsame
      exact hsame _ _ (by simp) (by simp)
    have hsum : (((triggerDoubleFetch k data dataLen).events s).map Event.copied).sum = size := by
      rw [hlog]
      simp only [List.map_cons, List.map_nil, List.sum_cons, List.sum_nil, he.copied]
      change 0 + (0 + (0 + (0 + (size + (0 + 0))))) = size
      omega
    rw [hout]
    constructor
    · rintro ⟨⟨hfail, -⟩ | ⟨hle, -⟩, -⟩
      · exact absurd hfail (by decide)
      · rw [hsum, hsize] at hle
        exact Or.inr (Or.inl hle)
    · intro hcond
      have hle : firstSize k s data ≤ 255 := by
        rcases hcond with hnull | hle | hge
        · exact absurd hnull h
        · exact hle
        · by_contra hlt
          exact hr ⟨Nat.lt_of_not_le hlt, hge⟩
      refine ⟨Or.inr ⟨by rw [hsum, hsize]; exact hle, ?_⟩, ?_⟩
      · rw [hlog]
        intro e' he' hcopy
        simp only [List.mem_cons, List.not_mem_nil, or_false] at he'
        rcases he' with rfl | rfl | rfl | rfl | rfl | rfl
        all_goals first | exact ⟨_, _, he⟩ | exact absurd hcopy id
      · rw [hlog]
        rcases he with rfl | rfl
        · simp
        · simp

end Bounds

/-- A kernel where nothing else happens. -/
def quietKernel : Kernel where
  interfere _ s := s
  mallocAddr _ := 0x10000
  stackAddr := 0x20000
  copyinUser s _ _ _ := (0, s)
  copyoutUser s _ _ _ := (0, s)

/-- An option buffer at 0x1000 with the given size field. -/
def bufferOfSize (size : ℕ) : SystemState := ⟨storeWord (fun _ => 0) 0x1000 4 size, 0⟩

theorem triggerDoubleFetch_copiesInBounds_iff_255 :
    CopiesInBounds quietKernel (triggerDoubleFetch quietKernel 0x1000 512 ⟨0, bufferOfSize 255, []⟩).1
      ((triggerDoubleFetch quietKernel 0x1000 512).events (bufferOfSize 255)) := by
  have hlog : (triggerDoubleFetch quietKernel 0x1000 512).events (bufferOfSize 255) =
      [.malloc (mallocPtr quietKernel 255) 255, .load (dataPtr 0x1000) 4 255,
        .load ((dataPtr 0x1000).add 8) 8 0, .load (dataPtr 0x1000) 4 255,
        .bcopy (Pointer.ofInt 0) (mallocPtr quietKernel 255) 255,
        .free (mallocPtr quietKernel 255)] := by decide +kernel
  refine (triggerDoubleFetch_copiesInBounds_iff quietKernel (bufferOfSize 255) 0x1000 512 ?_).2
    (Or.inr (Or.inl (by decide +kernel)))
  rw [hlog]
  simp [SizeUnchanged]

/-- A size of 256 in an option buffer of 512 bytes: the field does not change, and 256 bytes are
copied into the allocation of 255. -/
theorem not_copiesInBounds_256 :
    SizeUnchanged 0x1000 ((triggerDoubleFetch quietKernel 0x1000 512).events (bufferOfSize 256)) ∧
    ¬ CopiesInBounds quietKernel
      (triggerDoubleFetch quietKernel 0x1000 512 ⟨0, bufferOfSize 256, []⟩).1
      ((triggerDoubleFetch quietKernel 0x1000 512).events (bufferOfSize 256)) := by
  have hlog : (triggerDoubleFetch quietKernel 0x1000 512).events (bufferOfSize 256) =
      [.malloc (mallocPtr quietKernel 255) 255, .load (dataPtr 0x1000) 4 256,
        .load ((dataPtr 0x1000).add 8) 8 0, .load (dataPtr 0x1000) 4 256,
        .bcopy (Pointer.ofInt 0) (mallocPtr quietKernel 255) 256,
        .free (mallocPtr quietKernel 255)] := by decide +kernel
  have hout : (triggerDoubleFetch quietKernel 0x1000 512 ⟨0, bufferOfSize 256, []⟩).1 =
      .ok KERN_SUCCESS := by rfl
  rw [hlog, hout]
  refine ⟨by simp [SizeUnchanged], ?_⟩
  rintro ⟨⟨hfail, -⟩ | ⟨hle, -⟩, -⟩
  · exact absurd hfail (by decide)
  · exact absurd hle (by decide)

end VulnerableKext.Vulnerable

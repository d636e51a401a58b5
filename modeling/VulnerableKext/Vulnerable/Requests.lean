import VulnerableKext.Lib.Typestate
import VulnerableKext.Vulnerable.DoubleFetch

/-!
# Serving requests

A client can call `setsockopt` on the control any number of times.  Whatever the requests are, and
whatever the rest of the system does in between, the memory that a handler gets from `MALLOC` is
used only until it is freed, and it is freed once, before the next request is served.
-/

namespace VulnerableKext.Vulnerable

open Shared Typestate

/-- A call of `setsockopt` as it reaches the control. -/
structure Request where
  opt : ℤ
  data : ℕ
  dataLen : ℕ
deriving DecidableEq, Repr

/-- Serve one request after the other.  A panic ends this. -/
def serve (k : Kernel) (qs : List Request) : Handler (List ℕ) :=
  each (fun q => setopt k q.opt q.data q.dataLen) qs

/-! ## The heap -/

/-- The use of the heap by the kernel extension. -/
inductive HeapState where
  | idle
  /-- Some memory has been allocated and not yet freed. -/
  | live (p : Pointer)
deriving DecidableEq

/-- The pointers through which an event accesses memory. -/
def Event.pointers : Event → List Pointer
  | .load p _ _ => [p]
  | .bcopy src dst _ => [src, dst]
  | .copyin src dst _ => [src, dst]
  | .copyout src dst _ => [src, dst]
  | _ => []

/-- A pointer into allocated memory belongs to what is live. -/
def HeapState.Permits (t : HeapState) (p : Pointer) : Prop := p.region = .allocation → t = .live p

instance (t : HeapState) (p : Pointer) : Decidable (t.Permits p) :=
  inferInstanceAs (Decidable (_ → _))

/-- The heap is used as it should be: one allocation at a time, that is freed once and not used
when it is not live.  `MALLOC` may return `NULL`. -/
def nextHeap : HeapState → Event → Option HeapState
  | .idle, .malloc p _ => some (if p.addr = 0 then .idle else .live p)
  | .live _, .malloc _ _ => none
  | .idle, .free _ => none
  | .live p, .free q => if q = p then some .idle else none
  | t, e => if ∀ p ∈ e.pointers, t.Permits p then some t else none

section Rules

variable {k : Kernel} {t : HeapState} {E : String → HeapState → Prop} {p : Pointer}

lemma obeys_load {n : ℕ} (hp : t.Permits p) :
    Obeys nextHeap t (load k p n) (fun _ t' => t' = t) E := by
  refine obeys_access fun s => ⟨t, follows_singleton ?_, rfl⟩
  cases t with
  | idle => exact if_pos (List.forall_mem_singleton.2 hp)
  | live q => exact if_pos (List.forall_mem_singleton.2 hp)

lemma obeys_loadKernproc : Obeys nextHeap t (loadKernproc k) (fun _ t' => t' = t) E :=
  obeys_access fun _ => ⟨t, rfl, rfl⟩

/-- Copies between memory that may be accessed. -/
lemma follows_copy {e : Event} {src dst : Pointer} (he : e.pointers = [src, dst])
    (hsrc : t.Permits src) (hdst : t.Permits dst) : Follows nextHeap t [e] t := by
  have hall : ∀ p ∈ e.pointers, t.Permits p := by
    rw [he]
    exact List.forall_mem_cons.2 ⟨hsrc, List.forall_mem_singleton.2 hdst⟩
  refine follows_singleton ?_
  cases e with
  | malloc p n => cases he
  | free p => cases he
  | load p n v => cases he
  | call a b => cases he
  | bcopy src dst n => cases t <;> exact if_pos hall
  | copyin src dst n => cases t <;> exact if_pos hall
  | copyout src dst n => cases t <;> exact if_pos hall

/-- `sooptcopyin` uses the option and the buffer. -/
lemma obeys_sooptcopyin {sopt : Sockopt} {buf : Pointer} {len minlen : ℕ}
    (hval : t.Permits sopt.val) (hbuf : t.Permits buf) :
    Obeys nextHeap t (sooptcopyin k sopt buf len minlen) (fun _ t' => t' = t) E := by
  rw [sooptcopyin]
  refine Obeys.ite (fun _ => obeys_pure rfl) fun _ => ?_
  have hsame : (if len < sopt.valsize then { sopt with valsize := len } else sopt).val =
      sopt.val := by split_ifs <;> rfl
  generalize (if len < sopt.valsize then { sopt with valsize := len } else sopt) = sopt' at *
  rw [← hsame] at hval
  refine obeys_loadKernproc.then_of fun proc => Obeys.ite (fun _ => ?_) fun _ => ?_
  · refine Obeys.then_of (obeys_access fun s => ⟨t, ?_, rfl⟩) fun _ => obeys_pure rfl
    exact follows_copy rfl hval hbuf
  · refine Obeys.then_of (obeys_access fun s => ⟨t, ?_, rfl⟩) fun _ => obeys_pure rfl
    exact follows_copy rfl hval hbuf

lemma obeys_sooptcopyout {sopt : Sockopt} {buf : Pointer} {len : ℕ}
    (hval : t.Permits sopt.val) (hbuf : t.Permits buf) :
    Obeys nextHeap t (sooptcopyout k sopt buf len) (fun _ t' => t' = t) E := by
  rw [sooptcopyout]
  refine Obeys.ite (fun _ => ?_) fun _ => obeys_pure rfl
  refine obeys_loadKernproc.then_of fun proc => Obeys.ite (fun _ => ?_) fun _ => ?_
  · refine Obeys.then_of (obeys_access fun s => ⟨t, ?_, rfl⟩) fun _ => obeys_pure rfl
    exact follows_copy rfl hbuf hval
  · refine Obeys.then_of (obeys_access fun s => ⟨t, ?_, rfl⟩) fun _ => obeys_pure rfl
    exact follows_copy rfl hbuf hval

lemma obeys_malloc {size : ℕ} : Obeys nextHeap .idle (malloc k size)
    (fun p t => p = mallocPtr k size ∧ t = if p.addr = 0 then .idle else .live p) E :=
  Obeys.then_of (obeys_emit rfl rfl) fun _ => obeys_pure ⟨rfl, rfl⟩

lemma obeys_free : Obeys nextHeap (.live p) (free p) (fun _ t' => t' = .idle) E :=
  obeys_emit (if_pos rfl) rfl

/-- A part of a handler that uses an allocation and frees it. -/
lemma obeys_malloc_bind {α : Type} {size : ℕ} {message : String} {f : Pointer → Handler α}
    {Q : α → HeapState → Prop} (hE : ∀ e, E e .idle)
    (hf : Obeys nextHeap (.live (mallocPtr k size)) (f (mallocPtr k size)) Q E) :
    Obeys nextHeap .idle
      (malloc k size >>= fun p => if p.addr = 0 then Prog.halt message else f p) Q E := by
  refine obeys_malloc.bind ?_
  rintro p _ ⟨rfl, rfl⟩
  by_cases h : (mallocPtr k size).addr = 0
  · rw [if_pos h, if_pos h]
    exact obeys_halt (hE _)
  · rw [if_neg h, if_neg h]
    exact hf

end Rules

/-! ## The handlers -/

section Handlers

variable (k : Kernel) (data dataLen : ℕ)

/-- The heap is idle at the end of a call, and at a panic. -/
abbrev KeepsIdle {α : Type} (x : Handler α) : Prop :=
  Obeys nextHeap .idle x (fun _ t => t = .idle) fun _ t => t = .idle

lemma permits_of_region {t : HeapState} {p : Pointer} (h : p.region ≠ .allocation) : t.Permits p :=
  fun hp => absurd hp h

lemma permits_live (p : Pointer) : (HeapState.live p).Permits p := fun _ => rfl

lemma permits_option {t : HeapState} (off : ℕ) : t.Permits ((dataPtr data).add off) :=
  permits_of_region (show Region.optionBuffer ≠ .allocation by decide)

lemma keepsIdle_triggerHeapOverflow : KeepsIdle (triggerHeapOverflow k data dataLen) := by
  refine obeys_loadKernproc.then_of fun proc => obeys_malloc_bind (fun _ => rfl) ?_
  refine (obeys_sooptcopyin (permits_option data 0) (permits_live _)).then_of fun _ => ?_
  exact obeys_free.then_of fun _ => obeys_pure rfl

lemma keepsIdle_triggerInfoLeak : KeepsIdle (triggerInfoLeak k data dataLen) := by
  refine obeys_loadKernproc.then_of fun proc => obeys_malloc_bind (fun _ => rfl) ?_
  refine (obeys_sooptcopyout (permits_option data 0) (permits_live _)).then_of fun _ => ?_
  exact obeys_free.then_of fun _ => obeys_pure rfl

lemma keepsIdle_triggerBufferOverflow : KeepsIdle (triggerBufferOverflow k data dataLen) := by
  refine obeys_loadKernproc.then_of fun proc => Obeys.then_of ?_ fun _ => obeys_pure rfl
  exact obeys_sooptcopyin (permits_option data 0)
    (permits_of_region (show Region.stack ≠ .allocation by decide))

lemma keepsIdle_triggerArbitraryWrite : KeepsIdle (triggerArbitraryWrite k data dataLen) := by
  refine obeys_loadKernproc.then_of fun proc => ?_
  refine (obeys_load (permits_option data 0)).then_of fun writeWhere => ?_
  refine Obeys.then_of ?_ fun _ => obeys_pure rfl
  exact obeys_sooptcopyin (permits_option data 8)
    (permits_of_region (show Region.absolute ≠ .allocation by decide))

/-- The allocation is freed on both ways out. -/
lemma keepsIdle_triggerDoubleFetch : KeepsIdle (triggerDoubleFetch k data dataLen) := by
  refine obeys_malloc_bind (fun _ => rfl) ?_
  refine (obeys_load (permits_option data 0)).then_of fun size => Obeys.ite (fun _ => ?_) fun _ => ?_
  · exact obeys_free.then_of fun _ => obeys_pure rfl
  · refine (obeys_load (permits_option data 8)).then_of fun buffer => ?_
    refine (obeys_load (permits_option data 0)).then_of fun size => ?_
    refine obeys_loadKernproc.then_of fun proc => ?_
    refine (obeys_sooptcopyin (permits_of_region (show Region.absolute ≠ .allocation by decide))
      (permits_live _)).then_of fun _ => ?_
    exact obeys_free.then_of fun _ => obeys_pure rfl

lemma keepsIdle_triggerCrash (a : ℕ) : KeepsIdle (triggerCrash a) := by
  have hcall : Obeys nextHeap .idle (Prog.emit (.call 0x51515151 a) : Handler Unit)
      (fun _ t => t = .idle) fun _ t => t = .idle := obeys_emit rfl rfl
  exact hcall.then_of fun _ => obeys_pure rfl

lemma keepsIdle_setopt (opt : ℤ) : KeepsIdle (setopt k opt data dataLen) := by
  rw [setopt]
  refine Obeys.ite (fun _ => keepsIdle_triggerCrash _) fun _ => ?_
  refine Obeys.ite (fun _ => keepsIdle_triggerHeapOverflow k data dataLen) fun _ => ?_
  refine Obeys.ite (fun _ => keepsIdle_triggerInfoLeak k data dataLen) fun _ => ?_
  refine Obeys.ite (fun _ => keepsIdle_triggerBufferOverflow k data dataLen) fun _ => ?_
  refine Obeys.ite (fun _ => obeys_pure rfl) fun _ => Obeys.ite (fun _ => obeys_pure rfl) fun _ => ?_
  refine Obeys.ite (fun _ => keepsIdle_triggerDoubleFetch k data dataLen) fun _ => ?_
  exact Obeys.ite (fun _ => keepsIdle_triggerArbitraryWrite k data dataLen) fun _ => obeys_pure rfl

end Handlers

end VulnerableKext.Vulnerable

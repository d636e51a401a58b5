import VulnerableKext.Vulnerable.Sockopt

/-!
# The handlers

The handlers of the vulnerable kernel extension, and `setopt`, which calls the one that
the option code names.
-/

namespace VulnerableKext.Vulnerable

open Shared

def CRASH : ℤ := 0x1
def HEAP_OVERFLOW : ℤ := 0x2
def INFO_LEAK : ℤ := 0x3
def BUFFER_OVERFLOW : ℤ := 0x4
def USE_AFTER_FREE : ℤ := 0x5
def INTEGER_OVERFLOW : ℤ := 0x6
def DOUBLE_FETCH : ℤ := 0x7
def ARBITRARY_WRITE : ℤ := 0x8

variable (k : Kernel)

/-- The pointer `data` to the option buffer. -/
def dataPtr (data : ℕ) : Pointer := ⟨.optionBuffer, data, 0⟩

def triggerCrash (a : ℕ) : Handler ℕ := do
  Prog.emit (.call 0x51515151 a)
  return KERN_FAILURE

/-- uninitialized -/
def triggerInfoLeak (data dataLen : ℕ) : Handler ℕ := do
  let kernproc ← loadKernproc k
  let sopt : Sockopt := ⟨.get, dataPtr data, dataLen, kernproc⟩
  let allocation ← malloc k sopt.valsize
  if allocation.addr = 0 then Prog.halt "[info_leak] === Failed to MALLOC"
  else do
    let _ ← sooptcopyout k sopt allocation sopt.valsize
    free allocation
    return KERN_SUCCESS

/-- buffer overflow -/
def triggerBufferOverflow (data dataLen : ℕ) : Handler ℕ := do
  let buffer : Pointer := ⟨.stack, k.stackAddr, 0⟩
  let kernproc ← loadKernproc k
  let sopt : Sockopt := ⟨.get, dataPtr data, dataLen, kernproc⟩
  let _ ← sooptcopyin k sopt buffer sopt.valsize sopt.valsize
  return KERN_SUCCESS

/-- heap overflow -/
def triggerHeapOverflow (data dataLen : ℕ) : Handler ℕ := do
  let kernproc ← loadKernproc k
  let sopt : Sockopt := ⟨.set, dataPtr data, dataLen, kernproc⟩
  let allocation ← malloc k 255
  if allocation.addr = 0 then Prog.halt "[heap_overflow] === Failed to MALLOC ==="
  else do
    let _ ← sooptcopyin k sopt allocation sopt.valsize sopt.valsize
    free allocation
    return KERN_SUCCESS

/-- arbitrary write -/
def triggerArbitraryWrite (data dataLen : ℕ) : Handler ℕ := do
  let stuff := dataPtr data
  let kernproc ← loadKernproc k
  let sopt : Sockopt := ⟨.set, stuff.add 8, dataLen, kernproc⟩
  let writeWhere ← load k stuff 8
  let _ ← sooptcopyin k sopt (Pointer.ofInt writeWhere) sopt.valsize sopt.valsize
  return KERN_SUCCESS

/-- trigger double fetch + heap overflow.  The fields of the structure in the option buffer are
`size`, at offset 0, and `buffer`, at offset 8. -/
def triggerDoubleFetch (data dataLen : ℕ) : Handler ℕ := do
  let allocation ← malloc k 255
  if allocation.addr = 0 then Prog.halt "[heap_overflow] === Failed to MALLOC ==="
  else do
    let size ← load k (dataPtr data) 4
    if 255 < size ∧ dataLen ≤ size then do
      free allocation
      return KERN_FAILURE
    else do
      let buffer ← load k ((dataPtr data).add 8) 8
      let size ← load k (dataPtr data) 4
      let kernproc ← loadKernproc k
      let sopt : Sockopt := ⟨.set, Pointer.ofInt buffer, size, kernproc⟩
      let _ ← sooptcopyin k sopt allocation sopt.valsize sopt.valsize
      free allocation
      return KERN_SUCCESS

/-- trigger integer overflow -/
def triggerIntegerOverflow (_data _dataLen : ℕ) : Handler ℕ := return KERN_SUCCESS

/-- trigger use-after-free -/
def triggerUseAfterFree (_data _dataLen : ℕ) : Handler ℕ := return KERN_SUCCESS

/-- Call the handler for the option. -/
def setopt (opt : ℤ) (data dataLen : ℕ) : Handler ℕ :=
  if opt = CRASH then triggerCrash (opt % 2 ^ 32).toNat
  else if opt = HEAP_OVERFLOW then triggerHeapOverflow k data dataLen
  else if opt = INFO_LEAK then triggerInfoLeak k data dataLen
  else if opt = BUFFER_OVERFLOW then triggerBufferOverflow k data dataLen
  else if opt = USE_AFTER_FREE then triggerUseAfterFree data dataLen
  else if opt = INTEGER_OVERFLOW then triggerIntegerOverflow data dataLen
  else if opt = DOUBLE_FETCH then triggerDoubleFetch k data dataLen
  else if opt = ARBITRARY_WRITE then triggerArbitraryWrite k data dataLen
  else return KERN_SUCCESS

end VulnerableKext.Vulnerable

import VulnerableKext.Lib.Memory
import VulnerableKext.Lib.Shared

/-!
# Socket options

`sooptcopyin` and `sooptcopyout` of `vulnerabilities.c`, and the functions of the kernel that
they and the handlers call.  A pointer remembers which object it was derived from, so that
an access through it can be told from an access to the same address by another way.  The
memory and the variable `kernproc` are shared with the rest of the system, which may change
them before every access.
-/

namespace VulnerableKext.Vulnerable

open Memory Shared

/-! ## The kernel -/

/-- The object that a pointer is derived from: the option buffer of the request, the memory that
`MALLOC` returned, the local array of a handler, or none for an integer made into a pointer. -/
inductive Region where
  | optionBuffer
  | allocation
  | stack
  | absolute
deriving DecidableEq, Repr

/-- A pointer `off` bytes into an object that starts at `base`. -/
structure Pointer where
  region : Region
  base : ℕ
  off : ℕ
deriving DecidableEq, Repr

namespace Pointer

def addr (p : Pointer) : ℕ := (p.base + p.off) % 2 ^ 64

def add (p : Pointer) (n : ℕ) : Pointer := { p with off := p.off + n }

/-- An integer made into a pointer. -/
def ofInt (a : ℕ) : Pointer := ⟨.absolute, 0, a⟩

/-- The bytes of the option buffer among the `n` bytes at `p`, as offsets. -/
def optionBytes (p : Pointer) (n : ℕ) : Set ℕ :=
  {o | p.region = .optionBuffer ∧ p.off ≤ o ∧ o < p.off + n}

end Pointer

/-- What a handler does that can be seen from outside of it. -/
inductive Event where
  | malloc (p : Pointer) (size : ℕ)
  | free (p : Pointer)
  /-- An `n`-byte word is read. -/
  | load (p : Pointer) (n value : ℕ)
  | bcopy (src dst : Pointer) (n : ℕ)
  | copyin (src dst : Pointer) (n : ℕ)
  | copyout (src dst : Pointer) (n : ℕ)
  | call (address argument : ℕ)
deriving DecidableEq, Repr

/-- The state that is shared with the rest of the system. -/
structure SystemState where
  mem : Mem
  kernproc : ℕ

/-- The rest of the system: its changes to the shared state, the addresses that `MALLOC` returns
and that the local array of `trigger_buffer_overflow` has, and the copies from and to a user
process, which give an error code. -/
structure Kernel where
  interfere : ℕ → SystemState → SystemState
  mallocAddr : ℕ → ℕ
  stackAddr : ℕ
  copyinUser : SystemState → (userAddr kernelAddr nbytes : ℕ) → ℕ × SystemState
  copyoutUser : SystemState → (kernelAddr userAddr nbytes : ℕ) → ℕ × SystemState

/-- A part of a handler.  It may end with a panic. -/
abbrev Handler (α : Type) : Type := Prog SystemState Event String α

def KERN_SUCCESS : ℕ := 0
def KERN_FAILURE : ℕ := 5
def EINVAL : ℕ := 22

section Calls

variable (k : Kernel)

/-- The memory that `MALLOC` returns for a size; the address 0 is `NULL`. -/
def mallocPtr (size : ℕ) : Pointer := ⟨.allocation, k.mallocAddr size, 0⟩

/-- `MALLOC` -/
def malloc (size : ℕ) : Handler Pointer := do
  Prog.emit (.malloc (mallocPtr k size) size)
  return mallocPtr k size

/-- `FREE` -/
def free (p : Pointer) : Handler Unit := Prog.emit (.free p)

/-- Read the `n`-byte word at `p`. -/
def load (p : Pointer) (n : ℕ) : Handler ℕ :=
  Prog.access k.interfere fun s => (word s.mem p.addr n, s, [.load p n (word s.mem p.addr n)])

/-- Read the variable `kernproc`. -/
def loadKernproc : Handler ℕ := Prog.access k.interfere fun s => (s.kernproc, s, [])

def bcopy (src dst : Pointer) (n : ℕ) : Handler Unit :=
  Prog.access k.interfere fun s =>
    ((), { s with mem := memcpy s.mem dst.addr src.addr n }, [.bcopy src dst n])

def copyin (src dst : Pointer) (n : ℕ) : Handler ℕ :=
  Prog.access k.interfere fun s =>
    let (error, s) := k.copyinUser s src.addr dst.addr n
    (error, s, [.copyin src dst n])

def copyout (src dst : Pointer) (n : ℕ) : Handler ℕ :=
  Prog.access k.interfere fun s =>
    let (error, s) := k.copyoutUser s src.addr dst.addr n
    (error, s, [.copyout src dst n])

end Calls

/-! ## Copying an option -/

inductive SoptDir where
  | get
  | set
deriving DecidableEq, Repr

/-- `struct sockopt` -/
structure Sockopt where
  dir : SoptDir
  val : Pointer
  valsize : ℕ
  p : ℕ
deriving DecidableEq, Repr

/-- More than `len` bytes are ignored, and fewer than `minlen` are refused. -/
def sooptcopyin (k : Kernel) (sopt : Sockopt) (buf : Pointer) (len minlen : ℕ) :
    Handler (ℕ × Sockopt) :=
  if sopt.valsize < minlen then return (EINVAL, sopt)
  else do
    let sopt := if len < sopt.valsize then { sopt with valsize := len } else sopt
    let kernproc ← loadKernproc k
    if sopt.p ≠ kernproc then do
      let error ← copyin k sopt.val buf sopt.valsize
      return (error, sopt)
    else do
      bcopy k sopt.val buf sopt.valsize
      return (0, sopt)

/-- The value is truncated to fit in the user's buffer, which may be absent. -/
def sooptcopyout (k : Kernel) (sopt : Sockopt) (buf : Pointer) (len : ℕ) :
    Handler (ℕ × Sockopt) := do
  let valsize := if len < sopt.valsize then len else sopt.valsize
  let sopt := { sopt with valsize := valsize }
  if sopt.val.addr ≠ 0 then do
    let kernproc ← loadKernproc k
    if sopt.p ≠ kernproc then do
      let error ← copyout k buf sopt.val valsize
      return (error, sopt)
    else do
      bcopy k buf sopt.val valsize
      return (0, sopt)
  else return (0, sopt)

end VulnerableKext.Vulnerable

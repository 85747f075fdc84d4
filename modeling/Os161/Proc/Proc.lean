import Os161.Include.Kern
import Os161.Lib.Exec
import Os161.Lib.Lts

/-!
# Processes (`proc/proc.c`, `syscall/proc_syscalls.c`, `thread/spl.c`)

`proc_create` gives a new `struct proc` the value of the static `next_pid`, which
`get_next_pid` then increments; `proc_bootstrap` creates `kproc` first.
`proc_create_runprogram` counts the new process in `proc_count` and `proc_destroy` uncounts it;
`sys_fork` creates its child with `proc_create_runprogram`.

The state holds the `struct proc`s in the order they were created, a destroyed one as `none`
(the creation number stands for the address `kmalloc` gave); the creation number of `kproc`;
`next_pid`; `proc_count`; `t_curspl` and `t_iplhigh_count` of the thread making the call; and
the blocks `sys_fork` allocated that nothing has freed. Of a `struct proc` only `p_pid` is read
by the modelled code.

What the environment decides is an argument: whether each `kmalloc` and `kstrdup` succeeds, and
what `as_copy` and `thread_fork` return. The console `vfs_open` of `proc_create_runprogram`
panics if it fails and is taken to succeed; the console and `p_cwd` references are not
modelled. `proc_count_mutex` makes each update of `proc_count` one step.
-/

namespace Os161

open Exec

/-! ### `spl.h` -/

/-- `IPL_NONE`: interrupts on. -/
def IPL_NONE : Nat := 0

/-- `IPL_HIGH`: interrupts off. -/
def IPL_HIGH : Nat := 1

/-- `struct proc`, with the one field the modelled code reads. -/
structure Proc where
  pPid : Int
  deriving DecidableEq, Repr

/-- What `sys_fork` allocates for its child. -/
inductive KBlock where
  | trapframe
  | filetable
  deriving DecidableEq, Repr

/-- The process table, the counters of `proc.c`, the spl of the calling thread and the blocks
`sys_fork` left allocated. -/
structure ProcSys where
  procs : List (Option Proc)
  kproc : Option Nat
  nextPid : Int
  procCount : Nat
  tCurspl : Nat
  tIplhighCount : Nat
  kblocks : List KBlock
  deriving DecidableEq, Repr

namespace ProcSys

/-- The live `struct proc` created `p`-th. -/
def proc (s : ProcSys) (p : Nat) : Option Proc := s.procs[p]?.join

/-! ### `thread/spl.c` -/

/-- `splraise(oldspl, newspl)`: the only configuration is `IPL_NONE` to `IPL_HIGH`. -/
def splraise (oldspl newspl : Nat) : Exec Int ProcSys Unit := do
  assert (oldspl = IPL_NONE)
  assert (newspl = IPL_HIGH)
  modify fun s => { s with tIplhighCount := s.tIplhighCount + 1 }

/-- `spllower(oldspl, newspl)`. -/
def spllower (oldspl newspl : Nat) : Exec Int ProcSys Unit := do
  assert (oldspl = IPL_HIGH)
  assert (newspl = IPL_NONE)
  modify fun s => { s with tIplhighCount := s.tIplhighCount - 1 }

/-- `splx(spl)`: set the level, returning the old one. -/
def splx (spl : Nat) : Exec Int ProcSys Nat := do
  let s ← get
  if s.tCurspl < spl then
    -- turning interrupts off
    splraise s.tCurspl spl
    modify fun s => { s with tCurspl := spl }
    return s.tCurspl
  else if spl < s.tCurspl then
    -- turning interrupts on
    modify fun s => { s with tCurspl := spl }
    spllower s.tCurspl spl
    return s.tCurspl
  else return spl

/-- `splhigh()`. -/
def splhigh : Exec Int ProcSys Nat := splx IPL_HIGH

/-- The check `mips_trap` makes before `syscall`: interrupts were on in user mode. -/
def syscallEntry : Exec Int ProcSys Unit := do
  let s ← get
  assert (s.tCurspl = 0)
  assert (s.tIplhighCount = 0)

/-! ### `proc/proc.c` -/

/-- `get_next_pid()`: `return next_pid++`. -/
def getNextPid : Exec Int ProcSys Int :=
  modifyGet fun s => (s.nextPid, { s with nextPid := s.nextPid + 1 })

/-- `proc_create(name)`: the new process, or `none` for `NULL` when the `kmalloc` of the proc
(`procOk`) or the `kstrdup` of its name (`nameOk`) fails. -/
def procCreate (procOk nameOk : Bool) : Exec Int ProcSys (Option Nat) := do
  if !procOk then return none
  -- a failed `kstrdup` is followed by `kfree(proc)`
  if !nameOk then return none
  let pid ← getNextPid
  modifyGet fun s => (some s.procs.length, { s with procs := s.procs ++ [some ⟨pid⟩] })

/-- `proc_destroy(proc)`. -/
def procDestroy (p : Nat) : Exec Int ProcSys Unit := do
  let s ← get
  -- `KASSERT(proc != NULL)`, and a `proc` destroyed twice is undefined behaviour
  assert (s.proc p).isSome
  assert (s.kproc ≠ some p)
  set { s with procs := s.procs.set p none }
  let s ← get
  assert (0 < s.procCount)
  set { s with procCount := s.procCount - 1 }

/-- `proc_bootstrap()`: `kproc`, and `proc_count = 0`. -/
def procBootstrap (procOk nameOk : Bool) : Exec Int ProcSys Unit := do
  match ← procCreate procOk nameOk with
  | none => halt  -- "proc_create for kproc failed"
  | some p => modify fun s => { s with kproc := some p, procCount := 0 }

/-- `proc_create_runprogram(name)`. -/
def procCreateRunprogram (procOk nameOk : Bool) : Exec Int ProcSys (Option Nat) := do
  match ← procCreate procOk nameOk with
  | none => return none
  | some p =>
    modify fun s => { s with procCount := s.procCount + 1 }
    return some p

/-! ### `syscall/proc_syscalls.c` -/

/-- `sys_getpid(&retval)` in the process `cur`. -/
def sysGetpid (cur : Nat) : Exec Int ProcSys Int := do
  match (← get).proc cur with
  | some p => return p.pPid
  | none => halt

/-- What the environment decides during one `sys_fork`. -/
structure ForkEnv where
  /-- `kmalloc` of the child's trapframe succeeds. -/
  trapframe : Bool
  /-- `kmalloc` of the child's `struct proc` succeeds. -/
  proc : Bool
  /-- `kstrdup` of its name succeeds. -/
  name : Bool
  /-- What `as_copy` returns. -/
  asCopy : Int
  /-- `kmalloc` of the child's filetable succeeds. -/
  filetable : Bool
  /-- What `thread_fork` returns. -/
  threadFork : Int
  deriving DecidableEq, Repr

/-- `kmalloc` of a block for the child: `false` for `NULL`. -/
def kmallocBlock (ok : Bool) (b : KBlock) : Exec Int ProcSys Bool := do
  if ok then modify fun s => { s with kblocks := b :: s.kblocks }
  return ok

/-- `sys_fork(tf, &retval)`: the child's pid, or the error. The trapframe and the filetable go
to the child thread, which frees the trapframe in `enter_forked_process`. -/
def sysFork (env : ForkEnv) : Exec Int ProcSys Int := do
  let spl ← splhigh
  if !(← kmallocBlock env.trapframe .trapframe) then fail ENOMEM
  let some child ← procCreateRunprogram env.proc env.name | fail ENOMEM
  -- "No address space defined"
  if env.asCopy ≠ 0 then halt
  -- "Could not create space for FileTable"
  if !(← kmallocBlock env.filetable .filetable) then halt
  let _ ← splx spl
  if env.threadFork ≠ 0 then fail env.threadFork
  match (← get).proc child with
  | some p => return p.pPid
  | none => halt

end ProcSys

open ProcSys

/-! ### Runs -/

/-- The calls that create and destroy processes after `proc_bootstrap`. -/
inductive ProcEvent where
  /-- `proc_create_runprogram` from the kernel menu, with the outcomes of its allocations. -/
  | createRunprogram (procOk nameOk : Bool)
  /-- `sys_fork`, entered from a user thread. -/
  | fork (env : ForkEnv)
  /-- `sys__exit` of the process `p`, which ends in `proc_destroy(p)`. -/
  | exit (p : Nat)
  deriving DecidableEq, Repr

/-- The state before boot: no process, and `next_pid` a zeroed static. -/
def procBoot : ProcSys :=
  { procs := [], kproc := none, nextPid := 0, procCount := 0, tCurspl := IPL_NONE,
    tIplhighCount := 0, kblocks := [] }

/-- The system from `proc_bootstrap` on. A call that returns, with a value or an error, is a
step; one that halts is not. A thread enters `sys_fork` from `mips_trap`, which asserts that it
has interrupts on: each fork starts at `IPL_NONE`, whatever level an earlier call left. -/
def procSystem : Lts.System ProcSys ProcEvent where
  init := final (procBootstrap true true procBoot)
  next s
    | .createRunprogram procOk nameOk => returned (procCreateRunprogram procOk nameOk s)
    | .fork env => returned (sysFork env { s with tCurspl := IPL_NONE, tIplhighCount := 0 })
    | .exit p => returned (procDestroy p s)

end Os161

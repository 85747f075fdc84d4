import Os161.Include.Kern
import Os161.Lib.Lts

/-!
# Per-thread filetables (`syscall/file.c`, `include/file.h`)

A thread's `t_filetable` points to a `struct filetable`: `__OPEN_MAX` slots, each `NULL` or a
pointer to a kmalloc'd `struct filetable_entry` that records the open vnode, the offset, the
open flags and `filetable_count`, the number of descriptors that share the entry
(`include/file.h`). Three entry points change the slots:

* `filetableInit` (`filetable_init`, run by `runprogram` in a fresh kernel thread): slots 0, 1
  and 2 share one entry for the console, with count 3;
* `fileOpen` (`file_open`): the lowest `NULL` slot gets a new entry with count 1;
* `fileClose` (`file_close`, also `sys_close`): the count drops by one and the entry is freed,
  and its vnode closed, when it reaches zero;

and `sysFork` (`sys_fork` with `enter_forked_process`) gives the child a byte copy of the
parent's table.

The kernel heap of entries is a list indexed by address; `kmalloc` returns the next address
and `kfree` leaves `none` behind, so a slot that still holds a freed address is visible in the
state. Reading a freed entry is undefined behaviour in C; the functions return `none` there.
`vfs_open` is outside this layer: what it returned is part of the event.
-/

namespace Os161

/-- `struct filetable_entry`: what one open of a file shares among the descriptors that refer
to it. The vnode is a pointer, `none` being `NULL`. -/
structure FiletableEntry where
  filetableVnode : Option Nat
  filetablePos : Int
  filetableFlags : Int
  filetableCount : Int
  deriving DecidableEq, Repr

/-- `struct filetable`: exactly `__OPEN_MAX` slots, each `NULL` or the address of an entry. -/
structure Filetable where
  filetableEntries : List (Option Nat)
  length_eq : filetableEntries.length = OPEN_MAX

namespace Filetable

instance : DecidableEq Filetable := fun a b =>
  decidable_of_iff (a.filetableEntries = b.filetableEntries) (by
    cases a; cases b; simp)

/-- Store `v` in slot `fd`. -/
def set (ft : Filetable) (fd : Nat) (v : Option Nat) : Filetable :=
  ⟨ft.filetableEntries.set fd v, by simp [ft.length_eq]⟩

/-- The number of slots of `ft` that hold the address `p`. -/
def refs (ft : Filetable) (p : Nat) : Nat := ft.filetableEntries.count (some p)

@[simp] theorem set_filetableEntries (ft : Filetable) (fd : Nat) (v : Option Nat) :
    (ft.set fd v).filetableEntries = ft.filetableEntries.set fd v := rfl

end Filetable

/-- The state of the file layer: the kmalloc'd entries by address (`none` once freed), the
`t_filetable` of each thread by thread id (`none` is `NULL`), and the vnodes handed to
`vfs_close`, most recent first. -/
structure FileSys where
  heap : List (Option FiletableEntry)
  tables : List (Option Filetable)
  closed : List Nat

namespace FileSys

/-- `curthread->t_filetable` for thread `t`, when the thread exists and the pointer is not
`NULL`. -/
def filetable (s : FileSys) (t : Nat) : Option Filetable := s.tables[t]?.join

/-- The number of slots, over every live filetable, that hold the address `p`. -/
def refs (s : FileSys) (p : Nat) : Nat :=
  (s.tables.map fun o => o.elim 0 fun ft => ft.refs p).sum

end FileSys

/-- `filetable_init()` run by thread `t`. `consVnode` is what `vfs_open("con:", O_RDWR, 0, ..)`
stored in `cons_vnode`: its result is not checked, so a failed open leaves `NULL` there. The
three standard descriptors share one entry whose count is 3. -/
def filetableInit (t : Nat) (consVnode : Option Nat) (s : FileSys) : FileSys :=
  let p := s.heap.length
  let e : FiletableEntry :=
    { filetableVnode := consVnode, filetablePos := 0, filetableFlags := O_RDWR,
      filetableCount := 3 }
  let ft : Filetable :=
    ⟨[some p, some p, some p] ++ List.replicate (OPEN_MAX - 3) none, by simp [OPEN_MAX]⟩
  { s with heap := s.heap ++ [some e], tables := s.tables.set t (some ft) }

/-- `file_open(filename, flags, mode, &retfd)` run by thread `t`. `vfsOpen` is the result of
`vfs_open` with the vnode it stored in `new_vnode`. On success the result is `.ok fd`
(`0` returned, `*retfd = fd`); otherwise `.error` carries the return value. `none`: the
thread's filetable pointer is `NULL`. -/
def fileOpen (t : Nat) (flags : Int) (vfsOpen : Int × Option Nat) (s : FileSys) :
    Option (FileSys × Except Int Nat) :=
  let how := Int.land flags O_ACCMODE
  if how ≠ O_RDONLY ∧ how ≠ O_WRONLY ∧ how ≠ O_RDWR then some (s, .error EINVAL) else
  match s.filetable t with
  | none => none
  | some ft =>
    -- the first `NULL` slot, or `__OPEN_MAX` when there is none
    let fd := ft.filetableEntries.findIdx Option.isNone
    if fd = OPEN_MAX then some (s, .error EMFILE) else
    if 0 < vfsOpen.1 then some (s, .error vfsOpen.1) else
    let p := s.heap.length
    let e : FiletableEntry :=
      { filetableVnode := vfsOpen.2, filetablePos := 0, filetableFlags := flags,
        filetableCount := 1 }
    some ({ s with heap := s.heap ++ [some e],
                   tables := s.tables.set t (some (ft.set fd (some p))) }, .ok fd)

/-- `file_close(fd)` run by thread `t`, returning `0` or `EBADF`. `none`: the filetable
pointer is `NULL`, or the slot holds the address of a freed entry. -/
def fileClose (t : Nat) (fd : Int) (s : FileSys) : Option (FileSys × Int) :=
  match s.filetable t with
  | none => none
  | some ft =>
    if fd < 0 ∨ OPEN_MAX ≤ fd then some (s, EBADF) else
    match ft.filetableEntries[fd.toNat]?.join with
    | none => some (s, EBADF)
    | some p =>
      match s.heap[p]?.join with
      | none => none
      | some e =>
        match e.filetableVnode with
        | none => some (s, EBADF)
        | some vn =>
          let tables := s.tables.set t (some (ft.set fd.toNat none))
          if e.filetableCount - 1 = 0 then
            some ({ heap := s.heap.set p none, tables, closed := vn :: s.closed }, 0)
          else
            some ({ s with heap := s.heap.set p (some { e with
                    filetableCount := e.filetableCount - 1 }), tables }, 0)

/-- The filetable side of `sys_fork` by thread `t`: the child thread gets a `memcpy` of the
parent's table (copied again onto its stack by `enter_forked_process`). `ok` says whether the
allocations and `thread_fork` succeeded; a failed fork creates no thread. `none`: the parent's
filetable pointer is `NULL`. -/
def sysFork (t : Nat) (ok : Bool) (s : FileSys) : Option FileSys :=
  if ok then (s.filetable t).map fun ft => { s with tables := s.tables ++ [some ft] }
  else some s

/-! ### `syscall/file_syscalls.c` -/

/-- The transfer of `sys_write` and `sys_read` by thread `t`: `EBADF` unless `fd` is a slot
that holds an entry with a vnode; else `VOP_WRITE` or `VOP_READ` with a uio of `len` bytes at
the entry's `filetable_pos` (`mk_useruio`). `vop vn pos len` is what the vnode layer did: an
error, or the `uio_resid` it left. On success `*retval = len - uio_resid` and the position
moves by `*retval`. `none`: the filetable pointer is `NULL`, or the slot holds the address of
a freed entry. -/
def fileTransfer (t : Nat) (fd : Int) (len : Nat) (vop : Nat → Int → Nat → Except Int Nat)
    (s : FileSys) : Option (FileSys × Except Int Int) :=
  match s.filetable t with
  | none => none
  | some ft =>
    if fd < 0 ∨ OPEN_MAX ≤ fd then some (s, .error EBADF) else
    match ft.filetableEntries[fd.toNat]?.join with
    | none => some (s, .error EBADF)
    | some p =>
      match s.heap[p]?.join with
      | none => none
      | some e =>
        match e.filetableVnode with
        | none => some (s, .error EBADF)
        | some vn =>
          match vop vn e.filetablePos len with
          | .error r => some (s, .error r)
          | .ok resid =>
            let retval : Int := (len : Int) - resid
            some ({ s with heap := s.heap.set p (some
              { e with filetablePos := e.filetablePos + retval }) }, .ok retval)

/-- `sys_write(fd, buf, len, &retval)` run by thread `t`, with `VOP_WRITE`'s outcome
`vopWrite`. -/
def sysWrite (t : Nat) (fd : Int) (len : Nat) (vopWrite : Nat → Int → Nat → Except Int Nat)
    (s : FileSys) : Option (FileSys × Except Int Int) :=
  fileTransfer t fd len vopWrite s

/-- `sys_read(fd, buf, size, &retval)` run by thread `t`, with `VOP_READ`'s outcome
`vopRead`. It releases the filetable spinlock around `VOP_READ`; the layer is modelled one call
at a time, so that makes no difference here. -/
def sysRead (t : Nat) (fd : Int) (size : Nat) (vopRead : Nat → Int → Nat → Except Int Nat)
    (s : FileSys) : Option (FileSys × Except Int Int) :=
  fileTransfer t fd size vopRead s

/-- The calls that reach the file layer. `progthread` is a new kernel thread (its
`t_filetable` is `NULL` from `thread_create`) that runs `runprogram`, hence `filetable_init`. -/
inductive FileEvent where
  | progthread (consVnode : Option Nat)
  | fileOpen (t : Nat) (flags : Int) (vfsOpen : Int × Option Nat)
  | fileClose (t : Nat) (fd : Int)
  | sysFork (t : Nat) (ok : Bool)

/-- The file layer as a transition system, from boot (no threads, no entries). -/
def fileSystem : Lts.System FileSys FileEvent where
  init := { heap := [], tables := [], closed := [] }
  next s
    | .progthread c => some (filetableInit s.tables.length c { s with tables := s.tables ++ [none] })
    | .fileOpen t flags v => (fileOpen t flags v s).map Prod.fst
    | .fileClose t fd => (fileClose t fd s).map Prod.fst
    | .sysFork t ok => sysFork t ok s

end Os161

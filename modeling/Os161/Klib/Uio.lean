import Os161.Include.Kern
import Os161.Lib.Bytes
import Os161.Lib.Exec
import Os161.Lib.Word

/-!
# Data transfer between the kernel and a described memory region (`lib/uio.c`)

A `struct uio` describes where the data of a read or a write comes from or goes to: a list of
iovecs, the offset in the object read or written, and the bytes still to transfer. `uiomove`
copies between a kernel buffer and the iovecs and moves the uio along; `uiomovezeros` moves
zeros. User-space iovecs go through `copyin`/`copyout` of `vm/copyinout.c`, which is modelled
here with `copystr`, `copyinstr` and `copyoutstr`; the address space behind a user pointer is a
byte buffer, so the page faults that make `memcpy` fail on an unmapped page are not modelled
(every user page is mapped).

An iovec carries the memory its pointer points into, so that a caller finds its buffer in the
uio after the transfer. `uioPast` keeps the iovecs that `uio_iov++` moved past, for the same
reason; the source has only the pointer.
-/

namespace Os161

open Bytes Exec

/-- `enum uio_rw`. -/
inductive UioRw where
  /-- `UIO_READ`: from the kernel to the iovecs. -/
  | read
  /-- `UIO_WRITE`: from the iovecs to the kernel. -/
  | write
  deriving DecidableEq, Repr

/-- `enum uio_seg`. -/
inductive UioSeg where
  | userispace
  | userspace
  | sysspace
  deriving DecidableEq, Repr

/-- `struct iovec`: the memory `iov_base` points into, `iov_base` and `iov_len`. -/
structure Iovec where
  iovMem : Buf
  iovBase : Nat
  iovLen : Nat

/-- `struct uio`: `uio_iov[0 .. uio_iovcnt - 1]`, `uio_offset` (an `off_t`), `uio_resid` (a
`size_t`), `uio_segflg` and `uio_rw`. -/
structure Uio where
  uioIov : List Iovec
  uioPast : List Iovec
  uioOffset : Int
  uioResid : Nat
  uioSegflg : UioSeg
  uioRw : UioRw

namespace Uio

/-- Every iovec of the uio, in order. -/
def iovecs (u : Uio) : List Iovec := u.uioPast.reverse ++ u.uioIov

/-- The memory of the first iovec: the caller's buffer of a uio made by `uio_kinit`. -/
def buf (u : Uio) : Buf := (u.iovecs.head?.map Iovec.iovMem).getD zeros

end Uio

/-! ### `vm/copyinout.c` -/

/-- `USERSPACETOP` (`MIPS_KSEG0`). -/
def USERSPACETOP : Nat := 0x80000000

/-- `copycheck(userptr, len, &stoplen)`: `EFAULT` if the region wraps around or starts in the
kernel, else the length of the part of it below `USERSPACETOP` (`vaddr_t` is 32 bits). -/
def copycheck (userptr len : Nat) : Except Int Nat :=
  let bot := userptr
  let top := Word.ofInt 32 ((bot : Int) + len - 1)
  if top < bot then .error EFAULT
  else if USERSPACETOP ≤ bot then .error EFAULT
  else if USERSPACETOP ≤ top then .ok (USERSPACETOP - bot)
  else .ok len

/-- `copyin(usersrc, dest + d, len)`: the new contents of `dest`. -/
def copyin (user : Buf) (usersrc : Nat) (dest : Buf) (d len : Nat) : Except Int Buf :=
  match copycheck usersrc len with
  | .error e => .error e
  | .ok stoplen => if stoplen ≠ len then .error EFAULT else .ok (copy dest d user usersrc len)

/-- `copyout(src + s, userdest, len)`: the new contents of the user memory. -/
def copyout (src : Buf) (s : Nat) (user : Buf) (userdest len : Nat) : Except Int Buf :=
  match copycheck userdest len with
  | .error e => .error e
  | .ok stoplen => if stoplen ≠ len then .error EFAULT else .ok (copy user userdest src s len)

/-- The loop of `copystr`, from byte `i` with `k` rounds left: `src + s` is copied to
`dest + d` up to and with the first NUL, while `i < maxlen` and `i < stoplen`. The new
contents of `dest`, and `gotlen` once the NUL was copied. -/
def copystrLoop (dest : Buf) (d : Nat) (src : Buf) (s maxlen stoplen : Nat) :
    Nat → Nat → Buf × Option Nat
  | _, 0 => (dest, none)
  | i, k + 1 =>
    if i < maxlen ∧ i < stoplen then
      let dest := Function.update dest (d + i) (src (s + i))
      if src (s + i) = 0 then (dest, some (i + 1))
      else copystrLoop dest d src s maxlen stoplen (i + 1) k
    else (dest, none)

/-- `copystr(dest + d, src + s, maxlen, stoplen, &gotlen)`: the new contents of `dest`, and
`gotlen` or the error. The loop runs at most `maxlen` rounds. -/
def copystr (dest : Buf) (d : Nat) (src : Buf) (s maxlen stoplen : Nat) : Buf × Except Int Nat :=
  match copystrLoop dest d src s maxlen stoplen 0 maxlen with
  | (dest, some gotlen) => (dest, .ok gotlen)
  -- ran into the user-kernel boundary, or out of space
  | (dest, none) => (dest, .error (if stoplen < maxlen then EFAULT else ENAMETOOLONG))

/-- `copyinstr(usersrc, dest + d, len, &actual)`: the new contents of `dest`, and `actual` or
the error. -/
def copyinstr (user : Buf) (usersrc : Nat) (dest : Buf) (d len : Nat) : Buf × Except Int Nat :=
  match copycheck usersrc len with
  | .error e => (dest, .error e)
  | .ok stoplen => copystr dest d user usersrc len stoplen

/-- `copyoutstr(src + s, userdest, len, &actual)`: the new contents of the user memory, and
`actual` or the error. -/
def copyoutstr (src : Buf) (s : Nat) (user : Buf) (userdest len : Nat) : Buf × Except Int Nat :=
  match copycheck userdest len with
  | .error e => (user, .error e)
  | .ok stoplen => copystr user userdest src s len stoplen

/-! ### `uiomove` -/

/-- The body of `uiomove`'s `switch`: move `size` bytes between `ptr + p` and the iovec, and
advance the iovec. The new kernel buffer and iovec. -/
def uioTransfer (seg : UioSeg) (rw : UioRw) (ptr : Buf) (p size : Nat) (iov : Iovec) :
    Except Int (Buf × Iovec) :=
  let next (mem : Buf) : Iovec :=
    { iovMem := mem, iovBase := iov.iovBase + size, iovLen := iov.iovLen - size }
  match seg, rw with
  | .sysspace, .read => .ok (ptr, next (copy iov.iovMem iov.iovBase ptr p size))
  | .sysspace, .write => .ok (copy ptr p iov.iovMem iov.iovBase size, next iov.iovMem)
  | _, .read => (copyout ptr p iov.iovMem iov.iovBase size).map fun mem => (ptr, next mem)
  | _, .write => (copyin iov.iovMem iov.iovBase ptr p size).map fun ptr' => (ptr', next iov.iovMem)

/-- The `while` loop of `uiomove(ptr + p, n, uio)`, one iovec per round; `k` is `uio_iovcnt`.
A round moves `min(iov_len, n)` bytes from the current iovec. If the loop goes on after that,
the iovec is used up (the round moved all of `iov_len`, as it moved less than `n`), so the
source's next pass finds `size == 0` and does `uio_iov++`, which panics with no iovec left. -/
def uiomoveLoop (ptr : Buf) (p n : Nat) : Nat → Exec Int Uio Buf
  | 0 => do
    let u ← get
    -- no iovec left to read: `uio_iov` points past the array
    if n = 0 ∨ u.uioResid = 0 then pure ptr else halt
  | k + 1 => do
    let u ← get
    if n = 0 ∨ u.uioResid = 0 then return ptr
    match u.uioIov with
    | [] => halt
    | iov :: rest =>
      let size := min iov.iovLen n
      let ptr ← if size = 0 then pure ptr else do
        let (ptr', iov') ← ofExcept (uioTransfer u.uioSegflg u.uioRw ptr p size iov)
        set ({ u with
          uioIov := iov' :: rest
          uioResid := Word.sub 32 u.uioResid size
          uioOffset := u.uioOffset + size } : Uio)
        pure ptr'
      let u ← get
      if n - size = 0 ∨ u.uioResid = 0 then return ptr
      match u.uioIov with
      | [] => halt
      | iov :: rest =>
        if rest = [] then halt  -- "uiomove: ran out of buffers"
        else do
          set ({ u with uioIov := rest, uioPast := iov :: u.uioPast } : Uio)
          uiomoveLoop ptr (p + size) (n - size) k

/-- `uiomove(ptr + p, n, uio)`: the new contents of the kernel buffer. -/
def uiomove (ptr : Buf) (p n : Nat) : Exec Int Uio Buf := do
  let u ← get
  uiomoveLoop ptr p n u.uioIov.length

/-- The loop of `uiomovezeros`: `k` rounds of at most 16 bytes from `static char zeros[16]`. -/
def uiomovezerosLoop : Nat → Nat → Exec Int Uio Unit
  | 0, _ => pure ()
  | k + 1, n => do
    let amt := min 16 n
    let _ ← uiomove zeros 0 amt
    uiomovezerosLoop k (n - amt)

/-- `uiomovezeros(n, uio)`: its loop runs `DIVROUNDUP(n, 16)` times. -/
def uiomovezeros (n : Nat) : Exec Int Uio Unit := do
  let u ← get
  assert (u.uioRw = .read)
  uiomovezerosLoop ((n + 15) / 16) n

/-- `uio_kinit(&iov, &u, kbuf, len, pos, rw)`. -/
def uioKinit (kbuf : Buf) (len : Nat) (pos : Int) (rw : UioRw) : Uio where
  uioIov := [{ iovMem := kbuf, iovBase := 0, iovLen := len }]
  uioPast := []
  uioOffset := pos
  uioResid := len
  uioSegflg := .sysspace
  uioRw := rw

end Os161

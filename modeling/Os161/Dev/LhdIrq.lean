import Os161.Dev.Lhd
import Os161.Lib.Lts

/-!
# The disk's requests from many threads (`dev/lamebus/lhd.c`)

`lhd_io` is not called under `vfs_biglock` when a device vnode reads or writes the raw disk
(`dev_read`, `dev_write`), so threads may be in it at once. For each sector it `P`s `lh_clear`
(created with count 1), fills the card's buffer on a write, writes the sector number to
`LHD_REG_SECT` and the start code `statval` to `LHD_REG_STAT`, and `P`s `lh_done` (count 0).
The card works on the sector and ends with a status code, `LHD_OK`, `LHD_INVSECT` or
`LHD_MEDIA`, with the write bit of the request, and interrupts; `lhd_irq` reads the status,
writes 0 to acknowledge it, and `lhd_iodone` stores `lhd_code_to_errno` of it in `lh_result`
and `V`s `lh_done`. The thread then reads `lh_result`, empties the card's buffer into the uio on
a successful read, and `V`s `lh_clear`.

The model is a transition system (`lhdIoSystem`) over any number of threads, each in its own
call of `lhd_io` (`LhdIoFrame`: where it is, its uio and its locals). The events are a call of
`lhd_io`, the next step of a thread (`lhdIoRun`, one access of the shared state each), the card
finishing its operation, and `lhd_irq`. A semaphore is its count: `P` is enabled when it is
positive. The card (`LhdCard`) is the disk of `Os161.Dev.Lhd` with its two registers: it finishes
an operation with the outcome `lhdHardware` gives it (`LhdCard.finish_hardware`), and it takes
a new sector number or start code only when it is not working and has no completion waiting
to be acknowledged; a write at another time is not enabled, as what the card would do with it
is not modelled. An interrupt of the card is taken by one CPU at a time, so `lhd_irq` is one
step. A `uiomove` that halts halts the thread's step.
-/

namespace Os161

open Bytes Exec

/-! ### The card -/

/-- `LHD_IDLE`. -/
def LHD_IDLE : ℕ := 0
/-- `LHD_WORKING`. -/
def LHD_WORKING : ℕ := 1
/-- `LHD_OK`. -/
def LHD_OK : ℕ := 4
/-- `LHD_INVSECT`. -/
def LHD_INVSECT : ℕ := 12
/-- `LHD_MEDIA`. -/
def LHD_MEDIA : ℕ := 20
/-- `LHD_ISWRITE`, or'ed into a status for a write. -/
def LHD_ISWRITE : ℕ := 2
/-- `LHD_STATEMASK`, which masks out `LHD_ISWRITE`. -/
def LHD_STATEMASK : ℕ := 0x1d

/-- `lhd_code_to_errno(lh, code)`. -/
def lhdCodeToErrno (code : ℕ) : Int :=
  if code &&& LHD_STATEMASK = LHD_OK then 0
  else if code &&& LHD_STATEMASK = LHD_INVSECT then EINVAL
  else if code &&& LHD_STATEMASK = LHD_MEDIA then EIO
  else EAGAIN  -- "lhd%d: Unknown result code %d"

/-- The card: the disk behind it (its sectors, size, buffer and media outcomes), and its
registers `LHD_REG_STAT` and `LHD_REG_SECT`. -/
structure LhdCard where
  disk : Lhd
  stat : ℕ
  sect : ℕ

namespace LhdCard

/-- The card finishes the operation it works on, on the sector in `LHD_REG_SECT`: a sector
past the end is `LHD_INVSECT`, a media error `LHD_MEDIA`, and otherwise the transfer is done and
the status is `LHD_OK`; the write bit of the request stays in the status. -/
def finish (c : LhdCard) : Option LhdCard :=
  if c.stat &&& LHD_STATEMASK = LHD_WORKING then
    let w := c.stat &&& LHD_ISWRITE
    let d := c.disk
    if d.dBlocks ≤ c.sect then some { c with stat := LHD_INVSECT ||| w }
    else match d.lhMedia with
      | true :: rest => some { c with disk := { d with lhMedia := rest }, stat := LHD_MEDIA ||| w }
      | media =>
        let d := { d with lhMedia := media.drop 1 }
        some { c with
          disk := if w = 0 then { d with lhBuf := d.sectors c.sect }
            else { d with sectors := Function.update d.sectors c.sect d.lhBuf }
          stat := LHD_OK ||| w }
  else none

/-- `lhd_wreg(lh, LHD_REG_SECT, v)`, which the card takes while it is idle. -/
def writeSect (c : LhdCard) (v : ℕ) : Option LhdCard :=
  if c.stat = LHD_IDLE then some { c with sect := v } else none

/-- `lhd_wreg(lh, LHD_REG_STAT, statval)`: the card starts the operation; it takes one only
while it is idle. -/
def start (c : LhdCard) (statval : ℕ) : Option LhdCard :=
  if c.stat = LHD_IDLE then some { c with stat := statval } else none

end LhdCard

/-! ### The driver -/

/-- The driver's shared state: the card, the counts of `lh_clear` and `lh_done`, and
`lh_result`. -/
structure LhdSoftc where
  card : LhdCard
  clear : ℕ
  done : ℕ
  result : Int

/-- `lhd_irq(lh)`, with the call of `lhd_iodone` in it. -/
def lhdIrq (lh : LhdSoftc) : LhdSoftc :=
  let val := lh.card.stat
  if val &&& LHD_STATEMASK = LHD_OK ∨ val &&& LHD_STATEMASK = LHD_INVSECT ∨
      val &&& LHD_STATEMASK = LHD_MEDIA then
    { lh with
      card := { lh.card with stat := 0 }
      result := lhdCodeToErrno val
      done := lh.done + 1 }
  else lh  -- `LHD_IDLE`, `LHD_WORKING`, or no case of the `switch`

/-- Where a thread is in `lhd_io`: the next thing it does, for the sector `i` of its request. -/
inductive LhdIoPc where
  /-- `P(lh->lh_clear)`. -/
  | clear (i : ℕ)
  /-- On a write, `uiomove(lh->lh_buf, LHD_SECTSIZE, uio)`. -/
  | fill (i : ℕ)
  /-- `lhd_wreg(lh, LHD_REG_SECT, sector+i)`. -/
  | sect (i : ℕ)
  /-- `lhd_wreg(lh, LHD_REG_STAT, statval)`. -/
  | start (i : ℕ)
  /-- `P(lh->lh_done)`. -/
  | wait (i : ℕ)
  /-- `result = lh->lh_result`. -/
  | fetch (i : ℕ)
  /-- On a successful read, `result = uiomove(lh->lh_buf, LHD_SECTSIZE, uio)`. -/
  | drain (i : ℕ)
  /-- `V(lh->lh_clear)`, then the return of a failure or the next round. -/
  | release (i : ℕ)
  /-- Returned `r`. -/
  | ret (r : Int)
  deriving DecidableEq

/-- A thread's call of `lhd_io(d, uio)`: where it is, its uio, and its locals `sector`, `len`,
`statval` and `result`. -/
structure LhdIoFrame where
  pc : LhdIoPc
  uio : Uio
  sector : ℕ
  len : ℕ
  statval : ℕ
  result : Int

/-- `lhd_io(d, uio)` up to its loop: the checks of the request and the start code. -/
def lhdIoEnter (lh : LhdSoftc) (u : Uio) : LhdIoFrame :=
  let sector := Word.ofInt 32 (u.uioOffset.tdiv LHD_SECTSIZE)
  let sectoff := Word.ofInt 32 (u.uioOffset.tmod LHD_SECTSIZE)
  let len := u.uioResid / LHD_SECTSIZE
  let lenoff := u.uioResid % LHD_SECTSIZE
  let statval := if u.uioRw = .write then LHD_WORKING ||| LHD_ISWRITE else LHD_WORKING
  let pc : LhdIoPc :=
    if sectoff ≠ 0 ∨ lenoff ≠ 0 then .ret EINVAL
    else if lh.card.disk.dBlocks < Word.ofInt 32 (sector + len) then .ret EINVAL
    else if 0 < len then .clear 0
    else .ret 0
  ⟨pc, u, sector, len, statval, 0⟩

/-- `uiomove(lh->lh_buf, LHD_SECTSIZE, uio)`: what it returns (the card's buffer after it, or
its error code) and the uio after it; `none` when it halts. -/
def lhdUiomove (lh : LhdSoftc) (u : Uio) : Option (Except Int Buf × Uio) :=
  match uiomove lh.card.disk.lhBuf 0 LHD_SECTSIZE u with
  | .ok buf u' => some (.ok buf, u')
  | .error (.err e) u' => some (.error e, u')
  | .error .halt _ => none

/-- The next step of a thread in `lhd_io`: the shared state and its frame after it, or `none`
when it waits in a `P` or halts. -/
def lhdIoRun (lh : LhdSoftc) (f : LhdIoFrame) : Option (LhdSoftc × LhdIoFrame) :=
  match f.pc with
  | .clear i =>
    if 0 < lh.clear then
      some ({ lh with clear := lh.clear - 1 },
        { f with pc := if f.uio.uioRw = .write then .fill i else .sect i })
    else none
  | .fill i =>
    (lhdUiomove lh f.uio).map fun
      | (.ok buf, u) =>
        ({ lh with card := { lh.card with disk := { lh.card.disk with lhBuf := buf } } },
          { f with uio := u, pc := .sect i })
      -- `V(lh->lh_clear); return result;`
      | (.error e, u) => ({ lh with clear := lh.clear + 1 }, { f with uio := u, pc := .ret e })
  | .sect i =>
    (lh.card.writeSect (Word.ofInt 32 (f.sector + i))).map fun c =>
      ({ lh with card := c }, { f with pc := .start i })
  | .start i =>
    (lh.card.start f.statval).map fun c => ({ lh with card := c }, { f with pc := .wait i })
  | .wait i =>
    if 0 < lh.done then some ({ lh with done := lh.done - 1 }, { f with pc := .fetch i })
    else none
  | .fetch i => some (lh, { f with result := lh.result, pc := .drain i })
  | .drain i =>
    if f.result = 0 ∧ f.uio.uioRw = .read then
      (lhdUiomove lh f.uio).map fun
        | (.ok _, u) => (lh, { f with uio := u, pc := .release i })
        | (.error e, u) => (lh, { f with uio := u, result := e, pc := .release i })
    else some (lh, { f with pc := .release i })
  | .release i =>
    some ({ lh with clear := lh.clear + 1 },
      { f with pc := if f.result ≠ 0 then .ret f.result
                     else if i + 1 < f.len then .clear (i + 1) else .ret 0 })
  | .ret _ => none

/-- The driver and the threads in `lhd_io`; `none` for a thread that has not called it. -/
structure LhdIoState where
  lh : LhdSoftc
  threads : ℕ → Option LhdIoFrame

/-- An event. -/
inductive LhdIoEvent where
  /-- Thread `t`, not in `lhd_io`, calls `lhd_io(d, u)`. -/
  | call (t : ℕ) (u : Uio)
  /-- The next step of thread `t`. -/
  | run (t : ℕ)
  /-- The card finishes its operation. -/
  | finish
  /-- `lhd_irq`. -/
  | irq

/-- The call has returned. -/
def LhdIoPc.isRet : LhdIoPc → Bool
  | .ret _ => true
  | _ => false

/-- A thread that is not in `lhd_io`: it has not called it, or its call has returned. -/
def LhdIoFrame.outside : Option LhdIoFrame → Bool
  | none => true
  | some f => f.pc.isRet

/-- One event. -/
def lhdIoStep (s : LhdIoState) : LhdIoEvent → Option LhdIoState
  | .call t u =>
    if LhdIoFrame.outside (s.threads t) then
      some { s with threads := Function.update s.threads t (some (lhdIoEnter s.lh u)) }
    else none
  | .run t =>
    match s.threads t with
    | some f => (lhdIoRun s.lh f).map fun (lh, f) =>
        { lh, threads := Function.update s.threads t (some f) }
    | none => none
  | .finish => s.lh.card.finish.map fun c => { s with lh := { s.lh with card := c } }
  | .irq => some { s with lh := lhdIrq s.lh }

/-- The disk after `config_lhd`: `lh_clear` created with count 1 and `lh_done` with count 0,
the card idle, no thread in `lhd_io`. -/
def lhdIoSystem (d : Lhd) : Lts.System LhdIoState LhdIoEvent where
  init := ⟨⟨⟨d, LHD_IDLE, 0⟩, 1, 0, 0⟩, fun _ => none⟩
  next := lhdIoStep

end Os161

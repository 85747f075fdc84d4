import Os161.Klib.Uio

/-!
# The LAMEbus hard disk (`dev/lamebus/lhd.c`)

`lhd_io` moves whole sectors between a uio and the disk through the card's sector buffer:
it checks that the request is sector-aligned and on the disk, then for each sector starts
the hardware and waits for its completion interrupt. The hardware either does the transfer
(`LHD_OK`), rejects a sector past the end (`LHD_INVSECT`, `EINVAL`) or reports a media error
(`LHD_MEDIA`, `EIO`); which sector operations meet a media error is the environment's choice
(`lhMedia`). The semaphores that serialise the device and wait for the interrupt only order
whole requests here: the callers of the model run one at a time under `vfs_biglock`.
-/

namespace Os161

open Bytes Exec

/-- `LHD_SECTSIZE`. -/
def LHD_SECTSIZE : Nat := 512

/-- A disk: the contents of its sectors, `d_blocks`, the card's sector buffer `lh_buf`, and the
outcome of the next sector operations (`true`: a media error); once the list is used up,
every operation succeeds. -/
structure Lhd where
  sectors : Nat → Buf
  dBlocks : Nat
  lhBuf : Buf
  lhMedia : List Bool

/-- The hardware operation on sector `sect` (a write of `lh_buf` to it, or a read into
`lh_buf`): the errno of its completion code. -/
def lhdHardware (sect : Nat) (isWrite : Bool) : Exec Int Lhd Int := do
  let lh ← get
  if lh.dBlocks ≤ sect then return EINVAL
  match lh.lhMedia with
  | true :: rest => do
    set { lh with lhMedia := rest }
    pure EIO
  | media => do
    let lh := { lh with lhMedia := media.drop 1 }
    if isWrite then set { lh with sectors := Function.update lh.sectors sect lh.lhBuf }
    else set { lh with lhBuf := lh.sectors sect }
    pure 0

/-- The loop of `lhd_io` over the sectors `sector + i`, `k` of them still to do. -/
def lhdIoLoop (sector : Nat) (isWrite : Bool) : Nat → Nat → Exec Int (Lhd × Uio) Unit
  | _, 0 => pure ()
  | i, k + 1 => do
    if isWrite then do
      -- `uiomove(lh->lh_buf, LHD_SECTSIZE, uio)` fills the card's buffer
      let (lh, _) ← get
      let buf ← focus Prod.snd (fun u s => (s.1, u)) (uiomove lh.lhBuf 0 LHD_SECTSIZE)
      modify fun (lh, u) => ({ lh with lhBuf := buf }, u)
    let result ← focus Prod.fst (fun lh s => (lh, s.2))
      (lhdHardware (Word.ofInt 32 (sector + i)) isWrite)
    let result ← if result = 0 ∧ ¬ isWrite then do
        let (lh, _) ← get
        let r ← attempt (focus Prod.snd (fun u s => (s.1, u)) (uiomove lh.lhBuf 0 LHD_SECTSIZE))
        pure (match r with
          | .ok _ => 0
          | .error e => e)
      else pure result
    if result ≠ 0 then fail result
    lhdIoLoop sector isWrite (i + 1) k

/-- `lhd_io(d, uio)`. -/
def lhdIo : Exec Int (Lhd × Uio) Unit := do
  let (lh, u) ← get
  let sector := Word.ofInt 32 (u.uioOffset.tdiv LHD_SECTSIZE)
  let sectoff := Word.ofInt 32 (u.uioOffset.tmod LHD_SECTSIZE)
  let len := u.uioResid / LHD_SECTSIZE
  let lenoff := u.uioResid % LHD_SECTSIZE
  if sectoff ≠ 0 ∨ lenoff ≠ 0 then fail EINVAL
  if lh.dBlocks < Word.ofInt 32 (sector + len) then fail EINVAL
  lhdIoLoop sector (u.uioRw = .write) 0 len

end Os161

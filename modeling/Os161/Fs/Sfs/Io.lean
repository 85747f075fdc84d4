import Os161.Fs.Sfs.Layout

/-!
# Block I/O of the simple file system (`fs/sfs/sfs_io.c`)

`sfs_rwblock` hands a uio to the device and retries a request that fails with `EIO`, ten times
at most; `EINVAL` from the device is a panic. `sfs_rblock` and `sfs_wblock` build the uio for
one whole block (`SFSUIO`) over the caller's buffer.

The retry reuses the uio as the failed attempt left it. A write moves its data out of the uio
before the disk reports the error, so the retry finds nothing left to write and succeeds:
`sfs_wblock` returns 0 after a media error without writing (`sfsWblock_media_error` in the
proofs).
-/

namespace Os161

open Bytes Exec

/-- `sfs->sfs_device->d_io(sfs->sfs_device, uio)`. -/
def sfsDevIo : Exec Int (Sfs × Uio) Unit :=
  focus (fun s => (s.1.dev, s.2)) (fun d s => ({ s.1 with dev := d.1 }, d.2)) lhdIo

/-- One attempt of `sfs_rwblock`: a device error other than `EIO` ends it, `EINVAL` with a
panic; on `EIO` it goes on with `onEio`. -/
def sfsRwblockAttempt (onEio : Exec Int (Sfs × Uio) Unit) : Exec Int (Sfs × Uio) Unit := do
  match ← attempt sfsDevIo with
  | .ok () => pure ()
  | .error e =>
    if e = EINVAL then halt  -- "sfs: d_io returned EINVAL"
    else if e = EIO then onEio else fail e

/-- The `retry:` loop of `sfs_rwblock` with `k` more retries allowed. -/
def sfsRwblockRetry : Nat → Exec Int (Sfs × Uio) Unit
  | 0 => sfsRwblockAttempt (fail EIO)
  | k + 1 => sfsRwblockAttempt (sfsRwblockRetry k)

/-- `sfs_rwblock(sfs, uio)`: a first attempt and ten retries (`tries` runs from 0 to 10). -/
def sfsRwblock : Exec Int (Sfs × Uio) Unit := sfsRwblockRetry 10

/-- `sfs_rblock(sfs, data, block)`: the new contents of `data`. -/
def sfsRblock (data : Buf) (block : Nat) : Exec Int Sfs Buf := do
  let ((), u) ← extend (uioKinit data SFS_BLOCKSIZE ((block : Int) * SFS_BLOCKSIZE) .read) sfsRwblock
  pure u.buf

/-- `sfs_wblock(sfs, data, block)`. -/
def sfsWblock (data : Buf) (block : Nat) : Exec Int Sfs Unit := do
  let _ ← extend (uioKinit data SFS_BLOCKSIZE ((block : Int) * SFS_BLOCKSIZE) .write) sfsRwblock

end Os161

import Os161.Fs.Sfs.Fs

/-!
# Syncing and unmounting the simple file system (`fs/sfs/sfs_fs.c`)

`sfs_sync` runs `VOP_FSYNC` on every vnode of `sfs_vnodes`, which writes a dirty inode back to
its block, and drops what each returns; then, if the free map is dirty, `sfs_mapio(sfs,
UIO_WRITE)` writes the bytes of the bitmap (`bitmap_getdata`) to the `SFS_BITBLOCKS` blocks
from `SFS_MAP_LOCATION` on, and marks the map clean. Its branch for a dirty superblock is left
out: nothing sets `sfs_superdirty`, which `sfs_domount` clears. `sfs_unmount` refuses a volume
with a loaded vnode (`EBUSY`) and asserts that the free map is clean, as `vfs_unmount` syncs
the volume first.
-/

namespace Os161

open Bytes Exec

/-- The loop of `sfs_mapio(sfs, UIO_WRITE)` over the blocks `j ..< mapsize` (`k` of them): the
bytes of `bitdata` from `j * SFS_BLOCKSIZE` on go to block `SFS_MAP_LOCATION + j`, and the first
error stops it. -/
def sfsMapioWrite (bitdata : Buf) : Nat → Nat → Exec Int Sfs Unit
  | _, 0 => pure ()
  | j, k + 1 => do
    sfsWblock (fun i => bitdata (j * SFS_BLOCKSIZE + i)) (SFS_MAP_LOCATION + j)
    sfsMapioWrite bitdata (j + 1) k

/-- `VOP_FSYNC(v)`: `sfs_fsync` in both tables. -/
def vopFsync (sv : Nat) : Exec Int Sfs Unit := do
  let _ ← vnodeCheck sv
  sfsFsync sv

/-- The loop of `sfs_sync` over the entries `i ..< num` of `sfs_vnodes` (`k` of them); what
each `VOP_FSYNC` returns is dropped. -/
def sfsSyncVnodes : Nat → Nat → Exec Int Sfs Unit
  | _, 0 => pure ()
  | i, k + 1 => do
    let s ← get
    let sv ← arrayGet s.vnodes i
    let _ ← attempt (vopFsync sv)
    sfsSyncVnodes (i + 1) k

/-- `sfs_sync(fs)`. -/
def sfsSync : Exec Int Sfs Unit := do
  let s ← get
  sfsSyncVnodes 0 s.vnodes.num
  let s ← get
  if s.freemapDirty then
    sfsMapioWrite (bitmapGetdata s.freemap) 0 (SFS_BITBLOCKS s.spNblocks)
    modify fun s => { s with freemapDirty := false }

/-- `sfs_unmount(fs)`: what is left after it is the disk. -/
def sfsUnmount : Exec Int Sfs Unit := do
  let s ← get
  -- "Do we have any files open? If so, can't unmount."
  if 0 < s.vnodes.num then fail EBUSY
  -- `KASSERT(sfs->sfs_freemapdirty == false)`
  assert (s.freemapDirty = false)

end Os161

import Os161.Fs.Sfs.Vnode

/-!
# Mounting the simple file system (`fs/sfs/sfs_fs.c`)

`sfs_domount` reads the superblock, checks its magic number, and reads the free-block bitmap
from the `SFS_BITBLOCKS` blocks after the superblock and the root inode (`sfs_mapio`): bit `i`
of the map is bit `i % 8` of byte `i / 8` of the bitmap's blocks. The volume is the state the
operations of `sfs_vnode.c` start from.
-/

namespace Os161

open Bytes Exec

/-- The bits of the free map held in the bytes `data` (`bitmap_getdata`). -/
def bitmapOfBytes (data : Buf) (i : Nat) : Bool := (data (i / 8)).toNat.testBit (i % 8)

/-- The loop of `sfs_mapio(sfs, UIO_READ)` over the blocks `j ..< mapsize` (`k` of them):
block `j` of the bitmap goes to bytes `j * 512 ..` of `data`. -/
def sfsMapioRead : Nat → Nat → Buf → Exec Int Sfs Buf
  | _, 0, data => pure data
  | j, k + 1, data => do
    let blk ← sfsRblock zeros (SFS_MAP_LOCATION + j)
    sfsMapioRead (j + 1) k (copy data (j * SFS_BLOCKSIZE) blk 0 SFS_BLOCKSIZE)

/-- `sfs_domount(options, dev, &ret)` after `kmalloc` of the `struct sfs_fs` and the creation
of `sfs_vnodes`, on the volume record that holds the device: read the superblock and the
free map. -/
def sfsDomountLoad : Exec Int Sfs Unit := do
  let super ← sfsRblock zeros SFS_SB_LOCATION
  if getBE super 0 4 ≠ SFS_MAGIC then fail EINVAL else
  let nblocks := getBE super 4 4
  modify fun s => { s with spNblocks := nblocks }
  let nul ← focus (·.kmalloc) (fun o s => { s with kmalloc := o }) kmallocFails
  if nul then fail ENOMEM else
  let data ← sfsMapioRead 0 (SFS_BITBLOCKS nblocks) zeros
  modify fun s => { s with
    freemap := { nbits := SFS_BITMAPSIZE nblocks, v := bitmapOfBytes data }
    freemapDirty := false }

/-- The volume record `sfs_domount` builds around the device before it reads anything. -/
def sfsFresh (dev : Lhd) (km : KmallocOracle) : Sfs where
  dev := dev
  spNblocks := 0
  freemap := bitmapCreate 0
  freemapDirty := false
  vnodes := KArray.empty
  heap := []
  kmalloc := km

/-- `sfs_domount` on a disk: the mounted volume. -/
def sfsDomount (dev : Lhd) (km : KmallocOracle) : Option Sfs :=
  match sfsDomountLoad (sfsFresh dev km) with
  | .ok () s => some s
  | .error _ _ => none

end Os161

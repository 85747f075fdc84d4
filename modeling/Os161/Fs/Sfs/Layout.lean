import Os161.Dev.Lhd
import Os161.Klib.Array
import Os161.Klib.Bitmap

/-!
# The simple file system: on-disk layout and in-memory state (`kern/sfs.h`, `sfs.h`)

Every block is 512 bytes. The superblock is block 0, the root directory's inode block 1, the
free-block bitmap starts at block 2; an inode is a block, and its number is its block number.
The on-disk structures are read and written as the bytes of a block on the big-endian MIPS:
`struct sfs_inode` lives in a `Buf` (`sv_i`) and its fields are views of those bytes, so that an
inode goes to and from the disk unchanged; likewise the entries of the indirect block and the
directory entries.

The in-memory state of a mounted volume (`struct sfs_fs`) with the device under it, the
`struct sfs_vnode`s that `kmalloc` returned (by address; `none` once freed), and the
`kmalloc` outcomes the environment chooses.
-/

namespace Os161

open Bytes

/-! ### `kern/sfs.h` -/

def SFS_MAGIC : Nat := 0xabadf001
def SFS_BLOCKSIZE : Nat := 512
def SFS_NDIRECT : Nat := 15
def SFS_DBPERIDB : Nat := 128
def SFS_NAMELEN : Nat := 60
def SFS_SB_LOCATION : Nat := 0
def SFS_ROOT_LOCATION : Nat := 1
def SFS_MAP_LOCATION : Nat := 2
def SFS_NOINO : Nat := 0
def SFS_BLOCKBITS : Nat := SFS_BLOCKSIZE * 8

/-- `SFS_BITMAPSIZE(nblocks)`: the bits of the free map, rounded up to whole blocks. -/
def SFS_BITMAPSIZE (nblocks : Nat) : Nat := (nblocks + SFS_BLOCKBITS - 1) / SFS_BLOCKBITS * SFS_BLOCKBITS

/-- `SFS_BITBLOCKS(nblocks)`: the blocks of the free map. -/
def SFS_BITBLOCKS (nblocks : Nat) : Nat := SFS_BITMAPSIZE nblocks / SFS_BLOCKBITS

def SFS_TYPE_INVAL : Nat := 0
def SFS_TYPE_FILE : Nat := 1
def SFS_TYPE_DIR : Nat := 2

/-- `sizeof(struct sfs_dir)`. -/
def SFS_DIRSIZE : Nat := 64

/-! ### `struct sfs_inode` -/

/-- `sfi_size` (`uint32_t`). -/
def sfiSize (i : Buf) : Nat := getBE i 0 4
/-- `sfi_type` (`uint16_t`). -/
def sfiType (i : Buf) : Nat := getBE i 4 2
/-- `sfi_linkcount` (`uint16_t`). -/
def sfiLinkcount (i : Buf) : Nat := getBE i 6 2
/-- `sfi_direct[k]` (`uint32_t`). -/
def sfiDirect (i : Buf) (k : Nat) : Nat := getBE i (8 + 4 * k) 4
/-- `sfi_indirect` (`uint32_t`). -/
def sfiIndirect (i : Buf) : Nat := getBE i 68 4

def setSfiSize (i : Buf) (v : Nat) : Buf := setBE i 0 4 v
def setSfiType (i : Buf) (v : Nat) : Buf := setBE i 4 2 v
def setSfiLinkcount (i : Buf) (v : Nat) : Buf := setBE i 6 2 v
def setSfiDirect (i : Buf) (k v : Nat) : Buf := setBE i (8 + 4 * k) 4 v
def setSfiIndirect (i : Buf) (v : Nat) : Buf := setBE i 68 4 v

/-! ### Indirect blocks and directory entries -/

/-- Entry `j` of an indirect block (`uint32_t idbuf[SFS_DBPERIDB]`). -/
def idEntry (b : Buf) (j : Nat) : Nat := getBE b (4 * j) 4

def setIdEntry (b : Buf) (j v : Nat) : Buf := setBE b (4 * j) 4 v

/-- `sfd_ino` of a `struct sfs_dir` in a buffer. -/
def sfdIno (d : Buf) : Nat := getBE d 0 4

/-- The bytes of `sfd_name` up to its first NUL, among the `n` from position `i` on. -/
def cstrFrom (d : Buf) : Nat → Nat → List UInt8
  | _, 0 => []
  | i, n + 1 => if d i = 0 then [] else d i :: cstrFrom d (i + 1) n

/-- `sfd_name` as a C string, after `sfs_dir_findname` forces its last byte to NUL. -/
def sfdName (d : Buf) : List UInt8 := cstrFrom d 4 (SFS_NAMELEN - 1)

/-- A C string argument: its bytes without the terminating NUL, none of them NUL. -/
structure CStr where
  bytes : List UInt8
  nul_not_mem : (0 : UInt8) ∉ bytes

/-- `strlen(s)`. -/
def CStr.length (s : CStr) : Nat := s.bytes.length

/-- A directory entry `{ sfd_ino = ino, sfd_name = name }` as `sfs_dir_link` builds it: `bzero`,
then `strcpy` of the name and its NUL. -/
def sfsDirEntry (ino : Nat) (name : CStr) : Buf := fun i =>
  if 4 ≤ i then name.bytes[i - 4]?.getD 0 else setBE zeros 0 4 ino i

/-! ### In-memory state (`sfs.h`, `vnode.h`) -/

/-- Which function table a vnode has: `sfs_fileops` or `sfs_dirops`. -/
inductive SfsOps where
  | fileops
  | dirops
  deriving DecidableEq, Repr

/-- `struct sfs_vnode`: of its `struct vnode`, `vn_refcount`, `vn_opencount` and `vn_ops`
(`vn_fs` is the one volume and `vn_data` the structure itself); the inode `sv_i` as the 512
bytes of its block, `sv_ino` and `sv_dirty`. -/
structure SfsVnode where
  vnRefcount : Nat
  vnOpencount : Nat
  vnOps : SfsOps
  svI : Buf
  svIno : Nat
  svDirty : Bool

/-- The mounted volume: `struct sfs_fs` (of its superblock only `sp_nblocks` is read), the
disk it is mounted on, the `struct sfs_vnode`s by address, and the environment's `kmalloc`
outcomes. -/
structure Sfs where
  dev : Lhd
  spNblocks : Nat
  freemap : Bitmap
  freemapDirty : Bool
  vnodes : KArray Nat
  heap : List (Option SfsVnode)
  kmalloc : KmallocOracle

end Os161

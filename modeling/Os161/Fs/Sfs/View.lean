import Os161.Fs.Sfs.Fs

/-!
# What a volume holds

The abstract view of a mounted volume that the claims about it are stated in, computed from
the state without running any of its code:

* `inodeOf`: the inode of an inode number, from its loaded vnode if it has one (the in-memory
  copy is the current one), else from its block;
* `fileBlock`, `fileByte`: a file's block map through its direct entries and its indirect
  block, and the bytes of the file, an unmapped block reading as zeros;
* `dirEntries`: the entries of the root directory, name and inode number of each non-empty
  slot, in slot order;
* `mappedBlocks`: the blocks an inode holds, and `blockAccounted`, the blocks the free map
  should mark: the reserved ones, and the inode and mapped blocks of every inode that has a
  directory entry or a loaded vnode.
-/

namespace Os161

open Bytes

namespace Sfs

/-- The loaded vnodes (`sfs_vnodes`), in table order. -/
def loaded (s : Sfs) : List SfsVnode :=
  s.vnodes.elems.filterMap fun p => p.bind fun sv => s.heap[sv]?.join

/-- The inode of inode number `ino`: its loaded vnode's copy, or its block on disk. -/
def inodeOf (s : Sfs) (ino : Nat) : Buf :=
  match s.loaded.find? (·.svIno = ino) with
  | some v => v.svI
  | none => s.dev.sectors ino

/-- The disk block holding block `fb` of the file with inode `i`, 0 for none. -/
def fileBlock (s : Sfs) (i : Buf) (fb : Nat) : Nat :=
  if fb < SFS_NDIRECT then sfiDirect i fb
  else if fb < SFS_NDIRECT + SFS_DBPERIDB ∧ sfiIndirect i ≠ 0 then
    idEntry (s.dev.sectors (sfiIndirect i)) (fb - SFS_NDIRECT)
  else 0

/-- Byte `pos` of the file with inode `i`. -/
def fileByte (s : Sfs) (i : Buf) (pos : Nat) : UInt8 :=
  let b := s.fileBlock i (pos / SFS_BLOCKSIZE)
  if b = 0 then 0 else s.dev.sectors b (pos % SFS_BLOCKSIZE)

/-- Slot `k` of the directory with inode `i`, as its 64 bytes. -/
def dirSlot (s : Sfs) (i : Buf) (k : Nat) : Buf := fun j => s.fileByte i (k * SFS_DIRSIZE + j)

/-- The entries of the root directory: name and inode number of each non-empty slot. -/
def dirEntries (s : Sfs) : List (List UInt8 × Nat) :=
  let root := s.inodeOf SFS_ROOT_LOCATION
  (List.range (sfiSize root / SFS_DIRSIZE)).filterMap fun k =>
    let d := s.dirSlot root k
    if sfdIno d = SFS_NOINO then none else some (sfdName d, sfdIno d)

/-- The inode numbers with a directory entry or a loaded vnode. -/
def liveInodes (s : Sfs) : List Nat :=
  SFS_ROOT_LOCATION :: s.dirEntries.map Prod.snd ++ s.loaded.map SfsVnode.svIno

/-- The blocks the inode `i` holds: its direct blocks, its indirect block and the blocks the
indirect block maps. -/
def mappedBlocks (s : Sfs) (i : Buf) : List Nat :=
  ((List.range SFS_NDIRECT).map (sfiDirect i) ++
    (if sfiIndirect i = 0 then []
     else sfiIndirect i :: (List.range SFS_DBPERIDB).map (idEntry (s.dev.sectors (sfiIndirect i)))))
  |>.filter (· ≠ 0)

/-- The reserved blocks: the superblock, the root inode, the free map, and every bit past the
end of the volume. -/
def reserved (s : Sfs) (b : Nat) : Bool :=
  b = SFS_SB_LOCATION ∨ b = SFS_ROOT_LOCATION ∨
    (SFS_MAP_LOCATION ≤ b ∧ b < SFS_MAP_LOCATION + SFS_BITBLOCKS s.spNblocks) ∨ s.spNblocks ≤ b

/-- The inode blocks and mapped blocks of the live inodes. -/
def usedBlocks (s : Sfs) : List Nat :=
  s.liveInodes.flatMap fun ino => ino :: s.mappedBlocks (s.inodeOf ino)

/-- The blocks the free map should mark. -/
def blockAccounted (s : Sfs) (b : Nat) : Bool := s.reserved b ∨ b ∈ s.usedBlocks

/-- The free map marks exactly the accounted blocks. -/
def FreemapExact (s : Sfs) : Prop := ∀ b < s.freemap.nbits, s.freemap.v b = s.blockAccounted b

/-- `FreemapExact` as a test over the bits, with the used blocks computed once. -/
def freemapExact (s : Sfs) : Bool :=
  let used := s.usedBlocks
  (List.range s.freemap.nbits).all fun b => s.freemap.v b == (s.reserved b || used.contains b)

theorem freemapExact_iff (s : Sfs) : s.freemapExact = true ↔ s.FreemapExact := by
  simp [freemapExact, FreemapExact, blockAccounted]

instance (s : Sfs) : Decidable s.FreemapExact := decidable_of_iff _ s.freemapExact_iff

end Sfs

end Os161

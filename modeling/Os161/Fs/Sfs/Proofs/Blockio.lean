import Os161.Fs.Sfs.Proofs.Vnode

/-!
# The device offset of `sfs_blockio`

`sfs_blockio` moves one whole block of a file straight between the uio and the device: it swaps
the uio's offset for `diskblock * SFS_BLOCKSIZE` and its residue for one block, runs
`sfs_rwblock`, and then puts back the saved offset and residue, each moved on by what the device
moved (`sfsBlockio_of_bmap`).

`diskblock` is a `uint32_t`, and `diskblock * SFS_BLOCKSIZE` is computed in 32 bits before it
is stored in the `off_t`; `sfs_rblock` and `sfs_wblock` (`SFSUIO`) widen the block number first.
From block `2^23` on the two differ: `sfs_blockio` addresses block `b % 2^23`, so a whole-block
write to a file block mapped to disk block `b ≥ 2^23` lands in block `b % 2^23`
(`sfsBlockio_write_wraps`); on the sample below that is the superblock.
-/

namespace Os161

open Bytes Exec

/-- The device call of the volume is `lhd_io` on its disk. -/
theorem sfsDevIo_of_lhdIo {s : Sfs} {u u' : Uio} {d : Lhd} (h : lhdIo (s.dev, u) = .ok () (d, u')) :
    sfsDevIo (s, u) = .ok () ({ s with dev := d }, u') := by
  simp only [sfsDevIo, focus]
  rw [h]

/-- **`sfs_blockio` on a mapped block.** When `sfs_bmap` maps the uio's file block to the disk
block `b ≠ 0`, `sfs_rwblock` runs on the uio with offset `b * SFS_BLOCKSIZE` in 32 bits and a
residue of one block; when it returns, the uio's offset and residue are the saved ones, moved
on by what the device moved. -/
theorem sfsBlockio_of_bmap {sv b : Nat} {s s' s'' : Sfs} {u u'' : Uio}
    (hmap : sfsBmap sv (uioFileblock u) (u.uioRw = .write) s = .ok b s') (hb : b ≠ 0)
    (hres : SFS_BLOCKSIZE ≤ u.uioResid)
    (hdev : sfsRwblock (s', { u with
        uioOffset := Word.ofInt 32 (b * SFS_BLOCKSIZE),
        uioResid := SFS_BLOCKSIZE }) = .ok () (s'', u'')) :
    sfsBlockio sv (s, u) = .ok () (s'', { u'' with
      uioOffset := u''.uioOffset - Word.ofInt 32 (b * SFS_BLOCKSIZE) + u.uioOffset,
      uioResid := Word.ofInt 32 (u''.uioResid - SFS_BLOCKSIZE + u.uioResid) }) := by
  have hbmap : onSfs (sfsBmap sv (uioFileblock u) (u.uioRw = .write)) (s, u) = .ok b (s', u) := by
    simp [onSfs, focus, hmap]
  simp [sfsBlockio, bind_apply, hbmap, hb, hres, attempt_of_ok hdev, ofExcept_ok]

/-- `diskblock * SFS_BLOCKSIZE` in 32 bits: past block `2^23` the high bits are dropped. -/
theorem diskoff_eq (b : Nat) :
    Word.ofInt 32 (b * SFS_BLOCKSIZE) = b % 2 ^ 23 * SFS_BLOCKSIZE := by
  have hmod : ((b : Int) * SFS_BLOCKSIZE) % 2 ^ 32 = ((b % 2 ^ 23 * SFS_BLOCKSIZE : Nat) : Int) := by
    unfold SFS_BLOCKSIZE
    push_cast
    omega
  rw [Word.ofInt, hmod]
  rfl

/-- **Past disk block `2^23`, a whole-block write lands in another block.** For a file block
that `sfs_bmap` maps to the disk block `b` with `2^23 ≤ b < 2^32`, the offset `sfs_blockio`
gives the device is not `b * SFS_BLOCKSIZE`, the one `sfs_wblock` uses; with the device
accepting the request, the write of a kernel buffer returns 0 and puts the data in disk block
`b % 2^23`. -/
theorem sfsBlockio_write_wraps {sv b : Nat} {s s' : Sfs} {data : Buf} {pos : Int}
    (hmap : sfsBmap sv (uioFileblock (uioKinit data SFS_BLOCKSIZE pos .write)) true s = .ok b s')
    (hb : 2 ^ 23 ≤ b) (hb' : b < 2 ^ 32) (hk : b % 2 ^ 23 < s'.dev.dBlocks)
    (hd : s'.dev.dBlocks < 2 ^ 32) (hmed : s'.dev.lhMedia.head? ≠ some true) :
    (Word.ofInt 32 (b * SFS_BLOCKSIZE) : Int) ≠ b * SFS_BLOCKSIZE ∧
      ∃ u', sfsBlockio sv (s, uioKinit data SFS_BLOCKSIZE pos .write) =
        .ok () ({ s' with dev := { s'.dev with
          lhBuf := copy s'.dev.lhBuf 0 data 0 SFS_BLOCKSIZE,
          lhMedia := s'.dev.lhMedia.drop 1,
          sectors := Function.update s'.dev.sectors (b % 2 ^ 23)
            (copy s'.dev.lhBuf 0 data 0 SFS_BLOCKSIZE) } }, u') := by
  have hsize : SFS_BLOCKSIZE = LHD_SECTSIZE := rfl
  have hoff := diskoff_eq b
  -- the offset the device sees is that of block `b % 2^23`
  have hne : (Word.ofInt 32 (b * SFS_BLOCKSIZE) : Int) ≠ b * SFS_BLOCKSIZE := by
    rw [hoff]
    unfold SFS_BLOCKSIZE
    push_cast
    omega
  have hsect : Word.ofInt 32 (((b % 2 ^ 23 * SFS_BLOCKSIZE : Nat) : Int).tdiv LHD_SECTSIZE) =
      b % 2 ^ 23 := by
    rw [Nat.cast_mul, hsize, blockOffset_tdiv]
    exact Word.ofInt_natCast_of_lt (by omega)
  have hmod : (((b % 2 ^ 23 * SFS_BLOCKSIZE : Nat) : Int)).tmod LHD_SECTSIZE = 0 := by
    rw [Nat.cast_mul, hsize, blockOffset_tmod]
  -- the uio `sfs_blockio` hands the device is the kernel uio at that offset
  have hdevuio : ({ uioKinit data SFS_BLOCKSIZE pos .write with
      uioOffset := Word.ofInt 32 (b * SFS_BLOCKSIZE),
      uioResid := SFS_BLOCKSIZE } : Uio) =
      uioKinit data LHD_SECTSIZE ((b % 2 ^ 23 * SFS_BLOCKSIZE : Nat) : Int) .write := by
    rw [hoff]
    rfl
  have hlhd := @lhdIo_write_one _ data _ _ hsect hmod hk hd hmed
  have hrw := sfsRwblockRetry_of_ok (sfsDevIo_of_lhdIo hlhd) 10
  rw [← hdevuio] at hrw
  exact ⟨hne, _, sfsBlockio_of_bmap hmap (by omega) (le_refl _) hrw⟩

/-- A volume of `2^23 + 1` blocks, every one marked in use, on a disk of one sector, with the
file at address 0 whose first block is disk block `2^23` (`sfi_direct[0]` is `0x00800000`). -/
def bigBlockVolume : Sfs where
  dev := ⟨fun _ => zeros, 1, zeros, []⟩
  spNblocks := 2 ^ 23 + 1
  freemap := ⟨2 ^ 23 + 1, fun _ => true⟩
  freemapDirty := false
  vnodes := KArray.empty
  heap := [some ⟨1, 1, .fileops, fun i => if i = 9 then 0x80 else 0, 5, false⟩]
  kmalloc := ⟨[]⟩

/-- `sfs_bmap` maps the first block of that file to disk block `2^23`. -/
theorem bigBlockVolume_bmap :
    sfsBmap 0 (uioFileblock (uioKinit zeros SFS_BLOCKSIZE 0 .write)) true bigBlockVolume =
      .ok (2 ^ 23) bigBlockVolume := by
  have hfile : uioFileblock (uioKinit zeros SFS_BLOCKSIZE 0 .write) = 0 := by decide
  have hdirect : sfiDirect (fun i => if i = 9 then 0x80 else 0) 0 = 2 ^ 23 := by decide
  simp [sfsBmap, sfsBmapCheck, sfsBused, getVnode, bigBlockVolume, bind_apply, hfile, hdirect,
    bitmapIsset, SFS_NDIRECT]

/-- The first block of that file, written whole by `sfs_blockio`, lands in disk block 0, the
superblock. -/
theorem sfsBlockio_write_wraps_superblock :
    (Word.ofInt 32 ((2 ^ 23 : Nat) * SFS_BLOCKSIZE) : Int) ≠ (2 ^ 23 : Nat) * SFS_BLOCKSIZE ∧
      ∃ u', sfsBlockio 0 (bigBlockVolume, uioKinit zeros SFS_BLOCKSIZE 0 .write) =
        .ok () ({ bigBlockVolume with dev := { bigBlockVolume.dev with
          lhBuf := copy bigBlockVolume.dev.lhBuf 0 zeros 0 SFS_BLOCKSIZE,
          lhMedia := bigBlockVolume.dev.lhMedia.drop 1,
          sectors := Function.update bigBlockVolume.dev.sectors (2 ^ 23 % 2 ^ 23)
            (copy bigBlockVolume.dev.lhBuf 0 zeros 0 SFS_BLOCKSIZE) } }, u') :=
  sfsBlockio_write_wraps bigBlockVolume_bmap (by decide) (by decide) (by decide) (by decide)
    (by decide)

end Os161

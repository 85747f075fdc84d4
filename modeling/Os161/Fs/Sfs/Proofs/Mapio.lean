import Os161.Fs.Sfs.Sync
import Os161.Fs.Sfs.Proofs.Blockio
import Os161.Synchprobs.Proofs.CatmouseSynch

/-!
# The free map on disk

`sfs_mapio` moves the bytes of the free map (`bitmap_getdata`) to and from the `SFS_BITBLOCKS`
blocks from `SFS_MAP_LOCATION` on, block `j` holding the bytes from `j * SFS_BLOCKSIZE` on; bit
`i` of the map is bit `i % 8` of byte `i / 8` (`mapBytes`, `bitmapOfBytes`). On a disk that has
the blocks and no media error pending (`Lhd.Good`):

* `sfsWblock_ok`, `sfsRblock_ok`: one block written or read, as `lhd_io` does it;
* `sfsMapioWrite_ok`: the write loop stores the bytes of the map in its blocks, and no other
  block changes;
* `sfsMapioRead_ok`: the read loop brings the bytes of those blocks back;
* `bitmapOfBytes_getdata`: the bits of the bytes of a bitmap are its bits;
* `sfsDomount_ok`: `sfs_domount` of a disk with a superblock reads the free map from its blocks.
-/

namespace Os161

open Bytes Exec

namespace Lhd

/-- The disk after a write of `blk` to block `b` that meets no media error. -/
def writeBlock (d : Lhd) (b : Nat) (blk : Buf) : Lhd :=
  { d with
    lhBuf := copy d.lhBuf 0 blk 0 SFS_BLOCKSIZE
    lhMedia := d.lhMedia.drop 1
    sectors := Function.update d.sectors b (copy d.lhBuf 0 blk 0 SFS_BLOCKSIZE) }

/-- The disk after a read of block `b` that meets no media error. -/
def readBlock (d : Lhd) (b : Nat) : Lhd :=
  { d with lhMedia := d.lhMedia.drop 1, lhBuf := d.sectors b }

/-- Block `b` holds the bytes of `blk`. -/
def Stores (d : Lhd) (b : Nat) (blk : Buf) : Prop := ∀ i < SFS_BLOCKSIZE, d.sectors b i = blk i

/-- A disk on which the blocks below `n` can be reached, with no media error pending. -/
structure Good (d : Lhd) (n : Nat) : Prop where
  room : n ≤ d.dBlocks
  small : d.dBlocks < 2 ^ 32
  media : true ∉ d.lhMedia

@[simp] theorem writeBlock_dBlocks (d : Lhd) (b : Nat) (blk : Buf) :
    (d.writeBlock b blk).dBlocks = d.dBlocks := rfl

@[simp] theorem readBlock_dBlocks (d : Lhd) (b : Nat) : (d.readBlock b).dBlocks = d.dBlocks := rfl

@[simp] theorem readBlock_sectors (d : Lhd) (b : Nat) : (d.readBlock b).sectors = d.sectors := rfl

theorem writeBlock_sectors_of_ne (d : Lhd) {b b' : Nat} (blk : Buf) (h : b' ≠ b) :
    (d.writeBlock b blk).sectors b' = d.sectors b' :=
  Function.update_of_ne h _ _

theorem writeBlock_stores (d : Lhd) (b : Nat) (blk : Buf) : (d.writeBlock b blk).Stores b blk := by
  intro i hi
  simp only [writeBlock, Function.update_self]
  rw [copy_of_mem (Nat.zero_le i) (by omega)]
  simp

/-- Block `b` keeps what it holds when the blocks are the same there. -/
theorem Stores.congr {d d' : Lhd} {b : Nat} {blk : Buf} (h : d.Stores b blk)
    (hb : d'.sectors b = d.sectors b) : d'.Stores b blk := by
  intro i hi
  rw [hb]
  exact h i hi

namespace Good

variable {d : Lhd} {n : Nat}

theorem head (hg : d.Good n) : d.lhMedia.head? ≠ some true := by
  intro h
  exact hg.media (List.mem_of_mem_head? h)

theorem mono (hg : d.Good n) {m : Nat} (hm : m ≤ n) : d.Good m :=
  ⟨le_trans hm hg.room, hg.small, hg.media⟩

theorem writeBlock (hg : d.Good n) (b : Nat) (blk : Buf) : (d.writeBlock b blk).Good n :=
  ⟨hg.room, hg.small, fun h => hg.media (List.mem_of_mem_drop h)⟩

theorem readBlock (hg : d.Good n) (b : Nat) : (d.readBlock b).Good n :=
  ⟨hg.room, hg.small, fun h => hg.media (List.mem_of_mem_drop h)⟩

end Good

end Lhd

/-- The bytes of the free map's blocks: byte `p` is in block
`SFS_MAP_LOCATION + p / SFS_BLOCKSIZE`. -/
def mapBytes (d : Lhd) : Buf := fun p =>
  d.sectors (SFS_MAP_LOCATION + p / SFS_BLOCKSIZE) (p % SFS_BLOCKSIZE)

/-! ### One block -/

section Block

variable {s : Sfs} {n : Nat}

theorem blockOffset_sect {b : Nat} (hb : b < 2 ^ 32) :
    Word.ofInt 32 (((b : Int) * LHD_SECTSIZE).tdiv LHD_SECTSIZE) = b := by
  rw [blockOffset_tdiv]
  exact Word.ofInt_natCast_of_lt hb

/-- **`sfs_wblock`** of block `b` on a good disk writes the block. -/
theorem sfsWblock_ok (hg : s.dev.Good n) {b : Nat} (hb : b < n) (data : Buf) :
    sfsWblock data b s = .ok () { s with dev := s.dev.writeBlock b data } := by
  have hio := @lhdIo_write_one s.dev data _ b (blockOffset_sect (by have := hg.room; have := hg.small; omega))
    (blockOffset_tmod b) (by have := hg.room; omega) hg.small hg.head
  have hsize : SFS_BLOCKSIZE = LHD_SECTSIZE := rfl
  simp only [sfsWblock, sfsRwblock, extend, bind_apply, hsize]
  rw [sfsRwblockRetry_of_ok (sfsDevIo_of_lhdIo hio)]
  rfl

/-- **`sfs_rblock`** of block `b` on a good disk reads the block into the caller's buffer. -/
theorem sfsRblock_ok (hg : s.dev.Good n) {b : Nat} (hb : b < n) (data : Buf) :
    sfsRblock data b s =
      .ok (copy data 0 (s.dev.sectors b) 0 SFS_BLOCKSIZE) { s with dev := s.dev.readBlock b } := by
  have hio := @lhdIo_read_one s.dev data _ b (blockOffset_sect (by have := hg.room; have := hg.small; omega))
    (blockOffset_tmod b) (by have := hg.room; omega) hg.small hg.head
  have hsize : SFS_BLOCKSIZE = LHD_SECTSIZE := rfl
  simp only [sfsRblock, sfsRwblock, extend, bind_apply, hsize]
  rw [sfsRwblockRetry_of_ok (sfsDevIo_of_lhdIo hio)]
  rfl

end Block

/-! ### The loops of `sfs_mapio` -/

/-- A byte of block `j` of a run of blocks. -/
theorem div_mod_of_mem_block {p j : Nat} (h1 : j * SFS_BLOCKSIZE ≤ p)
    (h2 : p < (j + 1) * SFS_BLOCKSIZE) :
    p / SFS_BLOCKSIZE = j ∧ p % SFS_BLOCKSIZE = p - j * SFS_BLOCKSIZE := by
  unfold SFS_BLOCKSIZE at *
  omega

/-- **The write loop** over the blocks `j ..< j + k` stores the bytes of `bitdata` from
`m * SFS_BLOCKSIZE` on in block `SFS_MAP_LOCATION + m`, and leaves the other blocks. -/
theorem sfsMapioWrite_ok (bitdata : Buf) :
    ∀ k j (s : Sfs), s.dev.Good (SFS_MAP_LOCATION + j + k) →
      ∃ d, sfsMapioWrite bitdata j k s = .ok () { s with dev := d } ∧
        d.Good (SFS_MAP_LOCATION + j + k) ∧ d.dBlocks = s.dev.dBlocks ∧
        (∀ b, b < SFS_MAP_LOCATION + j ∨ SFS_MAP_LOCATION + j + k ≤ b →
          d.sectors b = s.dev.sectors b) ∧
        ∀ m, j ≤ m → m < j + k →
          d.Stores (SFS_MAP_LOCATION + m) fun i => bitdata (m * SFS_BLOCKSIZE + i)
  | 0, _, s, hg => ⟨s.dev, rfl, hg, rfl, fun _ _ => rfl, fun m h1 h2 => absurd h2 (by omega)⟩
  | k + 1, j, s, hg => by
    set blk : Buf := fun i => bitdata (j * SFS_BLOCKSIZE + i)
    have hw := sfsWblock_ok hg (b := SFS_MAP_LOCATION + j) (by omega) blk
    -- the rest of the loop runs on the disk with block `SFS_MAP_LOCATION + j` written
    have hg1 : (s.dev.writeBlock (SFS_MAP_LOCATION + j) blk).Good
        (SFS_MAP_LOCATION + (j + 1) + k) := by
      have := hg.writeBlock (SFS_MAP_LOCATION + j) blk
      rwa [show SFS_MAP_LOCATION + (j + 1) + k = SFS_MAP_LOCATION + j + (k + 1) by omega]
    obtain ⟨d, hrun, hgd, hdb, hframe, hstores⟩ :=
      sfsMapioWrite_ok bitdata k (j + 1) { s with dev := s.dev.writeBlock (SFS_MAP_LOCATION + j) blk } hg1
    refine ⟨d, ?_, ?_, hdb, fun b hb => ?_, fun m h1 h2 => ?_⟩
    · show (do sfsWblock blk (SFS_MAP_LOCATION + j); sfsMapioWrite bitdata (j + 1) k) s = _
      rw [bind_of_ok hw]
      exact hrun
    · rwa [show SFS_MAP_LOCATION + j + (k + 1) = SFS_MAP_LOCATION + (j + 1) + k by omega]
    · rw [hframe b (by omega)]
      exact Lhd.writeBlock_sectors_of_ne _ _ (by omega)
    · rcases Nat.eq_or_lt_of_le h1 with rfl | hlt
      · exact (Lhd.writeBlock_stores _ _ blk).congr (hframe _ (by omega))
      · exact hstores m hlt (by omega)

/-- **The read loop** over the blocks `j ..< j + k` brings the bytes of the map's blocks into
`data` from `j * SFS_BLOCKSIZE` on, keeps the bytes before, and changes no block. -/
theorem sfsMapioRead_ok :
    ∀ k j (data : Buf) (s : Sfs), s.dev.Good (SFS_MAP_LOCATION + j + k) →
      ∃ data' d, sfsMapioRead j k data s = .ok data' { s with dev := d } ∧
        d.sectors = s.dev.sectors ∧ (∀ p < j * SFS_BLOCKSIZE, data' p = data p) ∧
        ∀ p, j * SFS_BLOCKSIZE ≤ p → p < (j + k) * SFS_BLOCKSIZE → data' p = mapBytes s.dev p
  | 0, j, data, s, _ =>
    ⟨data, s.dev, rfl, rfl, fun _ _ => rfl, fun p h1 h2 => absurd h2 (by rw [Nat.add_zero]; omega)⟩
  | k + 1, j, data, s, hg => by
    have hr := sfsRblock_ok hg (b := SFS_MAP_LOCATION + j) (by omega) zeros
    have hg1 : (s.dev.readBlock (SFS_MAP_LOCATION + j)).Good (SFS_MAP_LOCATION + (j + 1) + k) := by
      have := hg.readBlock (SFS_MAP_LOCATION + j)
      rwa [show SFS_MAP_LOCATION + (j + 1) + k = SFS_MAP_LOCATION + j + (k + 1) by omega]
    obtain ⟨data', d, hrun, hsect, hbefore, hread⟩ :=
      sfsMapioRead_ok k (j + 1) (copy data (j * SFS_BLOCKSIZE)
        (copy zeros 0 (s.dev.sectors (SFS_MAP_LOCATION + j)) 0 SFS_BLOCKSIZE) 0 SFS_BLOCKSIZE)
        { s with dev := s.dev.readBlock (SFS_MAP_LOCATION + j) } hg1
    have hnext : (j + 1) * SFS_BLOCKSIZE = j * SFS_BLOCKSIZE + SFS_BLOCKSIZE := Nat.succ_mul _ _
    refine ⟨data', d, ?_, hsect, fun p hp => ?_, fun p h1 h2 => ?_⟩
    · show (do
          let blk ← sfsRblock zeros (SFS_MAP_LOCATION + j)
          sfsMapioRead (j + 1) k (copy data (j * SFS_BLOCKSIZE) blk 0 SFS_BLOCKSIZE)) s = _
      rw [bind_of_ok hr]
      exact hrun
    · rw [hbefore p (by omega)]
      exact copy_of_not_mem (.inl hp)
    · by_cases hp : p < (j + 1) * SFS_BLOCKSIZE
      · -- block `j`, read in this round
        obtain ⟨hdiv, hmod⟩ := div_mod_of_mem_block h1 hp
        rw [hbefore p hp, copy_of_mem h1 (by omega), copy_of_mem (Nat.zero_le _) (by omega)]
        simp only [mapBytes, Nat.zero_add, Nat.sub_zero, hdiv, hmod]
      · have hend : (j + 1 + k) * SFS_BLOCKSIZE = (j + (k + 1)) * SFS_BLOCKSIZE := by
          rw [Nat.add_assoc, Nat.add_comm 1 k]
        rw [hread p (by omega) (by rw [hend]; exact h2)]
        rfl

/-! ### Bits and bytes -/

/-- **The bits of the bytes of a bitmap are its bits**: `sfs_mapio` reads back with
`bitmapOfBytes` what it writes from `bitmap_getdata`. -/
theorem bitmapOfBytes_getdata (b : Bitmap) (i : Nat) : bitmapOfBytes (bitmapGetdata b) i = b.v i := by
  rw [bitmapOfBytes, bitmapGetdata, testBit_byteOfBits _ (Nat.mod_lt _ (by decide))]
  congr 1
  unfold BITS_PER_WORD
  omega

/-- The map's bits are whole blocks. -/
theorem SFS_BITMAPSIZE_eq (n : Nat) : SFS_BITMAPSIZE n = SFS_BITBLOCKS n * SFS_BLOCKBITS :=
  (Nat.div_mul_cancel (Nat.dvd_of_mod_eq_zero (by simp [SFS_BITMAPSIZE]))).symm

/-- A bit of the map is in a byte of its blocks. -/
theorem byte_lt_of_bit_lt {n i : Nat} (hi : i < SFS_BITMAPSIZE n) :
    i / 8 < SFS_BITBLOCKS n * SFS_BLOCKSIZE := by
  rw [SFS_BITMAPSIZE_eq] at hi
  unfold SFS_BLOCKBITS SFS_BLOCKSIZE at *
  omega

/-- The map's bytes of a disk whose map blocks store the bytes of `data`. -/
theorem mapBytes_of_stores {d : Lhd} {data : Buf} {k : Nat}
    (h : ∀ m < k, d.Stores (SFS_MAP_LOCATION + m) fun i => data (m * SFS_BLOCKSIZE + i))
    {p : Nat} (hp : p < k * SFS_BLOCKSIZE) : mapBytes d p = data p := by
  have hblock : p / SFS_BLOCKSIZE < k := by
    unfold SFS_BLOCKSIZE at *
    omega
  rw [mapBytes, h _ hblock _ (Nat.mod_lt _ (by decide))]
  show data (p / SFS_BLOCKSIZE * SFS_BLOCKSIZE + p % SFS_BLOCKSIZE) = data p
  rw [Nat.div_add_mod']

/-! ### Mounting -/

/-- **`sfs_domount`** of a disk whose superblock has the magic number and that has the blocks
of the map it names, with no media error and a `kmalloc` of the bitmap that succeeds: the
volume has the superblock's size, no loaded vnode, the disk's blocks, and the bits of the map's
blocks as its free map. -/
theorem sfsDomount_ok {dev : Lhd} {km : KmallocOracle}
    (hmagic : getBE (dev.sectors SFS_SB_LOCATION) 0 4 = SFS_MAGIC)
    (hg : dev.Good (SFS_MAP_LOCATION + SFS_BITBLOCKS (getBE (dev.sectors SFS_SB_LOCATION) 4 4)))
    (hkm : km.kmFails.head? ≠ some true) :
    ∃ s, sfsDomount dev km = some s ∧ s.spNblocks = getBE (dev.sectors SFS_SB_LOCATION) 4 4 ∧
      s.dev.sectors = dev.sectors ∧ s.vnodes = KArray.empty ∧
      s.freemap.nbits = SFS_BITMAPSIZE s.spNblocks ∧
      ∀ i < s.freemap.nbits, s.freemap.v i = bitmapOfBytes (mapBytes dev) i := by
  generalize hn : getBE (dev.sectors SFS_SB_LOCATION) 4 4 = n at hg ⊢
  have hsuper : sfsRblock zeros SFS_SB_LOCATION (sfsFresh dev km) =
      .ok (copy zeros 0 (dev.sectors SFS_SB_LOCATION) 0 SFS_BLOCKSIZE)
        { sfsFresh dev km with dev := dev.readBlock SFS_SB_LOCATION } :=
    sfsRblock_ok (s := sfsFresh dev km) hg (by unfold SFS_SB_LOCATION SFS_MAP_LOCATION; omega) zeros
  -- the fields read from the copy of the superblock are those on the disk
  have hfield : ∀ o w, o + w ≤ SFS_BLOCKSIZE →
      getBE (copy zeros 0 (dev.sectors SFS_SB_LOCATION) 0 SFS_BLOCKSIZE) o w =
        getBE (dev.sectors SFS_SB_LOCATION) o w := fun o w hw =>
    getBE_congr fun i _ hi => by rw [copy_of_mem (Nat.zero_le i) (by omega)]; simp
  obtain ⟨km', hkf⟩ := kmallocFails_of_head hkm
  obtain ⟨data', d, hread, hsect, -, hbytes⟩ := sfsMapioRead_ok (SFS_BITBLOCKS n) 0 zeros
    { sfsFresh dev km with dev := dev.readBlock SFS_SB_LOCATION, spNblocks := n, kmalloc := km' }
    (by simpa using hg.readBlock SFS_SB_LOCATION)
  have hload : sfsDomountLoad (sfsFresh dev km) = .ok ()
      { sfsFresh dev km with
        dev := d, spNblocks := n, kmalloc := km'
        freemap := { nbits := SFS_BITMAPSIZE n, v := bitmapOfBytes data' }
        freemapDirty := false } := by
    have hmag : getBE (copy zeros 0 (dev.sectors SFS_SB_LOCATION) 0 SFS_BLOCKSIZE) 0 4 = SFS_MAGIC := by
      rw [hfield 0 4 (by decide), hmagic]
    have hsize : getBE (copy zeros 0 (dev.sectors SFS_SB_LOCATION) 0 SFS_BLOCKSIZE) 4 4 = n := by
      rw [hfield 4 4 (by decide), hn]
    rw [sfsDomountLoad, bind_of_ok hsuper]
    dsimp only
    -- the magic number matches, and the `kmalloc` of the bitmap returns
    rw [if_neg (not_not_intro hmag), hsize, bind_apply, modify_apply]
    dsimp only
    rw [bind_apply]
    simp only [focus, sfsFresh, hkf]
    simp only [sfsFresh] at hread
    rw [if_neg Bool.false_ne_true, bind_of_ok hread]
    rfl
  refine ⟨{ sfsFresh dev km with
      dev := d, spNblocks := n, kmalloc := km'
      freemap := { nbits := SFS_BITMAPSIZE n, v := bitmapOfBytes data' }
      freemapDirty := false }, by simp only [sfsDomount, hload], rfl, ?_, rfl, rfl, fun i hi => ?_⟩
  · simpa using hsect
  -- the bits read are those of the map's blocks
  simp only [bitmapOfBytes]
  rw [hbytes _ (Nat.zero_le _) (by simpa using byte_lt_of_bit_lt hi)]
  rfl

end Os161

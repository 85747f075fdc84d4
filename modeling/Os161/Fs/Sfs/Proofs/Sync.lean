import Os161.Fs.Sfs.Proofs.Mapio

/-!
# `sfs_sync` writes the volume back, and a remount reads it as it was

The in-memory volume keeps two things the disk may not have yet: the inodes of its loaded
vnodes (`sv_i`, marked `sv_dirty`) and the free map (`sfs_freemapdirty`); everything else
`sfs_io` writes straight to the disk. A volume is ready to be synced (`Sfs.SyncReady`) when
its vnode table names live vnodes with distinct inode blocks outside the superblock and the free
map, what a clean flag claims is on disk, the superblock names the volume, and the disk has the
map's blocks with no media error pending. Then:

* `vopFsync_eq`: `VOP_FSYNC` of a vnode writes its inode back if it is dirty (`Sfs.syncInode`),
  and `SyncReady.syncInode` that this keeps the volume ready;
* `sfsSyncVnodes_ok`: the loop of `sfs_sync` over `sfs_vnodes` leaves every loaded vnode clean;
* `sfsSync_ok`: `sfs_sync` returns 0 and leaves the volume clean, ready, and otherwise as it was
  (`Sfs.WrittenBack`);
* `remount_of_clean`: `sfs_domount` of the disk of a clean volume gives back its size, its free
  map and every inode;
* `sfs_sync_remount`: together, a sync then a remount of its disk gives back the volume.
-/

namespace Os161

open Bytes Exec

namespace Sfs

/-- Entry `i` of `sfs_vnodes` is the vnode `v`, at address `sv`. -/
def EntryAt (s : Sfs) (i sv : Nat) (v : SfsVnode) : Prop :=
  i < s.vnodes.num ∧ s.vnodes.v[i]? = some (some sv) ∧ s.heap[sv]? = some (some v)

/-- A block a loaded inode may be in: on the disk, and neither the superblock nor a block of the
free map. -/
def InodeBlock (s : Sfs) (b : Nat) : Prop :=
  b < s.dev.dBlocks ∧ b ≠ SFS_SB_LOCATION ∧
    (b < SFS_MAP_LOCATION ∨ SFS_MAP_LOCATION + SFS_BITBLOCKS s.spNblocks ≤ b)

/-- The free map's blocks hold the free map. -/
def MapOnDisk (s : Sfs) : Prop :=
  ∀ i < s.freemap.nbits, bitmapOfBytes (mapBytes s.dev) i = s.freemap.v i

/-- The superblock holds the magic number and the size of the volume. -/
def SuperOnDisk (s : Sfs) : Prop :=
  getBE (s.dev.sectors SFS_SB_LOCATION) 0 4 = SFS_MAGIC ∧
    getBE (s.dev.sectors SFS_SB_LOCATION) 4 4 = s.spNblocks

/-- A mounted volume that `sfs_sync` can write back. -/
structure SyncReady (s : Sfs) : Prop where
  /-- Every entry of `sfs_vnodes` is a live vnode with a reference, whose inode is in an inode
  block. -/
  entries : ∀ i < s.vnodes.num, ∃ sv v, s.EntryAt i sv v ∧ v.vnRefcount ≠ 0 ∧ s.InodeBlock v.svIno
  /-- No two entries hold the same inode (`sfs_loadvnode` finds a loaded one). -/
  distinct : ∀ {i j sv sv' v v'}, s.EntryAt i sv v → s.EntryAt j sv' v' → v.svIno = v'.svIno → i = j
  /-- A clean inode is on disk. -/
  clean : ∀ {i sv v}, s.EntryAt i sv v → v.svDirty = false → s.dev.Stores v.svIno v.svI
  /-- A clean free map is on disk. -/
  mapClean : s.freemapDirty = false → s.MapOnDisk
  superblock : s.SuperOnDisk
  nbits : s.freemap.nbits = SFS_BITMAPSIZE s.spNblocks
  disk : s.dev.Good (SFS_MAP_LOCATION + SFS_BITBLOCKS s.spNblocks)

/-- The volume after `sfs_sync_inode` of the vnode `v` at `sv`: a dirty inode is written to its
block, and the vnode is clean. -/
def syncInode (s : Sfs) (sv : Nat) (v : SfsVnode) : Sfs :=
  if v.svDirty then
    { s with
      dev := s.dev.writeBlock v.svIno v.svI
      heap := s.heap.set sv (some { v with svDirty := false }) }
  else s

/-- `s` is `s₀` with inodes and the free map written back: the same vnodes up to their dirty
flags, the same free map, and the same blocks outside the map and the loaded inodes. -/
structure WrittenBack (s₀ s : Sfs) : Prop where
  vnodes : s.vnodes = s₀.vnodes
  spNblocks : s.spNblocks = s₀.spNblocks
  freemap : s.freemap = s₀.freemap
  entries : ∀ {i sv v}, s₀.EntryAt i sv v → ∃ d, s.EntryAt i sv { v with svDirty := d }
  sectors : ∀ b, (b < SFS_MAP_LOCATION ∨ SFS_MAP_LOCATION + SFS_BITBLOCKS s₀.spNblocks ≤ b) →
    (∀ {i sv v}, s₀.EntryAt i sv v → v.svIno ≠ b) → s.dev.sectors b = s₀.dev.sectors b

/-! ### The vnode table -/

variable {s : Sfs} {i j sv sv' : Nat} {v w : SfsVnode}

theorem EntryAt.unique (h : s.EntryAt i sv v) (h' : s.EntryAt i sv' w) : sv = sv' ∧ v = w := by
  have hsv : sv = sv' := by simpa [h.2.1] using h'.2.1
  subst hsv
  exact ⟨rfl, by simpa [h.2.2] using h'.2.2⟩

/-- The loaded vnodes are the vnodes of the entries. -/
theorem mem_loaded_iff : w ∈ s.loaded ↔ ∃ i sv, s.EntryAt i sv w := by
  rw [loaded, List.mem_filterMap]
  constructor
  · rintro ⟨p, hp, hpw⟩
    obtain ⟨i, hi⟩ := List.mem_iff_getElem?.mp hp
    obtain ⟨sv, rfl, hsv⟩ := Option.bind_eq_some_iff.mp hpw
    rw [KArray.elems, List.getElem?_take] at hi
    -- an index past `num` reads nothing
    split_ifs at hi with hlt
    exact ⟨i, sv, hlt, hi, Option.join_eq_some_iff.mp hsv⟩
  · rintro ⟨i, sv, hlt, hi, hsv⟩
    refine ⟨some sv, List.mem_iff_getElem?.mpr ⟨i, ?_⟩,
      Option.bind_eq_some_iff.mpr ⟨sv, rfl, Option.join_eq_some_iff.mpr hsv⟩⟩
    rw [KArray.elems, List.getElem?_take, if_pos hlt, hi]

/-- The inode of an entry of a ready volume is its vnode's copy. -/
theorem SyncReady.inodeOf_entry (hr : s.SyncReady) (he : s.EntryAt i sv v) :
    s.inodeOf v.svIno = v.svI := by
  -- `find?` stops at a loaded vnode with the same inode, which is `v`'s entry
  obtain ⟨w, hw⟩ : ∃ w, s.loaded.find? (·.svIno = v.svIno) = some w :=
    Option.isSome_iff_exists.mp (List.find?_isSome.mpr ⟨v, mem_loaded_iff.2 ⟨i, sv, he⟩, by simp⟩)
  have hwv : w.svIno = v.svIno := by simpa using List.find?_some hw
  obtain ⟨j, sv', he'⟩ := mem_loaded_iff.1 (List.mem_of_find?_eq_some hw)
  obtain rfl := hr.distinct he' he hwv
  obtain ⟨-, rfl⟩ := he'.unique he
  simp only [inodeOf, hw]

/-- The inode of a block no entry holds is the block. -/
theorem inodeOf_of_not_entry {ino : Nat} (h : ∀ {i sv v}, s.EntryAt i sv v → v.svIno ≠ ino) :
    s.inodeOf ino = s.dev.sectors ino := by
  have hfind : s.loaded.find? (·.svIno = ino) = none := by
    rw [List.find?_eq_none]
    intro w hw
    obtain ⟨i, sv, he⟩ := mem_loaded_iff.1 hw
    simpa using h he
  simp only [inodeOf, hfind]

/-- The free map on disk depends only on the map's blocks. -/
theorem MapOnDisk.congr {s' : Sfs} (hm : s.MapOnDisk) (hn : s.freemap.nbits = SFS_BITMAPSIZE s.spNblocks)
    (hfm : s'.freemap = s.freemap)
    (hblocks : ∀ b, SFS_MAP_LOCATION ≤ b → b < SFS_MAP_LOCATION + SFS_BITBLOCKS s.spNblocks →
      s'.dev.sectors b = s.dev.sectors b) : s'.MapOnDisk := by
  intro i hi
  rw [hfm] at hi ⊢
  have hbyte := byte_lt_of_bit_lt (hn ▸ hi)
  have hblk : i / 8 / SFS_BLOCKSIZE < SFS_BITBLOCKS s.spNblocks :=
    Nat.div_lt_of_lt_mul (by rwa [Nat.mul_comm] at hbyte)
  rw [← hm i hi]
  simp only [bitmapOfBytes, mapBytes]
  rw [hblocks _ (Nat.le_add_right _ _) (Nat.add_lt_add_left hblk _)]

/-! ### One inode written back -/

@[simp] theorem syncInode_vnodes : (s.syncInode sv v).vnodes = s.vnodes := by
  unfold syncInode; split <;> rfl

@[simp] theorem syncInode_spNblocks : (s.syncInode sv v).spNblocks = s.spNblocks := by
  unfold syncInode; split <;> rfl

@[simp] theorem syncInode_freemap : (s.syncInode sv v).freemap = s.freemap := by
  unfold syncInode; split <;> rfl

@[simp] theorem syncInode_freemapDirty : (s.syncInode sv v).freemapDirty = s.freemapDirty := by
  unfold syncInode; split <;> rfl

@[simp] theorem syncInode_dBlocks : (s.syncInode sv v).dev.dBlocks = s.dev.dBlocks := by
  unfold syncInode; split <;> rfl

theorem syncInode_good {n : Nat} (hg : s.dev.Good n) : (s.syncInode sv v).dev.Good n := by
  unfold syncInode
  split
  · exact hg.writeBlock _ _
  · exact hg

theorem syncInode_sectors_of_ne {b : Nat} (hb : b ≠ v.svIno) :
    (s.syncInode sv v).dev.sectors b = s.dev.sectors b := by
  unfold syncInode
  split
  · exact Lhd.writeBlock_sectors_of_ne _ _ hb
  · rfl

/-- After `sfs_sync_inode`, the vnode at `sv` is clean and the others are as they were. -/
theorem heap_syncInode (hv : s.heap[sv]? = some (some v)) (sv' : Nat) :
    (s.syncInode sv v).heap[sv']? =
      if sv' = sv then some (some { v with svDirty := false }) else s.heap[sv']? := by
  have hlt : sv < s.heap.length := (List.getElem?_eq_some_iff.mp hv).1
  unfold syncInode
  split_ifs with hd hs hs
  · subst hs
    simp [hlt]
  · simp [Ne.symm hs]
  · -- a clean vnode is its own clean copy
    subst hs
    rw [hv]
    cases v
    simp_all
  · rfl

theorem EntryAt.syncInode_self (he : s.EntryAt i sv v) :
    (s.syncInode sv v).EntryAt i sv { v with svDirty := false } :=
  ⟨by simpa using he.1, by simpa using he.2.1, by rw [heap_syncInode he.2.2, if_pos rfl]⟩

theorem SyncReady.entry_syncInode (hr : s.SyncReady) (he : s.EntryAt i sv v)
    (he' : s.EntryAt j sv' w) (hne : j ≠ i) : (s.syncInode sv v).EntryAt j sv' w := by
  -- two entries are two vnodes
  have hsv : sv' ≠ sv := by
    rintro rfl
    have hw : w = v := by simpa [he.2.2] using he'.2.2.symm
    exact hne (hr.distinct he' he (by rw [hw]))
  exact ⟨by simpa using he'.1, by simpa using he'.2.1,
    by rw [heap_syncInode he.2.2, if_neg hsv]; exact he'.2.2⟩

theorem SyncReady.of_entry_syncInode (hr : s.SyncReady) (he : s.EntryAt i sv v)
    (h : (s.syncInode sv v).EntryAt j sv' w) :
    (j = i ∧ w = { v with svDirty := false }) ∨ (j ≠ i ∧ s.EntryAt j sv' w) := by
  by_cases hj : j = i
  · subst hj
    exact .inl ⟨rfl, (he.syncInode_self.unique h).2.symm⟩
  · obtain ⟨hlt, hsv', hw⟩ := h
    simp only [syncInode_vnodes] at hlt hsv'
    rw [heap_syncInode he.2.2] at hw
    split_ifs at hw with hs
    · subst hs
      exact absurd (hr.distinct ⟨hlt, hsv', he.2.2⟩ he rfl) hj
    · exact .inr ⟨hj, hlt, hsv', hw⟩

theorem SyncReady.syncInode_stores (hr : s.SyncReady) (he : s.EntryAt i sv v) :
    (s.syncInode sv v).dev.Stores v.svIno v.svI := by
  unfold syncInode
  split_ifs with hd
  · exact Lhd.writeBlock_stores _ _ _
  · exact hr.clean he (by simpa using hd)

/-- **`sfs_sync_inode` keeps a volume ready.** -/
theorem SyncReady.syncInode (hr : s.SyncReady) (he : s.EntryAt i sv v)
    (hb : s.InodeBlock v.svIno) : (s.syncInode sv v).SyncReady where
  entries j hj := by
    obtain ⟨sv', w, he', hrc, hib⟩ := hr.entries j (by simpa using hj)
    have hib' : (s.syncInode sv v).InodeBlock w.svIno := by simpa [InodeBlock] using hib
    by_cases hji : j = i
    · subst hji
      obtain ⟨rfl, rfl⟩ := he.unique he'
      exact ⟨sv, _, he.syncInode_self, hrc, hib'⟩
    · exact ⟨sv', w, hr.entry_syncInode he he' hji, hrc, hib'⟩
  distinct h1 h2 heq := by
    rcases hr.of_entry_syncInode he h1 with ⟨rfl, rfl⟩ | ⟨-, h1'⟩ <;>
      rcases hr.of_entry_syncInode he h2 with ⟨rfl, rfl⟩ | ⟨-, h2'⟩
    · rfl
    · exact hr.distinct he h2' heq
    · exact hr.distinct h1' he heq
    · exact hr.distinct h1' h2' heq
  clean h hd := by
    rcases hr.of_entry_syncInode he h with ⟨rfl, rfl⟩ | ⟨hne, h'⟩
    · exact hr.syncInode_stores he
    · -- another inode, in another block
      have hb' : _ ≠ v.svIno := fun heq => hne (hr.distinct h' he heq)
      exact (hr.clean h' hd).congr (syncInode_sectors_of_ne hb')
  mapClean hd := (hr.mapClean (by simpa using hd)).congr hr.nbits (by simp) fun b h1 h2 =>
    syncInode_sectors_of_ne (by rcases hb.2.2 with h | h <;> omega)
  superblock := by
    have h0 : SFS_SB_LOCATION ≠ v.svIno := hb.2.1.symm
    simpa [SuperOnDisk, syncInode_sectors_of_ne h0] using hr.superblock
  nbits := by simpa using hr.nbits
  disk := by simpa using syncInode_good hr.disk

/-! ### Written back -/

theorem WrittenBack.refl (s : Sfs) : s.WrittenBack s :=
  ⟨rfl, rfl, rfl, fun {_ _ v} he => ⟨v.svDirty, he⟩, fun _ _ _ => rfl⟩

/-- Writing back one more inode of the current entries keeps the volume written back. -/
theorem WrittenBack.syncInode {s₀ : Sfs} (h0 : s₀.SyncReady) (hw : s₀.WrittenBack s)
    (hr : s.SyncReady) (he : s.EntryAt i sv v) : s₀.WrittenBack (s.syncInode sv v) where
  vnodes := by simpa using hw.vnodes
  spNblocks := by simpa using hw.spNblocks
  freemap := by simpa using hw.freemap
  entries {j sv' w} h := by
    obtain ⟨d, h'⟩ := hw.entries h
    by_cases hji : j = i
    · subst hji
      obtain ⟨rfl, rfl⟩ := he.unique h'
      exact ⟨false, he.syncInode_self⟩
    · exact ⟨d, hr.entry_syncInode he h' hji⟩
  sectors b hb hno := by
    -- the inode written is that of the start's entry `i`
    obtain ⟨sv₀, w₀, he₀, -, -⟩ := h0.entries i (hw.vnodes ▸ he.1)
    obtain ⟨d, he₀'⟩ := hw.entries he₀
    have hsv : v.svIno = w₀.svIno := by rw [(he.unique he₀').2]
    have hne : b ≠ v.svIno := by
      rw [hsv]
      exact Ne.symm (hno he₀)
    rw [syncInode_sectors_of_ne hne, hw.sectors b hb hno]

/-- The inodes of a written-back volume, outside the free map, are those it started with. -/
theorem WrittenBack.inodeOf {s₀ : Sfs} (h0 : s₀.SyncReady) (hr : s.SyncReady)
    (hw : s₀.WrittenBack s) {ino : Nat}
    (hino : ino < SFS_MAP_LOCATION ∨ SFS_MAP_LOCATION + SFS_BITBLOCKS s₀.spNblocks ≤ ino) :
    s.inodeOf ino = s₀.inodeOf ino := by
  by_cases hex : ∃ i sv v, s₀.EntryAt i sv v ∧ v.svIno = ino
  · obtain ⟨i, sv, v, he, rfl⟩ := hex
    obtain ⟨d, he'⟩ := hw.entries he
    have h' := hr.inodeOf_entry he'
    rw [h0.inodeOf_entry he]
    exact h'
  · push Not at hex
    -- no entry of `s` holds it either, as the entries are the same
    have hex' : ∀ {i sv v}, s.EntryAt i sv v → v.svIno ≠ ino := by
      intro i sv w he'
      obtain ⟨sv₀, w₀, he₀, -, -⟩ := h0.entries i (hw.vnodes ▸ he'.1)
      obtain ⟨d, he₀'⟩ := hw.entries he₀
      have hsv : w.svIno = w₀.svIno := by rw [(he'.unique he₀').2]
      rw [hsv]
      exact hex _ _ _ he₀
    rw [inodeOf_of_not_entry hex', inodeOf_of_not_entry fun he => hex _ _ _ he,
      hw.sectors ino hino fun he => hex _ _ _ he]

/-- Writing the free map keeps a volume ready, with the map then on disk. -/
theorem SyncReady.mapWritten (hr : s.SyncReady) {d : Lhd}
    (hgd : d.Good (SFS_MAP_LOCATION + SFS_BITBLOCKS s.spNblocks)) (hdb : d.dBlocks = s.dev.dBlocks)
    (hframe : ∀ b, b < SFS_MAP_LOCATION ∨ SFS_MAP_LOCATION + SFS_BITBLOCKS s.spNblocks ≤ b →
      d.sectors b = s.dev.sectors b)
    (hstores : ∀ m < SFS_BITBLOCKS s.spNblocks,
      d.Stores (SFS_MAP_LOCATION + m) fun i => bitmapGetdata s.freemap (m * SFS_BLOCKSIZE + i)) :
    ({ s with dev := d, freemapDirty := false } : Sfs).SyncReady where
  entries i hi := by
    obtain ⟨sv, v, he, hrc, hib⟩ := hr.entries i hi
    exact ⟨sv, v, he, hrc, by simpa [InodeBlock, hdb] using hib⟩
  distinct h1 h2 heq := hr.distinct h1 h2 heq
  clean {i sv v} he hd := by
    obtain ⟨sv', v', he', -, hib⟩ := hr.entries i he.1
    obtain ⟨rfl, rfl⟩ := he'.unique he
    exact (hr.clean he hd).congr (hframe _ (by rcases hib.2.2 with h | h <;> omega))
  mapClean _ i hi := by
    rw [hr.nbits] at hi
    simp only [bitmapOfBytes]
    rw [mapBytes_of_stores hstores (byte_lt_of_bit_lt hi)]
    exact bitmapOfBytes_getdata s.freemap i
  superblock := by
    simpa [SuperOnDisk, hframe SFS_SB_LOCATION (.inl (by decide))] using hr.superblock
  nbits := hr.nbits
  disk := hgd

/-! ### `sfs_sync` -/

theorem arrayGet_of_entry (he : s.EntryAt i sv v) :
    (arrayGet s.vnodes i : Exec Int Sfs Nat) s = .ok sv s := by
  simp [arrayGet, bind_apply, he.1, he.2.1]

/-- **`VOP_FSYNC`** of a live vnode with a reference, whose inode block is on a good disk. -/
theorem vopFsync_eq (hv : s.heap[sv]? = some (some v)) (hrc : v.vnRefcount ≠ 0) {n : Nat}
    (hg : s.dev.Good n) (hb : v.svIno < n) : vopFsync sv s = .ok () (s.syncInode sv v) := by
  have hcheck : vnodeCheck sv s = .ok v.vnOps s := by
    simp [vnodeCheck, bind_apply, getVnode_of_heap hv, hrc]
  rw [vopFsync, bind_of_ok hcheck]
  simp only [sfsFsync, sfsSyncInode, bind_of_ok (getVnode_of_heap hv)]
  cases hd : v.svDirty
  · simp [syncInode, hd]
  · -- the inode goes to its block, and the vnode is marked clean
    have hv' : ({ s with dev := s.dev.writeBlock v.svIno v.svI } : Sfs).heap[sv]? = some (some v) := hv
    simp only [if_true, bind_of_ok (sfsWblock_ok hg hb v.svI), modifyVnode_of_heap _ hv', syncInode, hd]

/-- **The loop of `sfs_sync` over `sfs_vnodes`** from entry `i` on, with the entries before `i`
clean, returns with every entry clean, the volume ready and written back. -/
theorem sfsSyncVnodes_ok {s₀ : Sfs} (h0 : s₀.SyncReady) :
    ∀ k i (s : Sfs), s.SyncReady → s₀.WrittenBack s → i + k = s.vnodes.num →
      (∀ {j sv v}, j < i → s.EntryAt j sv v → v.svDirty = false) →
      ∃ s', sfsSyncVnodes i k s = .ok () s' ∧ s'.SyncReady ∧ s₀.WrittenBack s' ∧
        ∀ {j sv v}, s'.EntryAt j sv v → v.svDirty = false
  | 0, _, s, hr, hw, hnum, hclean => ⟨s, rfl, hr, hw, fun he => hclean (by have := he.1; omega) he⟩
  | k + 1, i, s, hr, hw, hnum, hclean => by
    obtain ⟨sv, v, he, hrc, hib⟩ := hr.entries i (by omega)
    have hf := vopFsync_eq he.2.2 hrc ⟨le_refl _, hr.disk.small, hr.disk.media⟩ hib.1
    -- the entries up to `i` are clean after its `VOP_FSYNC`
    have hclean' : ∀ {j sv' w}, j < i + 1 → (s.syncInode sv v).EntryAt j sv' w → w.svDirty = false := by
      intro j sv' w hj h
      rcases hr.of_entry_syncInode he h with ⟨-, rfl⟩ | ⟨hne, h'⟩
      · rfl
      · exact hclean (by omega) h'
    obtain ⟨s', hrun, hr', hw', hcl⟩ := sfsSyncVnodes_ok h0 k (i + 1) (s.syncInode sv v)
      (hr.syncInode he hib) (hw.syncInode h0 hr he) (by simp; omega) hclean'
    refine ⟨s', ?_, hr', hw', hcl⟩
    rw [sfsSyncVnodes, bind_apply, get_apply]
    dsimp only
    rw [bind_of_ok (arrayGet_of_entry he), bind_of_ok (attempt_of_ok hf)]
    exact hrun

/-- **`sfs_sync` returns 0 on a ready volume**, and leaves it ready, clean, and written back:
every loaded inode and the free map are on disk. -/
theorem sfsSync_ok (hr : s.SyncReady) :
    ∃ s', sfsSync s = .ok () s' ∧ s'.SyncReady ∧ s'.freemapDirty = false ∧
      (∀ {j sv v}, s'.EntryAt j sv v → v.svDirty = false) ∧ s.WrittenBack s' := by
  obtain ⟨s1, hrun, hr1, hw1, hcl1⟩ := sfsSyncVnodes_ok hr s.vnodes.num 0 s hr (WrittenBack.refl s)
    (Nat.zero_add _) fun hj => absurd hj (Nat.not_lt_zero _)
  have hsync : sfsSync s = (if s1.freemapDirty then do
      sfsMapioWrite (bitmapGetdata s1.freemap) 0 (SFS_BITBLOCKS s1.spNblocks)
      modify fun (s : Sfs) => { s with freemapDirty := false }
    else pure ()) s1 := by
    rw [sfsSync, bind_apply, get_apply]
    dsimp only
    rw [bind_of_ok hrun]
    rfl
  cases hd : s1.freemapDirty
  · exact ⟨s1, by rw [hsync, hd]; rfl, hr1, hd, hcl1, hw1⟩
  · -- the map is dirty: `sfs_mapio` writes it, and it is clean
    obtain ⟨d, hmap, hgd, hdb, hframe, hstores⟩ := sfsMapioWrite_ok (bitmapGetdata s1.freemap)
      (SFS_BITBLOCKS s1.spNblocks) 0 s1 (by simpa using hr1.disk)
    refine ⟨{ s1 with dev := d, freemapDirty := false }, ?_,
      hr1.mapWritten (by simpa using hgd) hdb (fun b hb => hframe b (by simpa using hb))
        (fun m hm => hstores m (Nat.zero_le m) (by simpa using hm)), rfl, hcl1, ?_⟩
    · rw [hsync, hd, if_pos rfl, bind_of_ok hmap]
      rfl
    · exact ⟨hw1.vnodes, hw1.spNblocks, hw1.freemap, hw1.entries, fun b hb hno => by
        rw [← hw1.sectors b hb hno]
        exact hframe b (by rw [hw1.spNblocks]; simpa using hb)⟩

/-! ### Remounting -/

/-- **A remount of a clean volume's disk gives the volume back**: `sfs_domount` of the disk of a
ready volume with a clean free map and clean vnodes succeeds, with the volume's size, its free
map, and every inode as the volume has it. -/
theorem remount_of_clean (hr : s.SyncReady) (hd : s.freemapDirty = false)
    (hcl : ∀ {j sv v}, s.EntryAt j sv v → v.svDirty = false) {km : KmallocOracle}
    (hkm : km.kmFails.head? ≠ some true) :
    ∃ s'', sfsDomount s.dev km = some s'' ∧ s''.spNblocks = s.spNblocks ∧
      s''.freemap.nbits = s.freemap.nbits ∧ (∀ b < s.freemap.nbits, s''.freemap.v b = s.freemap.v b) ∧
      ∀ ino, ∀ k < SFS_BLOCKSIZE, s''.inodeOf ino k = s.inodeOf ino k := by
  obtain ⟨hmag, hsz⟩ := hr.superblock
  obtain ⟨s'', hmount, hsp, hsect, hvn, hnb, hbits⟩ :=
    sfsDomount_ok hmag (by rw [hsz]; exact hr.disk) hkm
  rw [hsz] at hsp
  have hnbits : s''.freemap.nbits = s.freemap.nbits := by rw [hnb, hsp, hr.nbits]
  refine ⟨s'', hmount, hsp, hnbits, fun b hb => ?_, fun ino k hk => ?_⟩
  · rw [hbits b (hnbits ▸ hb)]
    exact hr.mapClean hd b hb
  · -- the remounted volume has no loaded vnode: its inodes are its blocks
    have h'' : s''.inodeOf ino = s''.dev.sectors ino :=
      inodeOf_of_not_entry fun he => absurd he.1 (by simp [hvn, KArray.empty])
    rw [h'', hsect]
    by_cases hex : ∃ i sv v, s.EntryAt i sv v ∧ v.svIno = ino
    · obtain ⟨i, sv, v, he, rfl⟩ := hex
      rw [hr.inodeOf_entry he]
      exact hr.clean he (hcl he) k hk
    · push Not at hex
      rw [inodeOf_of_not_entry fun he => hex _ _ _ he]

/-- `sfs_unmount` of a volume with a clean free map: `EBUSY` with a loaded vnode, else 0; its
`KASSERT` holds. -/
theorem sfsUnmount_of_clean (hd : s.freemapDirty = false) :
    sfsUnmount s = if 0 < s.vnodes.num then .error (.err EBUSY) s else .ok () s := by
  by_cases hn : 0 < s.vnodes.num
  · simp [sfsUnmount, bind_apply, hn]
  · simp [sfsUnmount, bind_apply, hn, hd]

end Sfs

open Sfs

/-- **Sync, then remount.** On a ready volume `sfs_sync` returns 0 and leaves the free map and
every loaded vnode clean, after which `sfs_unmount` of a volume without loaded vnodes returns 0
(its `KASSERT` on the free map holds); and `sfs_domount` of the disk it leaves gives back the
volume: its size, its free map, and every inode outside the free map's blocks, each as the volume
had it in memory before the sync, dirty or not. -/
theorem sfs_sync_remount {s : Sfs} (hr : s.SyncReady) {km : KmallocOracle}
    (hkm : km.kmFails.head? ≠ some true) :
    ∃ s' s'', sfsSync s = .ok () s' ∧ s'.freemapDirty = false ∧ (∀ v ∈ s'.loaded, v.svDirty = false) ∧
      (s.vnodes.num = 0 → sfsUnmount s' = .ok () s') ∧
      sfsDomount s'.dev km = some s'' ∧ s''.spNblocks = s.spNblocks ∧
      s''.freemap.nbits = s.freemap.nbits ∧ (∀ b < s.freemap.nbits, s''.freemap.v b = s.freemap.v b) ∧
      ∀ ino, (ino < SFS_MAP_LOCATION ∨ SFS_MAP_LOCATION + SFS_BITBLOCKS s.spNblocks ≤ ino) →
        ∀ k < SFS_BLOCKSIZE, s''.inodeOf ino k = s.inodeOf ino k := by
  obtain ⟨s', hsync, hr', hd', hcl', hw⟩ := sfsSync_ok hr
  obtain ⟨s'', hmount, hsp, hnb, hbits, hino⟩ := remount_of_clean hr' hd' hcl' hkm
  refine ⟨s', s'', hsync, hd', fun v hv => ?_, fun hn => ?_, hmount, ?_, ?_, ?_, fun ino hi k hk => ?_⟩
  · obtain ⟨i, sv, he⟩ := mem_loaded_iff.1 hv
    exact hcl' he
  · rw [sfsUnmount_of_clean hd', hw.vnodes, hn, if_neg (Nat.lt_irrefl 0)]
  · rw [hsp, hw.spNblocks]
  · rw [hnb, hw.freemap]
  · intro b hb
    rw [hbits b (by rwa [hw.freemap]), hw.freemap]
  · rw [hino ino k hk, hw.inodeOf hr hr' hi]

/-- A volume of eight blocks whose root directory is loaded with a dirty inode, and whose free
map, marking blocks 0 to 3, is dirty too; the disk holds only the superblock. -/
def syncSample : Sfs where
  dev := ⟨fun b => if b = SFS_SB_LOCATION then setBE (setBE zeros 0 4 SFS_MAGIC) 4 4 8 else zeros,
    8, zeros, []⟩
  spNblocks := 8
  freemap := ⟨SFS_BITMAPSIZE 8, fun b => decide (b < 4)⟩
  freemapDirty := true
  vnodes := ⟨[some 0], 1, 1⟩
  heap := [some ⟨1, 0, .dirops, setSfiType zeros SFS_TYPE_DIR, SFS_ROOT_LOCATION, true⟩]
  kmalloc := ⟨[]⟩

theorem syncSample_entry {i sv : Nat} {v : SfsVnode} (he : syncSample.EntryAt i sv v) :
    i = 0 ∧ sv = 0 ∧ v = ⟨1, 0, .dirops, setSfiType zeros SFS_TYPE_DIR, SFS_ROOT_LOCATION, true⟩ := by
  obtain ⟨hi, hsv, hv⟩ := he
  have hi0 : i = 0 := by simpa [syncSample] using hi
  subst hi0
  have hsv0 : sv = 0 := by simpa [syncSample] using hsv.symm
  subst hsv0
  exact ⟨rfl, rfl, by simpa [syncSample] using hv.symm⟩

theorem syncSample_ready : syncSample.SyncReady where
  entries i hi := by
    obtain rfl : i = 0 := by simpa [syncSample] using hi
    exact ⟨0, _, ⟨by decide, rfl, rfl⟩, by decide, by unfold InodeBlock; decide⟩
  distinct h1 h2 _ := by rw [(syncSample_entry h1).1, (syncSample_entry h2).1]
  clean he hd := by
    obtain ⟨-, -, rfl⟩ := syncSample_entry he
    cases hd
  mapClean hd := by cases hd
  superblock := by unfold SuperOnDisk; decide
  nbits := rfl
  disk := ⟨by decide, by decide, by decide⟩

/-- Syncing the sample volume writes its root inode and its free map, and a remount reads them
back. -/
theorem sfs_sync_remount_root :
    ∃ s' s'', sfsSync syncSample = .ok () s' ∧ s'.freemapDirty = false ∧
      (∀ v ∈ s'.loaded, v.svDirty = false) ∧ (syncSample.vnodes.num = 0 → sfsUnmount s' = .ok () s') ∧
      sfsDomount s'.dev ⟨[]⟩ = some s'' ∧ s''.spNblocks = syncSample.spNblocks ∧
      s''.freemap.nbits = syncSample.freemap.nbits ∧
      (∀ b < syncSample.freemap.nbits, s''.freemap.v b = syncSample.freemap.v b) ∧
      ∀ ino, (ino < SFS_MAP_LOCATION ∨ SFS_MAP_LOCATION + SFS_BITBLOCKS syncSample.spNblocks ≤ ino) →
        ∀ k < SFS_BLOCKSIZE, s''.inodeOf ino k = syncSample.inodeOf ino k :=
  sfs_sync_remount syncSample_ready (by decide)

end Os161

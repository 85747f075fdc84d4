import Os161.Fs.Sfs.View
import Os161.Dev.Proofs.Lhd

/-!
# What the operations of the simple file system do on their error paths

Three behaviours of `sfs_io.c` and `sfs_vnode.c`, each stated for every state and then shown
on a small volume:

* `sfsWblock_media_error`: `sfs_rwblock` retries a request that failed with `EIO` on the uio
  the failed attempt left behind. `lhd_io` has moved a write's data into the card's buffer
  before the disk reports the error, so the retry has nothing left to write and succeeds:
  `sfs_wblock` returns 0 and the block is not written. On the sample volume, `sfs_creat`
  returns a new file whose directory entry was never written.
* `sfsMakeobj_error_keeps_block`: `sfs_makeobj` does not give back the inode block that
  `sfs_balloc` took when `sfs_loadvnode` fails (`sfsLoadvnode_freemap`: that function never
  touches the free map). On the sample volume, `sfs_creat` fails with `ENOMEM` and leaves a
  block marked that nothing holds.
* `sfsIo_empty_write`: a write of no bytes at a block boundary past the end of a file sets
  `sfi_size` to the offset cut to 32 bits. At offset 2³² a file's size becomes 0.

The sample volume has 32 blocks: the superblock, the root directory (inode 1, one slot, which
names `big`), the free map, and the file `big` (inode 4), whose 16 blocks are the 15 direct
blocks 5 to 19 and block 21 through the indirect block 20. It is mounted and its root directory
loaded, at address 0; the environment's next `kmalloc` and media outcomes are parameters.
-/

namespace Os161

open Bytes Exec

/-! ### The sample volume -/

/-- An inode block with the given type, link count, size, direct blocks and indirect block. -/
def sampleInode (type links size : Nat) (direct : List Nat) (indirect : Nat) : Buf :=
  let i := setSfiLinkcount (setSfiType (setSfiSize zeros size) type) links
  setSfiIndirect (direct.zipIdx.foldl (fun i p => setSfiDirect i p.2 p.1) i) indirect

/-- The name `big`. -/
def bigName : CStr := ⟨[98, 105, 103], by decide⟩

/-- The name `a`. -/
def nameA : CStr := ⟨[97], by decide⟩

/-- The blocks of the sample volume. The free map marks blocks 0 to 21 and every bit from 32
on. -/
def sampleImage (b : Nat) : Buf :=
  if b = SFS_SB_LOCATION then setBE (setBE zeros 0 4 SFS_MAGIC) 4 4 32
  else if b = SFS_ROOT_LOCATION then sampleInode SFS_TYPE_DIR 1 SFS_DIRSIZE [3] 0
  else if b = SFS_MAP_LOCATION then fun i => if i < 2 then 255 else if i = 2 then 63 else if i = 3 then 0 else 255
  else if b = 3 then sfsDirEntry 4 bigName
  else if b = 4 then sampleInode SFS_TYPE_FILE 1 (16 * SFS_BLOCKSIZE) ((List.range 15).map (· + 5)) 20
  else if b = 20 then setIdEntry zeros 0 21
  else zeros

/-- The sample volume, mounted, with its root directory loaded, and the environment's next
`kmalloc` and media outcomes. -/
def sampleVolume (km media : List Bool) : Sfs :=
  let disk : Lhd := { sectors := sampleImage, dBlocks := 32, lhBuf := zeros, lhMedia := [] }
  match sfsDomount disk ⟨[]⟩ with
  | some s =>
    match sfsGetroot s with
    | .ok _ s => { s with kmalloc := ⟨km⟩, dev := { s.dev with lhMedia := media } }
    | .error _ s => s
  | none => sfsFresh disk ⟨km⟩

/-- The runs on the sample volume that the three results below read, evaluated together: the
root directory names `big`; `sfs_creat` of `a` with its sixth media outcome an error returns with
the entry unwritten; with its first `kmalloc` failing it fails with `ENOMEM` and leaves block 22
marked; and a write of no bytes at 2³² to `big`, whose size is 16 blocks, makes its size 0. -/
theorem sampleVolume_runs :
    (sampleVolume [] []).dirEntries = [(bigName.bytes, 4)] ∧
    returnsWith (fun _ s => s.dirEntries == [(bigName.bytes, 4)] &&
      (s.loaded.find? (·.svIno = 22)).isSome && sfiLinkcount (s.inodeOf 22) == 1)
      (sfsCreat 0 nameA false (sampleVolume [] [false, false, false, false, false, true])) = true ∧
    (sampleVolume [true] []).FreemapExact ∧
    failsWith (fun e s => e == ENOMEM && decide (22 < s.freemap.nbits) &&
      s.freemap.v 22 && !s.blockAccounted 22) (sfsCreat 0 nameA false (sampleVolume [true] [])) =
      true ∧
    returnsWith (fun r s => r.2 == 0 && sfiSize (s.inodeOf 4) == 16 * SFS_BLOCKSIZE &&
      returnsWith (fun _ p => sfiSize (p.1.inodeOf 4) == 0)
        (sfsIo r.1 (s, uioKinit zeros 0 (2 ^ 32) .write)))
      (sfsLookonce 0 bigName (sampleVolume [] [])) = true := by
  -- the free map has 4096 bits, more than `decide_cbv` unfolds: the kernel checks that one
  refine ⟨by decide_cbv, by decide_cbv, by decide +kernel, by decide_cbv, by decide_cbv⟩

/-! ### Block I/O after a media error -/

theorem sfsRwblockRetry_of_ok {p p' : Sfs × Uio} (h : sfsDevIo p = .ok () p') (k : Nat) :
    sfsRwblockRetry k p = .ok () p' := by
  cases k <;> simp [sfsRwblockRetry, sfsRwblockAttempt, bind_apply, attempt_of_ok h]

theorem sfsRwblockRetry_succ_of_eio {p p' : Sfs × Uio} (h : sfsDevIo p = .error (.err EIO) p')
    (k : Nat) : sfsRwblockRetry (k + 1) p = sfsRwblockRetry k p' := by
  have hne : EIO ≠ EINVAL := by decide
  simp [sfsRwblockRetry, sfsRwblockAttempt, bind_apply, attempt_of_err h, hne]

/-- **A write that meets one media error is lost**: `sfs_wblock` returns 0, and the disk's
blocks are as they were; only the card's buffer holds the data. -/
theorem sfsWblock_media_error {s : Sfs} {data : Buf} {b : Nat} {rest : List Bool}
    (hb : b < s.dev.dBlocks) (hb' : b + 1 < 2 ^ 32) (hm : s.dev.lhMedia = true :: rest) :
    sfsWblock data b s =
      .ok () { s with
        dev := { s.dev with lhBuf := copy s.dev.lhBuf 0 data 0 SFS_BLOCKSIZE, lhMedia := rest } } := by
  -- the retry sees the uio at the start of block `b + 1`, with nothing left in it
  have hnext : (b : Int) * LHD_SECTSIZE + LHD_SECTSIZE = ((b + 1 : Nat) : Int) * LHD_SECTSIZE := by
    push_cast
    rw [Int.add_mul, Int.one_mul]
  have hsect : Word.ofInt 32 ((b + 1 : Nat) : Int) = b + 1 := Word.ofInt_natCast_of_lt hb'
  have hretry : lhdIo ({ s.dev with lhBuf := copy s.dev.lhBuf 0 data 0 LHD_SECTSIZE, lhMedia := rest },
      { uioKinit data LHD_SECTSIZE (b * LHD_SECTSIZE) .write with
        uioIov := [⟨data, LHD_SECTSIZE, 0⟩], uioResid := 0,
        uioOffset := b * LHD_SECTSIZE + LHD_SECTSIZE }) = .ok () _ :=
    lhdIo_of_resid_zero rfl (by rw [hnext, blockOffset_tmod])
      (by rw [hnext, blockOffset_tdiv, hsect]; exact hb)
  have hfail : lhdIo (s.dev, uioKinit data LHD_SECTSIZE (b * LHD_SECTSIZE) .write) = _ :=
    lhdIo_write_media hb hb' hm
  have hsize : SFS_BLOCKSIZE = LHD_SECTSIZE := rfl
  simp only [sfsWblock, sfsRwblock, extend, bind_apply, hsize]
  rw [sfsRwblockRetry_succ_of_eio (by simp only [sfsDevIo, focus]; rw [hfail]),
    sfsRwblockRetry_of_ok (by simp only [sfsDevIo, focus]; rw [hretry])]
  rfl

theorem sfsCreat_lost_entry :
    (sampleVolume [] []).dirEntries = [(bigName.bytes, 4)] ∧
    ∃ sv s, sfsCreat 0 nameA false (sampleVolume [] [false, false, false, false, false, true]) =
        .ok sv s ∧
      s.dirEntries = [(bigName.bytes, 4)] ∧ (s.loaded.find? (·.svIno = 22)).isSome ∧
      sfiLinkcount (s.inodeOf 22) = 1 := by
  obtain ⟨hroot, h, -⟩ := sampleVolume_runs
  refine ⟨hroot, ?_⟩
  obtain ⟨sv, s, hrun, hp⟩ := returnsWith_eq_true.1 h
  simp only [Bool.and_eq_true, beq_iff_eq] at hp
  exact ⟨sv, s, hrun, hp.1.1, hp.1.2, hp.2⟩

/-! ### The free map across `sfs_makeobj`

Which functions leave the free map as they found it, one lemma per function of the model;
`sfsLoadvnode_freemap` puts them together along the code of `sfs_loadvnode`. -/

theorem getVnode_keeps (P : Sfs → Prop) (sv : Nat) : Keeps P (getVnode sv) := by
  refine Keeps.get_bind fun s hs => ?_
  rcases s.heap[sv]? with _ | _ | v <;> exact hs

theorem modifyVnode_freemap (m : Bitmap) (sv : Nat) (f : SfsVnode → SfsVnode) :
    Keeps (fun s : Sfs => s.freemap = m) (modifyVnode sv f) :=
  Keeps.bind (getVnode_keeps _ sv) fun _ => Keeps.modify fun _ h => h

theorem sfsBused_keeps (P : Sfs → Prop) (b : Nat) : Keeps P (sfsBused b) :=
  Keeps.bind Keeps.get fun _ => Keeps.bind (Keeps.assert _) fun _ => Keeps.pure _

theorem arrayGet_keeps {ε σ β : Type} (P : σ → Prop) (a : KArray β) (i : Nat) :
    Keeps P (arrayGet a i : Exec ε σ β) := by
  refine Keeps.bind (Keeps.assert _) fun _ => ?_
  rcases a.v[i]? with _ | _ | x
  · exact Keeps.halt
  · exact Keeps.halt
  · exact Keeps.pure _

theorem sfsRwblockRetry_keeps {P : Sfs → Prop} (hP : ∀ s d, P s → P { s with dev := d })
    (k : Nat) : Keeps (fun p : Sfs × Uio => P p.1) (sfsRwblockRetry k) := by
  -- the device writes back only `dev` and the uio
  have hdev : Keeps (fun p : Sfs × Uio => P p.1) sfsDevIo :=
    Keeps.focus_put fun p d h => hP p.1 d.1 h
  induction k with
  | zero =>
    refine Keeps.bind (Keeps.attempt hdev) fun r => ?_
    rcases r with e | _
    · exact Keeps.ite Keeps.halt (Keeps.ite (Keeps.fail _) (Keeps.fail _))
    · exact Keeps.pure _
  | succ k ih =>
    refine Keeps.bind (Keeps.attempt hdev) fun r => ?_
    rcases r with e | _
    · exact Keeps.ite Keeps.halt (Keeps.ite ih (Keeps.fail _))
    · exact Keeps.pure _

/-- Block reads keep every property of the volume that does not look at the disk. -/
theorem sfsRblock_keeps {P : Sfs → Prop} (hP : ∀ s d, P s → P { s with dev := d })
    (data : Buf) (b : Nat) : Keeps P (sfsRblock data b) :=
  Keeps.bind (Keeps.extend (sfsRwblockRetry_keeps hP 10)) fun _ => Keeps.pure _

theorem sfsWblock_keeps {P : Sfs → Prop} (hP : ∀ s d, P s → P { s with dev := d })
    (data : Buf) (b : Nat) : Keeps P (sfsWblock data b) :=
  Keeps.bind (Keeps.extend (sfsRwblockRetry_keeps hP 10)) fun _ => Keeps.pure _

theorem sfsLoadvnodeSearch_freemap (m : Bitmap) (ino forcetype : Nat) :
    ∀ i k, Keeps (fun s : Sfs => s.freemap = m) (sfsLoadvnodeSearch ino forcetype i k)
  | _, 0 => Keeps.pure _
  | i, k + 1 =>
    Keeps.bind Keeps.get fun _ => Keeps.bind (arrayGet_keeps _ _ _) fun sv =>
      Keeps.bind (getVnode_keeps _ sv) fun _ => Keeps.bind (sfsBused_keeps _ _) fun _ =>
      Keeps.bind (Keeps.assert _) fun _ =>
      Keeps.ite (Keeps.bind (Keeps.assert _) fun _ =>
          Keeps.bind (modifyVnode_freemap m sv _) fun _ => Keeps.pure _)
        (sfsLoadvnodeSearch_freemap m ino forcetype (i + 1) k)

theorem vnodeCleanup_freemap (m : Bitmap) (sv : Nat) :
    Keeps (fun s : Sfs => s.freemap = m) (vnodeCleanup sv) :=
  Keeps.bind (getVnode_keeps _ sv) fun _ => Keeps.bind (Keeps.assert _) fun _ =>
    Keeps.bind (Keeps.assert _) fun _ => modifyVnode_freemap m _ _

theorem sfsForcetype_freemap (m : Bitmap) (sv forcetype : Nat) :
    Keeps (fun s : Sfs => s.freemap = m) (sfsForcetype sv forcetype) :=
  Keeps.ite (Keeps.bind (getVnode_keeps _ sv) fun _ => Keeps.bind (Keeps.assert _) fun _ =>
    modifyVnode_freemap m _ _) (Keeps.pure _)

theorem sfsOpsOfType_keeps {σ : Type} (P : σ → Prop) (type : Nat) :
    Keeps P (sfsOpsOfType type : Exec Int σ SfsOps) :=
  Keeps.ite (Keeps.pure _) (Keeps.ite (Keeps.pure _) Keeps.halt)

/-- **`sfs_loadvnode` never touches the free map**, on any of its exits. -/
theorem sfsLoadvnode_freemap (m : Bitmap) (ino forcetype : Nat) :
    Keeps (fun s : Sfs => s.freemap = m) (sfsLoadvnode ino forcetype) := by
  refine Keeps.bind Keeps.get fun _ =>
    Keeps.bind (sfsLoadvnodeSearch_freemap m _ _ _ _) fun r => ?_
  rcases r with _ | sv
  · refine Keeps.bind (Keeps.focus_put fun _ _ h => h) fun _ => Keeps.ite (Keeps.fail _) ?_
    -- the new vnode goes to the end of the heap, which the free map does not see
    refine Keeps.get_bind fun s hs =>
      Keeps.final_set_bind (P := fun s : Sfs => s.freemap = m) (by exact hs) ?_ s
    refine Keeps.bind (sfsBused_keeps _ _) fun _ => Keeps.bind (Keeps.assert _) fun _ =>
      Keeps.bind (Keeps.attempt (sfsRblock_keeps (fun _ _ h => h) _ _)) fun r => ?_
    rcases r with e | svI
    · exact Keeps.bind (Keeps.modify fun _ h => h) fun _ => Keeps.fail _
    · refine Keeps.bind (modifyVnode_freemap m _ _) fun _ =>
        Keeps.bind (sfsForcetype_freemap m _ _) fun _ => Keeps.bind (getVnode_keeps _ _) fun _ =>
        Keeps.bind (sfsOpsOfType_keeps _ _) fun _ => Keeps.bind (modifyVnode_freemap m _ _) fun _ =>
        Keeps.bind (modifyVnode_freemap m _ _) fun _ =>
        Keeps.bind (Keeps.attempt (Keeps.focus_put fun _ _ h => h)) fun r => ?_
      rcases r with e | _
      · exact Keeps.bind (vnodeCleanup_freemap m _) fun _ =>
          Keeps.bind (Keeps.modify fun _ h => h) fun _ => Keeps.fail _
      · exact Keeps.pure _
  · exact Keeps.pure _

/-- What `sfs_balloc` does when it returns block `b`: `b` was clear and is now marked. -/
theorem sfsBalloc_eq_ok {s s' : Sfs} {b : Nat} (h : sfsBalloc s = .ok b s') :
    s.freemap.v b = false ∧ s'.freemap.v b = true := by
  obtain ⟨b', s₁, halloc, h⟩ := bind_eq_ok.1 h
  obtain ⟨bm, hbm, rfl⟩ := focus_eq_ok.1 halloc
  obtain ⟨hfree, -, rfl⟩ := bitmapAlloc_eq_ok hbm
  -- the rest of `sfs_balloc` leaves the free map as `bitmap_alloc` made it
  have hmap := Keeps.of_ok h
    (P := fun t : Sfs => t.freemap = { s.freemap with v := Function.update s.freemap.v b' true })
    (Keeps.bind (Keeps.modify fun _ h => h) fun _ => Keeps.bind Keeps.get fun _ =>
      Keeps.bind (Keeps.assert _) fun _ => Keeps.bind (sfsWblock_keeps (fun _ _ h => h) _ _) fun _ =>
      Keeps.pure _) rfl
  have hb : b' = b := by
    obtain ⟨_, _, -, h⟩ := bind_eq_ok.1 h
    obtain ⟨_, _, -, h⟩ := bind_eq_ok.1 h
    obtain ⟨_, _, -, h⟩ := bind_eq_ok.1 h
    obtain ⟨_, _, -, h⟩ := bind_eq_ok.1 h
    cases h
    rfl
  subst hb
  simp [hmap, hfree]

/-- **A failed `sfs_makeobj` keeps its inode block**: when `sfs_loadvnode` fails after
`sfs_balloc` handed out block `b`, `b` was free before the call and is marked after it. -/
theorem sfsMakeobj_error_keeps_block {s s₁ s' : Sfs} {b type : Nat} {e : Stop Int}
    (hb : sfsBalloc s = .ok b s₁) (he : sfsMakeobj type s = .error e s') :
    s.freemap.v b = false ∧ s'.freemap.v b = true := by
  have hload : sfsLoadvnode b type s₁ = .error e s' := by
    rw [sfsMakeobj, bind_of_ok hb] at he
    exact he
  have hmap : s'.freemap = s₁.freemap :=
    Keeps.of_error hload (P := fun t : Sfs => t.freemap = s₁.freemap)
      (sfsLoadvnode_freemap s₁.freemap b type) rfl
  obtain ⟨hfree, hmarked⟩ := sfsBalloc_eq_ok hb
  exact ⟨hfree, hmap ▸ hmarked⟩

theorem sfsCreat_leaks_inode_block :
    (sampleVolume [true] []).FreemapExact ∧
    ∃ s, sfsCreat 0 nameA false (sampleVolume [true] []) = .error (.err ENOMEM) s ∧
      22 < s.freemap.nbits ∧ s.freemap.v 22 = true ∧ s.blockAccounted 22 = false := by
  obtain ⟨-, -, hexact, h, -⟩ := sampleVolume_runs
  refine ⟨hexact, ?_⟩
  obtain ⟨e, s, hrun, hp⟩ := failsWith_eq_true.1 h
  simp only [Bool.and_eq_true, beq_iff_eq, decide_eq_true_eq, Bool.not_eq_true'] at hp
  obtain ⟨⟨⟨rfl, hn⟩, hv⟩, ha⟩ := hp
  exact ⟨s, hrun, hn, hv, ha⟩

/-! ### A write of no bytes past the end of a file -/

/-- **A write of no bytes at a block boundary** moves the size of a file that ends before the
offset to the offset cut to 32 bits, and changes nothing else. -/
theorem sfsIo_empty_write {s : Sfs} {sv : Nat} {v : SfsVnode} {buf : Buf} {off : Int}
    (hv : s.heap[sv]? = some (some v)) (hoff : off.tmod SFS_BLOCKSIZE = 0) :
    sfsIo sv (s, uioKinit buf 0 off .write) =
      .ok () (if (sfiSize v.svI : Int) < off then
          { s with heap := s.heap.set sv (some { v with
            svI := setSfiSize v.svI (Word.ofInt 32 off), svDirty := true }) }
        else s, uioKinit buf 0 off .write) := by
  simp [sfsIo, sfsIoTransfer, bind_apply, onSfs, focus, getVnode, modifyVnode, hv, uioKinit, hoff,
    attempt]
  by_cases hlt : (sfiSize v.svI : Int) < off <;> simp [hlt, bind_apply, focus, hv]

theorem sfsIo_empty_write_truncates :
    ∃ sv s, sfsLookonce 0 bigName (sampleVolume [] []) = .ok (sv, 0) s ∧
      sfiSize (s.inodeOf 4) = 16 * SFS_BLOCKSIZE ∧
      ∃ s' u, sfsIo sv (s, uioKinit zeros 0 (2 ^ 32) .write) = .ok () (s', u) ∧
        sfiSize (s'.inodeOf 4) = 0 := by
  obtain ⟨-, -, -, -, h⟩ := sampleVolume_runs
  obtain ⟨⟨sv, slot⟩, s, hrun, hp⟩ := returnsWith_eq_true.1 h
  simp only [Bool.and_eq_true, beq_iff_eq] at hp
  obtain ⟨⟨rfl, hsize⟩, hio⟩ := hp
  obtain ⟨_, ⟨s', u⟩, hio, hs'⟩ := returnsWith_eq_true.1 hio
  exact ⟨sv, s, hrun, hsize, s', u, hio, by simpa using hs'⟩

end Os161

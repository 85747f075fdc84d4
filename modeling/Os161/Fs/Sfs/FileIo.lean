import Os161.Fs.Sfs.Io

/-!
# Space allocation, block mapping and file I/O (`fs/sfs/sfs_vnode.c`, first part)

* `sfsBalloc`, `sfsBfree`, `sfsBused`: the free-block bitmap. A new block is zeroed on disk.
* `sfsBmap`: the disk block of a block of a file, through the 15 direct entries of the inode
  or the single indirect block, allocating the block (and the indirect block) on a write.
* `sfsPartialio`, `sfsBlockio`, `sfsIo`: a read or write of a byte range of a file, split into
  a leading partial block, whole blocks moved straight between the device and the uio, and a
  trailing partial block; a read stops at the end of the file, a write moves it.
* `sfsTruncate`: free the blocks past a new length.

The functions take the address of the `struct sfs_vnode`; a uio that they are handed sits
beside the volume in the state.
-/

namespace Os161

open Bytes Exec

variable {α : Type}

/-- A block-level operation on the volume, run by a function that is handed a uio. -/
def onSfs (x : Exec Int Sfs α) : Exec Int (Sfs × Uio) α := focus Prod.fst (fun s p => (s, p.2)) x

/-- An operation on the uio, run by a function that is handed it. -/
def onUio (x : Exec Int Uio α) : Exec Int (Sfs × Uio) α := focus Prod.snd (fun u p => (p.1, u)) x

/-- The `struct sfs_vnode` at address `sv`; a dangling pointer is undefined behaviour. -/
def getVnode (sv : Nat) : Exec Int Sfs SfsVnode := do
  let s ← get
  match s.heap[sv]? with
  | some (some v) => pure v
  | _ => halt

/-- Store into the `struct sfs_vnode` at address `sv`. -/
def modifyVnode (sv : Nat) (f : SfsVnode → SfsVnode) : Exec Int Sfs Unit := do
  let v ← getVnode sv
  modify fun s => { s with heap := s.heap.set sv (some (f v)) }

theorem getVnode_apply (sv : Nat) (s : Sfs) :
    getVnode sv s = match s.heap[sv]? with
      | some (some v) => .ok v s
      | _ => .error .halt s := by
  show (match s.heap[sv]? with | some (some v) => pure v | _ => halt) s = _
  rcases s.heap[sv]? with _ | _ | v <;> rfl

theorem getVnode_of_heap {s : Sfs} {sv : Nat} {v : SfsVnode} (hv : s.heap[sv]? = some (some v)) :
    getVnode sv s = .ok v s := by
  rw [getVnode_apply, hv]

theorem modifyVnode_of_heap {s : Sfs} {sv : Nat} {v : SfsVnode} (f : SfsVnode → SfsVnode)
    (hv : s.heap[sv]? = some (some v)) :
    modifyVnode sv f s = .ok () { s with heap := s.heap.set sv (some (f v)) } := by
  rw [modifyVnode, bind_of_ok (getVnode_of_heap hv)]
  rfl

/-! ### Simple stuff -/

/-- `sfs_clearblock(sfs, block)`. -/
def sfsClearblock (block : Nat) : Exec Int Sfs Unit := sfsWblock zeros block

/-- `sfs_sync_inode(sv)`. -/
def sfsSyncInode (sv : Nat) : Exec Int Sfs Unit := do
  let v ← getVnode sv
  if v.svDirty then
    sfsWblock v.svI v.svIno
    modifyVnode sv fun v => { v with svDirty := false }

/-! ### Space allocation -/

/-- `sfs_balloc(sfs, &diskblock)`: the block. -/
def sfsBalloc : Exec Int Sfs Nat := do
  let block ← focus (·.freemap) (fun b s => { s with freemap := b }) bitmapAlloc
  modify fun s => { s with freemapDirty := true }
  let s ← get
  -- "sfs: balloc: invalid block %u"
  assert (block < s.spNblocks)
  sfsClearblock block
  pure block

/-- `sfs_bfree(sfs, diskblock)`. -/
def sfsBfree (diskblock : Nat) : Exec Int Sfs Unit := do
  focus (·.freemap) (fun b s => { s with freemap := b }) (bitmapUnmark diskblock)
  modify fun s => { s with freemapDirty := true }

/-- `sfs_bused(sfs, diskblock)`. -/
def sfsBused (diskblock : Nat) : Exec Int Sfs Bool := do
  let s ← get
  -- "sfs: sfs_bused called on out of range block %u"
  assert (diskblock < s.spNblocks)
  pure (bitmapIsset s.freemap diskblock)

/-! ### Block mapping -/

/-- The end of `sfs_bmap`: panic if the block is marked free, else hand it back. -/
def sfsBmapCheck (block : Nat) : Exec Int Sfs Nat := do
  if block ≠ 0 then
    -- "sfs: Data block %u (block %u of file %u) marked free"
    assert ((← sfsBused block) = true)
  pure block

/-- `sfs_bmap(sv, fileblock, doalloc, &diskblock)`: the disk block, 0 for none. -/
def sfsBmap (sv fileblock : Nat) (doalloc : Bool) : Exec Int Sfs Nat := do
  let v ← getVnode sv
  if fileblock < SFS_NDIRECT then
    let block := sfiDirect v.svI fileblock
    let block ← if block = 0 ∧ doalloc then do
        let block ← sfsBalloc
        modifyVnode sv fun v => { v with svI := setSfiDirect v.svI fileblock block, svDirty := true }
        pure block
      else pure block
    sfsBmapCheck block
  else
    let fileblock := fileblock - SFS_NDIRECT
    let idnum := fileblock / SFS_DBPERIDB
    let idoff := fileblock % SFS_DBPERIDB
    if 0 < idnum then fail EFBIG else
    let idblock := sfiIndirect v.svI
    if idblock = 0 ∧ ¬ doalloc then pure 0 else
    -- the indirect block, in `static uint32_t idbuf[]`
    let (idblock, idbuf) ← if idblock = 0 then do
        let idblock ← sfsBalloc
        modifyVnode sv fun v => { v with svI := setSfiIndirect v.svI idblock, svDirty := true }
        pure (idblock, zeros)
      else do
        let idbuf ← sfsRblock zeros idblock
        pure (idblock, idbuf)
    let block := idEntry idbuf idoff
    let block ← if block = 0 ∧ doalloc then do
        let block ← sfsBalloc
        sfsWblock (setIdEntry idbuf idoff block) idblock
        pure block
      else pure block
    sfsBmapCheck block

/-! ### File-level I/O -/

/-- The block of the file at the uio's offset (`uint32_t fileblock`). -/
def uioFileblock (u : Uio) : Nat := Word.ofInt 32 (u.uioOffset.tdiv SFS_BLOCKSIZE)

/-- `sfs_partialio(sv, uio, skipstart, len)`: the part of one block of the file from byte
`skipstart` on, through the buffer `static char iobuf[]`. -/
def sfsPartialio (sv skipstart len : Nat) : Exec Int (Sfs × Uio) Unit := do
  let (_, u) ← get
  let doalloc := u.uioRw = .write
  assert (skipstart + len ≤ SFS_BLOCKSIZE)
  let diskblock ← onSfs (sfsBmap sv (uioFileblock u) doalloc)
  let iobuf ← if diskblock = 0 then do
      assert (u.uioRw = .read)
      pure zeros
    else onSfs (sfsRblock zeros diskblock)
  let iobuf ← onUio (uiomove iobuf skipstart len)
  if u.uioRw = .write then onSfs (sfsWblock iobuf diskblock)

/-- `sfs_blockio(sv, uio)`: one whole block, moved between the device and the uio directly,
with the uio's offset and residue swapped for the device's while it runs. -/
def sfsBlockio (sv : Nat) : Exec Int (Sfs × Uio) Unit := do
  let (_, u) ← get
  let doalloc := u.uioRw = .write
  let diskblock ← onSfs (sfsBmap sv (uioFileblock u) doalloc)
  if diskblock = 0 then do
    assert (u.uioRw = .read)
    onUio (uiomovezeros SFS_BLOCKSIZE)
  else do
    let (_, u) ← get
    let saveoff := u.uioOffset
    -- `diskblock * SFS_BLOCKSIZE` is computed in 32-bit unsigned arithmetic
    let diskoff : Int := Word.ofInt 32 (diskblock * SFS_BLOCKSIZE)
    assert (SFS_BLOCKSIZE ≤ u.uioResid)
    let saveres := u.uioResid
    let diskres : Int := SFS_BLOCKSIZE
    set ((← get).1, { u with uioOffset := diskoff, uioResid := SFS_BLOCKSIZE })
    let result ← attempt sfsRwblock
    modify fun (s, u) => (s, { u with
      uioOffset := u.uioOffset - diskoff + saveoff
      uioResid := Word.ofInt 32 (u.uioResid - diskres + saveres) })
    ofExcept result

/-- The `for` loop of `sfs_io` over `k` whole blocks. -/
def sfsBlockioLoop (sv : Nat) : Nat → Exec Int (Sfs × Uio) Unit
  | 0 => pure ()
  | k + 1 => do
    sfsBlockio sv
    sfsBlockioLoop sv k

/-- The transfers of `sfs_io` up to `out:`. -/
def sfsIoTransfer (sv : Nat) : Exec Int (Sfs × Uio) Unit := do
  let (_, u) ← get
  let blkoff := Word.ofInt 32 (u.uioOffset.tmod SFS_BLOCKSIZE)
  if blkoff ≠ 0 then
    sfsPartialio sv blkoff (min (SFS_BLOCKSIZE - blkoff) u.uioResid)
  let (_, u) ← get
  if u.uioResid = 0 then return
  assert (u.uioOffset.tmod SFS_BLOCKSIZE = 0)
  sfsBlockioLoop sv (u.uioResid / SFS_BLOCKSIZE)
  let (_, u) ← get
  assert (u.uioResid < SFS_BLOCKSIZE)
  if 0 < u.uioResid then sfsPartialio sv 0 u.uioResid

/-- `sfs_io(sv, uio)`. A read at or past the end of the file returns at once; one that runs
past it is cut short by `extraresid`, which is added back to `uio_resid` at the end. After
the transfers, error or not (`out:`), a write that went past the end moves it (`sfi_size` is a
`uint32_t`). -/
def sfsIo (sv : Nat) : Exec Int (Sfs × Uio) Unit := do
  let (_, u) ← get
  let v ← onSfs (getVnode sv)
  let size : Int := sfiSize v.svI
  let endpos := u.uioOffset + u.uioResid
  if u.uioRw = .read ∧ size ≤ u.uioOffset then return
  let extraresid := if u.uioRw = .read ∧ size < endpos then Word.ofInt 32 (endpos - size) else 0
  if u.uioRw = .read ∧ size < endpos then do
    assert (extraresid < u.uioResid)
    modify fun (s, u) => (s, { u with uioResid := Word.sub 32 u.uioResid extraresid })
  let result ← attempt (sfsIoTransfer sv)
  -- `out:`
  let (_, u) ← get
  let v ← onSfs (getVnode sv)
  if u.uioRw = .write ∧ (sfiSize v.svI : Int) < u.uioOffset then
    onSfs (modifyVnode sv fun v =>
      { v with svI := setSfiSize v.svI (Word.ofInt 32 u.uioOffset), svDirty := true })
  modify fun (s, u) => (s, { u with uioResid := Word.ofInt 32 (u.uioResid + extraresid) })
  ofExcept result

/-! ### Truncation -/

/-- The loop of `sfs_truncate` over the direct entries `i ..< 15` (`k` of them). -/
def sfsTruncateDirect (sv blocklen : Nat) : Nat → Nat → Exec Int Sfs Unit
  | _, 0 => pure ()
  | i, k + 1 => do
    let v ← getVnode sv
    let block := sfiDirect v.svI i
    if blocklen ≤ i ∧ block ≠ 0 then do
      sfsBfree block
      modifyVnode sv fun v => { v with svI := setSfiDirect v.svI i 0, svDirty := true }
    sfsTruncateDirect sv blocklen (i + 1) k

/-- The loop of `sfs_truncate` over the entries `j ..< 128` of the indirect block (`k` of
them): the new indirect block, whether it has a nonzero entry left, whether it changed. -/
def sfsTruncateIndirect (blocklen : Nat) :
    Nat → Nat → Buf → Bool → Bool → Exec Int Sfs (Buf × Bool × Bool)
  | _, 0, idbuf, hasnonzero, iddirty => pure (idbuf, hasnonzero, iddirty)
  | j, k + 1, idbuf, hasnonzero, iddirty => do
    let (idbuf, iddirty) ← if blocklen < SFS_NDIRECT + j ∧ idEntry idbuf j ≠ 0 then do
        sfsBfree (idEntry idbuf j)
        pure (setIdEntry idbuf j 0, true)
      else pure (idbuf, iddirty)
    sfsTruncateIndirect blocklen (j + 1) k idbuf (hasnonzero || idEntry idbuf j ≠ 0) iddirty

/-- `sfs_truncate(v, len)`: the direct blocks from `blocklen = DIVROUNDUP(len, 512)` on are
freed; the indirect block is read only when `blocklen < 15 + 128 - 1`, and freed when no entry
is left. -/
def sfsTruncate (sv : Nat) (len : Int) : Exec Int Sfs Unit := do
  let blocklen := Word.ofInt 32 ((len + SFS_BLOCKSIZE - 1).tdiv SFS_BLOCKSIZE)
  sfsTruncateDirect sv blocklen 0 SFS_NDIRECT
  let v ← getVnode sv
  let idblock := sfiIndirect v.svI
  let baseblock := SFS_NDIRECT
  let highblock := baseblock + SFS_DBPERIDB - 1
  if blocklen < highblock ∧ idblock ≠ 0 then do
    let idbuf ← sfsRblock zeros idblock
    let (idbuf, hasnonzero, iddirty) ← sfsTruncateIndirect blocklen 0 SFS_DBPERIDB idbuf false false
    if !hasnonzero then do
      sfsBfree idblock
      modifyVnode sv fun v => { v with svI := setSfiIndirect v.svI 0, svDirty := true }
    else if iddirty then sfsWblock idbuf idblock
  modifyVnode sv fun v => { v with svI := setSfiSize v.svI (Word.ofInt 32 len), svDirty := true }

end Os161

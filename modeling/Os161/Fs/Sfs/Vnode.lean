import Os161.Fs.Sfs.FileIo

/-!
# Directories, vnodes and their operations (`fs/sfs/sfs_vnode.c`, second part; `vfs/vnode.c`)

The root directory is a file of 64-byte `struct sfs_dir` slots, read and written through
`sfs_io`; a slot whose `sfd_ino` is `SFS_NOINO` is empty. `sfs_dir_findname` scans every slot,
`sfs_dir_link` writes a new entry into the last empty slot it saw or at the end, and
`sfs_dir_unlink` empties a slot.

`sfs_loadvnode` finds the vnode of an inode in `sfs_vnodes` or loads the inode into a new one;
`VOP_DECREF` (`vnode_decref`) reclaims a vnode when its last reference goes, which frees the
inode and its blocks when no directory entry names it any more. The operations of the two
function tables `sfs_fileops` and `sfs_dirops` are reached through `VOP_*` on a vnode's
`vnOps`.
-/

namespace Os161

open Bytes Exec

/-! ### `vfs/vnode.c` -/

/-- `vnode_init(vn, ops, fs, fsdata)`. -/
def vnodeInit (sv : Nat) (ops : SfsOps) : Exec Int Sfs Unit :=
  modifyVnode sv fun v => { v with vnOps := ops, vnRefcount := 1, vnOpencount := 0 }

/-- `vnode_cleanup(vn)`. -/
def vnodeCleanup (sv : Nat) : Exec Int Sfs Unit := do
  let v ← getVnode sv
  assert (v.vnRefcount = 1)
  assert (v.vnOpencount = 0)
  modifyVnode sv fun v => { v with vnRefcount := 0, vnOpencount := 0 }

/-- `vnode_incref(vn)` (`VOP_INCREF`). -/
def vnodeIncref (sv : Nat) : Exec Int Sfs Unit :=
  modifyVnode sv fun v => { v with vnRefcount := v.vnRefcount + 1 }

/-- `vnode_incopen(vn)` (`VOP_INCOPEN`). -/
def vnodeIncopen (sv : Nat) : Exec Int Sfs Unit :=
  modifyVnode sv fun v => { v with vnOpencount := v.vnOpencount + 1 }

/-- `kfree(sv)`. -/
def kfreeVnode (sv : Nat) : Exec Int Sfs Unit :=
  modify fun s => { s with heap := s.heap.set sv none }

/-- `vnodearray_add(sfs->sfs_vnodes, v, NULL)`. -/
def vnodearrayAdd (sv : Nat) : Exec Int Sfs Nat :=
  focus (fun s => (s.kmalloc, s.vnodes)) (fun p s => { s with kmalloc := p.1, vnodes := p.2 })
    (arrayAdd sv)

/-! ### Directory I/O -/

/-- `sfs_readdir(sv, sd, slot)`: the 64 bytes of the slot. -/
def sfsReaddir (sv slot : Nat) : Exec Int Sfs Buf := do
  let actualpos : Int := Word.ofInt 32 (slot * SFS_DIRSIZE)
  let ((), ku) ← extend (uioKinit zeros SFS_DIRSIZE actualpos .read) (sfsIo sv)
  -- "sfs: readdir: Short entry (inode %u)"
  assert (ku.uioResid = 0)
  pure ku.buf

/-- `sfs_writedir(sv, sd, slot)`. -/
def sfsWritedir (sv : Nat) (sd : Buf) (slot : Nat) : Exec Int Sfs Unit := do
  let actualpos : Int := Word.ofInt 32 (slot * SFS_DIRSIZE)
  let ((), ku) ← extend (uioKinit sd SFS_DIRSIZE actualpos .write) (sfsIo sv)
  -- "sfs: writedir: Short write (ino %u)"
  assert (ku.uioResid = 0)

/-- `sfs_dir_nentries(sv)`: the slots of the directory, empty ones included. -/
def sfsDirNentries (sv : Nat) : Exec Int Sfs Nat := do
  let v ← getVnode sv
  assert (sfiType v.svI = SFS_TYPE_DIR)
  let size := sfiSize v.svI
  -- "sfs: directory %u: Invalid size %llu"
  assert (size % SFS_DIRSIZE = 0)
  pure (size / SFS_DIRSIZE)

/-- What `sfs_dir_findname` hands back: whether it found the name (its result is 0, else
`ENOENT`), and through its pointers the inode number and slot of the name and the last empty
slot it saw. -/
structure Findname where
  found : Bool
  ino : Nat
  slot : Nat
  emptyslot : Option Nat

/-- The loop of `sfs_dir_findname` over the slots `i ..< nentries` (`k` of them). -/
def sfsDirFindnameLoop (sv : Nat) (name : CStr) : Nat → Nat → Findname → Exec Int Sfs Findname
  | _, 0, r => pure r
  | i, k + 1, r => do
    let tsd ← sfsReaddir sv i
    let r ← if sfdIno tsd = SFS_NOINO then pure { r with emptyslot := some i }
      else if sfdName tsd = name.bytes then do
        assert (r.found = false)  -- each name may appear only once
        pure { r with found := true, slot := i, ino := sfdIno tsd }
      else pure r
    sfsDirFindnameLoop sv name (i + 1) k r

/-- `sfs_dir_findname(sv, name, &ino, &slot, &emptyslot)`. -/
def sfsDirFindname (sv : Nat) (name : CStr) : Exec Int Sfs Findname := do
  let nentries ← sfsDirNentries sv
  sfsDirFindnameLoop sv name 0 nentries ⟨false, 0, 0, none⟩

/-- `sfs_dir_link(sv, name, ino, &slot)`: the slot written. -/
def sfsDirLink (sv : Nat) (name : CStr) (ino : Nat) : Exec Int Sfs Nat := do
  let r ← sfsDirFindname sv name
  if r.found then fail EEXIST else
  if SFS_NAMELEN < name.length + 1 then fail ENAMETOOLONG else
  let emptyslot ← match r.emptyslot with
    | some e => pure e
    | none => sfsDirNentries sv
  sfsWritedir sv (sfsDirEntry ino name) emptyslot
  pure emptyslot

/-- `sfs_dir_unlink(sv, slot)`: an entry of zeros, `sfd_ino = SFS_NOINO`. -/
def sfsDirUnlink (sv slot : Nat) : Exec Int Sfs Unit := sfsWritedir sv zeros slot

/-! ### Loading vnodes -/

/-- The search of `sfs_loadvnode` over the entries `i ..< num` of `sfs_vnodes` (`k` of
them): the vnode of `ino`, with a new reference, if it is loaded. -/
def sfsLoadvnodeSearch (ino forcetype : Nat) : Nat → Nat → Exec Int Sfs (Option Nat)
  | _, 0 => pure none
  | i, k + 1 => do
    let s ← get
    let sv ← arrayGet s.vnodes i
    let v ← getVnode sv
    -- "sfs: Found inode %u in unallocated block"
    assert ((← sfsBused v.svIno) = true)
    if v.svIno = ino then do
      assert (forcetype = SFS_TYPE_INVAL)
      vnodeIncref sv
      pure (some sv)
    else sfsLoadvnodeSearch ino forcetype (i + 1) k

/-- The `FORCETYPE` step of `sfs_loadvnode`: a new object's inode, zeroed on disk, gets its
type. -/
def sfsForcetype (sv forcetype : Nat) : Exec Int Sfs Unit :=
  if forcetype ≠ SFS_TYPE_INVAL then do
    let v ← getVnode sv
    assert (sfiType v.svI = SFS_TYPE_INVAL)
    modifyVnode sv fun v => { v with svI := setSfiType v.svI forcetype, svDirty := true }
  else pure ()

/-- The `switch` of `sfs_loadvnode` that chooses the function table by the inode's type. -/
def sfsOpsOfType {σ : Type} (type : Nat) : Exec Int σ SfsOps :=
  if type = SFS_TYPE_FILE then pure .fileops
  else if type = SFS_TYPE_DIR then pure .dirops
  else halt  -- "sfs: loadvnode: Invalid inode type"

/-- `sfs_loadvnode(sfs, ino, forcetype, &ret)`: the address of the vnode. A new one is a
`kmalloc`'d structure whose fields are all set before they are read. -/
def sfsLoadvnode (ino forcetype : Nat) : Exec Int Sfs Nat := do
  let s ← get
  match ← sfsLoadvnodeSearch ino forcetype 0 s.vnodes.num with
  | some sv => pure sv
  | none => do
    let nul ← focus (·.kmalloc) (fun o s => { s with kmalloc := o }) kmallocFails
    if nul then fail ENOMEM else
    let s ← get
    let sv := s.heap.length
    let fresh : SfsVnode :=
      { vnRefcount := 0, vnOpencount := 0, vnOps := .fileops, svI := zeros, svIno := 0,
        svDirty := false }
    set { s with heap := s.heap ++ [some fresh] }
    -- "sfs: Tried to load inode %u from unallocated block"
    assert ((← sfsBused ino) = true)
    match ← attempt (sfsRblock zeros ino) with
    | .error e => do
      kfreeVnode sv
      fail e
    | .ok svI => do
      modifyVnode sv fun v => { v with svI, svDirty := false }
      sfsForcetype sv forcetype
      let v ← getVnode sv
      let ops ← sfsOpsOfType (sfiType v.svI)
      vnodeInit sv ops
      modifyVnode sv fun v => { v with svIno := ino }
      match ← attempt (vnodearrayAdd sv) with
      | .error e => do
        vnodeCleanup sv
        kfreeVnode sv
        fail e
      | .ok _ => pure sv

/-- `sfs_lookonce(sv, name, &ret, &slot)`: the vnode named, with a new reference, and its slot. -/
def sfsLookonce (sv : Nat) (name : CStr) : Exec Int Sfs (Nat × Nat) := do
  let r ← sfsDirFindname sv name
  if !r.found then fail ENOENT else
  let ret ← sfsLoadvnode r.ino SFS_TYPE_INVAL
  let v ← getVnode ret
  -- "sfs: Link count of file %u found in dir %u is 0"
  assert (sfiLinkcount v.svI ≠ 0)
  pure (ret, r.slot)

/-- `sfs_makeobj(sfs, type, &ret)`: a new inode, in a new block, and its vnode. -/
def sfsMakeobj (type : Nat) : Exec Int Sfs Nat := do
  let ino ← sfsBalloc
  sfsLoadvnode ino type

/-! ### Vnode operations -/

/-- `vnode_check(v, opstr)`, which `__VOP` runs before every operation: the vnode's function
table. Of its checks only the one on the reference count can fail here. -/
def vnodeCheck (sv : Nat) : Exec Int Sfs SfsOps := do
  let v ← getVnode sv
  -- "vnode_check: vop_%s: zero refcount"
  assert (v.vnRefcount ≠ 0)
  pure v.vnOps

/-- `VOP_TRUNCATE(vn, len)`: `sfs_truncate` for a file, `ISDIR` for the directory. -/
def vopTruncate (sv : Nat) (len : Int) : Exec Int Sfs Unit := do
  match ← vnodeCheck sv with
  | .fileops => sfsTruncate sv len
  | .dirops => fail EISDIR

/-- `sfs_reclaim(v)`: the vnode leaves `sfs_vnodes` and is freed; with no link left, the inode
and its blocks are freed first. -/
def sfsReclaim (sv : Nat) : Exec Int Sfs Unit := do
  let v ← getVnode sv
  if v.vnRefcount ≠ 1 then do
    assert (1 < v.vnRefcount)
    modifyVnode sv fun v => { v with vnRefcount := v.vnRefcount - 1 }
    fail EBUSY
  else
  if sfiLinkcount v.svI = 0 then vopTruncate sv 0
  sfsSyncInode sv
  let v ← getVnode sv
  if sfiLinkcount v.svI = 0 then sfsBfree v.svIno
  let s ← get
  let ix := (s.vnodes.elems.findIdx? (· = some sv)).getD s.vnodes.num
  -- "sfs: reclaim vnode %u not in vnode pool"
  assert (ix ≠ s.vnodes.num)
  focus (·.vnodes) (fun a s => { s with vnodes := a }) (arrayRemove ix)
  vnodeCleanup sv
  kfreeVnode sv

/-- `vnode_decref(vn)` (`VOP_DECREF`): an error of `VOP_RECLAIM` is only printed. -/
def vnodeDecref (sv : Nat) : Exec Int Sfs Unit := do
  let v ← getVnode sv
  assert (0 < v.vnRefcount)
  if 1 < v.vnRefcount then modifyVnode sv fun v => { v with vnRefcount := v.vnRefcount - 1 }
  else do
    let _ ← attempt (sfsReclaim sv)

/-- `sfs_fsync(v)`. -/
def sfsFsync (sv : Nat) : Exec Int Sfs Unit := sfsSyncInode sv

/-- `VOP_CLOSE(vn)`: `sfs_close` in both tables, which is `VOP_FSYNC`. -/
def vopClose (sv : Nat) : Exec Int Sfs Unit := do
  let _ ← vnodeCheck sv
  sfsFsync sv

/-- `vnode_decopen(vn)` (`VOP_DECOPEN`): `VOP_CLOSE` on the last close; its error is only
printed. -/
def vnodeDecopen (sv : Nat) : Exec Int Sfs Unit := do
  let v ← getVnode sv
  assert (0 < v.vnOpencount)
  modifyVnode sv fun v => { v with vnOpencount := v.vnOpencount - 1 }
  let v ← getVnode sv
  if 0 < v.vnOpencount then return
  let _ ← attempt (vopClose sv)

/-- `VOP_OPEN(vn, openflags)`: `sfs_open` for a file, `sfs_opendir` for the directory. -/
def vopOpen (sv : Nat) (openflags : Int) : Exec Int Sfs Unit := do
  match ← vnodeCheck sv with
  | .fileops => if Int.land openflags O_APPEND ≠ 0 then fail EUNIMP else pure ()
  | .dirops =>
    if Int.land openflags O_ACCMODE ≠ O_RDONLY then fail EISDIR
    else if Int.land openflags O_APPEND ≠ 0 then fail EISDIR else pure ()

/-- `VOP_READ(vn, uio)` and `VOP_WRITE(vn, uio)`: `sfs_read`/`sfs_write` for a file,
`ISDIR` for the directory. -/
def vopIo (sv : Nat) : Exec Int (Sfs × Uio) Unit := do
  match ← onSfs (vnodeCheck sv) with
  | .fileops => sfsIo sv
  | .dirops => fail EISDIR

/-- `sfs_creat(v, name, excl, mode, &ret)`: the vnode of the file, with a reference. -/
def sfsCreat (dir : Nat) (name : CStr) (excl : Bool) : Exec Int Sfs Nat := do
  let r ← sfsDirFindname dir name
  if r.found ∧ excl then fail EEXIST else
  if r.found then sfsLoadvnode r.ino SFS_TYPE_INVAL else
  let newguy ← sfsMakeobj SFS_TYPE_FILE
  let g ← getVnode newguy
  match ← attempt (sfsDirLink dir name g.svIno) with
  | .error e => do
    vnodeDecref newguy
    fail e
  | .ok _ => do
    modifyVnode newguy fun v =>
      { v with svI := setSfiLinkcount v.svI (sfiLinkcount v.svI + 1), svDirty := true }
    pure newguy

/-- `sfs_link(dir, name, file)`. -/
def sfsLink (dir : Nat) (name : CStr) (file : Nat) : Exec Int Sfs Unit := do
  let f ← getVnode file
  let _ ← sfsDirLink dir name f.svIno
  modifyVnode file fun v =>
    { v with svI := setSfiLinkcount v.svI (sfiLinkcount v.svI + 1), svDirty := true }

/-- `sfs_remove(dir, name)`. -/
def sfsRemove (dir : Nat) (name : CStr) : Exec Int Sfs Unit := do
  let (victim, slot) ← sfsLookonce dir name
  let result ← attempt (sfsDirUnlink dir slot)
  if result matches .ok _ then do
    let v ← getVnode victim
    assert (0 < sfiLinkcount v.svI)
    modifyVnode victim fun v =>
      { v with svI := setSfiLinkcount v.svI (sfiLinkcount v.svI - 1), svDirty := true }
  vnodeDecref victim
  ofExcept result

/-- `sfs_rename(d1, n1, d2, n2)`: link under the new name, then unlink the old one; if the
unlink fails, the new link is undone (`puke_harder`). -/
def sfsRename (d1 : Nat) (n1 : CStr) (d2 : Nat) (n2 : CStr) : Exec Int Sfs Unit := do
  assert (d1 = d2)
  let sv ← getVnode d1
  assert (sv.svIno = SFS_ROOT_LOCATION)
  let (g1, slot1) ← sfsLookonce d1 n1
  let g ← getVnode g1
  assert (sfiType g.svI = SFS_TYPE_FILE)
  match ← attempt (sfsDirLink d1 n2 g.svIno) with
  | .error e => do
    -- `puke:`
    vnodeDecref g1
    fail e
  | .ok slot2 => do
    modifyVnode g1 fun v =>
      { v with svI := setSfiLinkcount v.svI (sfiLinkcount v.svI + 1), svDirty := true }
    match ← attempt (sfsDirUnlink d1 slot1) with
    | .error e => do
      -- `puke_harder:`
      match ← attempt (sfsDirUnlink d1 slot2) with
      | .error _ => halt  -- "sfs: rename: Cannot recover"
      | .ok () => do
        modifyVnode g1 fun v =>
          { v with svI := setSfiLinkcount v.svI (Word.sub 16 (sfiLinkcount v.svI) 1) }
        vnodeDecref g1
        fail e
    | .ok () => do
      let g ← getVnode g1
      assert (0 < sfiLinkcount g.svI)
      modifyVnode g1 fun v =>
        { v with svI := setSfiLinkcount v.svI (sfiLinkcount v.svI - 1), svDirty := true }
      vnodeDecref g1

/-- `sfs_lookparent(v, path, &ret, buf, buflen)`: the directory, with a new reference, and the
name (the whole path: there are no subdirectories). -/
def sfsLookparent (sv : Nat) (path : CStr) (buflen : Nat) : Exec Int Sfs (Nat × CStr) := do
  let v ← getVnode sv
  if sfiType v.svI ≠ SFS_TYPE_DIR then fail ENOTDIR else
  if buflen < path.length + 1 then fail ENAMETOOLONG else
  vnodeIncref sv
  pure (sv, path)

/-- `sfs_lookup(v, path, &ret)`: the vnode named, with a new reference. -/
def sfsLookup (sv : Nat) (path : CStr) : Exec Int Sfs Nat := do
  let v ← getVnode sv
  if sfiType v.svI ≠ SFS_TYPE_DIR then fail ENOTDIR else
  let (final, _) ← sfsLookonce sv path
  pure final

/-- `sfs_getroot(fs)`: the root directory's vnode, with a new reference. -/
def sfsGetroot : Exec Int Sfs Nat := do
  match ← attempt (sfsLoadvnode SFS_ROOT_LOCATION SFS_TYPE_INVAL) with
  | .ok sv => pure sv
  | .error _ => halt  -- "sfs: getroot: Cannot load root vnode"

/-- `sfs_gettype(v, &ret)`. -/
def sfsGettype (sv : Nat) : Exec Int Sfs Nat := do
  let v ← getVnode sv
  if sfiType v.svI = SFS_TYPE_FILE then pure S_IFREG
  else if sfiType v.svI = SFS_TYPE_DIR then pure S_IFDIR
  else halt  -- "sfs: gettype: Invalid inode type (inode %u, type %u)"

/-- `sfs_namefile(vv, uio)`: the root is the only directory, and its name within the volume is
the empty string, so nothing is moved. -/
def sfsNamefile (sv : Nat) : Exec Int Sfs Unit := do
  let v ← getVnode sv
  assert (v.svIno = SFS_ROOT_LOCATION)

/-! ### The directory operations of the two tables -/

/-- `VOP_GETTYPE(vn, &ret)`: `sfs_gettype` in both tables. -/
def vopGettype (sv : Nat) : Exec Int Sfs Nat := do
  let _ ← vnodeCheck sv
  sfsGettype sv

/-- `__VOP(vn, sym)` for an operation `op` of `sfs_dirops` that `sfs_fileops` has as `NOTDIR`. -/
def vopDirop {α : Type} (sv : Nat) (op : Exec Int Sfs α) : Exec Int Sfs α := do
  match ← vnodeCheck sv with
  | .fileops => fail ENOTDIR
  | .dirops => op

/-- `VOP_LOOKPARENT(vn, path, &ret, buf, buflen)`. -/
def vopLookparent (sv : Nat) (path : CStr) (buflen : Nat) : Exec Int Sfs (Nat × CStr) :=
  vopDirop sv (sfsLookparent sv path buflen)

/-- `VOP_LOOKUP(vn, path, &ret)`. -/
def vopLookup (sv : Nat) (path : CStr) : Exec Int Sfs Nat :=
  vopDirop sv (sfsLookup sv path)

/-- `VOP_CREAT(dir, name, excl, mode, &ret)`. -/
def vopCreat (dir : Nat) (name : CStr) (excl : Bool) : Exec Int Sfs Nat :=
  vopDirop dir (sfsCreat dir name excl)

/-- `VOP_REMOVE(dir, name)`. -/
def vopRemove (dir : Nat) (name : CStr) : Exec Int Sfs Unit :=
  vopDirop dir (sfsRemove dir name)

/-- `VOP_RENAME(d1, n1, d2, n2)`: the table of the first directory. -/
def vopRename (d1 : Nat) (n1 : CStr) (d2 : Nat) (n2 : CStr) : Exec Int Sfs Unit :=
  vopDirop d1 (sfsRename d1 n1 d2 n2)

/-- `VOP_LINK(dir, name, file)`: the table of the directory. -/
def vopLink (dir : Nat) (name : CStr) (file : Nat) : Exec Int Sfs Unit :=
  vopDirop dir (sfsLink dir name file)

/-- `VOP_NAMEFILE(vn, uio)`. -/
def vopNamefile (sv : Nat) : Exec Int Sfs Unit :=
  vopDirop sv (sfsNamefile sv)

end Os161

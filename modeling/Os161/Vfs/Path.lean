import Os161.Fs.Sfs.Fs

/-!
# Pathnames and the VFS operations on them (`vfs/vfslookup.c`, `vfs/vfspath.c`, `vfs/vfscwd.c`)

The VFS layer turns a pathname into a vnode and a call into `VOP_*` operations on it, over the
one mounted volume. A path names its start with what comes before its first slash:

* `device:path` starts at the root of the volume whose device or volume name is `device`
  (`vfs_getroot`),
* `/path` at `bootfs_vnode`, and `:path` at the root of the current directory's volume,
* anything else (a relative path, a bare name) at the current directory.

`getdevice` hands back the start with a new reference; `vfs_lookup` and `vfs_lookparent` give
it back after the `VOP_LOOKUP` or `VOP_LOOKPARENT` on it, and the vnode they return carries a
reference of its own that the caller gives back with `VOP_DECREF`.

`vfs_getcwd` writes the name of the current directory into a uio: the volume name and a
colon, and then what `sfs_namefile` adds, nothing, since the root is SFS's only directory.
`vfs_setbootfs` makes `bootfs_vnode` the directory that `vfs_chdir` of the device name with a
colon goes to; `vfs_biglock`, which it holds throughout, serializes nothing in this model of one
process.

The known devices are the volume's only: its `kd_name` and the volume name of its superblock.
A name of another device falls through to `ENODEV`, as in `vfs_getroot` when no device
answers to it.
-/

namespace Os161

open Bytes Exec

/-- The VFS state of one process over the mounted volume: the volume, `bootfs_vnode`,
`curproc->p_cwd`, and the names the volume answers to (`kd_name` of its `struct knowndev`
and `sp_volname`). -/
structure Vfs where
  sfs : Sfs
  bootfsVnode : Option Nat
  pCwd : Option Nat
  kdName : List UInt8
  spVolname : List UInt8

variable {α : Type}

/-- An operation of the volume, run from the VFS layer. -/
def inSfs (x : Exec Int Sfs α) : Exec Int Vfs α :=
  focus Vfs.sfs (fun s v => { v with sfs := s }) x

/-- The rest of the path after position `i`, without the slashes it starts with. -/
def CStr.subpath (path : CStr) (i : Nat) : CStr :=
  ⟨(path.bytes.drop i).dropWhile (· == '/'.toUInt8),
    fun h => path.nul_not_mem (List.mem_of_mem_drop ((List.dropWhile_suffix _).subset h))⟩

/-! ### The current directory (`vfs/vfscwd.c`) and the roots (`vfs/vfslist.c`) -/

/-- `vfs_getcurdir(&ret)`: the current directory, with a new reference. -/
def vfsGetcurdir : Exec Int Vfs Nat := do
  match (← get).pCwd with
  | some cwd => do
    inSfs (vnodeIncref cwd)
    pure cwd
  | none => fail ENOENT

/-- `vfs_setcurdir(dir)`: the reference of the old current directory is given back. -/
def vfsSetcurdir (dir : Nat) : Exec Int Vfs Unit := do
  let vtype ← inSfs (vopGettype dir)
  if vtype ≠ S_IFDIR then fail ENOTDIR else
  inSfs (vnodeIncref dir)
  let old := (← get).pCwd
  modify fun v => { v with pCwd := some dir }
  match old with
  | some old => inSfs (vnodeDecref old)
  | none => pure ()

/-- `vfs_getroot(devname, &ret)` over the known devices, which are the volume's only. -/
def vfsGetroot (devname : List UInt8) : Exec Int Vfs Nat := do
  let v ← get
  if v.kdName = devname ∨ v.spVolname = devname then inSfs sfsGetroot
  else fail ENODEV

/-! ### Name lookup (`vfs/vfslookup.c`) -/

/-- The first loop of `getdevice`: `(colon, slash)`, the position of the first colon or of the
first slash, whichever comes first, and `-1` for the other. -/
def getdeviceScan (path : List UInt8) : Int × Int :=
  match path.findIdx? (fun c => c == ':'.toUInt8 || c == '/'.toUInt8) with
  | some i => if path[i]? = some ':'.toUInt8 then (i, -1) else (-1, i)
  | none => (-1, -1)

/-- `getdevice(path, &subpath, &startvn)`: the rest of the path and the vnode to look it up
from, with a new reference. -/
def getdevice (path : CStr) : Exec Int Vfs (CStr × Nat) := do
  let (colon, slash) := getdeviceScan path.bytes
  if colon < 0 ∧ slash ≠ 0 then
    -- a relative path or a bare name: the whole path, from the current directory
    let startvn ← vfsGetcurdir
    pure (path, startvn)
  else if 0 < colon then
    -- `device:path`, and `device:/path` the same
    let startvn ← vfsGetroot (path.bytes.take colon.toNat)
    pure (path.subpath (colon.toNat + 1), startvn)
  else if path.bytes.head? = some '/'.toUInt8 then do
    match (← get).bootfsVnode with
    | none => fail ENOENT
    | some bootfs => do
      inSfs (vnodeIncref bootfs)
      pure (path.subpath 1, bootfs)
  else do
    -- `:path`: the current directory is on the volume, so `FSOP_GETROOT` is `sfs_getroot`
    let vn ← vfsGetcurdir
    let startvn ← inSfs sfsGetroot
    inSfs (vnodeDecref vn)
    pure (path.subpath 1, startvn)

/-- `vfs_lookparent(path, &ret, buf, buflen)`: the directory, with a new reference, and the
last name of the path. -/
def vfsLookparent (path : CStr) (buflen : Nat) : Exec Int Vfs (Nat × CStr) := do
  let (path, startvn) ← getdevice path
  let result ← attempt <|
    if path.length = 0 then fail EINVAL else inSfs (vopLookparent startvn path buflen)
  inSfs (vnodeDecref startvn)
  ofExcept result

/-- `vfs_lookup(path, &ret)`: the vnode named, with a new reference. -/
def vfsLookup (path : CStr) : Exec Int Vfs Nat := do
  let (path, startvn) ← getdevice path
  if path.length = 0 then pure startvn else
  let result ← attempt (inSfs (vopLookup startvn path))
  inSfs (vnodeDecref startvn)
  ofExcept result

/-! ### Operations on pathnames (`vfs/vfspath.c`, `vfs_chdir`) -/

/-- `vfs_open(path, openflags, mode, &ret)`: the vnode, with a new reference and one more
open. -/
def vfsOpen (path : CStr) (openflags : Int) : Exec Int Vfs Nat := do
  let how := Int.land openflags O_ACCMODE
  let canwrite ← if how = O_RDONLY then pure false
    else if how = O_WRONLY ∨ how = O_RDWR then pure true
    else fail EINVAL
  let vn ← if Int.land openflags O_CREAT ≠ 0 then do
      let excl := Int.land openflags O_EXCL ≠ 0
      let (dir, name) ← vfsLookparent path (NAME_MAX + 1)
      let result ← attempt (inSfs (vopCreat dir name excl))
      inSfs (vnodeDecref dir)
      ofExcept result
    else vfsLookup path
  match ← attempt (inSfs (vopOpen vn openflags)) with
  | .error e => do
    inSfs (vnodeDecref vn)
    fail e
  | .ok () => do
    inSfs (vnodeIncopen vn)
    if Int.land openflags O_TRUNC = 0 then pure vn else
    match ← attempt (if canwrite then inSfs (vopTruncate vn 0) else fail EINVAL) with
    | .error e => do
      inSfs (vnodeDecopen vn)
      inSfs (vnodeDecref vn)
      fail e
    | .ok () => pure vn

/-- `vfs_close(vn)`. -/
def vfsClose (vn : Nat) : Exec Int Vfs Unit := do
  inSfs (vnodeDecopen vn)
  inSfs (vnodeDecref vn)

/-- `vfs_remove(path)`. -/
def vfsRemove (path : CStr) : Exec Int Vfs Unit := do
  let (dir, name) ← vfsLookparent path (NAME_MAX + 1)
  let result ← attempt (inSfs (vopRemove dir name))
  inSfs (vnodeDecref dir)
  ofExcept result

/-- `vfs_rename(oldpath, newpath)`. Both directories are on the one volume, so the `EXDEV`
test never fires. -/
def vfsRename (oldpath newpath : CStr) : Exec Int Vfs Unit := do
  let (olddir, oldname) ← vfsLookparent oldpath (NAME_MAX + 1)
  match ← attempt (vfsLookparent newpath (NAME_MAX + 1)) with
  | .error e => do
    inSfs (vnodeDecref olddir)
    fail e
  | .ok (newdir, newname) => do
    let result ← attempt (inSfs (vopRename olddir oldname newdir newname))
    inSfs (vnodeDecref newdir)
    inSfs (vnodeDecref olddir)
    ofExcept result

/-- `vfs_link(oldpath, newpath)`, with the same `EXDEV` test as `vfs_rename`. -/
def vfsLink (oldpath newpath : CStr) : Exec Int Vfs Unit := do
  let oldfile ← vfsLookup oldpath
  match ← attempt (vfsLookparent newpath (NAME_MAX + 1)) with
  | .error e => do
    inSfs (vnodeDecref oldfile)
    fail e
  | .ok (newdir, newname) => do
    let result ← attempt (inSfs (vopLink newdir newname oldfile))
    inSfs (vnodeDecref newdir)
    inSfs (vnodeDecref oldfile)
    ofExcept result

/-- `vfs_chdir(path)`. -/
def vfsChdir (path : CStr) : Exec Int Vfs Unit := do
  let vn ← vfsLookup path
  let result ← attempt (vfsSetcurdir vn)
  inSfs (vnodeDecref vn)
  ofExcept result

/-! ### The boot filesystem (`vfs_setbootfs`) -/

/-- The first `n` bytes of a string: what `snprintf(tmp, n + 1, "%s", s)` leaves in `tmp`. -/
def CStr.take (s : CStr) (n : Nat) : CStr :=
  ⟨s.bytes.take n, fun h => s.nul_not_mem (List.mem_of_mem_take h)⟩

/-- `strcat(s, ":")`. -/
def CStr.withColon (s : CStr) : CStr :=
  ⟨s.bytes ++ [':'.toUInt8], by simpa [s.nul_not_mem] using (by decide : (0 : UInt8) ≠ ':'.toUInt8)⟩

/-- `change_bootfs(newvn)`: the reference of the old boot filesystem vnode is given back. -/
def changeBootfs (newvn : Option Nat) : Exec Int Vfs Unit := do
  let oldvn := (← get).bootfsVnode
  modify fun v => { v with bootfsVnode := newvn }
  match oldvn with
  | some oldvn => inSfs (vnodeDecref oldvn)
  | none => pure ()

/-- `vfs_setbootfs(fsname)`, under `vfs_biglock`. `tmp` is `char[NAME_MAX+1]` and `snprintf`
is given `sizeof(tmp)-1` bytes of it, so it keeps at most `NAME_MAX - 1` bytes of the name. -/
def vfsSetbootfs (fsname : CStr) : Exec Int Vfs Unit := do
  let tmp := fsname.take (NAME_MAX - 1)
  -- `s = strchr(tmp, ':')`
  let tmp ← match tmp.bytes.findIdx? (· == ':'.toUInt8) with
    | some s =>
      -- If there's a colon, it must be at the end
      if 0 < (tmp.bytes.drop s).length then fail EINVAL else pure tmp
    | none => pure tmp.withColon
  vfsChdir tmp
  let newguy ← vfsGetcurdir
  changeBootfs (some newguy)

/-! ### The name of the current directory (`vfs_getcwd`) -/

/-- An operation of the VFS layer, run by a function that is handed a uio. -/
def onVfs (x : Exec Int Vfs α) : Exec Int (Vfs × Uio) α :=
  focus Prod.fst (fun v p => (v, p.2)) x

/-- An operation on the uio, run by a function of the VFS layer that is handed it. -/
def onVfsUio (x : Exec Int Uio α) : Exec Int (Vfs × Uio) α :=
  focus Prod.snd (fun u p => (p.1, u)) x

/-- `vfs_getcwd(uio)`: the volume name and a colon, then `VOP_NAMEFILE`. `FSOP_GETVOLNAME` of
SFS is `sp_volname`, never `NULL`, so `vfs_getdevname` is not reached. -/
def vfsGetcwd : Exec Int (Vfs × Uio) Unit := do
  let (v, u) ← get
  assert (u.uioRw = .read)
  let cwd ← onVfs vfsGetcurdir
  let name := v.spVolname
  let result ← attempt do
    let _ ← onVfsUio (uiomove (fun j => name.getD j 0) 0 name.length)
    let _ ← onVfsUio (uiomove (fun _ => ':'.toUInt8) 0 1)
    onVfs (inSfs (vopNamefile cwd))
  onVfs (inSfs (vnodeDecref cwd))
  ofExcept result

end Os161

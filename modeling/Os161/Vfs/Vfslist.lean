import Os161.Include.Kern
import Os161.Lib.Exec
import Os161.Lib.Lts

/-!
# The known devices (`vfs/vfslist.c`)

`knowndevs` lists the devices and file systems the VFS layer knows, each under a name
(`kd_name`), mountable ones also under a raw name (`kd_rawname`, the name with `raw` appended),
and each with a mounted file system also under that file system's volume name. `vfs_getroot`
takes the first entry, in array order, that answers to the name.

`vfs_doadd` refuses a new entry one of whose names is already a name of an entry (`badnames`);
`vfs_mount` attaches a file system to a mountable device without looking at its volume name.

The array is modelled as the list of its elements. What the environment decides is an
argument: the outcomes of the allocations of `vfs_doadd` and of the growth of the array, the
file system `mountfunc` makes, and what `FSOP_SYNC` and `FSOP_UNMOUNT` return. Names are byte
strings. The references `vfs_getroot` takes on the vnodes it hands back, the device numbers
`vfs_doadd` assigns and the `kprintf`s are not modelled.
-/

namespace Os161

open Exec

/-- A file system as `vfslist.c` sees it: `FSOP_GETVOLNAME` (`none` for `NULL`), and the vnode
`FSOP_GETROOT` hands back. -/
structure KFs where
  volname : Option (List UInt8)
  root : Nat
  deriving DecidableEq, Repr

/-- `struct knowndev`: the device is a number, `none` for `NULL`. -/
structure Knowndev where
  kdName : List UInt8
  kdRawname : Option (List UInt8)
  kdDevice : Option Nat
  kdVnode : Nat
  kdFs : Option KFs
  deriving DecidableEq, Repr

/-- The volume name of the file system of an entry, if it has one. -/
def Knowndev.volname (kd : Knowndev) : Option (List UInt8) := kd.kdFs.bind KFs.volname

/-- What `vfs_getroot` hands back. -/
inductive Root where
  /-- `FSOP_GETROOT(kd_fs)`. -/
  | fsRoot (fs : KFs)
  /-- `kd_vnode`, the device itself. -/
  | device (vnode : Nat)
  deriving DecidableEq, Repr

/-- The outcomes of the allocations of one `vfs_doadd`. -/
structure AddEnv where
  /-- `kstrdup(dname)` succeeds. -/
  name : Bool
  /-- The `kmalloc` of `mkrawname` succeeds. -/
  rawname : Bool
  /-- What `dev_create_vnode` returns. -/
  vnode : Option Nat
  /-- The `kmalloc` of the `struct knowndev` succeeds. -/
  kd : Bool
  /-- What `knowndevarray_add` returns. -/
  arrayAdd : Int
  deriving DecidableEq, Repr

namespace Vfslist

/-- `raw`. -/
def rawSuffix : List UInt8 := [114, 97, 119]

/-- `mkrawname(name)`. -/
def mkrawname (name : List UInt8) : List UInt8 := name ++ rawSuffix

/-- `samestring(a, b)`: equal, and neither `NULL`. -/
def samestring : Option (List UInt8) → Option (List UInt8) → Bool
  | some a, some b => a == b
  | _, _ => false

/-- `samestring3(a, b, c, d)`. -/
def samestring3 (a b c d : Option (List UInt8)) : Bool :=
  samestring a b || samestring a c || samestring a d

/-- `badnames(n1, n2, n3)`: one of the names is a volume name, raw name or name of an entry. -/
def badnames (knowndevs : List Knowndev) (n1 n2 n3 : Option (List UInt8)) : Bool :=
  knowndevs.any fun kd =>
    (kd.kdFs.isSome && samestring3 kd.volname n1 n2 n3) ||
      samestring3 kd.kdRawname n1 n2 n3 || samestring3 (some kd.kdName) n1 n2 n3

/-- `vfs_doadd(dname, mountable, dev, fs)`. On the `nomem` path everything allocated is freed;
on `EEXIST` it is not. -/
def vfsDoadd (dname : List UInt8) (mountable : Bool) (dev : Option Nat) (fs : Option KFs)
    (env : AddEnv) : Exec Int (List Knowndev) Unit := do
  if !env.name then fail ENOMEM
  let rawname := if mountable then some (mkrawname dname) else none
  if mountable && !env.rawname then fail ENOMEM
  let some vnode := env.vnode | fail ENOMEM
  if !env.kd then fail ENOMEM
  let kd : Knowndev :=
    { kdName := dname, kdRawname := rawname, kdDevice := dev, kdVnode := vnode, kdFs := fs }
  if badnames (← get) (some dname) rawname kd.volname then fail EEXIST
  if env.arrayAdd ≠ 0 then fail env.arrayAdd
  modify (· ++ [kd])

/-- `vfs_adddev(devname, dev, mountable)`. -/
def vfsAdddev (devname : List UInt8) (dev : Nat) (mountable : Bool) (env : AddEnv) :
    Exec Int (List Knowndev) Unit :=
  vfsDoadd devname mountable (some dev) none env

/-- `vfs_addfs(devname, fs)`. -/
def vfsAddfs (devname : List UInt8) (fs : KFs) (env : AddEnv) : Exec Int (List Knowndev) Unit :=
  vfsDoadd devname false none (some fs) env

/-- `findmount(devname, &result)`: the first mountable entry named `devname`. -/
def findmount (knowndevs : List Knowndev) (devname : List UInt8) : Except Int Nat :=
  match knowndevs.findIdx? fun kd => kd.kdRawname.isSome && kd.kdName == devname with
  | some i => .ok i
  | none => .error ENODEV

/-- `vfs_mount(devname, data, mountfunc)`: `mount` is what `mountfunc` does with the device. -/
def vfsMount (devname : List UInt8) (mount : Nat → Except Int KFs) :
    Exec Int (List Knowndev) Unit := do
  let knowndevs ← get
  let i ← ofExcept (findmount knowndevs devname)
  let some kd := knowndevs[i]? | halt
  if kd.kdFs.isSome then fail EBUSY
  assert kd.kdRawname.isSome
  let some dev := kd.kdDevice | halt
  let fs ← ofExcept (mount dev)
  set (knowndevs.set i { kd with kdFs := some fs })

/-- `vfs_unmount(devname)`, with what `FSOP_SYNC` and `FSOP_UNMOUNT` return. -/
def vfsUnmount (devname : List UInt8) (sync unmount : Int) : Exec Int (List Knowndev) Unit := do
  let knowndevs ← get
  let i ← ofExcept (findmount knowndevs devname)
  let some kd := knowndevs[i]? | halt
  if kd.kdFs.isNone then fail EINVAL
  assert kd.kdRawname.isSome
  assert kd.kdDevice.isSome
  if sync ≠ 0 then fail sync
  if unmount ≠ 0 then fail unmount
  set (knowndevs.set i { kd with kdFs := none })

/-- The loop of `vfs_getroot(devname, &result)` over the entries from one on. -/
def vfsGetrootLoop (devname : List UInt8) : List Knowndev → Exec Int (List Knowndev) Root
  | [] => fail ENODEV
  | kd :: rest => do
    match kd.kdFs with
    | some fs =>
      if kd.kdName = devname ∨ fs.volname = some devname then return .fsRoot fs
    | none =>
      -- a mountable device with nothing mounted
      if kd.kdRawname.isSome ∧ kd.kdName = devname then fail ENXIO
    if kd.kdName = devname then
      assert kd.kdFs.isNone
      assert kd.kdRawname.isNone
      assert kd.kdDevice.isSome
      return .device kd.kdVnode
    if kd.kdRawname = some devname then
      assert kd.kdDevice.isSome
      return .device kd.kdVnode
    vfsGetrootLoop devname rest

/-- `vfs_getroot(devname, &result)`. -/
def vfsGetroot (devname : List UInt8) : Exec Int (List Knowndev) Root := do
  vfsGetrootLoop devname (← get)

end Vfslist

open Vfslist

/-- The calls that change `knowndevs`, with the environment's outcomes. -/
inductive VfslistEvent where
  | adddev (devname : List UInt8) (dev : Nat) (mountable : Bool) (env : AddEnv)
  | addfs (devname : List UInt8) (fs : KFs) (env : AddEnv)
  | mount (devname : List UInt8) (result : Except Int KFs)
  | unmount (devname : List UInt8) (sync unmount : Int)
  deriving DecidableEq, Repr

/-- `knowndevs` from `vfs_bootstrap` on. A call that returns, with 0 or an error, is a step; one
that halts is not. `mountfunc` is taken to make the same file system whatever the device. -/
def vfslistSystem : Lts.System (List Knowndev) VfslistEvent where
  init := []
  next s
    | .adddev devname dev mountable env => returned (vfsAdddev devname dev mountable env s)
    | .addfs devname fs env => returned (vfsAddfs devname fs env s)
    | .mount devname result => returned (vfsMount devname (fun _ => result) s)
    | .unmount devname sync unmount => returned (vfsUnmount devname sync unmount s)

end Os161

import Os161.Vm.Kmalloc
import Os161.Klib.Uio

/-!
# The address spaces of `dumbvm` (`arch/mips/vm/dumbvm.c`, `arch/mips/vm/ram.c`)

A `dumbvm` address space has two regions of user pages and a stack of `DUMBVM_STACKPAGES`
pages that ends at `USERSTACK`, the top of user space. `as_define_region` records a region
(page-aligned base and page count) in the first slot whose base is 0, `as_prepare_load` takes
physical pages for both regions and the stack from `ram_stealmem`, which never gives memory
back, and zeroes them, and `vm_fault` translates a user address through the first region that
contains it.

The state is the address space of the current process, the `firstpaddr` and `lastpaddr` of
`ram.c`, and physical memory. `vm_fault` returns the physical page it writes into the TLB; the
TLB only caches that answer, so a user access goes to the page `vm_fault` gives for it. That
the TLB can fill up (`EFAULT` after `NUM_TLB` pages without an `as_activate`) is not modelled.
-/

namespace Os161

open Bytes Exec

variable {σ : Type}

/-- `USERSTACK`: the user stack pointer starts at the top of user space. -/
def USERSTACK : Nat := USERSPACETOP

/-- `DUMBVM_STACKPAGES`: `dumbvm` always gives 48k of user stack. -/
def DUMBVM_STACKPAGES : Nat := 12

/-- `struct addrspace` of `dumbvm`. -/
structure Addrspace where
  asVbase1 : Nat
  asPbase1 : Nat
  asNpages1 : Nat
  asVbase2 : Nat
  asPbase2 : Nat
  asNpages2 : Nat
  asStackpbase : Nat
  deriving DecidableEq, Repr

/-- `as_define_stack(as, &stackptr)`: the initial user stack pointer. -/
def asDefineStack (as : Addrspace) : Exec Int σ Nat := do
  assert (as.asStackpbase ≠ 0)
  pure USERSTACK

/-- `as_create()` when its `kmalloc` succeeds: every field 0. -/
def asCreate : Addrspace := ⟨0, 0, 0, 0, 0, 0, 0⟩

/-- The address space of the current process, `firstpaddr` and `lastpaddr` of `ram.c`, and
physical memory. -/
structure Vm where
  as : Addrspace
  firstpaddr : Nat
  lastpaddr : Nat
  pmem : Buf

namespace Vm

/-- Change the address space of the current process. -/
def modifyAs (f : Addrspace → Addrspace) : Exec Int Vm Unit :=
  modify fun s => { s with as := f s.as }

end Vm

/-- `ram_stealmem(npages)`: the first of `npages` fresh physical pages, 0 when there are not
that many left (`size_t` and `paddr_t` are 32 bits). -/
def ramStealmem (npages : Nat) : Exec Int Vm Nat := do
  let s ← get
  let size := npages * PAGE_SIZE % 2 ^ 32
  if Word.add 32 s.firstpaddr size > s.lastpaddr then return 0
  set { s with firstpaddr := Word.add 32 s.firstpaddr size }
  return s.firstpaddr

/-- `getppages(npages)`: `ram_stealmem` under `stealmem_lock`. -/
def getppages (npages : Nat) : Exec Int Vm Nat := ramStealmem npages

/-- `PADDR_TO_KVADDR(paddr)`: the address of physical memory in `kseg0`. -/
def PADDR_TO_KVADDR (paddr : Nat) : Nat := Word.add 32 paddr MIPS_KSEG0

/-- `alloc_kpages(npages)`: the kernel address of `npages` fresh pages, 0 when there are none. -/
def allocKpages (npages : Nat) : Exec Int Vm Nat := do
  let pa ← getppages npages
  if pa = 0 then return 0
  return PADDR_TO_KVADDR pa

/-- The branch of `kmalloc(sz)` for `sz >= LARGEST_SUBPAGE_SIZE` under `dumbvm`: `alloc_kpages`
of `sz` rounded up to whole pages, in 32-bit `size_t` arithmetic; 0 is `NULL`. -/
def kmallocLarge (sz : Nat) : Exec Int Vm Nat := do
  assert (sz ≥ LARGEST_SUBPAGE_SIZE)
  let npages := Word.add 32 sz (PAGE_SIZE - 1) / PAGE_SIZE
  allocKpages npages

/-- `as_define_region(as, vaddr, sz, ...)`: the region rounded out to whole pages goes into the
first slot whose base is 0. The permissions are not used. -/
def asDefineRegion (vaddr sz : Nat) : Exec Int Vm Unit := do
  -- align the base, then the length (`~PAGE_FRAME` is `0xfff`)
  let sz := Word.add 32 sz (vaddr &&& 0xfff)
  let vaddr := vaddr &&& PAGE_FRAME
  let sz := Word.add 32 sz (PAGE_SIZE - 1) &&& PAGE_FRAME
  let npages := sz / PAGE_SIZE
  let as := (← get).as
  if as.asVbase1 = 0 then
    Vm.modifyAs fun as => { as with asVbase1 := vaddr, asNpages1 := npages }
    return
  if as.asVbase2 = 0 then
    Vm.modifyAs fun as => { as with asVbase2 := vaddr, asNpages2 := npages }
    return
  -- "dumbvm: Warning: too many regions"
  fail EUNIMP

/-- `as_zero_region(paddr, npages)`: `bzero` of the pages (`unsigned` is 32 bits). -/
def asZeroRegion (paddr npages : Nat) : Exec Int Vm Unit :=
  modify fun s => { s with pmem := copy s.pmem paddr zeros 0 (npages * PAGE_SIZE % 2 ^ 32) }

/-- `as_prepare_load(as)`: physical pages for the two regions and the stack, zeroed. -/
def asPrepareLoad : Exec Int Vm Unit := do
  let as := (← get).as
  assert (as.asPbase1 = 0)
  assert (as.asPbase2 = 0)
  assert (as.asStackpbase = 0)
  let pbase1 ← getppages as.asNpages1
  Vm.modifyAs fun as => { as with asPbase1 := pbase1 }
  if pbase1 = 0 then fail ENOMEM
  let pbase2 ← getppages as.asNpages2
  Vm.modifyAs fun as => { as with asPbase2 := pbase2 }
  if pbase2 = 0 then fail ENOMEM
  let stackpbase ← getppages DUMBVM_STACKPAGES
  Vm.modifyAs fun as => { as with asStackpbase := stackpbase }
  if stackpbase = 0 then fail ENOMEM
  asZeroRegion pbase1 as.asNpages1
  asZeroRegion pbase2 as.asNpages2
  asZeroRegion stackpbase DUMBVM_STACKPAGES

/-- `memmove(PADDR_TO_KVADDR(dst), PADDR_TO_KVADDR(src), len)`: `len` bytes of physical memory
from `src` to `dst`, all read before any is written. -/
def Vm.memmove (dst src len : Nat) : Exec Int Vm Unit :=
  modify fun s => { s with pmem := copy s.pmem dst s.pmem src len }

/-- `as_copy(old, &ret)`, where `createOk` says whether the `kmalloc` of `as_create` succeeds:
the new address space, or `ENOMEM`. `as_prepare_load` works on the address space of the
state, so it runs with `new` there and the caller's is put back after. -/
def asCopy (createOk : Bool) (old : Addrspace) : Exec Int Vm Addrspace := do
  if !createOk then fail ENOMEM
  let new : Addrspace := { asCreate with
    asVbase1 := old.asVbase1, asNpages1 := old.asNpages1,
    asVbase2 := old.asVbase2, asNpages2 := old.asNpages2 }
  let (r, new) ← focus (fun s => { s with as := new }) (fun t s => { t with as := s.as }) do
    let r ← attempt asPrepareLoad
    return (r, (← get).as)
  -- `as_destroy(new)`: the pages `as_prepare_load` took stay taken
  if r matches .error _ then fail ENOMEM
  assert (new.asPbase1 ≠ 0)
  assert (new.asPbase2 ≠ 0)
  assert (new.asStackpbase ≠ 0)
  -- `size_t` products
  Vm.memmove new.asPbase1 old.asPbase1 (old.asNpages1 * PAGE_SIZE % 2 ^ 32)
  Vm.memmove new.asPbase2 old.asPbase2 (old.asNpages2 * PAGE_SIZE % 2 ^ 32)
  Vm.memmove new.asStackpbase old.asStackpbase (DUMBVM_STACKPAGES * PAGE_SIZE)
  return new

/-- The `faulttype` of `vm_fault`. -/
inductive VmFaultType where
  | readonly
  | read
  | write
  deriving DecidableEq, Repr

/-- `vm_fault(faulttype, faultaddress)` while a process with an address space runs: the physical
page it enters into the TLB for the page of `faultaddress`. -/
def vmFault (faulttype : VmFaultType) (faultaddress : Nat) : Exec Int Vm Nat := do
  let faultaddress := faultaddress &&& PAGE_FRAME
  -- "dumbvm: got VM_FAULT_READONLY"
  if faulttype = .readonly then halt
  let as := (← get).as
  -- the address space has been set up properly
  assert (as.asVbase1 ≠ 0)
  assert (as.asPbase1 ≠ 0)
  assert (as.asNpages1 ≠ 0)
  assert (as.asVbase2 ≠ 0)
  assert (as.asPbase2 ≠ 0)
  assert (as.asNpages2 ≠ 0)
  assert (as.asStackpbase ≠ 0)
  assert (as.asVbase1 &&& PAGE_FRAME = as.asVbase1)
  assert (as.asPbase1 &&& PAGE_FRAME = as.asPbase1)
  assert (as.asVbase2 &&& PAGE_FRAME = as.asVbase2)
  assert (as.asPbase2 &&& PAGE_FRAME = as.asPbase2)
  assert (as.asStackpbase &&& PAGE_FRAME = as.asStackpbase)
  let vbase1 := as.asVbase1
  let vtop1 := Word.add 32 vbase1 (as.asNpages1 * PAGE_SIZE)
  let vbase2 := as.asVbase2
  let vtop2 := Word.add 32 vbase2 (as.asNpages2 * PAGE_SIZE)
  let stackbase := USERSTACK - DUMBVM_STACKPAGES * PAGE_SIZE
  let stacktop := USERSTACK
  let paddr ←
    if vbase1 ≤ faultaddress ∧ faultaddress < vtop1 then
      pure (Word.add 32 (faultaddress - vbase1) as.asPbase1)
    else if vbase2 ≤ faultaddress ∧ faultaddress < vtop2 then
      pure (Word.add 32 (faultaddress - vbase2) as.asPbase2)
    else if stackbase ≤ faultaddress ∧ faultaddress < stacktop then
      pure (Word.add 32 (faultaddress - stackbase) as.asStackpbase)
    else fail EFAULT
  assert (paddr &&& PAGE_FRAME = paddr)
  return paddr

end Os161

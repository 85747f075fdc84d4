import Os161.Vm.Dumbvm

/-!
# Loading an executable (`syscall/loadelf.c`, `include/elf.h`)

`load_elf` reads the ELF header, checks that the file is a 32-bit big-endian version-1
executable for MIPS, and then goes through the program headers twice: the first pass defines a
region of the address space for each `PT_LOAD` segment (`as_define_region`), and after
`as_prepare_load` has given the regions zeroed physical pages, the second pass reads each
segment from the file into user memory (`load_segment`). It returns the entry point.

The executable is the byte array of its contents, read as `sfs_io` reads a file: nothing at or
past the end, and at most up to the end. Header reads go into kernel buffers; a segment is
read through a uio over user memory, so every byte goes through `copyout`, whose TLB misses
`vm_fault` handles. The device under the file system does not fail here.
-/

namespace Os161

open Bytes Exec

/-! ### `elf.h` -/

/-- `ELF_NIDENT`. -/
def ELF_NIDENT : Nat := 16

def EI_MAG0 : Nat := 0
def EI_MAG1 : Nat := 1
def EI_MAG2 : Nat := 2
def EI_MAG3 : Nat := 3
def EI_CLASS : Nat := 4
def EI_DATA : Nat := 5
def EI_VERSION : Nat := 6

/-- `ELFMAG0`, `'E'`, `'L'`, `'F'`. -/
def ELFMAG0 : UInt8 := 0x7f
def ELFMAG1 : UInt8 := 0x45
def ELFMAG2 : UInt8 := 0x4c
def ELFMAG3 : UInt8 := 0x46

def ELFCLASS32 : UInt8 := 1
def ELFDATA2MSB : UInt8 := 2
def EV_CURRENT : Nat := 1
def ET_EXEC : Nat := 2

/-- `EM_MACHINE` of MIPS: `EM_MIPS`. -/
def EM_MACHINE : Nat := 8

def PT_NULL : Nat := 0
def PT_LOAD : Nat := 1
def PT_PHDR : Nat := 6
def PT_MIPS_REGINFO : Nat := 0x70000000

/-- `Elf32_Ehdr`, with the fields `load_elf` reads. -/
structure ElfEhdr where
  eIdent : List UInt8
  eType : Nat
  eMachine : Nat
  eVersion : Nat
  eEntry : Nat
  ePhoff : Nat
  ePhentsize : Nat
  ePhnum : Nat
  deriving DecidableEq, Repr

/-- `sizeof(Elf32_Ehdr)`. -/
def sizeofEhdr : Nat := 52

/-- The header as it lies at the start of `b`, most significant byte first. -/
def ElfEhdr.decode (b : Buf) : ElfEhdr where
  eIdent := (List.range ELF_NIDENT).map b
  eType := getBE b 16 2
  eMachine := getBE b 18 2
  eVersion := getBE b 20 4
  eEntry := getBE b 24 4
  ePhoff := getBE b 28 4
  ePhentsize := getBE b 42 2
  ePhnum := getBE b 44 2

/-- `Elf32_Phdr`, with the fields `load_elf` reads. -/
structure ElfPhdr where
  pType : Nat
  pOffset : Nat
  pVaddr : Nat
  pFilesz : Nat
  pMemsz : Nat
  deriving DecidableEq, Repr

/-- `sizeof(Elf32_Phdr)`. -/
def sizeofPhdr : Nat := 32

/-- The program header as it lies at the start of `b`. -/
def ElfPhdr.decode (b : Buf) : ElfPhdr where
  pType := getBE b 0 4
  pOffset := getBE b 4 4
  pVaddr := getBE b 8 4
  pFilesz := getBE b 16 4
  pMemsz := getBE b 20 4

/-- The test of `load_elf` that the file is a 32-bit ELF-version-1 executable for the
processor, most significant byte first. -/
def ElfEhdr.isExecutable (eh : ElfEhdr) : Bool :=
  eh.eIdent.getD EI_MAG0 0 == ELFMAG0 && eh.eIdent.getD EI_MAG1 0 == ELFMAG1 &&
    eh.eIdent.getD EI_MAG2 0 == ELFMAG2 && eh.eIdent.getD EI_MAG3 0 == ELFMAG3 &&
    eh.eIdent.getD EI_CLASS 0 == ELFCLASS32 && eh.eIdent.getD EI_DATA 0 == ELFDATA2MSB &&
    (eh.eIdent.getD EI_VERSION 0).toNat == EV_CURRENT && eh.eVersion == EV_CURRENT &&
    eh.eType == ET_EXEC && eh.eMachine == EM_MACHINE

/-! ### Reading the file -/

/-- `VOP_READ(v, &ku)` of `len` bytes at `offset` of the file into a kernel buffer made by
`uio_kinit`: the buffer and `uio_resid`. The bytes past those read are never looked at. -/
def vopReadKernel (file : List UInt8) (len offset : Nat) : Buf × Nat :=
  let n := if file.length ≤ offset then 0 else min len (file.length - offset)
  (fun i => file.getD (offset + i) 0, len - n)

/-- A store of the byte `b` at the user address `a` by `copyout`: the TLB miss goes to
`vm_fault`, and a fault that it refuses makes `copyout` fail with `EFAULT` (`copyfail`). -/
def copyoutByte (a : Nat) (b : UInt8) : Exec Int Vm Unit := do
  match ← attempt (vmFault .write a) with
  | .ok paddr => modify fun s => { s with pmem := Function.update s.pmem (paddr + a % PAGE_SIZE) b }
  | .error _ => fail EFAULT

/-- The bytes of the file from `offset` on, `n` of them, stored from the user address `vaddr`
on, in order. -/
def copyoutFile (file : List UInt8) : Nat → Nat → Nat → Exec Int Vm Unit
  | _, _, 0 => pure ()
  | offset, vaddr, n + 1 => do
    copyoutByte vaddr (file.getD offset 0)
    copyoutFile file (offset + 1) (vaddr + 1) n

/-- `VOP_READ(v, &u)` of `resid` bytes at `offset` of the file into user memory at `vaddr`: the
new `uio_resid`. The `copycheck`s of the `copyout`s `uiomove` makes are one check of the whole
range. -/
def vopReadUser (file : List UInt8) (offset resid vaddr : Nat) : Exec Int Vm Nat := do
  -- at or past the end of the file `sfs_io` returns at once
  if file.length ≤ offset then return resid
  let n := min resid (file.length - offset)
  if n ≠ 0 then
    let stoplen ← ofExcept (copycheck vaddr n)
    if stoplen ≠ n then fail EFAULT
    copyoutFile file offset vaddr n
  return resid - n

/-! ### `loadelf.c` -/

/-- `load_segment(as, v, offset, vaddr, memsize, filesize, is_executable)`. The iovec is
`memsize` long and `uio_resid` is `filesize`, so only `filesize` bytes move; the rest of the
segment is left to the zeroed pages of `as_prepare_load`. -/
def loadSegment (file : List UInt8) (offset vaddr memsize filesize : Nat) :
    Exec Int Vm Unit := do
  -- "ELF: warning: segment filesize > segment memsize"
  let filesize := if filesize > memsize then memsize else filesize
  let resid ← vopReadUser file offset filesize vaddr
  -- "ELF: short read on segment - file truncated?"
  if resid ≠ 0 then fail ENOEXEC

/-- Read program header `i`, at `e_phoff + i * e_phentsize` (32-bit arithmetic). -/
def readPhdr (file : List UInt8) (eh : ElfEhdr) (i : Nat) : Exec Int Vm ElfPhdr := do
  let offset := Word.add 32 eh.ePhoff (i * eh.ePhentsize)
  let (ph, resid) := vopReadKernel file sizeofPhdr offset
  -- "ELF: short read on phdr - file truncated?"
  if resid ≠ 0 then fail ENOEXEC
  return ElfPhdr.decode ph

/-- A `for` loop of `load_elf` over the program headers from `i` on, `k` of them: skip
`PT_NULL`, `PT_PHDR` and `PT_MIPS_REGINFO`, refuse any type but `PT_LOAD`, and run `segment`
on each `PT_LOAD` header. -/
def phdrLoop (file : List UInt8) (eh : ElfEhdr) (segment : ElfPhdr → Exec Int Vm Unit) :
    Nat → Nat → Exec Int Vm Unit
  | _, 0 => pure ()
  | i, k + 1 => do
    let ph ← readPhdr file eh i
    if ph.pType = PT_NULL ∨ ph.pType = PT_PHDR ∨ ph.pType = PT_MIPS_REGINFO then
      phdrLoop file eh segment (i + 1) k
    else if ph.pType = PT_LOAD then
      segment ph
      phdrLoop file eh segment (i + 1) k
    -- "loadelf: unknown segment type"
    else fail ENOEXEC

/-- The first pass: a region for each segment. -/
def defineRegions (file : List UInt8) (eh : ElfEhdr) : Exec Int Vm Unit :=
  phdrLoop file eh (fun ph => asDefineRegion ph.pVaddr ph.pMemsz) 0 eh.ePhnum

/-- The second pass: each segment read in. -/
def loadSegments (file : List UInt8) (eh : ElfEhdr) : Exec Int Vm Unit :=
  phdrLoop file eh (fun ph => loadSegment file ph.pOffset ph.pVaddr ph.pMemsz ph.pFilesz) 0
    eh.ePhnum

/-- `load_elf(v, &entrypoint)` in the address space of the current process: the entry point. -/
def loadElf (file : List UInt8) : Exec Int Vm Nat := do
  let (ehbuf, resid) := vopReadKernel file sizeofEhdr 0
  -- "ELF: short read on header - file truncated?"
  if resid ≠ 0 then fail ENOEXEC
  let eh := ElfEhdr.decode ehbuf
  if !eh.isExecutable then fail ENOEXEC
  defineRegions file eh
  asPrepareLoad
  loadSegments file eh
  -- `as_complete_load` returns 0
  return eh.eEntry

end Os161

import Os161.Klib.Bitmap
import Os161.Lib.Word

/-!
# The subpage allocator (`vm/kmalloc.c`)

`kmalloc` of fewer than `LARGEST_SUBPAGE_SIZE` bytes hands out a block of one of the eight
`sizes`, from a page that holds blocks of that size only. Each such page has a
`struct pageref`: the page address and the block type packed in one word, the offset of the
first block of the page's free list, and the number of free blocks. The free list runs
through the free blocks themselves: the first word of a free block holds the address of the
next one, 0 for `NULL`. The pagerefs in use are marked in `pagerefs_inuse` and linked twice:
on `allbase` through `next_all`, and on `sizebases[k]` through `next_samesize` for the pages
of block type `k`.

The state is the allocator's: the `pagerefs` array, the in-use bits, the list heads, and the
words of the heap's pages (`mem`, by address). `alloc_kpages` is the environment's, and its
result is a parameter of `subpage_kmalloc`; `free_kpages` does nothing under `dumbvm` (it
leaks the page). `kmalloc_spinlock` is not modelled: each call is one step. The `SLOW`
checks are compiled out, so `checksubpage` and `checksubpages` do nothing.
-/

namespace Os161

open Exec

/-! ### Constants (`arch/mips/include/vm.h`, `vm/kmalloc.c`) -/

def PAGE_SIZE : Nat := 4096

def PAGE_FRAME : Nat := 0xfffff000

def MIPS_KSEG0 : Nat := 0x80000000

def MIPS_KSEG1 : Nat := 0xa0000000

def NSIZES : Nat := 8

/-- `sizes[i]`, the block size of block type `i`. -/
def sizes (i : Nat) : Nat := [16, 32, 64, 128, 256, 512, 1024, 2048].getD i 0

def LARGEST_SUBPAGE_SIZE : Nat := 2048

/-- `PAGE_SIZE / sizeof(struct pageref)`: a `struct pageref` is 16 bytes on MIPS. -/
def NPAGEREFS : Nat := 256

def INVALID_OFFSET : Nat := 0xffff

/-! ### State -/

/-- `struct pageref`; a pointer to a pageref is its index in `pagerefs`. -/
structure Pageref where
  nextSamesize : Option Nat
  nextAll : Option Nat
  pageaddrAndBlocktype : Nat
  freelistOffset : Nat
  nfree : Nat

/-- `PR_PAGEADDR(pr)`. -/
def PR_PAGEADDR (pr : Pageref) : Nat := pr.pageaddrAndBlocktype &&& PAGE_FRAME

/-- `PR_BLOCKTYPE(pr)`: `~PAGE_FRAME` is `0xfff` in 32 bits. -/
def PR_BLOCKTYPE (pr : Pageref) : Nat := pr.pageaddrAndBlocktype &&& 0xfff

/-- `MKPAB(pa, blk)`. -/
def MKPAB (pa blk : Nat) : Nat := (pa &&& PAGE_FRAME) ||| (blk &&& 0xfff)

/-- The allocator's state: `pagerefs`, `pagerefs_inuse` (bit `j` is bit `j % 32` of word
`j / 32`), `sizebases`, `allbase`, and the word at each address of the heap's pages. -/
structure Kheap where
  pagerefs : Nat → Pageref
  pagerefsInuse : Nat → Bool
  sizebases : Nat → Option Nat
  allbase : Option Nat
  mem : Nat → Nat

variable {σ : Type}

/-- `*pr`. -/
def pageref (pr : Nat) : Exec Int Kheap Pageref := do
  return (← get).pagerefs pr

/-- A store into `*pr`. -/
def modifyPageref (pr : Nat) (f : Pageref → Pageref) : Exec Int Kheap Unit :=
  modify fun s => { s with pagerefs := Function.update s.pagerefs pr (f (s.pagerefs pr)) }

/-- A store of the word `v` at address `a`. -/
def storeWord (a v : Nat) : Exec Int Kheap Unit :=
  modify fun s => { s with mem := Function.update s.mem a v }

/-! ### Pagerefs -/

/-- `allocpageref()`: the first pageref whose bit is clear, now marked; `none` for `NULL`.
Skipping full words, as the source does, finds the same bit. -/
def allocpageref : Exec Int Kheap (Option Nat) := do
  let s ← get
  match findClear s.pagerefsInuse 0 NPAGEREFS with
  | some j => do
    set { s with pagerefsInuse := Function.update s.pagerefsInuse j true }
    pure (some j)
  | none => pure none

/-- `freepageref(p)`. -/
def freepageref (p : Nat) : Exec Int Kheap Unit := do
  assert (p < NPAGEREFS)
  let s ← get
  assert (s.pagerefsInuse p = true)
  set { s with pagerefsInuse := Function.update s.pagerefsInuse p false }

/-- The two lists a pageref is on: `sizebases[k]` through `next_samesize`, and `allbase`
through `next_all`. -/
inductive PrList
  | samesize (blktype : Nat)
  | all

/-- `*guy`, where `guy` is the list's head (`none`) or the link field of pageref `g`
(`some g`). -/
def PrList.read : PrList → Kheap → Option Nat → Option Nat
  | .samesize k, s, none => s.sizebases k
  | .samesize _, s, some g => (s.pagerefs g).nextSamesize
  | .all, s, none => s.allbase
  | .all, s, some g => (s.pagerefs g).nextAll

/-- `*guy = v`. -/
def PrList.write : PrList → Kheap → Option Nat → Option Nat → Kheap
  | .samesize k, s, none, v => { s with sizebases := Function.update s.sizebases k v }
  | .samesize _, s, some g, v =>
    { s with pagerefs := Function.update s.pagerefs g { s.pagerefs g with nextSamesize := v } }
  | .all, s, none, v => { s with allbase := v }
  | .all, s, some g, v =>
    { s with pagerefs := Function.update s.pagerefs g { s.pagerefs g with nextAll := v } }

/-- One loop of `remove_lists`, from `guy` with `fuel` rounds:
`for (guy = &head; *guy; guy = &(*guy)->next) if (*guy == pr) { *guy = pr->next; break; }`. -/
def removeFrom (l : PrList) (pr : Nat) : Nat → Option Nat → Exec Int Kheap Unit
  | 0, _ => halt
  | fuel + 1, guy => do
    let s ← get
    match l.read s guy with
    | none => pure ()
    | some g =>
      if g = pr then set (l.write s guy (l.read s (some pr)))
      else removeFrom l pr fuel (some g)

/-- `remove_lists(pr, blktype)`. A list of distinct pagerefs takes at most `NPAGEREFS + 1`
rounds. -/
def removeLists (pr blktype : Nat) : Exec Int Kheap Unit := do
  assert (blktype < NSIZES)
  removeFrom (.samesize blktype) pr (NPAGEREFS + 1) none
  removeFrom .all pr (NPAGEREFS + 1) none

/-! ### `subpage_kmalloc` -/

/-- `blocktype(sz)`: the first block type whose size holds `sz` bytes. -/
def blocktype (sz : Nat) : Exec Int σ Nat :=
  match (List.range NSIZES).find? (sz ≤ sizes ·) with
  | some i => pure i
  | none => halt  -- "Subpage allocator cannot handle allocation of size %lu"

/-- The search loop of `subpage_kmalloc` over `sizebases[blktype]`, from `pr`: the first page
with a free block. -/
def kmallocSearch (blktype : Nat) : Nat → Option Nat → Exec Int Kheap (Option Nat)
  | _, none => pure none
  | 0, some _ => halt
  | fuel + 1, some pr => do
    let p ← pageref pr
    -- "check for corruption"
    assert (PR_BLOCKTYPE p = blktype)
    if p.nfree > 0 then pure (some pr) else kmallocSearch blktype fuel p.nextSamesize

/-- `doalloc:`: take the first block of `pr`'s free list. -/
def doalloc (pr : Nat) : Exec Int Kheap Nat := do
  let p ← pageref pr
  assert (p.freelistOffset < PAGE_SIZE)
  let prpage := PR_PAGEADDR p
  let fla := Word.add 32 prpage p.freelistOffset
  let fl := (← get).mem fla
  let nfree := Word.sub 16 p.nfree 1
  if fl ≠ 0 then do
    assert (nfree > 0)
    assert (Word.sub 32 fl prpage < PAGE_SIZE)
    -- `fla - prpage` stored into a `uint16_t`
    modifyPageref pr fun p => { p with nfree, freelistOffset := Word.sub 16 fl prpage }
  else do
    assert (nfree = 0)
    modifyPageref pr fun p => { p with nfree, freelistOffset := INVALID_OFFSET }
  pure fla

/-- The loop that builds the free list of a fresh page, from block `i` on (`k` more rounds):
block `i` points at block `i - 1`. The last block written is the head. -/
def freshFreelist (prpage size : Nat) : Nat → Nat → Nat → Exec Int Kheap Nat
  | _, 0, fl => pure fl
  | i, k + 1, _ => do
    let fl := Word.add 32 prpage (i * size)
    let next := Word.add 32 prpage ((i - 1) * size)
    storeWord fl next
    assert (fl ≠ next)
    freshFreelist prpage size (i + 1) k fl

/-- The part of `subpage_kmalloc` after `alloc_kpages` returned the page `prpage`: a pageref
for the page, its free list of all its blocks, and the page on both lists. -/
def newSubpage (blktype prpage : Nat) : Exec Int Kheap Nat := do
  match ← allocpageref with
  | none => pure 0  -- "kmalloc: Subpage allocator couldn't get pageref"; `free_kpages(prpage)`
  | some pr => do
    let nfree := PAGE_SIZE / sizes blktype
    modifyPageref pr fun p => { p with pageaddrAndBlocktype := MKPAB prpage blktype, nfree }
    storeWord prpage 0
    let fl ← freshFreelist prpage (sizes blktype) 1 (nfree - 1) prpage
    -- `fla - prpage` stored into a `uint16_t`
    modifyPageref pr fun p => { p with freelistOffset := Word.sub 16 fl prpage }
    let p ← pageref pr
    assert (p.freelistOffset = (p.nfree - 1) * sizes blktype)
    modify fun s => { s with
      pagerefs := Function.update s.pagerefs pr
        { s.pagerefs pr with nextSamesize := s.sizebases blktype }
      sizebases := Function.update s.sizebases blktype (some pr) }
    modify fun s => { s with
      pagerefs := Function.update s.pagerefs pr { s.pagerefs pr with nextAll := s.allbase }
      allbase := some pr }
    doalloc pr

/-- `subpage_kmalloc(sz)`, where `newpage` is what `alloc_kpages(1)` returns if it is called;
`0` is `NULL`. -/
def subpageKmalloc (sz newpage : Nat) : Exec Int Kheap Nat := do
  let blktype ← blocktype sz
  match ← kmallocSearch blktype (NPAGEREFS + 1) ((← get).sizebases blktype) with
  | some pr => doalloc pr
  | none =>
    if newpage = 0 then pure 0  -- "kmalloc: Subpage allocator couldn't get a page"
    else newSubpage blktype newpage

/-! ### `subpage_kfree` -/

/-- The search loop of `subpage_kfree` over `allbase`, from `pr`: the first page that holds
`ptraddr`. -/
def kfreeSearch (ptraddr : Nat) : Nat → Option Nat → Exec Int Kheap (Option Nat)
  | _, none => pure none
  | 0, some _ => halt
  | fuel + 1, some pr => do
    let p ← pageref pr
    let prpage := PR_PAGEADDR p
    -- "check for corruption"
    assert (PR_BLOCKTYPE p < NSIZES)
    if ptraddr ≥ prpage ∧ ptraddr < Word.add 32 prpage PAGE_SIZE then pure (some pr)
    else kfreeSearch ptraddr fuel p.nextAll

/-- `fill_deadbeef(ptr, len)`: the `len / 4` words from `ptr` on. -/
def fillDeadbeef (ptr : Nat) : Nat → (Nat → Nat) → Nat → Nat
  | 0, mem => mem
  | n + 1, mem => Function.update (fillDeadbeef ptr n mem) (ptr + 4 * n) 0xdeadbeef

/-- `subpage_kfree(ptr)`: 0, or -1 when no page of the allocator holds `ptr`. -/
def subpageKfree (ptr : Nat) : Exec Int Kheap Int := do
  match ← kfreeSearch ptr (NPAGEREFS + 1) (← get).allbase with
  | none => pure (-1)
  | some pr => do
    let p ← pageref pr
    let prpage := PR_PAGEADDR p
    let blktype := PR_BLOCKTYPE p
    let offset := Word.sub 32 ptr prpage
    -- "kfree: subpage free of invalid addr %p"
    assert (¬(offset ≥ PAGE_SIZE ∨ offset % sizes blktype ≠ 0))
    modify fun s => { s with mem := fillDeadbeef ptr (sizes blktype / 4) s.mem }
    let fla := Word.add 32 prpage offset
    storeWord fla
      (if p.freelistOffset = INVALID_OFFSET then 0 else Word.add 32 prpage p.freelistOffset)
    -- `offset` stored into a `uint16_t`, and `nfree++` on one
    modifyPageref pr fun p =>
      { p with freelistOffset := offset % 2 ^ 16, nfree := (p.nfree + 1) % 2 ^ 16 }
    let p ← pageref pr
    assert (p.nfree ≤ PAGE_SIZE / sizes blktype)
    if p.nfree = PAGE_SIZE / sizes blktype then do
      -- the whole page is free; `free_kpages(prpage)` follows
      removeLists pr blktype
      freepageref pr
    pure 0

/-! ### `kmalloc` and `kfree` -/

/-- `kmalloc(sz)`, where `newpage` is what `alloc_kpages` returns if it is called. -/
def kmalloc (sz newpage : Nat) : Exec Int Kheap Nat :=
  if sz ≥ LARGEST_SUBPAGE_SIZE then pure newpage else subpageKmalloc sz newpage

/-- `kfree(ptr)`; `free_kpages` of a whole-page block does nothing under `dumbvm`. -/
def kfree (ptr : Nat) : Exec Int Kheap Unit := do
  if ptr = 0 then pure () else
  let r ← subpageKfree ptr
  if r ≠ 0 then assert (ptr % PAGE_SIZE = 0)

end Os161

import Os161.Vm.Kmalloc
import Os161.Lib.Linked

/-!
# The layout of the subpage allocator's heap

What a well-formed allocator state is, stated over the views of `Kheap` that the code reads:
the two lists through the pagerefs (`allNext`, `samesizeNext`), the page and block type packed
in a pageref, and the free list through the first words of the free blocks (`freeNext`,
`freeHead`). `Layout s allocs al` says that `allbase` lists the pagerefs `al`, that they are
exactly the ones marked in use, that `sizebases[k]` lists those of block type `k` in the same
order, that their pages are distinct kseg0 pages, and that each page's blocks are split
between its free list, which runs through exactly `nfree` of them, and the blocks of
`allocs` (the pointers handed out and not freed, with their requested sizes) on it.

The arithmetic under it: `MKPAB` packs an aligned page and a block type so that
`PR_PAGEADDR` and `PR_BLOCKTYPE` read them back (`pageaddr_mkpab`, `blocktype_mkpab`), and
two different blocks of a page do not overlap (`not_mem_block`).
-/

namespace Os161

open Linked

/-! ### Sizes and packed words -/

/-- Every block size is at least 16, divides the page and is a whole number of words. -/
theorem sizes_spec : ∀ k < NSIZES, 16 ≤ sizes k ∧ sizes k ∣ PAGE_SIZE ∧ 4 ∣ sizes k := by
  decide

theorem pageFrame_eq : PAGE_FRAME = 2 ^ 12 * (2 ^ 20 - 1) + 0 := by decide

theorem testBit_pageFrame (j : Nat) :
    PAGE_FRAME.testBit j = (decide (12 ≤ j) && decide (j - 12 < 20)) := by
  rw [pageFrame_eq, Nat.testBit_two_pow_mul_add _ (by decide : 0 < 2 ^ 12)]
  by_cases hj : j < 12
  · simp [hj, show ¬12 ≤ j by omega]
  · simp only [hj, if_false, Nat.testBit_two_pow_sub_one]
    simp [show 12 ≤ j by omega]

/-- Masking with `PAGE_FRAME` keeps the page number and drops the low twelve bits. -/
theorem page_and_frame {q b : Nat} (hq : q < 2 ^ 20) (hb : b < 2 ^ 12) :
    (2 ^ 12 * q + b) &&& PAGE_FRAME = 2 ^ 12 * q := by
  apply Nat.eq_of_testBit_eq
  intro j
  rw [Nat.testBit_and, Nat.testBit_two_pow_mul_add q hb, testBit_pageFrame,
    Nat.testBit_two_pow_mul]
  by_cases hj : j < 12
  · simp [hj, show ¬12 ≤ j by omega]
  · by_cases hj' : j - 12 < 20
    · simp [hj, hj', show 12 ≤ j by omega, Bool.and_comm]
    · have : q.testBit (j - 12) = false :=
        Nat.testBit_lt_two_pow (lt_of_lt_of_le hq (Nat.pow_le_pow_right (by decide) (by omega)))
      simp [hj, hj', this]

/-- An aligned page below `2 ^ 32` and a block type below `PAGE_SIZE` pack side by side. -/
theorem mkpab_eq {pa b : Nat} (hpa : pa % PAGE_SIZE = 0) (hlt : pa < 2 ^ 32)
    (hb : b < PAGE_SIZE) : MKPAB pa b = pa + b := by
  obtain ⟨q, rfl⟩ : ∃ q, pa = 2 ^ 12 * q := ⟨pa / 2 ^ 12, by unfold PAGE_SIZE at hpa; omega⟩
  have hframe : 2 ^ 12 * q &&& PAGE_FRAME = 2 ^ 12 * q := by
    simpa using page_and_frame (b := 0) (by omega) (by decide)
  have hb12 : b < 2 ^ 12 := hb
  have hb' : b &&& 0xfff = b := by
    rw [show (0xfff : Nat) = 2 ^ 12 - 1 by rfl, Nat.and_two_pow_sub_one_eq_mod,
      Nat.mod_eq_of_lt hb12]
  rw [MKPAB, hb', hframe, Nat.two_pow_add_eq_or_of_lt hb12]

theorem pageaddr_mkpab {pa b : Nat} (hpa : pa % PAGE_SIZE = 0) (hlt : pa < 2 ^ 32)
    (hb : b < PAGE_SIZE) (p : Pageref) :
    PR_PAGEADDR { p with pageaddrAndBlocktype := MKPAB pa b } = pa := by
  show MKPAB pa b &&& PAGE_FRAME = pa
  rw [mkpab_eq hpa hlt hb]
  obtain ⟨q, rfl⟩ : ∃ q, pa = 2 ^ 12 * q := ⟨pa / 2 ^ 12, by unfold PAGE_SIZE at hpa; omega⟩
  exact page_and_frame (by omega) hb

theorem blocktype_mkpab {pa b : Nat} (hpa : pa % PAGE_SIZE = 0) (hlt : pa < 2 ^ 32)
    (hb : b < PAGE_SIZE) (p : Pageref) :
    PR_BLOCKTYPE { p with pageaddrAndBlocktype := MKPAB pa b } = b := by
  show MKPAB pa b &&& 0xfff = b
  rw [mkpab_eq hpa hlt hb, show (0xfff : Nat) = 2 ^ 12 - 1 by rfl,
    Nat.and_two_pow_sub_one_eq_mod]
  unfold PAGE_SIZE at hpa hb
  omega

/-! ### Views of the state -/

namespace Kheap

variable (s : Kheap) (r a : Nat)

/-- `next_all` of each pageref. -/
def allNext : Option Nat := (s.pagerefs r).nextAll

/-- `next_samesize` of each pageref. -/
def samesizeNext : Option Nat := (s.pagerefs r).nextSamesize

/-- The page of pageref `r`. -/
def page : Nat := PR_PAGEADDR (s.pagerefs r)

/-- The block type of pageref `r`. -/
def btype : Nat := PR_BLOCKTYPE (s.pagerefs r)

/-- The block size of pageref `r`'s page. -/
def bsize : Nat := sizes (s.btype r)

/-- The free-list link in the block at `a`: its first word, 0 for `NULL`. -/
def freeNext : Option Nat := if s.mem a = 0 then none else some (s.mem a)

/-- The first block of pageref `r`'s free list. -/
def freeHead : Option Nat :=
  if (s.pagerefs r).freelistOffset = INVALID_OFFSET then none
  else some (s.page r + (s.pagerefs r).freelistOffset)

/-- Address `a` is in pageref `r`'s page. -/
def InPage : Prop := s.page r ≤ a ∧ a < s.page r + PAGE_SIZE

instance : Decidable (s.InPage r a) := inferInstanceAs (Decidable (_ ∧ _))

/-- Address `a` starts a block of pageref `r`'s page. -/
def IsBlock : Prop := s.InPage r a ∧ (a - s.page r) % s.bsize r = 0

end Kheap

/-! ### The invariant -/

/-- Pageref `r` holds a kseg0 page and a block type. -/
structure PageOk (s : Kheap) (r : Nat) : Prop where
  aligned : s.page r % PAGE_SIZE = 0
  kseg0 : MIPS_KSEG0 ≤ s.page r
  kseg1 : s.page r + PAGE_SIZE ≤ MIPS_KSEG1
  btype_lt : s.btype r < NSIZES

/-- The free list of pageref `r`'s page is `fl`, and the page's blocks are split between `fl`
and the allocations on the page. -/
structure FreeList (s : Kheap) (allocs : List (Nat × Nat)) (r : Nat) (fl : List Nat) :
    Prop where
  chain : Chain s.freeNext (s.freeHead r) fl
  length : fl.length = (s.pagerefs r).nfree
  offset : (s.pagerefs r).freelistOffset = INVALID_OFFSET ∨
    (s.pagerefs r).freelistOffset < PAGE_SIZE
  blocks : ∀ b ∈ fl, s.IsBlock r b
  allocated : ∀ a ∈ allocs, s.InPage r a.1 → s.IsBlock r a.1 ∧ a.1 ∉ fl ∧ a.2 ≤ s.bsize r
  count : (allocs.filter fun a => s.InPage r a.1).length + (s.pagerefs r).nfree =
    PAGE_SIZE / s.bsize r

/-- The lists and pages: `allbase` lists the pagerefs `al`, which are the ones marked in use,
`sizebases[k]` lists those of block type `k` in the same order, and their pages are distinct
kseg0 pages. -/
structure Shape (s : Kheap) (al : List Nat) : Prop where
  all : Chain s.allNext s.allbase al
  lt : ∀ r ∈ al, r < NPAGEREFS
  inuse : ∀ r < NPAGEREFS, s.pagerefsInuse r = true ↔ r ∈ al
  samesize : ∀ k < NSIZES, Chain s.samesizeNext (s.sizebases k) (al.filter (s.btype · = k))
  page : ∀ r ∈ al, PageOk s r
  disjoint : ∀ r ∈ al, ∀ r' ∈ al, s.page r = s.page r' → r = r'

/-- **The allocator's invariant**, with `al` the pagerefs on `allbase` and `allocs` the blocks
handed out and not freed, each with the size asked for. -/
structure Layout (s : Kheap) (allocs : List (Nat × Nat)) (al : List Nat) : Prop
    extends Shape s al where
  free : ∀ r ∈ al, ∃ fl, FreeList s allocs r fl
  placed : ∀ a ∈ allocs, ∃ r ∈ al, s.InPage r a.1
  distinct : (allocs.map Prod.fst).Nodup

/-! ### Pages and blocks -/

section Blocks

variable {s : Kheap} {r r' a b : Nat}

theorem PageOk.page_pos (h : PageOk s r) : 0 < s.page r :=
  lt_of_lt_of_le (by decide) h.kseg0

theorem PageOk.page_lt (h : PageOk s r) : s.page r + PAGE_SIZE < 2 ^ 32 :=
  lt_of_le_of_lt h.kseg1 (by decide)

theorem PageOk.bsize_spec (h : PageOk s r) :
    16 ≤ s.bsize r ∧ s.bsize r ∣ PAGE_SIZE ∧ 4 ∣ s.bsize r :=
  sizes_spec _ h.btype_lt

/-- A block of a page ends inside the page. -/
theorem PageOk.block_end (h : PageOk s r) (hb : s.IsBlock r b) :
    b + s.bsize r ≤ s.page r + PAGE_SIZE := by
  obtain ⟨⟨hlo, hhi⟩, hmod⟩ := hb
  obtain ⟨-, ⟨m, hm⟩, -⟩ := h.bsize_spec
  obtain ⟨j, hj⟩ := Nat.dvd_of_mod_eq_zero hmod
  have hsz : 0 < s.bsize r := by have := h.bsize_spec.1; omega
  -- `b` is block `j` of the page's `m` blocks
  have hjm : j < m := by
    by_contra hge
    have : s.bsize r * m ≤ s.bsize r * j := Nat.mul_le_mul_left _ (by omega)
    omega
  have : s.bsize r * (j + 1) ≤ s.bsize r * m := Nat.mul_le_mul_left _ hjm
  rw [Nat.mul_succ] at this
  omega

/-- **Two blocks of a page do not overlap**: a block other than `a` does not start inside
`a`'s block. -/
theorem not_mem_block (ha : s.IsBlock r a) (hb : s.IsBlock r b) (hne : b ≠ a) :
    ¬(a ≤ b ∧ b < a + s.bsize r) := by
  rintro ⟨h1, h2⟩
  obtain ⟨⟨hla, -⟩, hma⟩ := ha
  obtain ⟨⟨hlb, -⟩, hmb⟩ := hb
  -- both offsets are multiples of the block size, less than one block apart
  have hdiff : (b - s.page r) - (a - s.page r) < s.bsize r := by omega
  have hdvd : s.bsize r ∣ (b - s.page r) - (a - s.page r) :=
    Nat.dvd_sub (Nat.dvd_of_mod_eq_zero hmb) (Nat.dvd_of_mod_eq_zero hma)
  have hzero : (b - s.page r) - (a - s.page r) = 0 := Nat.eq_zero_of_dvd_of_lt hdvd hdiff
  omega

/-- Two aligned pages that share an address are the same page. -/
theorem page_eq_of_inPage (h : PageOk s r) (h' : PageOk s r') (ha : s.InPage r a)
    (ha' : s.InPage r' a) : s.page r = s.page r' := by
  obtain ⟨q, hq⟩ := Nat.dvd_of_mod_eq_zero h.aligned
  obtain ⟨q', hq'⟩ := Nat.dvd_of_mod_eq_zero h'.aligned
  unfold Kheap.InPage at ha ha'
  unfold PAGE_SIZE at hq hq' ha ha'
  have : q = q' := by omega
  omega

end Blocks

/-! ### States with the same shape -/

/-- `s'` has the lists, the pages and the in-use bits of `s`: only free-list offsets, free
counts and the heap's words may differ. -/
structure SameShape (s s' : Kheap) : Prop where
  links : ∀ g, (s'.pagerefs g).nextSamesize = (s.pagerefs g).nextSamesize ∧
    (s'.pagerefs g).nextAll = (s.pagerefs g).nextAll ∧
    (s'.pagerefs g).pageaddrAndBlocktype = (s.pagerefs g).pageaddrAndBlocktype
  inuse : s'.pagerefsInuse = s.pagerefsInuse
  sizebases : s'.sizebases = s.sizebases
  allbase : s'.allbase = s.allbase

namespace SameShape

variable {s s' : Kheap} (h : SameShape s s')
include h

theorem allNext_eq : s'.allNext = s.allNext := funext fun g => (h.links g).2.1

theorem samesizeNext_eq : s'.samesizeNext = s.samesizeNext := funext fun g => (h.links g).1

theorem page_eq (r : Nat) : s'.page r = s.page r := by
  unfold Kheap.page PR_PAGEADDR
  rw [(h.links r).2.2]

theorem btype_eq (r : Nat) : s'.btype r = s.btype r := by
  unfold Kheap.btype PR_BLOCKTYPE
  rw [(h.links r).2.2]

theorem bsize_eq (r : Nat) : s'.bsize r = s.bsize r := by
  unfold Kheap.bsize
  rw [h.btype_eq]

theorem inPage_iff (r a : Nat) : s'.InPage r a ↔ s.InPage r a := by
  unfold Kheap.InPage
  rw [h.page_eq]

theorem isBlock_iff (r a : Nat) : s'.IsBlock r a ↔ s.IsBlock r a := by
  unfold Kheap.IsBlock
  rw [h.inPage_iff, h.page_eq, h.bsize_eq]

theorem pageOk_iff (r : Nat) : PageOk s' r ↔ PageOk s r := by
  have hp := h.page_eq r
  have hb := h.btype_eq r
  constructor
  · rintro ⟨h1, h2, h3, h4⟩
    exact ⟨hp ▸ h1, hp ▸ h2, hp ▸ h3, hb ▸ h4⟩
  · rintro ⟨h1, h2, h3, h4⟩
    exact ⟨hp ▸ h1, hp ▸ h2, hp ▸ h3, hb ▸ h4⟩

/-- **The shape only reads the lists, the pages and the in-use bits.** -/
theorem shape {al : List Nat} (hs : Shape s al) : Shape s' al where
  all := by rw [h.allNext_eq, h.allbase]; exact hs.all
  lt := hs.lt
  inuse := by rw [h.inuse]; exact hs.inuse
  samesize k hk := by
    rw [h.samesizeNext_eq, h.sizebases]
    simpa only [h.btype_eq] using hs.samesize k hk
  page r hr := (h.pageOk_iff r).mpr (hs.page r hr)
  disjoint r hr r' hr' := by rw [h.page_eq, h.page_eq]; exact hs.disjoint r hr r' hr'

end SameShape

end Os161

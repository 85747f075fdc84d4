import Os161.Vm.Proofs.Dumbvm
import Os161.Lib.Lists

/-!
# `as_copy` gives the child the parent's memory

`sys_fork` gives the child process `as_copy` of the parent's address space. `as_copy` defines
the same two regions in a new address space, has `as_prepare_load` take fresh frames for them
and for the stack, and `memmove`s the parent's pages into them.

A process sees its memory through `vm_fault`: a load from the user address `a` reads the frame
`vm_fault` gives the page of `a`, at the offset of `a` in the page (`Vm.userByte`). While a
process runs, its address space passes the `KASSERT`s of `vm_fault`, its frames lie apart and
below the free memory of `ram_stealmem`, and that memory ends below `2 ^ 32` (`Vm.Sound`).

From such a state, with room for a second set of pages, `as_copy` returns, and after it the
parent and the child see the same byte at every user address, the one the parent saw before;
both states are sound again, and no frame of the child is one of the parent's, so what one of
them stores the other does not see (`as_copy_same_memory`).
-/

namespace Os161

open Bytes Exec

/-! ### What a process sees -/

/-- The byte a user load from `a` reads: from the frame `vm_fault` gives the page of `a`, at the
offset of `a` in the page; `none` where `vm_fault` does not answer. -/
def Vm.userByte (s : Vm) (a : Nat) : Option UInt8 :=
  match vmFault .read a s with
  | .ok p _ => some (s.pmem (p + a % PAGE_SIZE))
  | .error _ _ => none

/-- The memory of a running process: its address space passes the `KASSERT`s of `vm_fault`, its
frames are apart and were all taken before `firstpaddr`, which is a page base, and physical
memory ends below `2 ^ 32`. -/
structure Vm.Sound (s : Vm) : Prop where
  ready : s.as.Ready
  backed : s.as.Backed
  below : ∀ r ∈ s.as.regionList, r.pbase + r.npages * PAGE_SIZE ≤ s.firstpaddr
  aligned : s.firstpaddr % PAGE_SIZE = 0
  top : s.lastpaddr < 2 ^ 32

variable {s : Vm} {a : Nat}

/-- The offset of the byte at `a` in the run of pages of the region. -/
def Region.offset (r : Region) (a : Nat) : Nat := (a &&& PAGE_FRAME) - r.vbase + a % PAGE_SIZE

/-- **The byte at `a` in a region that holds its page** lies at `offset` in the region's frames,
one of its `npages` pages. -/
theorem Region.translate_add_mod {r : Region} (hv : r.vbase < 2 ^ 32)
    (hp : r.pbase + r.npages * PAGE_SIZE < 2 ^ 32) (hal : r.vbase % PAGE_SIZE = 0)
    (h : r.Holds (a &&& PAGE_FRAME)) :
    r.translate (a &&& PAGE_FRAME) + a % PAGE_SIZE = r.pbase + r.offset a ∧
      r.offset a < r.npages * PAGE_SIZE := by
  obtain ⟨hle, hlt⟩ := h.offset_lt hv hp
  have hpage := (page_aligned a).1
  unfold Region.translate Region.offset Word.add
  unfold PAGE_SIZE at *
  omega

/-- The regions of an address space that passes the `KASSERT`s of `vm_fault` start at page
bases. -/
theorem Addrspace.Ready.vbase_aligned {as : Addrspace} (hr : as.Ready) :
    ∀ r ∈ as.regionList, r.vbase % PAGE_SIZE = 0 := by
  obtain ⟨-, -, -, -, -, -, -, av1, -, av2, -, -⟩ := hr
  simp only [Addrspace.regionList, List.mem_cons, List.not_mem_nil, or_false]
  rintro r (rfl | rfl | rfl)
  · exact (and_pageFrame_eq_self_iff.1 av1).1
  · exact (and_pageFrame_eq_self_iff.1 av2).1
  · exact (by decide : (USERSTACK - DUMBVM_STACKPAGES * PAGE_SIZE) % PAGE_SIZE = 0)

/-- **`vm_fault`'s view of memory**: the byte at `a` is read through the first region that holds
the page of `a`. -/
theorem userByte_eq (hr : s.as.Ready) :
    s.userByte a =
      (s.as.regionList.find? fun r => decide (r.Holds (a &&& PAGE_FRAME))).map
        fun r => s.pmem (r.translate (a &&& PAGE_FRAME) + a % PAGE_SIZE) := by
  unfold Vm.userByte
  rw [vmFault_eq hr (by decide)]
  cases s.as.regionList.find? fun r => decide (r.Holds (a &&& PAGE_FRAME)) <;> rfl

/-- The region `r₁` of `s₁` and the region `r₂` of `s₂` are the same user pages, and `s₂` holds
in `r₂`'s frames what `s₁` holds in `r₁`'s. -/
def Vm.SamePages (s₁ s₂ : Vm) (r₁ r₂ : Region) : Prop :=
  r₁.vbase = r₂.vbase ∧ r₁.npages = r₂.npages ∧
    ∀ off < r₁.npages * PAGE_SIZE, s₂.pmem (r₂.pbase + off) = s₁.pmem (r₁.pbase + off)

/-- **Two processes whose regions are the same pages with the same contents see the same
memory**, wherever their frames are. -/
theorem userByte_eq_of_samePages {s₁ s₂ : Vm} (h₁ : s₁.as.Ready) (hb₁ : s₁.as.Backed)
    (h₂ : s₂.as.Ready) (hb₂ : s₂.as.Backed)
    (h : List.Forall₂ (Vm.SamePages s₁ s₂) s₁.as.regionList s₂.as.regionList) :
    s₂.userByte a = s₁.userByte a := by
  rw [userByte_eq h₁, userByte_eq h₂]
  -- a region holds the page exactly when its counterpart does
  have hholds : ∀ r₁ r₂, Vm.SamePages s₁ s₂ r₁ r₂ →
      decide (r₁.Holds (a &&& PAGE_FRAME)) = decide (r₂.Holds (a &&& PAGE_FRAME)) := by
    rintro r₁ r₂ ⟨hv, hn, -⟩
    refine decide_eq_decide.mpr ?_
    rw [Region.Holds, Region.Holds, hv, hn]
  rcases h.find?_cases hholds with ⟨hn₁, hn₂⟩ | ⟨r₁, r₂, ⟨hv, hn, hmem⟩, hf₁, hf₂⟩
  · rw [hn₁, hn₂, Option.map_none, Option.map_none]
  · rw [hf₁, hf₂]
    have hm₁ := List.mem_of_find?_eq_some hf₁
    have hm₂ := List.mem_of_find?_eq_some hf₂
    have hh₁ := List.find?_some hf₁
    replace hh₁ := of_decide_eq_true hh₁
    have hh₂ : r₂.Holds (a &&& PAGE_FRAME) := by
      rw [Region.Holds, ← hv, ← hn]
      exact hh₁
    obtain ⟨hv₁, hp₁⟩ := hb₁.fits r₁ hm₁
    obtain ⟨hv₂, hp₂⟩ := hb₂.fits r₂ hm₂
    obtain ⟨he₁, hlt⟩ := Region.translate_add_mod hv₁ hp₁ (h₁.vbase_aligned r₁ hm₁) hh₁
    obtain ⟨he₂, -⟩ := Region.translate_add_mod hv₂ hp₂ (h₂.vbase_aligned r₂ hm₂) hh₂
    -- the byte lies at the same offset in both regions
    have hoff : r₂.offset a = r₁.offset a := by rw [Region.offset, Region.offset, hv]
    rw [Option.map_some, Option.map_some, he₁, he₂, hoff, hmem _ hlt]

/-! ### `as_prepare_load` returns when there is memory -/

/-- `ram_stealmem` of pages that fit below `lastpaddr < 2 ^ 32`: the first of them, taken off the
free memory. -/
theorem ramStealmem_ok {n : Nat} (hroom : s.firstpaddr + n * PAGE_SIZE ≤ s.lastpaddr)
    (htop : s.lastpaddr < 2 ^ 32) :
    ramStealmem n s = .ok s.firstpaddr { s with firstpaddr := s.firstpaddr + n * PAGE_SIZE } := by
  have hsize : n * PAGE_SIZE % 2 ^ 32 = n * PAGE_SIZE := Nat.mod_eq_of_lt (by omega)
  have hadd : Word.add 32 s.firstpaddr (n * PAGE_SIZE) = s.firstpaddr + n * PAGE_SIZE :=
    Word.add_of_lt (by omega)
  rw [ramStealmem_apply, hsize, hadd, if_neg (by omega)]

/-- **`as_prepare_load` of an address space with no frames yet returns** when the free memory,
which does not start at 0, has room for both regions and the stack. -/
theorem asPrepareLoad_ok (h1 : s.as.asPbase1 = 0) (h2 : s.as.asPbase2 = 0)
    (h3 : s.as.asStackpbase = 0) (hf0 : s.firstpaddr ≠ 0)
    (hroom : s.firstpaddr + s.as.loadSize ≤ s.lastpaddr) (htop : s.lastpaddr < 2 ^ 32) :
    asPrepareLoad s = .ok () s.prepared := by
  -- it returns: the `KASSERT`s pass and each `getppages` finds its pages
  obtain ⟨t, ht⟩ : ∃ t, asPrepareLoad s = .ok () t := by
    unfold Addrspace.loadSize at hroom
    rw [asPrepareLoad, bind_apply, get_apply]
    dsimp only
    rw [bind_apply, assert_apply, if_pos h1]
    dsimp only
    rw [bind_apply, assert_apply, if_pos h2]
    dsimp only
    rw [bind_apply, assert_apply, if_pos h3]
    dsimp only
    rw [getppages, bind_of_ok (ramStealmem_ok (by omega) htop), Vm.modifyAs, bind_apply,
      modify_apply]
    dsimp only
    rw [if_neg hf0, getppages, bind_of_ok (ramStealmem_ok ?_ ?_), Vm.modifyAs, bind_apply,
      modify_apply]
    dsimp only
    rw [if_neg (by omega), getppages, bind_of_ok (ramStealmem_ok ?_ ?_), Vm.modifyAs, bind_apply,
      modify_apply]
    dsimp only
    rw [if_neg (by omega)]
    · exact ⟨_, rfl⟩
    all_goals dsimp only; omega
  -- and the state it returns in is the one `asPrepareLoad_returns` names
  obtain ⟨-, -, rfl⟩ := asPrepareLoad_returns s (by omega) () t ht
  exact ht

/-! ### The copy -/

/-- The address space `as_copy` hands to `as_prepare_load`: the two regions of `old`, no
frames. -/
def Addrspace.regionsOf (old : Addrspace) : Addrspace :=
  { asCreate with
    asVbase1 := old.asVbase1, asNpages1 := old.asNpages1,
    asVbase2 := old.asVbase2, asNpages2 := old.asNpages2 }

/-- Memory after the three `memmove`s of `as_copy`, from the frames of `old` to the runs of
frames from `f` on that `as_prepare_load` took for region 1, region 2 and the stack. -/
def copyPages (m : Buf) (old : Addrspace) (f : Nat) : Buf :=
  let m₁ := copy m f m old.asPbase1 (old.asNpages1 * PAGE_SIZE)
  let m₂ := copy m₁ (f + old.asNpages1 * PAGE_SIZE) m₁ old.asPbase2 (old.asNpages2 * PAGE_SIZE)
  copy m₂ (f + old.asNpages1 * PAGE_SIZE + old.asNpages2 * PAGE_SIZE) m₂ old.asStackpbase
    (DUMBVM_STACKPAGES * PAGE_SIZE)

section CopyPages

variable {m : Buf} {old : Addrspace} {f x off : Nat}

/-- Memory below the new frames is left as it was. -/
theorem copyPages_of_lt (hx : x < f) : copyPages m old f x = m x := by
  unfold copyPages
  rw [copy_of_not_mem (by omega), copy_of_not_mem (by omega), copy_of_not_mem (by omega)]

/-- Region 1's new frames hold its old pages. -/
theorem copyPages_one (hoff : off < old.asNpages1 * PAGE_SIZE) :
    copyPages m old f (f + off) = m (old.asPbase1 + off) := by
  unfold copyPages
  rw [copy_of_not_mem (by omega), copy_of_not_mem (by omega), copy_of_mem (by omega) (by omega)]
  congr 2
  omega

/-- Region 2's new frames hold its old pages, which lie below the new frames. -/
theorem copyPages_two (hoff : off < old.asNpages2 * PAGE_SIZE)
    (hold : old.asPbase2 + old.asNpages2 * PAGE_SIZE ≤ f) :
    copyPages m old f (f + old.asNpages1 * PAGE_SIZE + off) = m (old.asPbase2 + off) := by
  unfold copyPages
  rw [copy_of_not_mem (by omega), copy_of_mem (by omega) (by omega), copy_of_not_mem (by omega)]
  congr 2
  omega

/-- The stack's new frames hold its old pages, which lie below the new frames. -/
theorem copyPages_three (hoff : off < DUMBVM_STACKPAGES * PAGE_SIZE)
    (hold₃ : old.asStackpbase + DUMBVM_STACKPAGES * PAGE_SIZE ≤ f) :
    copyPages m old f (f + old.asNpages1 * PAGE_SIZE + old.asNpages2 * PAGE_SIZE + off) =
      m (old.asStackpbase + off) := by
  unfold copyPages
  rw [copy_of_mem (by omega) (by omega), copy_of_not_mem (by omega), copy_of_not_mem (by omega)]
  congr 2
  omega

end CopyPages

/-- A sound state has free memory from a `firstpaddr` other than 0: region 1's frames lie
below it. -/
theorem Vm.Sound.firstpaddr_ne_zero (hs : s.Sound) : s.firstpaddr ≠ 0 := by
  have hp1 := hs.ready.2.1
  have hb := hs.below _ List.mem_cons_self
  dsimp only at hb
  omega

/-- The parent's state after `as_copy` from `s`: `as_prepare_load` took the frames of the copy
from `firstpaddr` on, the parent's pages were moved into them, and the parent keeps its address
space. -/
def Vm.copyParent (s : Vm) : Vm :=
  { { s with as := s.as.regionsOf }.prepared with
    as := s.as
    pmem := copyPages { s with as := s.as.regionsOf }.prepared.pmem s.as s.firstpaddr }

/-- The address space `as_copy` from `s` returns. -/
def Vm.copyAs (s : Vm) : Addrspace := { s with as := s.as.regionsOf }.prepared.as

/-- The child's state after `as_copy` from `s`: the same memory, through the new address
space. -/
def Vm.copyChild (s : Vm) : Vm := { s.copyParent with as := s.copyAs }

/-- **What `as_copy` does when there is memory**: `as_prepare_load` takes frames for the copy of
the regions from `firstpaddr` on, and the parent's pages are moved into them. -/
theorem asCopy_ok (hs : s.Sound) (hroom : s.firstpaddr + s.as.loadSize ≤ s.lastpaddr) :
    asCopy true s.as s = .ok s.copyAs s.copyParent := by
  have hprep : asPrepareLoad { s with as := s.as.regionsOf } =
      .ok () { s with as := s.as.regionsOf }.prepared :=
    asPrepareLoad_ok rfl rfl rfl hs.firstpaddr_ne_zero hroom hs.top
  have hfit : s.firstpaddr + s.as.loadSize < 2 ^ 32 := by have := hs.top; omega
  unfold Addrspace.loadSize at hfit
  have hm₁ : s.as.asNpages1 * PAGE_SIZE % 2 ^ 32 = s.as.asNpages1 * PAGE_SIZE :=
    Nat.mod_eq_of_lt (by omega)
  have hm₂ : s.as.asNpages2 * PAGE_SIZE % 2 ^ 32 = s.as.asNpages2 * PAGE_SIZE :=
    Nat.mod_eq_of_lt (by omega)
  rw [asCopy]
  simp only [Bool.not_true, Bool.false_eq_true, if_false]
  -- `as_prepare_load(new)` returns, with the caller's address space put back
  refine bind_eq_ok.2 ⟨(.ok (), { s with as := s.as.regionsOf }.prepared.as),
    { { s with as := s.as.regionsOf }.prepared with as := s.as }, ?_, ?_⟩
  · rw [focus_eq_ok]
    exact ⟨_, (bind_of_ok (attempt_of_ok hprep)).trans rfl, rfl⟩
  -- the `KASSERT`s on the new frames pass, and the three `memmove`s run
  dsimp only
  simp only [Bool.false_eq_true, if_false]
  have hf0 := hs.firstpaddr_ne_zero
  rw [bind_apply, assert_apply, if_pos ?h₁]
  dsimp only
  rw [bind_apply, assert_apply, if_pos ?h₂]
  dsimp only
  rw [bind_apply, assert_apply, if_pos ?h₃]
  dsimp only
  · rw [hm₁, hm₂]
    rfl
  all_goals dsimp only [Vm.prepared, Addrspace.regionsOf]; omega

/-! ### The parent and the child -/

/-- Memory below the free memory is as it was after `as_prepare_load`: it only zeroes the
frames it takes. -/
theorem prepared_pmem_of_lt {x : Nat} (hx : x < s.firstpaddr) : s.prepared.pmem x = s.pmem x :=
  copy_of_not_mem (.inl hx)

/-- The free memory stays at a page base: `as_prepare_load` takes whole pages. -/
theorem loadSize_add_mod {f : Nat} (as : Addrspace) (hf : f % PAGE_SIZE = 0) :
    (f + as.loadSize) % PAGE_SIZE = 0 := by
  unfold Addrspace.loadSize DUMBVM_STACKPAGES PAGE_SIZE at *
  omega

-- The fields of the two states, each read off its definition: stated once so that no proof
-- leaves the kernel to compare the states themselves.
theorem copyParent_as : s.copyParent.as = s.as := by unfold Vm.copyParent; rfl

theorem copyParent_firstpaddr : s.copyParent.firstpaddr = s.firstpaddr + s.as.loadSize := by
  unfold Vm.copyParent; rfl

theorem copyParent_lastpaddr : s.copyParent.lastpaddr = s.lastpaddr := by
  unfold Vm.copyParent; rfl

theorem copyParent_pmem :
    s.copyParent.pmem = copyPages { s with as := s.as.regionsOf }.prepared.pmem s.as s.firstpaddr := by
  unfold Vm.copyParent; rfl

theorem copyChild_as : s.copyChild.as = s.copyAs := by unfold Vm.copyChild; rfl

theorem copyChild_firstpaddr : s.copyChild.firstpaddr = s.copyParent.firstpaddr := by
  unfold Vm.copyChild; rfl

theorem copyChild_lastpaddr : s.copyChild.lastpaddr = s.copyParent.lastpaddr := by
  unfold Vm.copyChild; rfl

theorem copyChild_pmem : s.copyChild.pmem = s.copyParent.pmem := by unfold Vm.copyChild; rfl

/-- The regions of the child: the parent's pages, in the frames from `firstpaddr` on. -/
theorem copyAs_regionList :
    s.copyAs.regionList =
      [⟨s.as.asVbase1, s.as.asNpages1, s.firstpaddr⟩,
        ⟨s.as.asVbase2, s.as.asNpages2, s.firstpaddr + s.as.asNpages1 * PAGE_SIZE⟩,
        ⟨USERSTACK - DUMBVM_STACKPAGES * PAGE_SIZE, DUMBVM_STACKPAGES,
          s.firstpaddr + s.as.asNpages1 * PAGE_SIZE + s.as.asNpages2 * PAGE_SIZE⟩] := rfl

section Fork

variable (hs : s.Sound)
include hs

/-- The parent's state stays sound: its frames are still below the free memory, which moved up
by whole pages. -/
theorem copyParent_sound : s.copyParent.Sound := by
  refine ⟨?_, ?_, ?_, ?_, ?_⟩
  · rw [copyParent_as]
    exact hs.ready
  · rw [copyParent_as]
    exact hs.backed
  · intro r hr
    rw [copyParent_as] at hr
    have := hs.below r hr
    rw [copyParent_firstpaddr]
    omega
  · rw [copyParent_firstpaddr]
    exact loadSize_add_mod s.as hs.aligned
  · rw [copyParent_lastpaddr]
    exact hs.top

/-- The child's state is sound: `as_prepare_load` gave its copy of the regions frames that pass
the `KASSERT`s of `vm_fault`, apart and below the free memory. -/
theorem copyChild_sound (hroom : s.firstpaddr + s.as.loadSize ≤ s.lastpaddr) :
    s.copyChild.Sound := by
  obtain ⟨hv1, hp1, hn1, hv2, hp2, hn2, hst, av1, ap1, av2, ap2, ast⟩ := hs.ready
  have hfit : s.firstpaddr + s.as.loadSize < 2 ^ 32 := by have := hs.top; omega
  have hb1 := (and_pageFrame_eq_self_iff.1 av1).2
  have hb2 := (and_pageFrame_eq_self_iff.1 av2).2
  refine ⟨?_, ?_, ?_, ?_, ?_⟩
  · rw [copyChild_as]
    exact prepared_ready (s := { s with as := s.as.regionsOf }) hv1 hv2 hn1 hn2 av1 av2
      hs.firstpaddr_ne_zero hs.aligned hfit
  · rw [copyChild_as]
    exact prepared_backed (s := { s with as := s.as.regionsOf }) hb1 hb2 hfit
  · rw [copyChild_as, copyAs_regionList, copyChild_firstpaddr, copyParent_firstpaddr]
    simp only [List.mem_cons, List.not_mem_nil, or_false]
    unfold Addrspace.loadSize
    rintro r (rfl | rfl | rfl) <;> dsimp only <;> omega
  · rw [copyChild_firstpaddr, copyParent_firstpaddr]
    exact loadSize_add_mod s.as hs.aligned
  · rw [copyChild_lastpaddr, copyParent_lastpaddr]
    exact hs.top

/-- **No frame of the child is one of the parent's**: the parent's lie below `firstpaddr`, the
child's were free memory from there on. -/
theorem copy_apart : ∀ r ∈ s.as.regionList, ∀ r' ∈ s.copyAs.regionList, r.Apart r' := by
  intro r hr r' hr'
  have hbelow := hs.below r hr
  have hfresh := (prepared_frames_fresh (s := { s with as := s.as.regionsOf }) hr').1
  refine Set.disjoint_left.mpr fun x hx hx' => ?_
  have h₁ := hx.2
  have h₂ := (hfresh hx').1
  dsimp only at h₂
  omega

/-- **The parent sees what it saw**: `as_copy` only writes the free memory it took. -/
theorem copyParent_userByte (a : Nat) : s.copyParent.userByte a = s.userByte a := by
  have hp := copyParent_sound hs
  refine userByte_eq_of_samePages hs.ready hs.backed hp.ready hp.backed ?_
  rw [copyParent_as]
  refine List.forall₂_same.mpr fun r hr => ⟨rfl, rfl, fun off hoff => ?_⟩
  have hbelow := hs.below r hr
  rw [copyParent_pmem, copyPages_of_lt (by omega), prepared_pmem_of_lt (by dsimp only; omega)]

/-- **The child sees what the parent saw**, through its own frames. -/
theorem copyChild_userByte (hroom : s.firstpaddr + s.as.loadSize ≤ s.lastpaddr) (a : Nat) :
    s.copyChild.userByte a = s.userByte a := by
  have hc := copyChild_sound hs hroom
  refine userByte_eq_of_samePages hs.ready hs.backed hc.ready hc.backed ?_
  have h₁ := hs.below _ List.mem_cons_self
  have h₂ := hs.below _ (List.mem_cons_of_mem _ List.mem_cons_self)
  have h₃ := hs.below _ (List.mem_cons_of_mem _ (List.mem_cons_of_mem _ List.mem_cons_self))
  dsimp only at h₁ h₂ h₃
  rw [copyChild_as, copyAs_regionList]
  -- region 1, region 2 and the stack, each moved from its old frames to its new ones
  refine .cons ⟨rfl, rfl, fun off hoff => ?_⟩ (.cons ⟨rfl, rfl, fun off hoff => ?_⟩
    (.cons ⟨rfl, rfl, fun off hoff => ?_⟩ .nil)) <;>
    dsimp only at hoff ⊢ <;> rw [copyChild_pmem, copyParent_pmem]
  · rw [copyPages_one hoff, prepared_pmem_of_lt (by dsimp only; omega)]
  · rw [copyPages_two hoff h₂, prepared_pmem_of_lt (by dsimp only; omega)]
  · rw [copyPages_three hoff h₃, prepared_pmem_of_lt (by dsimp only; omega)]

end Fork

/-- **`as_copy` gives the child the parent's memory.** From a sound state with room for a second
set of pages, `as_copy` of the current address space returns. The parent keeps its address space
and sees at every user address what it saw; the child sees the same bytes through its own
address space; both states are sound; and no frame of the child is one of the parent's. -/
theorem as_copy_same_memory (hs : s.Sound)
    (hroom : s.firstpaddr + s.as.loadSize ≤ s.lastpaddr) :
    ∃ new s', asCopy true s.as s = .ok new s' ∧ s'.as = s.as ∧ s'.Sound ∧
      { s' with as := new }.Sound ∧ (∀ r ∈ s.as.regionList, ∀ r' ∈ new.regionList, r.Apart r') ∧
      (∀ a, s'.userByte a = s.userByte a) ∧ ∀ a, { s' with as := new }.userByte a = s.userByte a :=
  ⟨s.copyAs, s.copyParent, asCopy_ok hs hroom, copyParent_as, copyParent_sound hs,
    copyChild_sound hs hroom, copy_apart hs, copyParent_userByte hs, copyChild_userByte hs hroom⟩

/-- A process with one page of code at `0x400000` in frame `0x100000`, one page of data at
`0x10000000` in the next frame and its stack in the twelve after, with free memory from 2 MiB to
16 MiB. -/
def copySample : Vm where
  as := ⟨0x400000, 0x100000, 1, 0x10000000, 0x101000, 1, 0x102000⟩
  firstpaddr := 0x200000
  lastpaddr := 0x1000000
  pmem := zeros

theorem copySample_sound : copySample.Sound where
  ready := by decide
  backed := by
    refine ⟨by decide, ?_⟩
    simp only [copySample, Addrspace.regionList, List.pairwise_cons, List.mem_cons,
      List.not_mem_nil, or_false, forall_eq_or_imp, forall_eq, List.Pairwise.nil, and_true,
      Region.Apart, Region.frames, Set.Ico_disjoint_Ico, false_implies, implies_true]
    decide
  below := by decide
  aligned := by decide
  top := by decide

theorem as_copy_same_memory_sample :
    ∃ new s', asCopy true copySample.as copySample = .ok new s' ∧ s'.as = copySample.as ∧
      s'.Sound ∧ { s' with as := new }.Sound ∧
      (∀ r ∈ copySample.as.regionList, ∀ r' ∈ new.regionList, r.Apart r') ∧
      (∀ a, s'.userByte a = copySample.userByte a) ∧
      ∀ a, { s' with as := new }.userByte a = copySample.userByte a :=
  as_copy_same_memory copySample_sound (by decide)

end Os161

import Os161.Vm.Dumbvm
import Os161.Vm.Proofs.Layout

/-!
# What `vm_fault` translates, and the pages `as_prepare_load` takes

A `dumbvm` address space is three regions of user pages: the two that `as_define_region` records
and the stack (`Addrspace.regionList`), each a run of pages in user space with a run of
physical pages behind it (`Region.frames`). Once its `KASSERT`s hold (`Addrspace.Ready`),
`vm_fault` is the translation through the first region that holds the page (`vmFault_eq`).

`as_prepare_load` takes the frames of the three regions from `ram_stealmem` one after the other
and zeroes them (`asPrepareLoad_returns`), so they are fresh and apart (`prepared_backed`). In
such an address space no two user pages share a frame (`vmFault_injective`), and a page that
region 1 holds goes to region 1's frames even when region 2 holds it too: region 2's own frame
for that page is never reached (`vmFault_shadowed`).

`ram_stealmem` adds in 32 bits: the results about it assume that the pages asked for end below
`2 ^ 32`, past which its test of the end of memory wraps around.
-/

namespace Os161

open Bytes Exec

/-! ### Page bases -/

/-- **An address is a page base exactly when masking with `PAGE_FRAME` leaves it alone**: a
multiple of `PAGE_SIZE` below `2 ^ 32`. -/
theorem and_pageFrame_eq_self_iff {x : Nat} :
    x &&& PAGE_FRAME = x ↔ x % PAGE_SIZE = 0 ∧ x < 2 ^ 32 := by
  constructor
  · intro h
    have hle : x ≤ PAGE_FRAME := h ▸ Nat.and_le_right
    have hq : x / 2 ^ 12 < 2 ^ 20 := by unfold PAGE_FRAME at hle; omega
    -- masking keeps the page number and drops the offset, which must then be 0
    have hmask := page_and_frame hq (Nat.mod_lt x (by decide : 0 < 2 ^ 12))
    rw [Nat.div_add_mod, h] at hmask
    unfold PAGE_SIZE PAGE_FRAME at *
    omega
  · rintro ⟨h0, hlt⟩
    have hq : x / 2 ^ 12 < 2 ^ 20 := by omega
    have hx : x = 2 ^ 12 * (x / 2 ^ 12) + 0 := by unfold PAGE_SIZE at h0; omega
    conv_lhs => rw [hx, page_and_frame hq (by decide)]
    omega

/-- The page of an address is a page base. -/
theorem page_aligned (a : Nat) :
    (a &&& PAGE_FRAME) % PAGE_SIZE = 0 ∧ a &&& PAGE_FRAME < 2 ^ 32 :=
  and_pageFrame_eq_self_iff.1 (by rw [Nat.and_assoc, Nat.and_self])

/-- A page of a region that starts at a page base, moved to a frame base, is a page base. -/
theorem add_page_aligned {v p page : Nat} (hv : v % PAGE_SIZE = 0) (hp : p % PAGE_SIZE = 0)
    (hpage : page % PAGE_SIZE = 0) (hle : v ≤ page) :
    Word.add 32 (page - v) p &&& PAGE_FRAME = Word.add 32 (page - v) p := by
  rw [and_pageFrame_eq_self_iff]
  unfold Word.add PAGE_SIZE at *
  omega

/-! ### Regions -/

/-- A run of `npages` user pages from `vbase`, with the frames from `pbase` behind it. -/
structure Region where
  vbase : Nat
  npages : Nat
  pbase : Nat
  deriving DecidableEq, Repr

namespace Region

/-- The region holds the page: `vbase ≤ page < vtop`, with `vtop` added in 32 bits as
`vm_fault` adds it. -/
def Holds (r : Region) (page : Nat) : Prop :=
  r.vbase ≤ page ∧ page < Word.add 32 r.vbase (r.npages * PAGE_SIZE)

instance (r : Region) (page : Nat) : Decidable (r.Holds page) :=
  inferInstanceAs (Decidable (_ ∧ _))

/-- The frame `vm_fault` gives a page of the region. -/
def translate (r : Region) (page : Nat) : Nat := Word.add 32 (page - r.vbase) r.pbase

/-- The physical addresses behind the region. -/
def frames (r : Region) : Set Nat := Set.Ico r.pbase (r.pbase + r.npages * PAGE_SIZE)

/-- No frame is behind both regions. -/
def Apart (r r' : Region) : Prop := Disjoint r.frames r'.frames

instance : Std.Symm Apart := ⟨fun _ _ h => Disjoint.symm h⟩

variable {r : Region} {page page' : Nat}

section Fits

variable (hv : r.vbase < 2 ^ 32) (hp : r.pbase + r.npages * PAGE_SIZE < 2 ^ 32)
include hv hp

/-- A page the region holds is one of its `npages`: its `vtop` does not wrap around. -/
theorem Holds.offset_lt (h : r.Holds page) :
    r.vbase ≤ page ∧ page - r.vbase < r.npages * PAGE_SIZE := by
  unfold Holds Word.add at h
  omega

/-- The frame of a page the region holds is behind the region. -/
theorem translate_mem_frames (h : r.Holds page) : r.translate page ∈ r.frames := by
  have hoff := h.offset_lt hv hp
  show r.pbase ≤ _ ∧ _ < _
  unfold translate Word.add
  omega

/-- Two pages the region holds have the same frame only when they are the same page. -/
theorem translate_inj (h : r.Holds page) (h' : r.Holds page')
    (heq : r.translate page = r.translate page') : page = page' := by
  have hoff := h.offset_lt hv hp
  have hoff' := h'.offset_lt hv hp
  unfold translate Word.add at heq
  omega

end Fits

end Region

/-- The regions `vm_fault` tries, in its order: region 1, region 2 and the stack, whose
`DUMBVM_STACKPAGES` pages end at `USERSTACK`. -/
def Addrspace.regionList (as : Addrspace) : List Region :=
  [⟨as.asVbase1, as.asNpages1, as.asPbase1⟩, ⟨as.asVbase2, as.asNpages2, as.asPbase2⟩,
    ⟨USERSTACK - DUMBVM_STACKPAGES * PAGE_SIZE, DUMBVM_STACKPAGES, as.asStackpbase⟩]

/-- The `KASSERT`s of `vm_fault` on the address space: both regions and the stack are set up,
and every base is a page base. -/
def Addrspace.Ready (as : Addrspace) : Prop :=
  as.asVbase1 ≠ 0 ∧ as.asPbase1 ≠ 0 ∧ as.asNpages1 ≠ 0 ∧ as.asVbase2 ≠ 0 ∧ as.asPbase2 ≠ 0 ∧
    as.asNpages2 ≠ 0 ∧ as.asStackpbase ≠ 0 ∧ as.asVbase1 &&& PAGE_FRAME = as.asVbase1 ∧
    as.asPbase1 &&& PAGE_FRAME = as.asPbase1 ∧ as.asVbase2 &&& PAGE_FRAME = as.asVbase2 ∧
    as.asPbase2 &&& PAGE_FRAME = as.asPbase2 ∧ as.asStackpbase &&& PAGE_FRAME = as.asStackpbase

instance (as : Addrspace) : Decidable as.Ready := inferInstanceAs (Decidable (_ ∧ _))

/-- The frames behind the regions end below `2 ^ 32`, and no frame is behind two of them. -/
structure Addrspace.Backed (as : Addrspace) : Prop where
  fits : ∀ r ∈ as.regionList, r.vbase < 2 ^ 32 ∧ r.pbase + r.npages * PAGE_SIZE < 2 ^ 32
  apart : as.regionList.Pairwise Region.Apart

/-! ### `vm_fault` -/

section VmFault

variable {ft : VmFaultType} {a : Nat} {s : Vm}

/-- **`vm_fault` halts in an address space with a region unset**: its first `KASSERT`s check
both region bases. -/
theorem vmFault_of_region_unset (h : s.as.asVbase1 = 0 ∨ s.as.asVbase2 = 0) :
    vmFault ft a s = .error .halt s := by
  rcases h with h | h
  · -- `KASSERT(as->as_vbase1 != 0)`
    cases ft <;> simp [vmFault, bind_apply, h]
  · -- the three `KASSERT`s before the one on `as_vbase2` halt or pass
    cases ft <;> simp [vmFault, bind_apply, h] <;> split_ifs <;> rfl

/-- `vm_fault` only reads the state. -/
theorem vmFault_keeps (ft : VmFaultType) (a : Nat) (P : Vm → Prop) : Keeps P (vmFault ft a) := by
  simp only [vmFault, halt_bind]
  refine Keeps.ite Keeps.halt (Keeps.bind Keeps.get fun _ => ?_)
  -- the `KASSERT`s on the address space
  repeat refine Keeps.bind (Keeps.assert _) fun _ => ?_
  -- the translation through the first region with the address, and the `KASSERT` on it
  simp only [pure_bind, fail_bind]
  refine Keeps.ite ?_ (Keeps.ite ?_ (Keeps.ite ?_ (Keeps.fail _))) <;>
    exact Keeps.bind (Keeps.assert _) fun _ => Keeps.pure _

/-- The last `KASSERT` of `vm_fault` passes on a page base. -/
theorem vmFault_tail {p : Nat} (hp : p &&& PAGE_FRAME = p) :
    (do let paddr ← pure p; assert (paddr &&& PAGE_FRAME = paddr); pure paddr : Exec Int Vm Nat) s =
      .ok p s := by
  simp [bind_apply, hp]

/-- **`vm_fault` translates through the first region that holds the page**, and fails with
`EFAULT` when none does. -/
theorem vmFault_eq (hr : s.as.Ready) (hft : ft ≠ .readonly) :
    vmFault ft a s =
      match s.as.regionList.find? fun r => decide (r.Holds (a &&& PAGE_FRAME)) with
      | some r => .ok (r.translate (a &&& PAGE_FRAME)) s
      | none => .error (.err EFAULT) s := by
  obtain ⟨hv1, hp1, hn1, hv2, hp2, hn2, hst, av1, ap1, av2, ap2, ast⟩ := hr
  -- the `KASSERT`s on the address space pass
  simp only [vmFault, if_neg hft, bind_apply, get_apply, assert_apply, hv1, hp1, hn1, hv2, hp2,
    hn2, hst, av1, ap1, av2, ap2, ast, ne_eq, not_false_eq_true, if_true]
  have hpage := page_aligned a
  have hstack : Word.add 32 (USERSTACK - DUMBVM_STACKPAGES * PAGE_SIZE)
      (DUMBVM_STACKPAGES * PAGE_SIZE) = USERSTACK := by decide
  have hal : ∀ x, x &&& PAGE_FRAME = x → x % PAGE_SIZE = 0 := fun x h =>
    (and_pageFrame_eq_self_iff.1 h).1
  simp only [Addrspace.regionList, List.find?_cons, List.find?_nil]
  -- one case for each region the source tries, and one for none
  split_ifs with h1 h2 h3
  · rw [vmFault_tail (add_page_aligned (hal _ av1) (hal _ ap1) hpage.1 h1.1)]
    simp [Region.Holds, h1, Region.translate]
  · rw [vmFault_tail (add_page_aligned (hal _ av2) (hal _ ap2) hpage.1 h2.1)]
    simp [Region.Holds, h1, h2, Region.translate]
  · rw [vmFault_tail (add_page_aligned (by decide) (hal _ ast) hpage.1 h3.1)]
    simp [Region.Holds, h1, h2, h3, hstack, Region.translate]
  · rw [Nat.sub_le_iff_le_add] at h3
    simp [Region.Holds, h1, h2, h3, hstack, bind_apply]

/-- `vm_fault` answers no `VM_FAULT_READONLY`: it halts on it. -/
theorem vmFault_ne_readonly {p : Nat} {s' : Vm} (h : vmFault ft a s = .ok p s') :
    ft ≠ .readonly := by
  rintro rfl
  simp [vmFault] at h

/-- A fault `vm_fault` answers is a page of some region, and the answer is its frame. -/
theorem vmFault_eq_ok {p : Nat} {s' : Vm} (hr : s.as.Ready) (h : vmFault ft a s = .ok p s') :
    s' = s ∧ ∃ r ∈ s.as.regionList,
      r.Holds (a &&& PAGE_FRAME) ∧ p = r.translate (a &&& PAGE_FRAME) := by
  rw [vmFault_eq hr (vmFault_ne_readonly h)] at h
  split at h
  · rename_i r hfind
    obtain ⟨rfl, rfl⟩ := (EStateM.Result.ok.injEq _ _ _ _).mp h
    have hholds := List.find?_some hfind
    exact ⟨rfl, r, List.mem_of_find?_eq_some hfind, of_decide_eq_true hholds, rfl⟩
  · cases h

/-- A page that region 1 holds is translated through region 1, whatever region 2 holds. -/
theorem vmFault_of_region1 (hr : s.as.Ready) (hft : ft ≠ .readonly)
    (h1 : Region.Holds ⟨s.as.asVbase1, s.as.asNpages1, s.as.asPbase1⟩ (a &&& PAGE_FRAME)) :
    vmFault ft a s =
      .ok (Region.translate ⟨s.as.asVbase1, s.as.asNpages1, s.as.asPbase1⟩ (a &&& PAGE_FRAME)) s := by
  rw [vmFault_eq hr hft]
  simp only [Addrspace.regionList, List.find?_cons, decide_eq_true h1]

/-- **No two user pages share a frame**: where the frames of the regions are apart, `vm_fault`
gives two addresses the same frame only when they are on the same page. -/
theorem vmFault_injective {ft' : VmFaultType} {b p : Nat} {s₁ s₂ : Vm} (hr : s.as.Ready)
    (hb : s.as.Backed) (ha : vmFault ft a s = .ok p s₁) (hb' : vmFault ft' b s = .ok p s₂) :
    a &&& PAGE_FRAME = b &&& PAGE_FRAME := by
  obtain ⟨-, r, hr₁, hha, rfl⟩ := vmFault_eq_ok hr ha
  obtain ⟨-, r', hr₂, hhb, hp⟩ := vmFault_eq_ok hr hb'
  obtain ⟨hv, hfit⟩ := hb.fits r hr₁
  by_cases hrr : r = r'
  · -- one region: its translation is one to one
    subst hrr
    exact Region.translate_inj hv hfit hha hhb hp
  · -- two regions: the frame would be behind both
    obtain ⟨hv', hfit'⟩ := hb.fits r' hr₂
    have hmem := Region.translate_mem_frames hv hfit hha
    have hmem' := Region.translate_mem_frames hv' hfit' hhb
    rw [← hp] at hmem'
    exact absurd hmem' (Set.disjoint_left.mp (hb.apart.forall hr₁ hr₂ hrr) hmem)

/-- **A page that region 1 holds goes to region 1's frames, never to region 2's**, even when
region 2 holds it too: `vm_fault` tries region 1 first. -/
theorem vmFault_shadowed {p : Nat} {s' : Vm} (hr : s.as.Ready) (hb : s.as.Backed)
    (h1 : Region.Holds ⟨s.as.asVbase1, s.as.asNpages1, s.as.asPbase1⟩ (a &&& PAGE_FRAME))
    (h : vmFault ft a s = .ok p s') :
    p ∈ Region.frames ⟨s.as.asVbase1, s.as.asNpages1, s.as.asPbase1⟩ ∧
      p ∉ Region.frames ⟨s.as.asVbase2, s.as.asNpages2, s.as.asPbase2⟩ := by
  rw [vmFault_of_region1 hr (vmFault_ne_readonly h) h1] at h
  obtain ⟨rfl, -⟩ := (EStateM.Result.ok.injEq _ _ _ _).mp h
  obtain ⟨hv, hfit⟩ := hb.fits _ List.mem_cons_self
  have hmem := Region.translate_mem_frames hv hfit h1
  -- region 1 and region 2 are the first two of the list, so their frames are apart
  have happart : Region.Apart ⟨s.as.asVbase1, s.as.asNpages1, s.as.asPbase1⟩
      ⟨s.as.asVbase2, s.as.asNpages2, s.as.asPbase2⟩ :=
    (List.pairwise_cons.mp hb.apart).1 _ List.mem_cons_self
  exact ⟨hmem, Set.disjoint_left.mp happart hmem⟩

end VmFault

/-! ### `as_prepare_load` -/

section PrepareLoad

variable {s : Vm}

/-- `ram_stealmem` of pages that end below `2 ^ 32`: 0 with nothing taken, or the first of them,
taken off the free memory. -/
theorem ramStealmem_returns (n : Nat) (s : Vm) (hfit : s.firstpaddr + n * PAGE_SIZE < 2 ^ 32) :
    Returns (ramStealmem n) s fun p s' =>
      (p = 0 ∧ s' = s) ∨
      (p = s.firstpaddr ∧ s.firstpaddr + n * PAGE_SIZE ≤ s.lastpaddr ∧
        s' = { s with firstpaddr := s.firstpaddr + n * PAGE_SIZE }) := by
  have hsize : n * PAGE_SIZE % 2 ^ 32 = n * PAGE_SIZE := Nat.mod_eq_of_lt (by omega)
  have hadd : Word.add 32 s.firstpaddr (n * PAGE_SIZE) = s.firstpaddr + n * PAGE_SIZE :=
    Word.add_of_lt hfit
  simp only [ramStealmem, hsize]
  refine Returns.get_bind ?_
  rw [hadd]
  refine Returns.ite (fun _ => Returns.pure (.inl ⟨rfl, rfl⟩)) fun hle => ?_
  exact Returns.bind (Returns.set (Q := fun _ t => t = _) rfl) fun _ _ h =>
    Returns.pure (.inr ⟨rfl, by omega, h⟩)

/-- The bytes of physical memory `as_prepare_load` takes: the pages of both regions and of the
stack. -/
def Addrspace.loadSize (as : Addrspace) : Nat :=
  as.asNpages1 * PAGE_SIZE + as.asNpages2 * PAGE_SIZE + DUMBVM_STACKPAGES * PAGE_SIZE

/-- What `as_prepare_load` leaves: the pages of region 1, region 2 and the stack, one run after
the other from `firstpaddr` on, zeroed. -/
def Vm.prepared (s : Vm) : Vm where
  as := { s.as with
    asPbase1 := s.firstpaddr
    asPbase2 := s.firstpaddr + s.as.asNpages1 * PAGE_SIZE
    asStackpbase := s.firstpaddr + s.as.asNpages1 * PAGE_SIZE + s.as.asNpages2 * PAGE_SIZE }
  firstpaddr := s.firstpaddr + s.as.loadSize
  lastpaddr := s.lastpaddr
  pmem := copy s.pmem s.firstpaddr zeros 0 s.as.loadSize

/-- **What `as_prepare_load` does when it returns**: there was memory for all three runs of
pages and `firstpaddr` was not 0, and the state is `Vm.prepared`. -/
theorem asPrepareLoad_returns (s : Vm) (hfit : s.firstpaddr + s.as.loadSize < 2 ^ 32) :
    Returns asPrepareLoad s fun _ s' =>
      s.firstpaddr ≠ 0 ∧ s.firstpaddr + s.as.loadSize ≤ s.lastpaddr ∧ s' = s.prepared := by
  unfold Addrspace.loadSize at hfit
  simp only [asPrepareLoad, getppages, fail_bind]
  refine Returns.get_bind ?_
  refine Returns.assert_bind fun _ => Returns.assert_bind fun _ => Returns.assert_bind fun _ => ?_
  refine Returns.bind (ramStealmem_returns _ s (by omega)) ?_
  -- each `getppages` either finds no memory, and `as_prepare_load` fails, or takes the next pages
  have hnomem : ∀ (g : Vm → Vm) (t : Vm) (k : Exec Int Vm Unit),
      Returns (modify g >>= fun _ => if (0 : Nat) = 0 then fail ENOMEM else k) t fun _ s' =>
        s.firstpaddr ≠ 0 ∧ s.firstpaddr + s.as.loadSize ≤ s.lastpaddr ∧ s' = s.prepared :=
    fun _ _ _ => Returns.bind_of_ok (modify_apply _)
      (Returns.ite (fun _ => Returns.fail _) fun h => absurd rfl h)
  rintro p₁ s₁ (⟨rfl, rfl⟩ | ⟨rfl, hle₁, rfl⟩)
  · exact hnomem _ _ _
  refine Returns.bind_of_ok (modify_apply _) (Returns.ite (fun _ => Returns.fail _) fun hf => ?_)
  refine Returns.bind (ramStealmem_returns _ _ (by dsimp only; omega)) ?_
  rintro p₂ s₂ (⟨rfl, rfl⟩ | ⟨rfl, hle₂, rfl⟩)
  · exact hnomem _ _ _
  refine Returns.bind_of_ok (modify_apply _)
    (Returns.ite (fun h => absurd h (by dsimp only; omega)) fun _ => ?_)
  refine Returns.bind (ramStealmem_returns _ _ (by dsimp only; omega)) ?_
  rintro p₃ s₃ (⟨rfl, rfl⟩ | ⟨rfl, hle₃, rfl⟩)
  · exact hnomem _ _ _
  refine Returns.bind_of_ok (modify_apply _)
    (Returns.ite (fun h => absurd h (by dsimp only; omega)) fun _ => ?_)
  -- zero the three runs of pages
  simp only [asZeroRegion]
  refine Returns.bind_of_ok (modify_apply _)
    (Returns.bind_of_ok (modify_apply _) (Returns.modify ?_))
  dsimp only at hle₂ hle₃ ⊢
  refine ⟨hf, by unfold Addrspace.loadSize; omega, ?_⟩
  -- the three runs of zeroed pages are the one run of `loadSize` bytes
  have hm₁ : s.as.asNpages1 * PAGE_SIZE % 2 ^ 32 = s.as.asNpages1 * PAGE_SIZE :=
    Nat.mod_eq_of_lt (by omega)
  have hm₂ : s.as.asNpages2 * PAGE_SIZE % 2 ^ 32 = s.as.asNpages2 * PAGE_SIZE :=
    Nat.mod_eq_of_lt (by omega)
  have hm₃ : DUMBVM_STACKPAGES * PAGE_SIZE % 2 ^ 32 = DUMBVM_STACKPAGES * PAGE_SIZE :=
    Nat.mod_eq_of_lt (by omega)
  rw [hm₁, hm₂, hm₃, copy_zeros_append, copy_zeros_append]
  simp only [Vm.prepared, Addrspace.loadSize, Nat.add_assoc]

/-- The frames of the prepared address space: region 1's, region 2's and the stack's, in
memory order. -/
theorem prepared_regionList (s : Vm) :
    s.prepared.as.regionList =
      [⟨s.as.asVbase1, s.as.asNpages1, s.firstpaddr⟩,
        ⟨s.as.asVbase2, s.as.asNpages2, s.firstpaddr + s.as.asNpages1 * PAGE_SIZE⟩,
        ⟨USERSTACK - DUMBVM_STACKPAGES * PAGE_SIZE, DUMBVM_STACKPAGES,
          s.firstpaddr + s.as.asNpages1 * PAGE_SIZE + s.as.asNpages2 * PAGE_SIZE⟩] := rfl

/-- **The frames `as_prepare_load` gives are fresh**: each region's lie in the memory that was
free, between the old and the new `firstpaddr`, and are zero. -/
theorem prepared_frames_fresh {r : Region} (hr : r ∈ s.prepared.as.regionList) :
    r.frames ⊆ Set.Ico s.firstpaddr s.prepared.firstpaddr ∧
      ∀ p ∈ r.frames, s.prepared.pmem p = 0 := by
  have hsub : r.frames ⊆ Set.Ico s.firstpaddr s.prepared.firstpaddr := by
    rw [prepared_regionList] at hr
    simp only [List.mem_cons, List.not_mem_nil, or_false] at hr
    intro p hp
    simp only [Vm.prepared, Addrspace.loadSize, Set.mem_Ico]
    rcases hr with rfl | rfl | rfl <;> simp only [Region.frames, Set.mem_Ico] at hp <;> omega
  refine ⟨hsub, fun p hp => ?_⟩
  obtain ⟨h1, h2⟩ := hsub hp
  exact copy_of_mem h1 (by simpa [Vm.prepared] using h2)

/-- **The prepared address space is backed**: given that its user pages and its frames end below
`2 ^ 32`, the three runs of frames come one after the other and so are apart. -/
theorem prepared_backed (hv1 : s.as.asVbase1 < 2 ^ 32) (hv2 : s.as.asVbase2 < 2 ^ 32)
    (hfit : s.firstpaddr + s.as.loadSize < 2 ^ 32) : s.prepared.as.Backed := by
  unfold Addrspace.loadSize at hfit
  have hstack : USERSTACK - DUMBVM_STACKPAGES * PAGE_SIZE < 2 ^ 32 := by decide
  constructor
  · rw [prepared_regionList]
    simp only [List.mem_cons, List.not_mem_nil, or_false]
    rintro r (rfl | rfl | rfl) <;> dsimp only <;> omega
  · rw [prepared_regionList]
    simp only [List.pairwise_cons, List.mem_cons, List.not_mem_nil, or_false, forall_eq_or_imp,
      forall_eq, List.Pairwise.nil, and_true, Region.Apart, Region.frames, Set.Ico_disjoint_Ico,
      false_implies, implies_true]
    omega

/-- **The prepared address space passes the `KASSERT`s of `vm_fault`**, given that both regions
were defined at page bases with pages, and that the free memory starts at a page base other
than 0. -/
theorem prepared_ready (hv1 : s.as.asVbase1 ≠ 0) (hv2 : s.as.asVbase2 ≠ 0)
    (hn1 : s.as.asNpages1 ≠ 0) (hn2 : s.as.asNpages2 ≠ 0)
    (av1 : s.as.asVbase1 &&& PAGE_FRAME = s.as.asVbase1)
    (av2 : s.as.asVbase2 &&& PAGE_FRAME = s.as.asVbase2) (hf0 : s.firstpaddr ≠ 0)
    (hf : s.firstpaddr % PAGE_SIZE = 0) (hfit : s.firstpaddr + s.as.loadSize < 2 ^ 32) :
    s.prepared.as.Ready := by
  unfold Addrspace.loadSize at hfit
  have hbase : ∀ x, x % PAGE_SIZE = 0 → x < 2 ^ 32 → x &&& PAGE_FRAME = x := fun _ h h' =>
    and_pageFrame_eq_self_iff.2 ⟨h, h'⟩
  refine ⟨hv1, hf0, hn1, hv2, by dsimp only [Vm.prepared]; omega, hn2,
    by dsimp only [Vm.prepared]; omega, av1, hbase _ hf (by dsimp only [Vm.prepared]; omega), av2,
    ?_, ?_⟩
  · refine hbase _ ?_ (by dsimp only [Vm.prepared]; omega)
    dsimp only [Vm.prepared]
    unfold PAGE_SIZE at *
    omega
  · refine hbase _ ?_ (by dsimp only [Vm.prepared]; omega)
    dsimp only [Vm.prepared]
    unfold PAGE_SIZE at *
    omega

end PrepareLoad

/-! ### Large allocations

`kmalloc` of `LARGEST_SUBPAGE_SIZE` bytes or more takes whole pages from `ram_stealmem`. The
size arithmetic on that path is 32-bit: `sz + PAGE_SIZE - 1` wraps for the largest `size_t`s,
and `npages * PAGE_SIZE` and `firstpaddr + size` wrap for the largest page counts, so a request
can pass the bounds check of `ram_stealmem` with fewer pages than it asked for.
-/

section Large

/-- `ram_stealmem` in one piece: the 32-bit end of the request, the bounds check, and the move of
`firstpaddr`. -/
theorem ramStealmem_apply (n : Nat) (s : Vm) :
    ramStealmem n s =
      if Word.add 32 s.firstpaddr (n * PAGE_SIZE % 2 ^ 32) > s.lastpaddr then .ok 0 s
      else .ok s.firstpaddr { s with firstpaddr := Word.add 32 s.firstpaddr (n * PAGE_SIZE % 2 ^ 32) } := by
  simp only [ramStealmem, bind_apply, get_apply]
  split <;> rfl

/-- A request whose size is a multiple of `2 ^ 32` bytes takes no memory: `ram_stealmem` hands
back `firstpaddr` and leaves it where it was. -/
theorem ramStealmem_of_size_wraps {n : Nat} {s : Vm} (hn : n * PAGE_SIZE % 2 ^ 32 = 0)
    (hf : s.firstpaddr ≤ s.lastpaddr) (hf32 : s.firstpaddr < 2 ^ 32) :
    ramStealmem n s = .ok s.firstpaddr s := by
  have hend : Word.add 32 s.firstpaddr 0 = s.firstpaddr := Word.add_of_lt (by omega)
  rw [ramStealmem_apply, hn, hend, if_neg (by omega)]

/-- `alloc_kpages` of pages that `ram_stealmem` finds: their kernel address. -/
theorem allocKpages_of_ramStealmem {n pa : Nat} {s s' : Vm} (h : ramStealmem n s = .ok pa s')
    (hpa : pa ≠ 0) : allocKpages n s = .ok (PADDR_TO_KVADDR pa) s' := by
  simp only [allocKpages, getppages, bind_apply, h, hpa, if_false, pure_apply]

/-- **`kmalloc` of the largest `size_t` hands out memory that the next allocation hands out
again**: `(sz + PAGE_SIZE - 1) / PAGE_SIZE` wraps to 0 pages, `ram_stealmem(0)` returns
`firstpaddr` without moving it, and a one-page `kmalloc` right after returns the same address. -/
theorem kmalloc_huge_overlaps (s : Vm) (h0 : s.firstpaddr ≠ 0)
    (hroom : s.firstpaddr + PAGE_SIZE ≤ s.lastpaddr) (hlast : s.lastpaddr ≤ 508 * 1024 * 1024) :
    ∃ s', kmallocLarge (2 ^ 32 - 1) s = .ok (PADDR_TO_KVADDR s.firstpaddr) s ∧
      kmallocLarge PAGE_SIZE s = .ok (PADDR_TO_KVADDR s.firstpaddr) s' ∧
      PADDR_TO_KVADDR s.firstpaddr ≠ 0 := by
  have hhuge : ramStealmem 0 s = .ok s.firstpaddr s :=
    ramStealmem_of_size_wraps rfl (by omega) (by omega)
  have hpage : ramStealmem 1 s =
      .ok s.firstpaddr { s with firstpaddr := s.firstpaddr + PAGE_SIZE } := by
    have hend : Word.add 32 s.firstpaddr (1 * PAGE_SIZE % 2 ^ 32) = s.firstpaddr + PAGE_SIZE :=
      Word.add_of_lt (by unfold PAGE_SIZE at *; omega)
    rw [ramStealmem_apply, hend, if_neg (by omega)]
  refine ⟨{ s with firstpaddr := s.firstpaddr + PAGE_SIZE }, ?_, ?_, ?_⟩
  · simp only [kmallocLarge, bind_apply, assert_apply]
    exact allocKpages_of_ramStealmem hhuge h0
  · simp only [kmallocLarge, bind_apply, assert_apply]
    exact allocKpages_of_ramStealmem hpage h0
  · unfold PADDR_TO_KVADDR MIPS_KSEG0 Word.add
    omega

/-- With 16 MiB of memory and the kernel ending at 1 MiB, `kmalloc(0xffffffff)` and then
`kmalloc(4096)` both return `0x80100000`. -/
theorem kmalloc_huge_overlaps_16m :
    let s : Vm := ⟨asCreate, 0x100000, 0x1000000, zeros⟩
    ∃ s', kmallocLarge (2 ^ 32 - 1) s = .ok (PADDR_TO_KVADDR s.firstpaddr) s ∧
      kmallocLarge PAGE_SIZE s = .ok (PADDR_TO_KVADDR s.firstpaddr) s' ∧
      PADDR_TO_KVADDR s.firstpaddr ≠ 0 :=
  kmalloc_huge_overlaps _ (by decide) (by decide) (by decide)

end Large

end Os161

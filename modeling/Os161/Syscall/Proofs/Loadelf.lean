import Os161.Syscall.Loadelf
import Os161.Vm.Proofs.Dumbvm

/-!
# What `load_elf` leaves in a `dumbvm` address space

`as_define_region` takes the first slot whose base is 0 and `vm_fault` asserts that both
slots are set, so an executable with one `PT_LOAD` segment leaves an address space in which
every fault halts (`loadElf_one_region_halts`). `vm_fault` translates through the first region
that holds the page (`vmFault_shadowed`), so when the two segments share a page, the page of
the second region is the physical page of the first, not one of its own.

* `ptLoads`, `phdrLoop_ok`: the `PT_LOAD` headers a pass of `load_elf` goes through, and that
  a pass that returns ran its segment action on each of them in order.
* `phdrLoop_keeps`, `asPrepareLoad_keeps_regions`, `loadSegment_keeps_as`: what the passes
  and `as_prepare_load` leave of the address space.
-/

namespace Os161

open Bytes Exec

/-! ### The program headers -/

section Passes

variable {file : List UInt8} {eh : ElfEhdr}

/-- The `PT_LOAD` headers from header `i` on, `k` of them, that a pass of `load_elf` runs its
segment action on; `none` when the pass stops at a header first, on a short read or a refused
type. -/
def ptLoads (file : List UInt8) (eh : ElfEhdr) : Nat → Nat → Option (List ElfPhdr)
  | _, 0 => some []
  | i, k + 1 =>
    let r := vopReadKernel file sizeofPhdr (Word.add 32 eh.ePhoff (i * eh.ePhentsize))
    if r.2 ≠ 0 then none
    else if (ElfPhdr.decode r.1).pType = PT_NULL ∨ (ElfPhdr.decode r.1).pType = PT_PHDR ∨
        (ElfPhdr.decode r.1).pType = PT_MIPS_REGINFO then ptLoads file eh (i + 1) k
    else if (ElfPhdr.decode r.1).pType = PT_LOAD then
      (ptLoads file eh (i + 1) k).map (ElfPhdr.decode r.1 :: ·)
    else none

theorem readPhdr_apply (i : Nat) (s : Vm) :
    readPhdr file eh i s =
      if (vopReadKernel file sizeofPhdr (Word.add 32 eh.ePhoff (i * eh.ePhentsize))).2 ≠ 0 then
        .error (.err ENOEXEC) s
      else .ok (ElfPhdr.decode
        (vopReadKernel file sizeofPhdr (Word.add 32 eh.ePhoff (i * eh.ePhentsize))).1) s := by
  simp only [readPhdr, fail_bind]
  split_ifs <;> rfl

/-- **A pass that returns ran its action on each `PT_LOAD` header in order.** -/
theorem phdrLoop_ok {segment : ElfPhdr → Exec Int Vm Unit} :
    ∀ k i (s s' : Vm), phdrLoop file eh segment i k s = .ok () s' →
      ∃ l, ptLoads file eh i k = some l ∧ l.forM segment s = .ok () s' := by
  intro k
  induction k with
  | zero =>
    intro i s s' h
    exact ⟨[], rfl, h⟩
  | succ k ih =>
    intro i s s' h
    rw [phdrLoop] at h
    obtain ⟨ph, s₀, hread, h⟩ := bind_eq_ok.1 h
    rw [readPhdr_apply] at hread
    split_ifs at hread with hr
    obtain ⟨hph, rfl⟩ := (EStateM.Result.ok.injEq _ _ _ _).mp hread
    split_ifs at h with hskip hload
    · obtain ⟨l, hl, hrun⟩ := ih (i + 1) s s' h
      refine ⟨l, ?_, hrun⟩
      simp only [ptLoads, if_neg hr, hph, if_pos hskip, hl]
    · -- the action on this header, then the rest of the pass
      obtain ⟨_, s₁, hseg, h⟩ := bind_eq_ok.1 h
      obtain ⟨l, hl, hrun⟩ := ih (i + 1) s₁ s' h
      refine ⟨ph :: l, ?_, ?_⟩
      · simp only [ptLoads, if_neg hr, hph, if_neg hskip, if_pos hload, hl, Option.map_some]
      · show (segment ph >>= fun _ => l.forM segment) s = _
        rw [bind_of_ok hseg]
        exact hrun
    · cases h

/-- A pass keeps what its action keeps: the header reads only read. -/
theorem phdrLoop_keeps {P : Vm → Prop} {segment : ElfPhdr → Exec Int Vm Unit}
    (hseg : ∀ ph, Keeps P (segment ph)) : ∀ k i, Keeps P (phdrLoop file eh segment i k) := by
  intro k
  induction k with
  | zero => exact fun _ => Keeps.pure _
  | succ k ih =>
    intro i
    have hread : Keeps P (readPhdr file eh i) := by
      simp only [readPhdr, fail_bind]
      exact Keeps.ite (Keeps.fail _) (Keeps.pure _)
    exact Keeps.bind hread fun _ =>
      Keeps.ite (ih _) (Keeps.ite (Keeps.bind (hseg _) fun _ => ih _) (Keeps.fail _))

end Passes

/-! ### What the address space keeps -/

/-- The regions of an address space: what `as_define_region` sets. -/
def Addrspace.regions (as : Addrspace) : (Nat × Nat) × (Nat × Nat) :=
  ((as.asVbase1, as.asNpages1), (as.asVbase2, as.asNpages2))

/-- `as_prepare_load` only gives the regions physical pages. -/
theorem asPrepareLoad_keeps_regions (r : (Nat × Nat) × (Nat × Nat)) :
    Keeps (fun s => s.as.regions = r) asPrepareLoad := by
  have hsteal : ∀ n, Keeps (fun s => s.as.regions = r) (getppages n) := fun n => by
    refine Keeps.get_bind fun s hs => ?_
    split_ifs
    · exact hs
    · exact hs
  have hzero : ∀ p n, Keeps (fun s => s.as.regions = r) (asZeroRegion p n) :=
    fun _ _ => Keeps.modify fun _ h => h
  simp only [asPrepareLoad, fail_bind]
  refine Keeps.bind Keeps.get fun _ => ?_
  refine Keeps.bind (Keeps.assert _) fun _ => Keeps.bind (Keeps.assert _) fun _ =>
    Keeps.bind (Keeps.assert _) fun _ => Keeps.bind (hsteal _) fun _ => ?_
  refine Keeps.bind (Keeps.modify fun _ h => h) fun _ => Keeps.ite (Keeps.fail _) ?_
  refine Keeps.bind (hsteal _) fun _ => Keeps.bind (Keeps.modify fun _ h => h) fun _ =>
    Keeps.ite (Keeps.fail _) ?_
  refine Keeps.bind (hsteal _) fun _ => Keeps.bind (Keeps.modify fun _ h => h) fun _ =>
    Keeps.ite (Keeps.fail _) ?_
  exact Keeps.bind (hzero _ _) fun _ => Keeps.bind (hzero _ _) fun _ => hzero _ _

section KeepsAs

variable (Q : Addrspace → Prop)

theorem copyoutByte_keeps_as (a : Nat) (b : UInt8) : Keeps (fun s => Q s.as) (copyoutByte a b) := by
  refine Keeps.bind (Keeps.attempt (vmFault_keeps _ _ _)) fun r => ?_
  cases r with
  | ok _ => exact Keeps.modify fun _ h => h
  | error _ => exact Keeps.fail _

theorem copyoutFile_keeps_as (file : List UInt8) :
    ∀ n offset vaddr, Keeps (fun s => Q s.as) (copyoutFile file offset vaddr n) := by
  intro n
  induction n with
  | zero => exact fun _ _ => Keeps.pure _
  | succ n ih => exact fun _ _ => Keeps.bind (copyoutByte_keeps_as Q _ _) fun _ => ih _ _

/-- **`load_segment` leaves the address space as it is**: it only stores into physical
memory. -/
theorem loadSegment_keeps_as (file : List UInt8) (offset vaddr memsize filesize : Nat) :
    Keeps (fun s => Q s.as) (loadSegment file offset vaddr memsize filesize) := by
  have hread : ∀ o r v, Keeps (fun s => Q s.as) (vopReadUser file o r v) := fun o r v => by
    simp only [vopReadUser, fail_bind]
    refine Keeps.ite (Keeps.pure _) (Keeps.ite ?_ (Keeps.pure _))
    refine Keeps.bind (Keeps.ofExcept _) fun _ => Keeps.ite (Keeps.fail _) ?_
    exact Keeps.bind (copyoutFile_keeps_as Q file _ _ _) fun _ => Keeps.pure _
  simp only [loadSegment]
  exact Keeps.bind (hread _ _ _) fun _ => Keeps.ite (Keeps.fail _) (Keeps.pure _)

/-- The second pass leaves the address space as it is. -/
theorem loadSegments_keeps_as (file : List UInt8) (eh : ElfEhdr) :
    Keeps (fun s => Q s.as) (loadSegments file eh) :=
  phdrLoop_keeps (fun _ => loadSegment_keeps_as Q file _ _ _ _) _ _

end KeepsAs

/-! ### What `load_elf` did when it returns -/

/-- The ELF header of the file, as `load_elf` reads it. -/
def fileEhdr (file : List UInt8) : ElfEhdr := ElfEhdr.decode (vopReadKernel file sizeofEhdr 0).1

/-- **A `load_elf` that returns** read a whole header that passed the checks, defined the
regions, prepared them and loaded the segments, and hands back `e_entry`. -/
theorem loadElf_ok {file : List UInt8} {s s' : Vm} {e : Nat} (h : loadElf file s = .ok e s') :
    (vopReadKernel file sizeofEhdr 0).2 = 0 ∧ (fileEhdr file).isExecutable = true ∧
      ∃ s₁ s₂, defineRegions file (fileEhdr file) s = .ok () s₁ ∧ asPrepareLoad s₁ = .ok () s₂ ∧
        loadSegments file (fileEhdr file) s₂ = .ok () s' ∧ e = (fileEhdr file).eEntry := by
  rw [loadElf] at h
  simp only [fail_bind] at h
  split_ifs at h with hresid hexec
  · cases h
  · cases h
  · obtain ⟨_, s₁, hdef, h⟩ := bind_eq_ok.1 h
    obtain ⟨_, s₂, hprep, h⟩ := bind_eq_ok.1 h
    obtain ⟨_, s₃, hload, h⟩ := bind_eq_ok.1 h
    cases h
    exact ⟨not_not.mp hresid, by simpa [fileEhdr] using hexec, s₁, s₂, hdef, hprep, hload, rfl⟩

/-- The page count `as_define_region` gives a region of `sz` bytes at `vaddr`. -/
def regionPages (vaddr sz : Nat) : Nat :=
  (Word.add 32 (Word.add 32 sz (vaddr &&& 0xfff)) (PAGE_SIZE - 1) &&& PAGE_FRAME) / PAGE_SIZE

/-- **`as_define_region` fills the first slot whose base is 0**, or fails. -/
theorem asDefineRegion_returns (vaddr sz : Nat) (s : Vm) :
    Returns (asDefineRegion vaddr sz) s fun _ s' =>
      (s.as.asVbase1 = 0 ∧
        s' = { s with as.asVbase1 := vaddr &&& PAGE_FRAME, as.asNpages1 := regionPages vaddr sz }) ∨
      (s.as.asVbase1 ≠ 0 ∧ s.as.asVbase2 = 0 ∧
        s' = { s with as.asVbase2 := vaddr &&& PAGE_FRAME,
                      as.asNpages2 := regionPages vaddr sz }) := by
  simp only [asDefineRegion]
  refine Returns.get_bind ?_
  refine Returns.ite (fun h1 => ?_) fun h1 => Returns.ite (fun h2 => ?_) fun _ => Returns.fail _
  · exact Returns.bind (Returns.modify rfl) fun _ _ h => Returns.pure (.inl ⟨h1, h⟩)
  · exact Returns.bind (Returns.modify rfl) fun _ _ h => Returns.pure (.inr ⟨h1, h2, h⟩)

/-- From a fresh address space, a first pass over at most one `PT_LOAD` header leaves the
second slot unset. -/
theorem defineRegions_vbase2 {file : List UInt8} {eh : ElfEhdr} {s s' : Vm}
    (hs : s.as = asCreate) (hl : ∀ l, ptLoads file eh 0 eh.ePhnum = some l → l.length ≤ 1)
    (h : defineRegions file eh s = .ok () s') : s'.as.asVbase2 = 0 := by
  obtain ⟨l, hpt, hrun⟩ := phdrLoop_ok _ _ _ _ h
  rcases l with _ | ⟨ph, _ | ⟨ph', l⟩⟩
  · cases hrun
    rw [hs]
    rfl
  · -- the one region goes into the first slot
    have hrun' : (asDefineRegion ph.pVaddr ph.pMemsz >>= fun _ => pure ⟨⟩) s = .ok () s' := hrun
    obtain ⟨_, s₁, hdef, hp⟩ := bind_eq_ok.1 hrun'
    obtain ⟨-, rfl⟩ := (EStateM.Result.ok.injEq _ _ _ _).mp hp
    rcases asDefineRegion_returns _ _ s () s₁ hdef with ⟨-, rfl⟩ | ⟨h1, -, -⟩
    · simp [hs, asCreate]
    · exact absurd (by rw [hs]; rfl) h1
  · simpa using hl _ hpt

/-- **`load_elf` of an executable with one `PT_LOAD` segment leaves an address space in which
every fault halts.** From a fresh address space, when the first pass goes through at most one
`PT_LOAD` header and `load_elf` returns, the second region, which `vm_fault` asserts is set,
never was. -/
theorem loadElf_one_region_halts {file : List UInt8} {s s' : Vm} {e : Nat}
    (hs : s.as = asCreate)
    (hl : ∀ l, ptLoads file (fileEhdr file) 0 (fileEhdr file).ePhnum = some l → l.length ≤ 1)
    (h : loadElf file s = .ok e s') (ft : VmFaultType) (a : Nat) :
    vmFault ft a s' = .error .halt s' := by
  obtain ⟨-, -, s₁, s₂, hdef, hprep, hload, -⟩ := loadElf_ok h
  have h₁ : s₁.as.asVbase2 = 0 := defineRegions_vbase2 hs hl hdef
  -- `as_prepare_load` and the second pass keep the regions
  have h₂ := Keeps.of_ok hprep (asPrepareLoad_keeps_regions s₁.as.regions) rfl
  have h₃ := Keeps.of_ok hload (loadSegments_keeps_as (· = s₂.as) file _) rfl
  have h₄ : s'.as.asVbase2 = 0 := by
    rw [h₃, show s₂.as.asVbase2 = s₁.as.asVbase2 from congrArg (fun r => r.2.1) h₂, h₁]
  exact vmFault_of_region_unset (.inr h₄)

/-! ### Two executables -/

/-- `v` as `n` bytes, most significant first. -/
def bytesBE (n v : Nat) : List UInt8 :=
  (List.range n).reverse.map fun k => UInt8.ofNat (v / 256 ^ k)

/-- An executable for MIPS with entry point `0x400000`, its program headers right after its
header, one `PT_LOAD` header for each `(p_offset, p_vaddr, p_filesz, p_memsz)` of `segments`,
and then `data`. -/
def mipsExecutable (segments : List (Nat × Nat × Nat × Nat)) (data : List UInt8) : List UInt8 :=
  [ELFMAG0, ELFMAG1, ELFMAG2, ELFMAG3, ELFCLASS32, ELFDATA2MSB, 1] ++ List.replicate 9 0 ++
    bytesBE 2 ET_EXEC ++ bytesBE 2 EM_MACHINE ++ bytesBE 4 EV_CURRENT ++ bytesBE 4 0x400000 ++
    bytesBE 4 sizeofEhdr ++ bytesBE 8 0 ++ bytesBE 2 sizeofEhdr ++ bytesBE 2 sizeofPhdr ++
    bytesBE 2 segments.length ++ bytesBE 6 0 ++
    segments.flatMap (fun (offset, vaddr, filesz, memsz) =>
      bytesBE 4 PT_LOAD ++ bytesBE 4 offset ++ bytesBE 8 (vaddr * 2 ^ 32 + vaddr) ++
        bytesBE 4 filesz ++ bytesBE 4 memsz ++ bytesBE 8 0) ++
    data

/-- A segment of 16 bytes at `0x400000` with nothing in the file: all of it is zero-fill. -/
def oneSegmentElf : List UInt8 := mipsExecutable [(84, 0x400000, 0, 16)] []

/-- Two segments of 16 bytes in the page `0x400000`, each with 4 bytes in the file. -/
def sharedPageElf : List UInt8 :=
  mipsExecutable [(116, 0x400000, 4, 16), (120, 0x400010, 4, 16)] [1, 2, 3, 4, 5, 6, 7, 8]

/-- A fresh address space, with physical memory free from 1 MiB to 16 MiB. -/
def sampleVm : Vm := ⟨asCreate, 0x100000, 0x1000000, zeros⟩

/-! ### Two regions -/

section TwoRegions

variable {file : List UInt8} {s s' : Vm} {e : Nat} {ph₁ ph₂ : ElfPhdr}

/-- The address space that the first pass defines from a fresh one for two `PT_LOAD` headers,
the first at a page other than 0: region 1 for the first header and region 2 for the second. -/
def definedAs (ph₁ ph₂ : ElfPhdr) : Addrspace :=
  { asCreate with
    asVbase1 := ph₁.pVaddr &&& PAGE_FRAME
    asNpages1 := regionPages ph₁.pVaddr ph₁.pMemsz
    asVbase2 := ph₂.pVaddr &&& PAGE_FRAME
    asNpages2 := regionPages ph₂.pVaddr ph₂.pMemsz }

/-- From a fresh address space, a first pass over two `PT_LOAD` headers, the first at a page
other than 0, defines `definedAs`. -/
theorem defineRegions_two {eh : ElfEhdr} (hs : s.as = asCreate)
    (hl : ptLoads file eh 0 eh.ePhnum = some [ph₁, ph₂]) (hv1 : ph₁.pVaddr &&& PAGE_FRAME ≠ 0)
    (h : defineRegions file eh s = .ok () s') : s' = { s with as := definedAs ph₁ ph₂ } := by
  obtain ⟨l, hpt, hrun⟩ := phdrLoop_ok _ _ _ _ h
  rw [hl] at hpt
  obtain rfl := Option.some.inj hpt
  have hrun' : (asDefineRegion ph₁.pVaddr ph₁.pMemsz >>= fun _ =>
      asDefineRegion ph₂.pVaddr ph₂.pMemsz >>= fun _ => pure ⟨⟩) s = .ok () s' := hrun
  obtain ⟨_, s₁, hdef₁, hrest⟩ := bind_eq_ok.1 hrun'
  obtain ⟨_, s₂, hdef₂, hp⟩ := bind_eq_ok.1 hrest
  obtain ⟨-, rfl⟩ := (EStateM.Result.ok.injEq _ _ _ _).mp hp
  rcases asDefineRegion_returns _ _ s () s₁ hdef₁ with ⟨-, rfl⟩ | ⟨h1, -, -⟩
  · -- the first header fills slot 1, whose base is then not 0, so the second fills slot 2
    rcases asDefineRegion_returns _ _ _ () s₂ hdef₂ with ⟨h1, -⟩ | ⟨-, -, rfl⟩
    · exact absurd h1 hv1
    · simp [definedAs, hs, asCreate]
  · exact absurd (by rw [hs]; rfl) h1

section Loaded

variable (hs : s.as = asCreate)
  (hl : ptLoads file (fileEhdr file) 0 (fileEhdr file).ePhnum = some [ph₁, ph₂])
  (hv1 : ph₁.pVaddr &&& PAGE_FRAME ≠ 0) (hfit : s.firstpaddr + (definedAs ph₁ ph₂).loadSize < 2 ^ 32)
  (h : loadElf file s = .ok e s')
include hs hl hv1 hfit h

/-- **`load_elf` of an executable with two `PT_LOAD` segments leaves the prepared address
space**: from a fresh address space, its regions are those of the two headers, with frames
taken one run after the other from `firstpaddr`, which was not 0. -/
theorem loadElf_two_regions_as :
    s.firstpaddr ≠ 0 ∧ s'.as = (Vm.prepared { s with as := definedAs ph₁ ph₂ }).as := by
  obtain ⟨-, -, s₁, s₂, hdef, hprep, hload, -⟩ := loadElf_ok h
  obtain rfl := defineRegions_two hs hl hv1 hdef
  obtain ⟨hf0, -, rfl⟩ := asPrepareLoad_returns { s with as := definedAs ph₁ ph₂ } hfit () s₂ hprep
  -- the second pass keeps the address space
  have has := Keeps.of_ok hload (loadSegments_keeps_as (· = _) file _) rfl
  exact ⟨hf0, has⟩

/-- The address space `load_elf` leaves is backed: its frames are fresh and apart. -/
theorem loadElf_two_regions_backed : s'.as.Backed := by
  obtain ⟨-, has⟩ := loadElf_two_regions_as hs hl hv1 hfit h
  rw [has]
  exact prepared_backed (page_aligned _).2 (page_aligned _).2 hfit

/-- The address space `load_elf` leaves passes the `KASSERT`s of `vm_fault` when the second
header is also at a page other than 0, both regions have pages, and the free memory starts
at a page base. -/
theorem loadElf_two_regions_ready (hv2 : ph₂.pVaddr &&& PAGE_FRAME ≠ 0)
    (hn1 : regionPages ph₁.pVaddr ph₁.pMemsz ≠ 0) (hn2 : regionPages ph₂.pVaddr ph₂.pMemsz ≠ 0)
    (hf : s.firstpaddr % PAGE_SIZE = 0) : s'.as.Ready := by
  obtain ⟨hf0, has⟩ := loadElf_two_regions_as hs hl hv1 hfit h
  rw [has]
  have hbase : ∀ x : Nat, (x &&& PAGE_FRAME) &&& PAGE_FRAME = x &&& PAGE_FRAME := fun x =>
    and_pageFrame_eq_self_iff.2 (page_aligned x)
  exact prepared_ready hv1 hv2 hn1 hn2 (hbase _) (hbase _) hf0 hf hfit

variable (hv2 : ph₂.pVaddr &&& PAGE_FRAME ≠ 0) (hn1 : regionPages ph₁.pVaddr ph₁.pMemsz ≠ 0)
  (hn2 : regionPages ph₂.pVaddr ph₂.pMemsz ≠ 0) (hf : s.firstpaddr % PAGE_SIZE = 0)
include hv2 hn1 hn2 hf

/-- **After `load_elf` of an executable with two `PT_LOAD` segments, no two user pages share a
frame**: `vm_fault` gives two addresses the same frame only when they are on the same page. -/
theorem loadElf_vmFault_injective {ft ft' : VmFaultType} {a b p : Nat} {s₁ s₂ : Vm}
    (ha : vmFault ft a s' = .ok p s₁) (hb : vmFault ft' b s' = .ok p s₂) :
    a &&& PAGE_FRAME = b &&& PAGE_FRAME :=
  vmFault_injective (loadElf_two_regions_ready hs hl hv1 hfit h hv2 hn1 hn2 hf)
    (loadElf_two_regions_backed hs hl hv1 hfit h) ha hb

/-- **When the two segments share a page, that page of the second segment is backed by a frame
of the first region**, never by one of the frames `as_prepare_load` took for the second region:
`vm_fault` answers for it through region 1. -/
theorem loadElf_shared_page {ft : VmFaultType} (hft : ft ≠ .readonly)
    (hshare : Region.Holds ⟨ph₁.pVaddr &&& PAGE_FRAME, regionPages ph₁.pVaddr ph₁.pMemsz, 0⟩
      (ph₂.pVaddr &&& PAGE_FRAME)) :
    ∃ p, vmFault ft ph₂.pVaddr s' = .ok p s' ∧
      p ∈ Set.Ico s.firstpaddr (s.firstpaddr + regionPages ph₁.pVaddr ph₁.pMemsz * PAGE_SIZE) ∧
      p ∉ Set.Ico (s.firstpaddr + regionPages ph₁.pVaddr ph₁.pMemsz * PAGE_SIZE)
        (s.firstpaddr + regionPages ph₁.pVaddr ph₁.pMemsz * PAGE_SIZE +
          regionPages ph₂.pVaddr ph₂.pMemsz * PAGE_SIZE) := by
  have hr := loadElf_two_regions_ready hs hl hv1 hfit h hv2 hn1 hn2 hf
  have hb := loadElf_two_regions_backed hs hl hv1 hfit h
  obtain ⟨-, has⟩ := loadElf_two_regions_as hs hl hv1 hfit h
  -- region 1 of the loaded address space is the first header's, so it holds the page
  have h1 : Region.Holds ⟨s'.as.asVbase1, s'.as.asNpages1, s'.as.asPbase1⟩
      (ph₂.pVaddr &&& PAGE_FRAME) := by
    rw [has]
    exact hshare
  -- and its frames, and region 2's, are the runs `as_prepare_load` took for them
  have hframes₁ : Region.frames ⟨s'.as.asVbase1, s'.as.asNpages1, s'.as.asPbase1⟩ =
      Set.Ico s.firstpaddr (s.firstpaddr + regionPages ph₁.pVaddr ph₁.pMemsz * PAGE_SIZE) := by
    rw [has]
    rfl
  have hframes₂ : Region.frames ⟨s'.as.asVbase2, s'.as.asNpages2, s'.as.asPbase2⟩ =
      Set.Ico (s.firstpaddr + regionPages ph₁.pVaddr ph₁.pMemsz * PAGE_SIZE)
        (s.firstpaddr + regionPages ph₁.pVaddr ph₁.pMemsz * PAGE_SIZE +
          regionPages ph₂.pVaddr ph₂.pMemsz * PAGE_SIZE) := by
    rw [has]
    rfl
  have hok := vmFault_of_region1 hr hft h1
  obtain ⟨hin, hout⟩ := vmFault_shadowed hr hb h1 hok
  rw [hframes₁] at hin
  rw [hframes₂] at hout
  exact ⟨_, hok, hin, hout⟩

end Loaded

end TwoRegions

set_option maxRecDepth 4096 in
/-- In `sharedPageElf` the first page of the second segment, `0x400010`, gets a frame of the
first region's run `[0x100000, 0x101000)`, not of the second's `[0x101000, 0x102000)`. -/
example : ∃ s' p, loadElf sharedPageElf sampleVm = .ok 0x400000 s' ∧
    vmFault .read 0x400010 s' = .ok p s' ∧
    p ∈ Set.Ico 0x100000 0x101000 ∧ p ∉ Set.Ico 0x101000 0x102000 := by
  have hrun : returnsWith (fun e _ => e == 0x400000) (loadElf sharedPageElf sampleVm) = true := by
    decide_cbv
  obtain ⟨e, s', hload, he⟩ := returnsWith_eq_true.1 hrun
  have hl : ptLoads sharedPageElf (fileEhdr sharedPageElf) 0 (fileEhdr sharedPageElf).ePhnum =
      some [⟨PT_LOAD, 116, 0x400000, 4, 16⟩, ⟨PT_LOAD, 120, 0x400010, 4, 16⟩] := by
    decide_cbv
  obtain ⟨p, hp, hin, hout⟩ := loadElf_shared_page rfl hl (by decide) (by decide) hload
    (by decide) (by decide) (by decide) (by decide) (show VmFaultType.read ≠ .readonly by decide)
    (by decide)
  obtain rfl : e = 0x400000 := beq_iff_eq.mp he
  exact ⟨s', p, hload, hp, hin, hout⟩

/-! ### Loading the two executables -/

set_option maxRecDepth 4096 in
/-- **The two ways `dumbvm` breaks the image of a loaded executable.** An executable whose one
`PT_LOAD` segment lies in user space loads from a fresh address space, and every fault on it
then halts. An executable whose two `PT_LOAD` segments share the page `0x400000` loads, and that
page of the second region is backed by the physical page of the first region, not by the
second region's own. -/
theorem loadElf_dumbvm_regions_diverge :
    ptLoads oneSegmentElf (fileEhdr oneSegmentElf) 0 (fileEhdr oneSegmentElf).ePhnum =
        some [⟨PT_LOAD, 84, 0x400000, 0, 16⟩] ∧
      (∃ s, loadElf oneSegmentElf sampleVm = .ok 0x400000 s ∧
        ∀ a, vmFault .read a s = .error .halt s) ∧
    ptLoads sharedPageElf (fileEhdr sharedPageElf) 0 (fileEhdr sharedPageElf).ePhnum =
        some [⟨PT_LOAD, 116, 0x400000, 4, 16⟩, ⟨PT_LOAD, 120, 0x400010, 4, 16⟩] ∧
      ∃ s, loadElf sharedPageElf sampleVm = .ok 0x400000 s ∧ s.as.asVbase2 = 0x400000 ∧
        s.as.asPbase1 ≠ s.as.asPbase2 ∧ vmFault .read s.as.asVbase2 s = .ok s.as.asPbase1 s := by
  have hone : ptLoads oneSegmentElf (fileEhdr oneSegmentElf) 0 (fileEhdr oneSegmentElf).ePhnum =
      some [⟨PT_LOAD, 84, 0x400000, 0, 16⟩] := by decide_cbv
  have hshared : ptLoads sharedPageElf (fileEhdr sharedPageElf) 0
      (fileEhdr sharedPageElf).ePhnum =
        some [⟨PT_LOAD, 116, 0x400000, 4, 16⟩, ⟨PT_LOAD, 120, 0x400010, 4, 16⟩] := by
    decide_cbv
  -- evaluate both loads
  have hrun₁ : returnsWith (fun e _ => e == 0x400000) (loadElf oneSegmentElf sampleVm) = true := by
    decide_cbv
  have hrun₂ : returnsWith (fun e s => e == 0x400000 && s.as.asVbase2 == 0x400000 &&
      s.as.asPbase1 != s.as.asPbase2 &&
      returnsWith (fun p _ => p == s.as.asPbase1) (vmFault .read s.as.asVbase2 s))
      (loadElf sharedPageElf sampleVm) = true := by
    decide_cbv
  obtain ⟨e₁, s₁, hload₁, he₁⟩ := returnsWith_eq_true.1 hrun₁
  obtain ⟨e₂, s₂, hload₂, hp⟩ := returnsWith_eq_true.1 hrun₂
  simp only [Bool.and_eq_true, beq_iff_eq, bne_iff_ne, ne_eq] at he₁ hp
  obtain ⟨⟨⟨rfl, hv2⟩, hpb⟩, hfault⟩ := hp
  obtain ⟨p, s₃, hvm, hpe⟩ := returnsWith_eq_true.1 hfault
  -- `vm_fault` does not move the state
  have hs₃ := Keeps.of_ok hvm (vmFault_keeps _ _ (· = s₂)) rfl
  subst he₁ hs₃
  refine ⟨hone, ⟨s₁, hload₁, fun a => ?_⟩, hshared, s₃, hload₂, hv2, hpb, ?_⟩
  · exact loadElf_one_region_halts rfl (fun l hl => by rw [hone] at hl; cases hl; decide)
      hload₁ .read a
  · rw [hvm, (beq_iff_eq.mp hpe)]

end Os161

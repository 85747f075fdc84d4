import Os161.Syscall.Proofs.File

/-!
# `file_open`, `sys_read` and `sys_write` on one filetable

`file_open` returns an error only before it stores anything, and on success it fills the
first `NULL` slot of the caller's table with a fresh entry (`fileOpen_lowest_free`).

`sys_read` and `sys_write` share `fileTransfer`: an error leaves the layer as it was, and a
transfer starts at the entry's position and moves it by the bytes transferred
(`fileTransfer_error`, `fileTransfer_ok`). Neither looks at `filetable_flags`, so a descriptor
opened `O_RDONLY` can be written (`sysWrite_readonly_fd`).
-/

namespace Os161

/-! ### Slots of the tables -/

theorem filetable_set_self {s : FileSys} {t : Nat} {ft : Filetable} (hft : s.filetable t = some ft)
    (ft' : Filetable) (heap : List (Option FiletableEntry)) :
    ({ s with heap, tables := s.tables.set t (some ft') } : FileSys).filetable t = some ft' := by
  have ht : t < s.tables.length := by
    unfold FileSys.filetable at hft
    by_contra hge
    rw [List.getElem?_eq_none (by omega)] at hft
    cases hft
  simp [FileSys.filetable, List.getElem?_set_self ht]

theorem filetable_set_ne (s : FileSys) {t u : Nat} (hu : u ≠ t) (o : Option Filetable)
    (heap : List (Option FiletableEntry)) :
    ({ s with heap, tables := s.tables.set t o } : FileSys).filetable u = s.filetable u := by
  simp [FileSys.filetable, List.getElem?_set_ne (Ne.symm hu)]

/-- The first free slot of a table that is not full. -/
theorem findIdx_isNone_spec (ft : Filetable) (hfull : ft.filetableEntries.findIdx Option.isNone ≠ OPEN_MAX) :
    ft.filetableEntries[ft.filetableEntries.findIdx Option.isNone]? = some none ∧
      ∀ j < ft.filetableEntries.findIdx Option.isNone, ft.filetableEntries[j]? ≠ some none := by
  have hlt : ft.filetableEntries.findIdx Option.isNone < ft.filetableEntries.length := by
    have hle : ft.filetableEntries.findIdx Option.isNone ≤ ft.filetableEntries.length :=
      List.findIdx_le_length
    rw [ft.length_eq] at hle ⊢
    omega
  refine ⟨?_, fun j hj => ?_⟩
  · rw [List.getElem?_eq_getElem hlt, Option.some_inj]
    exact Option.isNone_iff_eq_none.mp List.findIdx_getElem
  · have hnot := List.not_of_lt_findIdx hj
    rw [List.getElem?_eq_getElem (Nat.lt_of_lt_of_le hj List.findIdx_le_length)]
    intro h
    rw [Option.some_inj] at h
    rw [h] at hnot
    cases hnot

/-! ### `file_open` -/

/-- **`file_open` is atomic and picks the lowest free descriptor.** An error return leaves
the layer as it was; a success returns the first `NULL` slot, which now holds the address of
a new entry with position 0, the flags, count 1 and the vnode `vfs_open` gave, while every
other slot and every other thread's table stay. -/
theorem fileOpen_lowest_free {t : Nat} {flags : Int} {v : Int × Option Nat} {s s' : FileSys}
    {r : Except Int Nat} {ft : Filetable} (hft : s.filetable t = some ft)
    (h : fileOpen t flags v s = some (s', r)) :
    (∀ e, r = .error e → s' = s) ∧
    ∀ fd, r = .ok fd →
      ft.filetableEntries[fd]? = some none ∧ (∀ j < fd, ft.filetableEntries[j]? ≠ some none) ∧
      ∃ ft', s'.filetable t = some ft' ∧
        ft'.filetableEntries[fd]? = some (some s.heap.length) ∧
        s'.heap[s.heap.length]? = some (some ⟨v.2, 0, flags, 1⟩) ∧
        (∀ j, j ≠ fd → ft'.filetableEntries[j]? = ft.filetableEntries[j]?) ∧
        (∀ u, u ≠ t → s'.filetable u = s.filetable u) := by
  unfold fileOpen at h
  simp only [hft] at h
  split_ifs at h with hmode hfull hvfs
  -- the three error exits return the state they were given
  · obtain ⟨rfl, rfl⟩ := Prod.mk.inj (Option.some.inj h)
    exact ⟨fun _ _ => rfl, fun _ hfd => by cases hfd⟩
  · obtain ⟨rfl, rfl⟩ := Prod.mk.inj (Option.some.inj h)
    exact ⟨fun _ _ => rfl, fun _ hfd => by cases hfd⟩
  · obtain ⟨rfl, rfl⟩ := Prod.mk.inj (Option.some.inj h)
    exact ⟨fun _ _ => rfl, fun _ hfd => by cases hfd⟩
  · obtain ⟨rfl, rfl⟩ := Prod.mk.inj (Option.some.inj h)
    refine ⟨fun _ he => (by cases he), fun fd hfd => ?_⟩
    cases hfd
    obtain ⟨hfree, hbelow⟩ := findIdx_isNone_spec ft hfull
    have hlt : ft.filetableEntries.findIdx Option.isNone < ft.filetableEntries.length := by
      by_contra hge
      rw [List.getElem?_eq_none (by omega)] at hfree
      cases hfree
    refine ⟨hfree, hbelow, _, filetable_set_self hft _ _, ?_, ?_, fun j hj => ?_,
      fun u hu => filetable_set_ne s hu _ _⟩
    · simp [Filetable.set_filetableEntries, List.getElem?_set_self hlt]
    · simp
    · simp [Filetable.set_filetableEntries, List.getElem?_set_ne (Ne.symm hj)]

/-- The file layer after `filetable_init` in the first thread, the console vnode being 7. -/
def bootFiles : FileSys := filetableInit 0 (some 7) { heap := [], tables := [none], closed := [] }

theorem fileOpen_lowest_free_after_init :
    ∃ ft s', bootFiles.filetable 0 = some ft ∧
      fileOpen 0 O_RDONLY (0, some 9) bootFiles = some (s', .ok 3) ∧
      ft.filetableEntries[3]? = some none ∧ ∀ j < 3, ft.filetableEntries[j]? ≠ some none := by
  obtain ⟨ft, hft⟩ : ∃ ft, bootFiles.filetable 0 = some ft := ⟨_, rfl⟩
  obtain ⟨s', hs'⟩ : ∃ s', fileOpen 0 O_RDONLY (0, some 9) bootFiles = some (s', .ok 3) :=
    ⟨_, rfl⟩
  obtain ⟨-, hok⟩ := fileOpen_lowest_free hft hs'
  obtain ⟨hfree, hbelow, -⟩ := hok 3 rfl
  exact ⟨ft, s', hft, hs', hfree, hbelow⟩

/-! ### `sys_read` and `sys_write` -/

section Transfer

variable {t : Nat} {fd : Int} {len : Nat} {vop : Nat → Int → Nat → Except Int Nat}
  {s s' : FileSys}

/-- **A failed transfer changes nothing.** -/
theorem fileTransfer_error {e : Int} (h : fileTransfer t fd len vop s = some (s', .error e)) :
    s' = s := by
  unfold fileTransfer at h
  split at h
  · cases h
  split_ifs at h
  · exact (Prod.mk.inj (Option.some.inj h)).1.symm
  split at h
  · exact (Prod.mk.inj (Option.some.inj h)).1.symm
  split at h
  · cases h
  split at h
  · exact (Prod.mk.inj (Option.some.inj h)).1.symm
  split at h
  · exact (Prod.mk.inj (Option.some.inj h)).1.symm
  · cases (Prod.mk.inj (Option.some.inj h)).2

/-- **A transfer happens at the entry's position and moves it by the bytes moved**:
`VOP_READ` or `VOP_WRITE` got the position the entry had, `*retval` is `len - uio_resid`,
and only that entry's position changed. -/
theorem fileTransfer_ok {n : Int} (h : fileTransfer t fd len vop s = some (s', .ok n)) :
    ∃ ft p e vn resid, s.filetable t = some ft ∧ 0 ≤ fd ∧ fd < OPEN_MAX ∧
      ft.filetableEntries[fd.toNat]? = some (some p) ∧ s.heap[p]? = some (some e) ∧
      e.filetableVnode = some vn ∧ vop vn e.filetablePos len = .ok resid ∧
      n = (len : Int) - resid ∧
      s' = { s with heap := s.heap.set p (some { e with filetablePos := e.filetablePos + n }) } := by
  unfold fileTransfer at h
  split at h
  · cases h
  rename_i ft hft
  split_ifs at h with hfd
  · cases (Prod.mk.inj (Option.some.inj h)).2
  split at h
  · cases (Prod.mk.inj (Option.some.inj h)).2
  rename_i p hp
  split at h
  · cases h
  rename_i e he
  split at h
  · cases (Prod.mk.inj (Option.some.inj h)).2
  rename_i vn hvn
  split at h
  · cases (Prod.mk.inj (Option.some.inj h)).2
  rename_i resid hresid
  obtain ⟨rfl, hn⟩ := Prod.mk.inj (Option.some.inj h)
  cases hn
  exact ⟨ft, p, e, vn, resid, hft, by omega, by omega, Option.join_eq_some_iff.mp hp,
    Option.join_eq_some_iff.mp he, hvn, hresid, rfl, rfl⟩

end Transfer

/-- Boot, then `file_open` of vnode 9 read-only: descriptor 3. -/
def readOnlyTrace : List FileEvent := [.progthread (some 7), .fileOpen 0 O_RDONLY (0, some 9)]

/-- A descriptor opened `O_RDONLY` is written: after boot and `file_open` with `O_RDONLY`,
`sys_write` on it of 5 bytes, with a `VOP_WRITE` that moves them all, returns 5. -/
theorem sysWrite_readonly_fd :
    ∃ s, fileSystem.Reachable s ∧
      (∃ ft p e, s.filetable 0 = some ft ∧ ft.filetableEntries[3]? = some (some p) ∧
        s.heap[p]? = some (some e) ∧ Int.land e.filetableFlags O_ACCMODE = O_RDONLY) ∧
      ∃ s', sysWrite 0 3 5 (fun _ _ _ => .ok 0) s = some (s', .ok 5) :=
  ⟨_, Lts.System.Reachable.init.run (rfl : fileSystem.run fileSystem.init readOnlyTrace = some _),
    ⟨_, _, _, rfl, rfl, rfl, rfl⟩, _, rfl⟩

end Os161

import Os161.Syscall.File
import Os161.Lib.Lists

/-!
# Reference counts of filetable entries

`Exact s`: every live entry's `filetable_count` is the number of slots, across all filetables,
that hold its address, and no slot holds an address that is freed or was never allocated.

* `filetableInit`, `fileOpen` and `fileClose` keep `Exact` (`exact_filetableInit`,
  `exact_fileOpen`, `exact_fileClose`), so every run without `sys_fork` keeps it
  (`exact_run_of_noFork`); under `Exact` a close frees the entry and closes its vnode exactly
  when it empties the last slot that refers to it (`fileClose_frees_iff`).
* `sys_fork` copies the parent's slots without counting them. One fork after one open already
  breaks `Exact`, and the parent's close of the shared descriptor then frees the entry and
  closes its vnode while the child's slot still points at it (`sysFork_dangling_slot`).
-/

namespace Os161

namespace Filetable

/-- The slots of a table hold addresses that are counted by `refs`. -/
theorem refs_pos_of_getElem {ft : Filetable} {fd p : Nat}
    (h : ft.filetableEntries[fd]? = some (some p)) : 0 < ft.refs p := by
  unfold refs
  exact List.count_pos_iff.mpr (List.mem_of_getElem? h)

/-- **Writing one slot** moves the count of `p` by what left and what entered the slot. -/
theorem refs_set (ft : Filetable) {fd : Nat} (v : Option Nat) (p : Nat) (h : fd < OPEN_MAX) :
    (ft.set fd v).refs p + (if ft.filetableEntries[fd]? = some (some p) then 1 else 0) =
      ft.refs p + (if v = some p then 1 else 0) := by
  have hl : fd < ft.filetableEntries.length := by rw [ft.length_eq]; exact h
  -- the slot that is overwritten was counted, so the subtraction in `count_set` is exact
  have hle : (if ft.filetableEntries[fd] = some p then 1 else 0) ≤
      ft.filetableEntries.count (some p) := by
    split
    · rename_i hb
      exact List.count_pos_iff.mpr (by rw [← hb]; exact List.getElem_mem hl)
    · exact Nat.zero_le _
  unfold refs
  rw [set_filetableEntries, List.count_set hl, List.getElem?_eq_getElem hl]
  simp only [beq_iff_eq, Option.some.injEq]
  split_ifs at hle ⊢ <;> omega

end Filetable

namespace FileSys

/-- The count of one table, `0` for a `NULL` table. -/
def tableRefs (p : Nat) (o : Option Filetable) : Nat := o.elim 0 fun ft => ft.refs p

theorem refs_eq (s : FileSys) (p : Nat) : s.refs p = (s.tables.map (tableRefs p)).sum := rfl

/-- Replacing thread `t`'s table moves the count by the difference of the two tables. -/
theorem refs_set_table {s s' : FileSys} {t : Nat} {ft : Filetable} {o : Option Filetable}
    (ht : s.filetable t = some ft) (h' : s'.tables = s.tables.set t o) (p : Nat) :
    s'.refs p + ft.refs p = s.refs p + tableRefs p o := by
  have hlt : t < s.tables.length := by
    by_contra hge
    simp [filetable, List.getElem?_eq_none (Nat.le_of_not_lt hge)] at ht
  have hget : s.tables[t] = some ft := by
    simpa [filetable, List.getElem?_eq_getElem hlt] using ht
  have := List.sum_map_set_add (tableRefs p) s.tables t o hlt
  simp only [refs_eq, h', hget, tableRefs, Option.elim_some] at this ⊢
  exact this

/-- A slot of a live table holds an address counted by `refs`. -/
theorem refs_pos_of_slot {s : FileSys} {t fd p : Nat} {ft : Filetable}
    (ht : s.filetable t = some ft) (h : ft.filetableEntries[fd]? = some (some p)) :
    0 < s.refs p := by
  have ht' : s.tables[t]? = some (some ft) := by
    simpa [filetable, Option.join_eq_some_iff] using ht
  have hmem : tableRefs p (some ft) ∈ s.tables.map (tableRefs p) :=
    List.mem_map_of_mem (List.mem_of_getElem? ht')
  have hle := List.le_sum_of_mem hmem
  have hpos := Filetable.refs_pos_of_getElem h
  simp only [tableRefs, Option.elim_some] at hle
  rw [refs_eq]
  omega

end FileSys

/-- The reference-count invariant (module doc). -/
def Exact (s : FileSys) : Prop :=
  ∀ p, match s.heap[p]? with
    | some (some e) => e.filetableCount = (s.refs p : Int)
    | _ => s.refs p = 0

theorem exact_init : Exact fileSystem.init := by
  intro p
  simp [fileSystem, FileSys.refs]

namespace FileSys

theorem refs_append_table (s : FileSys) (o : Option Filetable) (p : Nat) :
    ({ s with tables := s.tables ++ [o] } : FileSys).refs p = s.refs p + tableRefs p o := by
  simp [refs_eq]

end FileSys

/-- The three standard descriptors of `filetable_init` all hold the new entry. -/
theorem filetableInit_refs (q p : Nat) :
    (some p :: some p :: some p :: List.replicate (OPEN_MAX - 3) none).count (some q) =
      if p = q then 3 else 0 := by
  simp only [List.count_cons, List.count_replicate, beq_iff_eq, Option.some.injEq, reduceCtorEq,
    if_false]
  by_cases hpq : p = q <;> simp [hpq]

/-! ### What each entry point does to the state -/

/-- **`file_open` either changes nothing or fills the lowest free slot** of the caller's table
with a fresh entry of count 1. -/
theorem fileOpen_cases {t : Nat} {flags : Int} {v : Int × Option Nat} {s s' : FileSys}
    {r : Except Int Nat} (h : fileOpen t flags v s = some (s', r)) :
    s' = s ∨ ∃ ft, s.filetable t = some ft ∧
      ft.filetableEntries.findIdx Option.isNone < OPEN_MAX ∧
      s' = { s with
        heap := s.heap ++ [some ⟨v.2, 0, flags, 1⟩],
        tables := s.tables.set t
          (some (ft.set (ft.filetableEntries.findIdx Option.isNone) (some s.heap.length))) } := by
  unfold fileOpen at h
  dsimp only at h
  split at h
  · exact .inl (congrArg Prod.fst (Option.some.inj h)).symm
  · cases hft : s.filetable t with
    | none => simp [hft] at h
    | some ft =>
      simp only [hft] at h
      split at h
      · exact .inl (congrArg Prod.fst (Option.some.inj h)).symm
      split at h
      · exact .inl (congrArg Prod.fst (Option.some.inj h)).symm
      rename_i hfull _
      have hlt : ft.filetableEntries.findIdx Option.isNone < OPEN_MAX := by
        have hle : ft.filetableEntries.findIdx Option.isNone ≤ ft.filetableEntries.length :=
          List.findIdx_le_length
        rw [ft.length_eq] at hle
        omega
      exact .inr ⟨ft, rfl, hlt, (congrArg Prod.fst (Option.some.inj h)).symm⟩

/-- **`file_close` either changes nothing or empties one slot** of the caller's table; the
entry it held loses one reference, and is freed with its vnode closed when that was the
last count. -/
theorem fileClose_cases {t : Nat} {fd : Int} {s s' : FileSys} {r : Int}
    (h : fileClose t fd s = some (s', r)) :
    s' = s ∨ ∃ ft p e vn, s.filetable t = some ft ∧ fd.toNat < OPEN_MAX ∧
      ft.filetableEntries[fd.toNat]? = some (some p) ∧ s.heap[p]? = some (some e) ∧
      e.filetableVnode = some vn ∧
      s'.tables = s.tables.set t (some (ft.set fd.toNat none)) ∧
      if e.filetableCount - 1 = 0 then s'.heap = s.heap.set p none ∧ s'.closed = vn :: s.closed
      else s'.heap = s.heap.set p (some { e with filetableCount := e.filetableCount - 1 }) ∧
        s'.closed = s.closed := by
  unfold fileClose at h
  cases hft : s.filetable t with
  | none => simp [hft] at h
  | some ft =>
    simp only [hft] at h
    split at h
    · exact .inl (congrArg Prod.fst (Option.some.inj h)).symm
    rename_i hfd
    split at h
    · exact .inl (congrArg Prod.fst (Option.some.inj h)).symm
    rename_i p hp
    split at h
    · simp at h
    rename_i e he
    split at h
    · exact .inl (congrArg Prod.fst (Option.some.inj h)).symm
    rename_i vn hvn
    have hlt : fd.toNat < OPEN_MAX := by omega
    have hslot : ft.filetableEntries[fd.toNat]? = some (some p) := by
      simpa [Option.join_eq_some_iff] using hp
    have hcell : s.heap[p]? = some (some e) := by simpa [Option.join_eq_some_iff] using he
    refine .inr ⟨ft, p, e, vn, rfl, hlt, hslot, hcell, hvn, ?_⟩
    split at h
    · obtain rfl := congrArg Prod.fst (Option.some.inj h)
      simp_all
    · obtain rfl := congrArg Prod.fst (Option.some.inj h)
      simp_all

/-! ### The invariant, one entry point at a time -/

section Preservation

variable {s s' : FileSys}

/-- After a successful `file_open` the new address has one more reference and no other
address changes. -/
theorem refs_fileOpen {t : Nat} {ft : Filetable}
    (hft : s.filetable t = some ft) (hlt : ft.filetableEntries.findIdx Option.isNone < OPEN_MAX)
    (h' : s'.tables = s.tables.set t
      (some (ft.set (ft.filetableEntries.findIdx Option.isNone) (some s.heap.length))))
    (q : Nat) : s'.refs q = s.refs q + if s.heap.length = q then 1 else 0 := by
  set i := ft.filetableEntries.findIdx Option.isNone
  -- the slot found by the scan is `NULL`
  have hfree : ft.filetableEntries[i]? = some none := by
    have hl : i < ft.filetableEntries.length := by rw [ft.length_eq]; exact hlt
    rw [List.getElem?_eq_getElem hl]
    have : Option.isNone ft.filetableEntries[i] = true := List.findIdx_getElem
    simpa [Option.isNone_iff_eq_none] using this
  have h1 := FileSys.refs_set_table hft h' q
  have h2 := ft.refs_set (some s.heap.length) q hlt
  simp only [hfree, FileSys.tableRefs, Option.elim_some, Option.some.injEq] at h1 h2
  have h3 : (ft.set i (some s.heap.length)).refs q =
      ft.refs q + if s.heap.length = q then 1 else 0 := by
    simpa using h2
  omega

/-- After a successful `file_close` of a slot holding `p`, `p` has one reference less and no
other address changes. -/
theorem refs_fileClose {t fd p : Nat} {ft : Filetable} (hft : s.filetable t = some ft)
    (hlt : fd < OPEN_MAX) (hslot : ft.filetableEntries[fd]? = some (some p))
    (h' : s'.tables = s.tables.set t (some (ft.set fd none))) (q : Nat) :
    s'.refs q + (if p = q then 1 else 0) = s.refs q := by
  have h1 := FileSys.refs_set_table hft h' q
  have h2 := ft.refs_set none q hlt
  simp only [hslot, FileSys.tableRefs, Option.elim_some, Option.some.injEq,
    reduceCtorEq, if_false, add_zero] at h1 h2
  omega

/-- **`file_open` keeps the counts exact**: the fresh entry has count 1 and is held by the one
slot just filled. -/
theorem exact_fileOpen {t : Nat} {flags : Int} {v : Int × Option Nat} {r : Except Int Nat}
    (hs : Exact s) (h : fileOpen t flags v s = some (s', r)) : Exact s' := by
  rcases fileOpen_cases h with rfl | ⟨ft, hft, hlt, rfl⟩
  · exact hs
  intro q
  have hq := hs q
  rw [refs_fileOpen hft hlt rfl q]
  rcases lt_trichotomy q s.heap.length with hlt' | rfl | hgt
  · simp only [List.getElem?_append_left hlt', show s.heap.length ≠ q by omega, if_false,
      add_zero]
    exact hq
  · have hnone : s.heap[s.heap.length]? = none := List.getElem?_eq_none (le_refl _)
    simp only [hnone] at hq
    simp [hq]
  · have hnone : s.heap[q]? = none := List.getElem?_eq_none (by omega)
    have hnone' : (s.heap ++ [some (⟨v.2, 0, flags, 1⟩ : FiletableEntry)])[q]? = none :=
      List.getElem?_eq_none (by simp; omega)
    simp only [hnone] at hq
    simp only [hnone', show s.heap.length ≠ q by omega, if_false, add_zero]
    exact hq

/-- **`file_close` keeps the counts exact**: the entry loses the reference of the emptied
slot, and is freed exactly when that was its last one. -/
theorem exact_fileClose {t : Nat} {fd : Int} {r : Int} (hs : Exact s)
    (h : fileClose t fd s = some (s', r)) : Exact s' := by
  rcases fileClose_cases h with rfl | ⟨ft, p, e, vn, hft, hlt, hslot, hcell, -, htab, hheap⟩
  · exact hs
  have hcount : e.filetableCount = s.refs p := by
    have := hs p
    simp only [hcell] at this
    exact this
  have hpos := FileSys.refs_pos_of_slot hft hslot
  have hp : p < s.heap.length := (List.getElem?_eq_some_iff.mp hcell).1
  intro q
  have hr := refs_fileClose hft hlt hslot htab q
  by_cases hq : p = q
  · subst hq
    simp only [if_true] at hr
    split_ifs at hheap with h0
    · rw [hheap.1, List.getElem?_set_self hp]
      show s'.refs p = 0
      omega
    · rw [hheap.1, List.getElem?_set_self hp]
      show e.filetableCount - 1 = (s'.refs p : Int)
      omega
  · simp only [hq, if_false, add_zero] at hr
    have hcell' : s'.heap[q]? = s.heap[q]? := by
      split_ifs at hheap <;> rw [hheap.1, List.getElem?_set_ne hq]
    rw [hcell', hr]
    exact hs q

/-- A new kernel thread running `runprogram` adds three references to a fresh entry. -/
theorem refs_progthread (c : Option Nat) (q : Nat) :
    (filetableInit s.tables.length c { s with tables := s.tables ++ [none] }).refs q =
      s.refs q + if s.heap.length = q then 3 else 0 := by
  simp only [filetableInit, FileSys.refs, List.set_append_right _ _ (le_refl _)]
  simp [Filetable.refs, filetableInit_refs]

/-- **`filetable_init` keeps the counts exact**: the console entry has count 3 and three
slots. -/
theorem exact_progthread (c : Option Nat) (hs : Exact s) :
    Exact (filetableInit s.tables.length c { s with tables := s.tables ++ [none] }) := by
  intro q
  have hq := hs q
  rw [refs_progthread]
  simp only [filetableInit]
  rcases lt_trichotomy q s.heap.length with hlt | rfl | hgt
  · simp only [List.getElem?_append_left hlt, show s.heap.length ≠ q by omega, if_false,
      add_zero]
    exact hq
  · have hnone : s.heap[s.heap.length]? = none := List.getElem?_eq_none (le_refl _)
    simp only [hnone] at hq
    simp [hq]
  · have hnone : s.heap[q]? = none := List.getElem?_eq_none (by omega)
    simp only [hnone] at hq
    rw [List.getElem?_eq_none (by simp; omega)]
    simp only [show s.heap.length ≠ q by omega, if_false, add_zero]
    exact hq

end Preservation

/-! ### Runs -/

/-- The event is a `sys_fork` that creates a child. -/
def FileEvent.copiesTable : FileEvent → Bool
  | .sysFork _ true => true
  | _ => false

/-- Every step other than a successful fork keeps the counts exact. -/
theorem exact_next {s s' : FileSys} {e : FileEvent} (hs : Exact s)
    (he : e.copiesTable = false) (h : fileSystem.next s e = some s') : Exact s' := by
  cases e with
  | progthread c =>
    obtain rfl := Option.some.inj h
    exact exact_progthread c hs
  | fileOpen t flags v =>
    obtain ⟨⟨s₁, r⟩, h₁, rfl⟩ := Option.map_eq_some_iff.mp h
    exact exact_fileOpen hs h₁
  | fileClose t fd =>
    obtain ⟨⟨s₁, r⟩, h₁, rfl⟩ := Option.map_eq_some_iff.mp h
    exact exact_fileClose hs h₁
  | sysFork t ok =>
    cases ok with
    | true => simp [FileEvent.copiesTable] at he
    | false =>
      obtain rfl := Option.some.inj h
      exact hs

/-- **Without `sys_fork`, filetable counts stay exact over every run**: from boot, any sequence
of `filetable_init`, `file_open` and `file_close` (and failed forks) ends in a state where
each live entry's count is the number of slots that hold it and no slot holds a freed entry. -/
theorem exact_run_of_noFork {es : List FileEvent} {s : FileSys}
    (hes : ∀ e ∈ es, e.copiesTable = false) (h : fileSystem.run fileSystem.init es = some s) :
    Exact s := by
  suffices ∀ (es : List FileEvent) (s₀ : FileSys), Exact s₀ → (∀ e ∈ es, e.copiesTable = false) →
      fileSystem.run s₀ es = some s → Exact s from this es _ exact_init hes h
  intro es
  induction es with
  | nil =>
    intro s₀ hs₀ _ hr
    obtain rfl := Option.some.inj hr
    exact hs₀
  | cons e es ih =>
    intro s₀ hs₀ hes hr
    obtain ⟨s₁, h₁, h₂⟩ := Option.bind_eq_some_iff.mp hr
    exact ih s₁ (exact_next hs₀ (hes e (List.mem_cons_self ..)) h₁)
      (fun e' he' => hes e' (List.mem_cons_of_mem _ he')) h₂

/-- **Under exact counts, `file_close` frees the entry and closes its vnode exactly when it
empties the last slot that holds it.** -/
theorem fileClose_frees_iff {s s' : FileSys} {t : Nat} {fd : Int} {r : Int} {ft : Filetable}
    {p : Nat} {e : FiletableEntry} {vn : Nat} (hs : Exact s) (hft : s.filetable t = some ft)
    (hslot : ft.filetableEntries[fd.toNat]? = some (some p)) (hfd : 0 ≤ fd)
    (hcell : s.heap[p]? = some (some e)) (hvn : e.filetableVnode = some vn)
    (h : fileClose t fd s = some (s', r)) :
    (s'.heap[p]? = some none ∧ s'.closed = vn :: s.closed) ↔ s.refs p = 1 := by
  have hcount : e.filetableCount = s.refs p := by
    have := hs p
    simp only [hcell] at this
    exact this
  have hp : p < s.heap.length := (List.getElem?_eq_some_iff.mp hcell).1
  rcases fileClose_cases h with rfl | ⟨ft', p', e', vn', hft', -, hslot', hcell', hvn', -, hheap⟩
  · -- a close of a slot that holds a live entry with a vnode cannot fail
    have hlt : fd.toNat < OPEN_MAX := by
      have := (List.getElem?_eq_some_iff.mp hslot).1
      rw [ft.length_eq] at this
      exact this
    unfold fileClose at h
    simp [hft, hslot, hcell, hvn, Option.join, show ¬ fd < 0 by omega,
      show ¬ (OPEN_MAX : Int) ≤ fd by omega] at h
    split_ifs at h
    · -- the close prepends to the closed list, so the state changed
      have := congrArg (fun s => s.closed.length) (congrArg Prod.fst (Option.some.inj h))
      simp at this
    · -- the close lowers the entry's count, so the state changed
      have := congrArg (fun s => s.heap[p]?) (congrArg Prod.fst (Option.some.inj h))
      simp only [List.getElem?_set_self hp, hcell, Option.some.injEq] at this
      have := congrArg FiletableEntry.filetableCount this
      simp at this
  · obtain rfl : ft' = ft := Option.some.inj (hft'.symm.trans hft)
    obtain rfl : p' = p := by simpa using hslot'.symm.trans hslot
    obtain rfl : e' = e := by simpa using hcell'.symm.trans hcell
    obtain rfl : vn' = vn := Option.some.inj (hvn'.symm.trans hvn)
    split_ifs at hheap with h0
    · rw [hheap.1, hheap.2, List.getElem?_set_self hp]
      simp only [and_self, true_iff]
      omega
    · rw [hheap.1, hheap.2, List.getElem?_set_self hp]
      simp only [Option.some.injEq, reduceCtorEq, false_and, false_iff]
      omega

/-! ### `sys_fork` -/

/-- A process starts (console vnode 7), opens vnode 9 as descriptor 3, forks, and the parent
closes descriptor 3. -/
def forkCloseTrace : List FileEvent :=
  [.progthread (some 7), .fileOpen 0 O_RDONLY (0, some 9), .sysFork 0 true, .fileClose 0 3]

/-- **The fork leaves the counts short.** After the fork, entry 1 still has count 1 while the
parent's and the child's descriptor 3 both hold it. -/
theorem sysFork_breaks_exact : ∃ s, fileSystem.Reachable s ∧ ¬ Exact s := by
  obtain ⟨s, hs, hp⟩ := fileSystem.reachable_of_run (forkCloseTrace.take 3)
    (fun s => s.heap[1]? == some (some ⟨some 9, 0, O_RDONLY, 1⟩) && s.refs 1 == 2) (by decide)
  refine ⟨s, hs, fun hex => ?_⟩
  simp only [Bool.and_eq_true, beq_iff_eq] at hp
  have h1 := hex 1
  simp only [hp.1, hp.2] at h1
  exact absurd h1 (by decide)

/-- **After the parent's close, the child's descriptor points at a freed entry**: `vfs_close`
has been called on vnode 9 and entry 1 freed, while the child's (thread 1's) descriptor 3 still
holds entry 1. -/
theorem sysFork_dangling_slot :
    ∃ s, fileSystem.Reachable s ∧ s.closed = [9] ∧ s.heap[1]? = some none ∧
      (s.filetable 1).bind (fun ft => ft.filetableEntries[3]?) = some (some 1) := by
  obtain ⟨s, hs, hp⟩ := fileSystem.reachable_of_run forkCloseTrace
    (fun s => s.closed == [9] && s.heap[1]? == some none &&
      (s.filetable 1).bind (fun ft => ft.filetableEntries[3]?) == some (some 1))
    (by decide)
  simp only [Bool.and_eq_true, beq_iff_eq] at hp
  exact ⟨s, hs, hp.1.1, hp.1.2, hp.2⟩

end Os161

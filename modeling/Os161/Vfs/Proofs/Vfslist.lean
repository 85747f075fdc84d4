import Os161.Vfs.Vfslist

/-!
# How `vfs_getroot` resolves a name

Every error return of `vfs_doadd`, `vfs_mount` and `vfs_unmount` leaves `knowndevs` as it was
(`vfsDoadd_keepsOnErr`, `vfsMount_keepsOnErr`, `vfsUnmount_keepsOnErr`). Every entry of a
reachable table has the shape the comment on `struct knowndev` describes (`wellFormed_reachable`),
and on such a table `vfs_getroot` gives the documented answer of the first entry that has the
name, or `ENODEV` when none has it (`vfsGetroot_first`, `vfsGetroot_none`).

The answer is that of the first entry, not of the entry: `vfs_doadd` refuses a name that is
taken, but `vfs_mount` adds the volume name of the new file system unchecked. Mounting a volume
named `lhd0` on `lhd1` leaves `lhd0` the name of two entries, and `vfs_getroot("lhd0")` then
returns `ENXIO` or the root of the volume depending on which device was added first
(`vfsGetroot_volname_shadowed`).
-/

namespace Os161

namespace Vfslist

open Exec

/-! ### Error returns -/

section Errors

variable {t : List Knowndev}

theorem vfsDoadd_keepsOnErr (dname : List UInt8) (mountable : Bool) (dev : Option Nat)
    (fs : Option KFs) (env : AddEnv) : KeepsOnErr (· = t) (vfsDoadd dname mountable dev fs env) := by
  simp only [vfsDoadd, fail_bind]
  refine KeepsOnErr.ite (Keeps.fail _).keepsOnErr ?_
  refine KeepsOnErr.ite (Keeps.fail _).keepsOnErr ?_
  split
  · refine KeepsOnErr.ite (Keeps.fail _).keepsOnErr ?_
    refine KeepsOnErr.bind Keeps.get fun _ => ?_
    refine KeepsOnErr.ite (Keeps.fail _).keepsOnErr ?_
    -- the table grows only in the last statement, which cannot fail
    exact KeepsOnErr.ite (Keeps.fail _).keepsOnErr (NoErr.modify _).keepsOnErr
  · exact (Keeps.fail _).keepsOnErr

theorem vfsMount_keepsOnErr (devname : List UInt8) (mount : Nat → Except Int KFs) :
    KeepsOnErr (· = t) (vfsMount devname mount) := by
  simp only [vfsMount, fail_bind]
  refine KeepsOnErr.bind Keeps.get fun _ => ?_
  refine KeepsOnErr.bind (Keeps.ofExcept _) fun _ => ?_
  split
  · refine KeepsOnErr.ite (Keeps.fail _).keepsOnErr ?_
    refine KeepsOnErr.bind (Keeps.assert _) fun _ => ?_
    split
    · exact KeepsOnErr.bind (Keeps.ofExcept _) fun _ => (NoErr.set _).keepsOnErr
    · exact Keeps.halt.keepsOnErr
  · exact Keeps.halt.keepsOnErr

theorem vfsUnmount_keepsOnErr (devname : List UInt8) (sync unmount : Int) :
    KeepsOnErr (· = t) (vfsUnmount devname sync unmount) := by
  simp only [vfsUnmount, fail_bind]
  refine KeepsOnErr.bind Keeps.get fun _ => ?_
  refine KeepsOnErr.bind (Keeps.ofExcept _) fun _ => ?_
  split
  · refine KeepsOnErr.ite (Keeps.fail _).keepsOnErr ?_
    refine KeepsOnErr.bind (Keeps.assert _) fun _ => ?_
    refine KeepsOnErr.bind (Keeps.assert _) fun _ => ?_
    refine KeepsOnErr.ite (Keeps.fail _).keepsOnErr ?_
    exact KeepsOnErr.ite (Keeps.fail _).keepsOnErr (NoErr.set _).keepsOnErr
  · exact Keeps.halt.keepsOnErr

end Errors

/-! ### Successful returns -/

/-- The entry `vfs_doadd` builds. -/
def newKnowndev (dname : List UInt8) (mountable : Bool) (dev : Option Nat) (fs : Option KFs)
    (vnode : Nat) : Knowndev :=
  { kdName := dname, kdRawname := if mountable then some (mkrawname dname) else none,
    kdDevice := dev, kdVnode := vnode, kdFs := fs }

/-- `vfs_doadd` appends the entry it built, after `badnames` found none of its names taken. -/
theorem vfsDoadd_returns (dname : List UInt8) (mountable : Bool) (dev : Option Nat)
    (fs : Option KFs) (env : AddEnv) (s : List Knowndev) :
    Returns (vfsDoadd dname mountable dev fs env) s fun _ s' =>
      ∃ vnode, env.vnode = some vnode ∧
        badnames s (some dname) (newKnowndev dname mountable dev fs vnode).kdRawname
          (newKnowndev dname mountable dev fs vnode).volname = false ∧
        s' = s ++ [newKnowndev dname mountable dev fs vnode] := by
  simp only [vfsDoadd, fail_bind]
  refine Returns.ite (fun _ => Returns.fail _) fun _ => ?_
  refine Returns.ite (fun _ => Returns.fail _) fun _ => ?_
  split
  · rename_i vnode hv
    refine Returns.ite (fun _ => Returns.fail _) fun _ => ?_
    refine Returns.get_bind ?_
    refine Returns.ite (fun _ => Returns.fail _) fun hb => ?_
    refine Returns.ite (fun _ => Returns.fail _) fun _ => ?_
    exact Returns.modify ⟨vnode, hv, by simpa [newKnowndev] using hb, rfl⟩
  · exact Returns.fail _

/-- `vfs_mount` attaches the file system to the first mountable entry of the name, which had
none, whatever the volume name. -/
theorem vfsMount_returns (devname : List UInt8) (mount : Nat → Except Int KFs)
    (s : List Knowndev) :
    Returns (vfsMount devname mount) s fun _ s' =>
      ∃ i kd dev fs, s[i]? = some kd ∧ kd.kdRawname.isSome ∧ kd.kdDevice = some dev ∧
        mount dev = .ok fs ∧ s' = s.set i { kd with kdFs := some fs } := by
  simp only [vfsMount, fail_bind]
  refine Returns.get_bind ?_
  refine Returns.ofExcept_bind fun i _ => ?_
  split
  · rename_i kd hk
    refine Returns.ite (fun _ => Returns.fail _) fun _ => ?_
    refine Returns.assert_bind fun hraw => ?_
    split
    · rename_i dev hdev
      refine Returns.ofExcept_bind fun fs hm => ?_
      exact Returns.set ⟨i, kd, dev, fs, hk, hraw, hdev, hm, by rw [hdev]⟩
    · exact Returns.halt
  · exact Returns.halt

/-- `vfs_unmount` detaches the file system of a mountable entry with a device. -/
theorem vfsUnmount_returns (devname : List UInt8) (sync unmount : Int) (s : List Knowndev) :
    Returns (vfsUnmount devname sync unmount) s fun _ s' =>
      ∃ i kd, s[i]? = some kd ∧ kd.kdRawname.isSome ∧ kd.kdDevice.isSome ∧
        s' = s.set i { kd with kdFs := none } := by
  simp only [vfsUnmount, fail_bind]
  refine Returns.get_bind ?_
  refine Returns.ofExcept_bind fun i _ => ?_
  split
  · rename_i kd hk
    refine Returns.ite (fun _ => Returns.fail _) fun _ => ?_
    refine Returns.assert_bind fun hraw => ?_
    refine Returns.assert_bind fun hdev => ?_
    refine Returns.ite (fun _ => Returns.fail _) fun _ => ?_
    refine Returns.ite (fun _ => Returns.fail _) fun _ => ?_
    exact Returns.set ⟨i, kd, hk, hraw, hdev, rfl⟩
  · exact Returns.halt

end Vfslist

open Vfslist Exec

/-! ### The shape of the entries -/

/-- The comment on `struct knowndev`: a mountable entry has a device, and an entry without a
device is a file system, not mountable. -/
structure Knowndev.WellFormed (kd : Knowndev) : Prop where
  device_of_raw : kd.kdRawname.isSome → kd.kdDevice.isSome
  fs_of_no_device : kd.kdDevice = none → kd.kdFs.isSome ∧ kd.kdRawname = none

theorem wellFormed_newKnowndev {dname : List UInt8} {mountable : Bool} {dev : Option Nat}
    {fs : Option KFs} {vnode : Nat} (h : dev = none → fs.isSome ∧ mountable = false) :
    (newKnowndev dname mountable dev fs vnode).WellFormed where
  device_of_raw hraw := by
    cases dev with
    | some _ => rfl
    | none => simp [newKnowndev, (h rfl).2] at hraw
  fs_of_no_device hdev := by
    obtain ⟨hfs, hm⟩ := h hdev
    exact ⟨hfs, by simp [newKnowndev, hm]⟩

/-- Changing the file system of a mountable entry with a device keeps its shape. -/
theorem wellFormed_set_fs {kd : Knowndev} (hdev : kd.kdDevice.isSome)
    (fs : Option KFs) : ({ kd with kdFs := fs } : Knowndev).WellFormed where
  device_of_raw _ := hdev
  fs_of_no_device h := by
    have h' : kd.kdDevice = none := h
    simp [h'] at hdev

theorem wellFormed_set {s : List Knowndev} {i : Nat} {kd : Knowndev}
    (hs : ∀ kd ∈ s, kd.WellFormed) (hkd : kd.WellFormed) : ∀ kd' ∈ s.set i kd, kd'.WellFormed := by
  intro kd' hmem
  rcases List.mem_or_eq_of_mem_set hmem with h | rfl
  · exact hs kd' h
  · exact hkd

theorem wellFormed_append {s : List Knowndev} {kd : Knowndev} (hs : ∀ kd ∈ s, kd.WellFormed)
    (hkd : kd.WellFormed) : ∀ kd' ∈ s ++ [kd], kd'.WellFormed := by
  intro kd' hmem
  rcases List.mem_append.mp hmem with h | h
  · exact hs kd' h
  · rw [List.mem_singleton.mp h]
    exact hkd

theorem wellFormed_step {s s' : List Knowndev} {e : VfslistEvent} (hs : ∀ kd ∈ s, kd.WellFormed)
    (h : vfslistSystem.next s e = some s') : ∀ kd ∈ s', kd.WellFormed := by
  -- an error return changes nothing; a success is one of the three shapes above
  let WF : List Knowndev → Prop := fun t => ∀ kd ∈ t, kd.WellFormed
  cases e with
  | adddev devname dev mountable env =>
    refine Returns.returned (P := WF) (vfsDoadd_keepsOnErr _ _ _ _ _)
      (vfsDoadd_returns _ _ _ _ _ _) hs ?_ h
    rintro _ t ⟨vnode, -, -, rfl⟩
    exact wellFormed_append hs (wellFormed_newKnowndev fun h => by cases h)
  | addfs devname fs env =>
    refine Returns.returned (P := WF) (vfsDoadd_keepsOnErr _ _ _ _ _)
      (vfsDoadd_returns _ _ _ _ _ _) hs ?_ h
    rintro _ t ⟨vnode, -, -, rfl⟩
    exact wellFormed_append hs (wellFormed_newKnowndev fun _ => ⟨rfl, rfl⟩)
  | mount devname result =>
    refine Returns.returned (P := WF) (vfsMount_keepsOnErr _ _) (vfsMount_returns _ _ _) hs ?_ h
    rintro _ t ⟨i, kd, dev, fs, -, hraw, hdev, -, rfl⟩
    exact wellFormed_set hs (wellFormed_set_fs (by rw [hdev]; rfl) _)
  | unmount devname sync unmount =>
    refine Returns.returned (P := WF) (vfsUnmount_keepsOnErr _ _ _) (vfsUnmount_returns _ _ _ _)
      hs ?_ h
    rintro _ t ⟨i, kd, -, hraw, hdev, rfl⟩
    exact wellFormed_set hs (wellFormed_set_fs hdev _)

/-- **Every entry of a reachable table is well formed.** -/
theorem wellFormed_reachable {s : List Knowndev} (hs : vfslistSystem.Reachable s) :
    ∀ kd ∈ s, kd.WellFormed := by
  have hind : vfslistSystem.Inductive fun s => ∀ kd ∈ s, kd.WellFormed :=
    ⟨fun _ h => (by cases h), fun _ _ _ hs h => wellFormed_step hs h⟩
  exact hind.reachable hs

/-! ### `vfs_getroot` -/

/-- What the comment on `struct knowndev` says the name `devname` of the entry resolves to, and
`none` when it is none of the entry's names: a name of a mounted file system gives its root, the
name of a mountable device with nothing mounted `ENXIO`, the raw name or the name of a device
that is not mountable the device itself. -/
def Knowndev.answer (kd : Knowndev) (devname : List UInt8) : Option (Except Int Root) :=
  match kd.kdFs with
  | some fs =>
    if kd.kdName = devname ∨ fs.volname = some devname then some (.ok (.fsRoot fs))
    else if kd.kdRawname = some devname then some (.ok (.device kd.kdVnode))
    else none
  | none =>
    if kd.kdName = devname then
      some (if kd.kdRawname.isSome then .error ENXIO else .ok (.device kd.kdVnode))
    else if kd.kdRawname = some devname then some (.ok (.device kd.kdVnode))
    else none

/-- One round of the loop: a well-formed entry that has the name answers as documented, and
one that does not passes the name on. -/
theorem vfsGetrootLoop_cons {devname : List UInt8} {kd : Knowndev} (rest s : List Knowndev)
    (hwf : kd.WellFormed) :
    vfsGetrootLoop devname (kd :: rest) s =
      match kd.answer devname with
      | some r => ofExcept r s
      | none => vfsGetrootLoop devname rest s := by
  have hraw := hwf.device_of_raw
  rw [vfsGetrootLoop, Knowndev.answer]
  cases hfs : kd.kdFs with
  | some fs =>
    by_cases hn : kd.kdName = devname ∨ fs.volname = some devname
    · simp [hn]
    · obtain ⟨hname, hvol⟩ := not_or.mp hn
      by_cases hr : kd.kdRawname = some devname
      · simp [hname, hvol, hr, bind_apply, hraw (by simp [hr])]
      · simp [hname, hvol, hr]
  | none =>
    -- without a file system the entry has a device
    have hdev : kd.kdDevice.isSome := by
      cases hd : kd.kdDevice with
      | some _ => rfl
      | none => simpa [hfs] using (hwf.fs_of_no_device hd).1
    by_cases hn : kd.kdName = devname
    · cases hr : kd.kdRawname <;> simp [hn, hdev, bind_apply]
    · by_cases hr : kd.kdRawname = some devname
      · simp [hn, hr, hdev, bind_apply]
      · simp [hn, hr]

section Getroot

variable {devname : List UInt8} (s : List Knowndev)

theorem vfsGetrootLoop_first {post : List Knowndev} {kd : Knowndev} {r : Except Int Root}
    (hkd : kd.answer devname = some r) :
    ∀ pre : List Knowndev, (∀ kd' ∈ pre ++ kd :: post, kd'.WellFormed) →
      (∀ kd' ∈ pre, kd'.answer devname = none) →
      vfsGetrootLoop devname (pre ++ kd :: post) s = ofExcept r s := by
  intro pre
  induction pre with
  | nil =>
    intro hwf _
    rw [List.nil_append, vfsGetrootLoop_cons _ _ (hwf kd List.mem_cons_self), hkd]
  | cons kd' pre ih =>
    intro hwf hpre
    rw [List.cons_append, vfsGetrootLoop_cons _ _ (hwf kd' List.mem_cons_self),
      hpre kd' List.mem_cons_self]
    exact ih (fun k hk => hwf k (List.mem_cons_of_mem _ hk))
      fun k hk => hpre k (List.mem_cons_of_mem _ hk)

theorem vfsGetrootLoop_none : ∀ l : List Knowndev, (∀ kd ∈ l, kd.WellFormed) →
    (∀ kd ∈ l, kd.answer devname = none) → vfsGetrootLoop devname l s = .error (.err ENODEV) s
  | [], _, _ => rfl
  | kd :: rest, hwf, hnone => by
    rw [vfsGetrootLoop_cons _ _ (hwf kd List.mem_cons_self), hnone kd List.mem_cons_self]
    exact vfsGetrootLoop_none rest (fun k hk => hwf k (List.mem_cons_of_mem _ hk))
      fun k hk => hnone k (List.mem_cons_of_mem _ hk)

end Getroot

/-- **`vfs_getroot` answers as the first entry that has the name.** -/
theorem vfsGetroot_first {devname : List UInt8} {pre post : List Knowndev} {kd : Knowndev}
    {r : Except Int Root} (hwf : ∀ kd' ∈ pre ++ kd :: post, kd'.WellFormed)
    (hpre : ∀ kd' ∈ pre, kd'.answer devname = none) (hkd : kd.answer devname = some r) :
    Vfslist.vfsGetroot devname (pre ++ kd :: post) = ofExcept r (pre ++ kd :: post) := by
  rw [Vfslist.vfsGetroot, bind_apply, get_apply]
  exact vfsGetrootLoop_first _ hkd pre hwf hpre

/-- A name no entry has is `ENODEV`. -/
theorem vfsGetroot_none {devname : List UInt8} {s : List Knowndev}
    (hwf : ∀ kd ∈ s, kd.WellFormed) (hnone : ∀ kd ∈ s, kd.answer devname = none) :
    Vfslist.vfsGetroot devname s = .error (.err ENODEV) s := by
  rw [Vfslist.vfsGetroot, bind_apply, get_apply]
  exact vfsGetrootLoop_none s s hwf hnone

/-- Two disks `lhd0` and `lhd1` are added, and a volume named `lhd0` is mounted on `lhd1`: the
name `lhd0` is then the name of one entry and the volume name of another. With `lhd0` added
first, `vfs_getroot("lhd0")` is `ENXIO`; with `lhd1` added first, on the same entries, it is the
root of the volume. -/
theorem vfsGetroot_volname_shadowed :
    ∃ (devname : List UInt8) (fs : KFs) (s₁ s₂ : List Knowndev),
      vfslistSystem.Reachable s₁ ∧ vfslistSystem.Reachable s₂ ∧ s₁.Perm s₂ ∧
      (∃ kd ∈ s₁, kd.kdName = devname ∧ kd.kdRawname.isSome ∧ kd.kdFs = none) ∧
      (∃ kd ∈ s₁, kd.kdName ≠ devname ∧ kd.kdFs = some fs ∧ fs.volname = some devname) ∧
      Vfslist.vfsGetroot devname s₁ = .error (.err ENXIO) s₁ ∧
      Vfslist.vfsGetroot devname s₂ = .ok (.fsRoot fs) s₂ := by
  -- the bytes of `lhd0`, `lhd1` and `raw`
  have hrun₁ : vfslistSystem.run vfslistSystem.init
      [.adddev [108, 104, 100, 48] 1 true ⟨true, true, some 1, true, 0⟩,
        .adddev [108, 104, 100, 49] 2 true ⟨true, true, some 2, true, 0⟩,
        .mount [108, 104, 100, 49] (.ok ⟨some [108, 104, 100, 48], 3⟩)] =
      some [⟨[108, 104, 100, 48], some [108, 104, 100, 48, 114, 97, 119], some 1, 1, none⟩,
        ⟨[108, 104, 100, 49], some [108, 104, 100, 49, 114, 97, 119], some 2, 2,
          some ⟨some [108, 104, 100, 48], 3⟩⟩] := by
    decide
  have hrun₂ : vfslistSystem.run vfslistSystem.init
      [.adddev [108, 104, 100, 49] 2 true ⟨true, true, some 2, true, 0⟩,
        .adddev [108, 104, 100, 48] 1 true ⟨true, true, some 1, true, 0⟩,
        .mount [108, 104, 100, 49] (.ok ⟨some [108, 104, 100, 48], 3⟩)] =
      some [⟨[108, 104, 100, 49], some [108, 104, 100, 49, 114, 97, 119], some 2, 2,
          some ⟨some [108, 104, 100, 48], 3⟩⟩,
        ⟨[108, 104, 100, 48], some [108, 104, 100, 48, 114, 97, 119], some 1, 1, none⟩] := by
    decide
  refine ⟨_, _, _, _, Lts.System.Reachable.init.run hrun₁, Lts.System.Reachable.init.run hrun₂,
    List.Perm.swap _ _ _, ⟨_, List.mem_cons_self, rfl, rfl, rfl⟩,
    ⟨_, List.mem_cons_of_mem _ List.mem_cons_self, by decide, rfl, rfl⟩, ?_, ?_⟩
  · rfl
  · rfl

end Os161

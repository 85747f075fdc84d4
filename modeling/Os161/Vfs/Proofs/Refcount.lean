import Os161.Vfs.Path
import Os161.Fs.Sfs.Proofs.Vnode
import Os161.Lib.Lts

/-!
# Vnode references across the VFS layer

A vnode's `vn_refcount` should count the references handed out and not given back: those of
`bootfs_vnode` and of the current directory, and those that `vfs_open`, `vfs_lookup` and
`vfs_lookparent` hand to their caller; its `vn_opencount` the opens not yet closed.
`VfsClient` is a process that calls the VFS layer and keeps what it is handed until it gives
it back, and `Balanced` says that every vnode in `sfs_vnodes` counts what the process holds.

`vnode_decref` only prints an error of `VOP_RECLAIM` ("XXX: lame"), and `sfs_reclaim` can fail
once the last reference has gone: the `VOP_TRUNCATE` of a file without links reads the file's
indirect block, and the read fails when the disk reports a media error on all eleven tries.

* `sfsReclaim_error_refState`: an error return of `sfs_reclaim` leaves `sfs_vnodes` and every
  count as they were, since only `VOP_TRUNCATE` and `sfs_sync_inode` return errors and the file
  I/O never touches either (`sfsTruncate_refState`, `sfsSyncInode_refState`);
* `vnodeDecref_of_reclaim_error`: `vnode_decref` then returns normally, with the vnode still
  loaded and its count at 1, and `decref_reclaim_error_unbalanced` that from any balanced state
  the process's `VOP_DECREF` of its last reference leaves the counts unbalanced;
* `vfsRemove_strands_vnode`: on the sample volume, `vfs_remove` of `big` returns 0 and leaves
  the vnode of `big` in `sfs_vnodes`, counted once and held by nobody.
-/

namespace Os161

open Bytes Exec

namespace Sfs

/-- The addresses of the vnodes in `sfs_vnodes`. -/
def loadedAt (s : Sfs) : List Nat := s.vnodes.elems.filterMap id

/-- The counts of every `struct sfs_vnode`, by address. -/
def counts (s : Sfs) : List (Option (Nat × Nat)) :=
  s.heap.map (Option.map fun v => (v.vnRefcount, v.vnOpencount))

/-- What reference counting reads of the volume: `sfs_vnodes` and the counts. -/
def refState (s : Sfs) : KArray Nat × List (Option (Nat × Nat)) := (s.vnodes, s.counts)

end Sfs

/-! ### The file I/O leaves the vnode table and the counts alone -/

section Frame

variable (r : KArray Nat × List (Option (Nat × Nat)))

/-- A store into a vnode that keeps its two counts keeps the counts of all vnodes. -/
theorem counts_set {s : Sfs} {sv : Nat} {v w : SfsVnode} (hv : s.heap[sv]? = some (some v))
    (hw : w.vnRefcount = v.vnRefcount ∧ w.vnOpencount = v.vnOpencount) :
    ({ s with heap := s.heap.set sv (some w) } : Sfs).counts = s.counts := by
  have hlt : sv < s.heap.length := (List.getElem?_eq_some_iff.mp hv).1
  apply List.ext_getElem?
  intro i
  simp only [Sfs.counts, List.map_set, List.getElem?_set, List.getElem?_map, List.length_map]
  split_ifs with h
  · subst h
    simp [hv, hw]
  · rfl

theorem modifyVnode_refState (sv : Nat) {f : SfsVnode → SfsVnode}
    (hf : ∀ v, (f v).vnRefcount = v.vnRefcount ∧ (f v).vnOpencount = v.vnOpencount) :
    Keeps (fun s : Sfs => s.refState = r) (modifyVnode sv f) := by
  intro s hs
  rcases hv : s.heap[sv]? with _ | _ | v
  · rw [modifyVnode, bind_apply, getVnode_apply, hv]
    exact hs
  · rw [modifyVnode, bind_apply, getVnode_apply, hv]
    exact hs
  · show (final (modifyVnode sv f s)).refState = r
    rw [modifyVnode_of_heap f hv, ← hs]
    exact congrArg (Prod.mk s.vnodes) (counts_set hv (hf v))

theorem sfsBfree_refState (b : Nat) : Keeps (fun s : Sfs => s.refState = r) (sfsBfree b) :=
  Keeps.bind (Keeps.focus_put fun _ _ h => h) fun _ => Keeps.modify fun _ h => h

theorem sfsTruncateDirect_refState (sv blocklen : Nat) :
    ∀ i k, Keeps (fun s : Sfs => s.refState = r) (sfsTruncateDirect sv blocklen i k)
  | _, 0 => Keeps.pure _
  | i, k + 1 => by
    rw [sfsTruncateDirect]
    refine Keeps.bind (getVnode_keeps _ sv) fun v => ?_
    dsimp only
    have ih := sfsTruncateDirect_refState sv blocklen (i + 1) k
    exact Keeps.ite (Keeps.bind (sfsBfree_refState r _) fun _ =>
      Keeps.bind (modifyVnode_refState r sv fun _ => ⟨rfl, rfl⟩) fun _ => ih) ih

theorem sfsTruncateIndirect_refState (blocklen : Nat) :
    ∀ j k idbuf hasnonzero iddirty, Keeps (fun s : Sfs => s.refState = r)
      (sfsTruncateIndirect blocklen j k idbuf hasnonzero iddirty)
  | _, 0, _, _, _ => Keeps.pure _
  | j, k + 1, idbuf, hasnonzero, iddirty => by
    rw [sfsTruncateIndirect]
    -- the loop goes on from both branches, with the entry cleared or not
    have ih : ∀ p : Buf × Bool, Keeps (fun s : Sfs => s.refState = r)
        (sfsTruncateIndirect blocklen (j + 1) k p.1 (hasnonzero || decide (idEntry p.1 j ≠ 0)) p.2) :=
      fun p => sfsTruncateIndirect_refState blocklen _ _ _ _ _
    exact Keeps.ite (Keeps.bind (sfsBfree_refState r _) fun _ => Keeps.bind (Keeps.pure _) ih)
      (Keeps.bind (Keeps.pure _) ih)

theorem sfsTruncate_refState (sv : Nat) (len : Int) :
    Keeps (fun s : Sfs => s.refState = r) (sfsTruncate sv len) := by
  rw [sfsTruncate]
  refine Keeps.bind (sfsTruncateDirect_refState r sv _ _ _) fun _ =>
    Keeps.bind (getVnode_keeps _ sv) fun v => ?_
  dsimp only
  -- every exit ends with the store of the new size
  have hsize := modifyVnode_refState r sv (f := fun v =>
    { v with svI := setSfiSize v.svI (Word.ofInt 32 len), svDirty := true }) fun _ => ⟨rfl, rfl⟩
  refine Keeps.ite (Keeps.bind (sfsRblock_keeps (fun _ _ h => h) _ _) fun _ =>
    Keeps.bind (sfsTruncateIndirect_refState r _ _ _ _ _ _) fun _ => ?_) hsize
  exact Keeps.ite (Keeps.bind (sfsBfree_refState r _) fun _ =>
      Keeps.bind (modifyVnode_refState r sv fun _ => ⟨rfl, rfl⟩) fun _ => hsize)
    (Keeps.ite (Keeps.bind (sfsWblock_keeps (fun _ _ h => h) _ _) fun _ => hsize) hsize)

theorem vnodeCheck_keeps (P : Sfs → Prop) (sv : Nat) : Keeps P (vnodeCheck sv) :=
  Keeps.bind (getVnode_keeps _ sv) fun _ => Keeps.bind (Keeps.assert _) fun _ => Keeps.pure _

theorem vopTruncate_refState (sv : Nat) (len : Int) :
    Keeps (fun s : Sfs => s.refState = r) (vopTruncate sv len) := by
  refine Keeps.bind (vnodeCheck_keeps _ sv) fun ops => ?_
  cases ops
  · exact sfsTruncate_refState r sv len
  · exact Keeps.fail _

theorem sfsSyncInode_refState (sv : Nat) :
    Keeps (fun s : Sfs => s.refState = r) (sfsSyncInode sv) :=
  Keeps.bind (getVnode_keeps _ sv) fun _ =>
    Keeps.ite (Keeps.bind (sfsWblock_keeps (fun _ _ h => h) _ _) fun _ =>
      modifyVnode_refState r sv fun _ => ⟨rfl, rfl⟩) (Keeps.pure _)

end Frame

/-! ### What cannot return an error code -/

theorem getVnode_noErr (sv : Nat) : NoErr (getVnode sv) := by
  intro s c s' h
  rw [getVnode_apply] at h
  split at h <;> cases h

theorem modifyVnode_noErr (sv : Nat) (f : SfsVnode → SfsVnode) : NoErr (modifyVnode sv f) :=
  NoErr.bind (getVnode_noErr sv) fun _ => NoErr.modify _

theorem sfsBfree_noErr (b : Nat) : NoErr (sfsBfree b) :=
  NoErr.bind (NoErr.focus (NoErr.bind NoErr.get fun _ => NoErr.bind (NoErr.assert _) fun _ =>
    NoErr.bind (NoErr.assert _) fun _ => NoErr.set _)) fun _ => NoErr.modify _

theorem arrayRemove_noErr {β : Type} (i : Nat) : NoErr (arrayRemove i : Exec Int (KArray β) Unit) :=
  NoErr.bind NoErr.get fun _ => NoErr.bind (NoErr.assert _) fun _ =>
    NoErr.bind (NoErr.assert _) fun _ => NoErr.set _

theorem vnodeCleanup_noErr (sv : Nat) : NoErr (vnodeCleanup sv) :=
  NoErr.bind (getVnode_noErr sv) fun _ => NoErr.bind (NoErr.assert _) fun _ =>
    NoErr.bind (NoErr.assert _) fun _ => modifyVnode_noErr _ _

/-! ### A failed reclaim -/

theorem sfsReclaim_error_refState {s s' : Sfs} {sv : Nat} {v : SfsVnode} {e : Int}
    (hv : s.heap[sv]? = some (some v)) (h1 : v.vnRefcount = 1)
    (he : sfsReclaim sv s = .error (.err e) s') : s'.refState = s.refState := by
  rw [sfsReclaim, bind_of_ok (getVnode_of_heap hv)] at he
  simp only [h1, ne_eq, not_true_eq_false, if_false] at he
  refine (?_ : KeepsOnErr (fun t : Sfs => t.refState = s.refState) _) s e s' rfl he
  -- only `VOP_TRUNCATE` and `sfs_sync_inode` return error codes, and both keep the counts;
  -- from there on `sfs_reclaim` can only halt
  refine KeepsOnErr.ite (KeepsOnErr.bind (vopTruncate_refState _ sv 0) fun _ => ?_) ?_ <;>
    refine KeepsOnErr.bind (sfsSyncInode_refState _ sv) fun _ => NoErr.keepsOnErr ?_ <;>
    refine NoErr.bind (getVnode_noErr sv) fun _ =>
      NoErr.ite (NoErr.bind (sfsBfree_noErr _) fun _ => ?_) ?_ <;>
    exact NoErr.bind NoErr.get fun _ => NoErr.bind (NoErr.assert _) fun _ =>
      NoErr.bind (NoErr.focus (arrayRemove_noErr _)) fun _ =>
      NoErr.bind (vnodeCleanup_noErr sv) fun _ => NoErr.modify _


/-- **`vnode_decref` hides a failed reclaim.** When the last reference to a vnode goes and
`sfs_reclaim` returns an error, `vnode_decref` returns normally, and `sfs_vnodes` and every
count are as they were: the vnode stays loaded, with a count of 1. -/
theorem vnodeDecref_of_reclaim_error {s s' : Sfs} {sv : Nat} {v : SfsVnode} {e : Int}
    (hv : s.heap[sv]? = some (some v)) (h1 : v.vnRefcount = 1)
    (he : sfsReclaim sv s = .error (.err e) s') :
    vnodeDecref sv s = .ok () s' ∧ s'.refState = s.refState := by
  refine ⟨?_, sfsReclaim_error_refState hv h1 he⟩
  rw [vnodeDecref, bind_of_ok (getVnode_of_heap hv)]
  simp [h1, bind_apply, attempt_of_err he]

/-! ### A process over the VFS layer -/

/-- A call a process makes to the VFS layer. `close` and `decref` give back a vnode that an
earlier call handed to the process. -/
inductive VfsCall
  | open (path : CStr) (openflags : Int)
  | close (vn : Nat)
  | lookup (path : CStr)
  | lookparent (path : CStr)
  | decref (vn : Nat)
  | chdir (path : CStr)
  | remove (path : CStr)
  | rename (oldpath newpath : CStr)
  | link (oldpath newpath : CStr)

/-- A process over the VFS layer: the VFS state, the vnodes `vfs_lookup` and `vfs_lookparent`
handed it, and the vnodes of its opens. -/
structure VfsClient where
  vfs : Vfs
  refs : List Nat
  opens : List Nat

namespace VfsClient

/-- The references to the vnode at `sv` that are held: the process's own, one for each of its
opens, `bootfs_vnode`'s and the current directory's. -/
def held (c : VfsClient) (sv : Nat) : Nat :=
  c.refs.count sv + c.opens.count sv + (if c.vfs.bootfsVnode = some sv then 1 else 0) +
    (if c.vfs.pCwd = some sv then 1 else 0)

/-- The vnode at `sv` counts the references and the opens held. -/
def countsHeld (c : VfsClient) (sv : Nat) : Bool :=
  match c.vfs.sfs.heap[sv]?.join with
  | some v => v.vnRefcount == c.held sv && v.vnOpencount == c.opens.count sv
  | none => false

/-- Every vnode in `sfs_vnodes` counts exactly the references and opens held. -/
def Balanced (c : VfsClient) : Prop := ∀ sv ∈ c.vfs.sfs.loadedAt, c.countsHeld sv = true

instance : DecidablePred Balanced := fun c =>
  inferInstanceAs (Decidable (∀ sv ∈ c.vfs.sfs.loadedAt, c.countsHeld sv = true))

/-- Run a call: a return hands its result to the process (`k`), an error return hands it
nothing, and a panic ends the run. -/
def call {α : Type} (c : VfsClient) (x : Exec Int Vfs α) (k : α → VfsClient → VfsClient) :
    Option VfsClient :=
  match x c.vfs with
  | .ok a v => some (k a { c with vfs := v })
  | .error (.err _) v => some { c with vfs := v }
  | .error .halt _ => none

/-- One call of the process. -/
def next (c : VfsClient) : VfsCall → Option VfsClient
  | .open path openflags =>
    c.call (vfsOpen path openflags) fun vn c => { c with opens := vn :: c.opens }
  | .close vn =>
    if vn ∈ c.opens then c.call (vfsClose vn) fun _ c => { c with opens := c.opens.erase vn }
    else none
  | .lookup path => c.call (vfsLookup path) fun vn c => { c with refs := vn :: c.refs }
  | .lookparent path =>
    c.call (vfsLookparent path (NAME_MAX + 1)) fun r c => { c with refs := r.1 :: c.refs }
  | .decref vn =>
    if vn ∈ c.refs then c.call (inSfs (vnodeDecref vn)) fun _ c => { c with refs := c.refs.erase vn }
    else none
  | .chdir path => c.call (vfsChdir path) fun _ c => c
  | .remove path => c.call (vfsRemove path) fun _ c => c
  | .rename oldpath newpath => c.call (vfsRename oldpath newpath) fun _ c => c
  | .link oldpath newpath => c.call (vfsLink oldpath newpath) fun _ c => c

end VfsClient

/-- The process and the VFS layer, from a VFS state in which the process holds nothing. -/
def vfsSystem (v₀ : Vfs) : Lts.System VfsClient VfsCall := ⟨⟨v₀, [], []⟩, VfsClient.next⟩

/-! ### Giving back the last reference -/

/-- Equal counts give the vnode at each address the same reference count. -/
theorem refcount_of_counts {s s' : Sfs} {sv : Nat} {v : SfsVnode} (h : s'.counts = s.counts)
    (hv : s.heap[sv]? = some (some v)) :
    ∃ v', s'.heap[sv]? = some (some v') ∧ v'.vnRefcount = v.vnRefcount := by
  have hsv := congrArg (·[sv]?) h
  simp only [Sfs.counts, List.getElem?_map, hv, Option.map_some] at hsv
  rcases hs' : s'.heap[sv]? with _ | _ | v'
  · simp [hs'] at hsv
  · simp [hs'] at hsv
  · simp only [hs', Option.map_some, Option.some.injEq, Prod.mk.injEq] at hsv
    exact ⟨v', rfl, hsv.1⟩

/-- A call of the volume's code that returns, run from the VFS layer. -/
theorem inSfs_of_ok {α : Type} {x : Exec Int Sfs α} {v : Vfs} {a : α} {s' : Sfs}
    (h : x v.sfs = .ok a s') : inSfs x v = .ok a { v with sfs := s' } := by
  rw [inSfs, focus, h]

/-- **Giving back the last reference to a vnode whose reclaim fails unbalances the counts.**
From a balanced state, the process's `VOP_DECREF` of a vnode it holds the only reference to
returns, and leaves the vnode in `sfs_vnodes` with a count that nothing holds. -/
theorem decref_reclaim_error_unbalanced {c : VfsClient} {sv : Nat} {v : SfsVnode} {e : Int}
    {s' : Sfs} (hb : c.Balanced) (hsv : sv ∈ c.vfs.sfs.loadedAt) (href : sv ∈ c.refs)
    (hv : c.vfs.sfs.heap[sv]? = some (some v)) (h1 : v.vnRefcount = 1)
    (he : sfsReclaim sv c.vfs.sfs = .error (.err e) s') :
    ∃ c', c.next (.decref sv) = some c' ∧ sv ∈ c'.vfs.sfs.loadedAt ∧ c'.held sv = 0 ∧
      ¬ c'.Balanced := by
  obtain ⟨hdec, hrs⟩ := vnodeDecref_of_reclaim_error hv h1 he
  obtain ⟨hvn, hcounts⟩ := Prod.mk.inj hrs
  obtain ⟨v', hv', h1'⟩ := refcount_of_counts hcounts hv
  -- before the call the process's reference is the only one held
  have hheld : c.held sv = 1 := by
    have := hb sv hsv
    simp only [VfsClient.countsHeld, hv, Option.join_some, Bool.and_eq_true, beq_iff_eq] at this
    omega
  have hcount : 0 < c.refs.count sv := List.count_pos_iff.mpr href
  let c' : VfsClient := { c with vfs := { c.vfs with sfs := s' }, refs := c.refs.erase sv }
  have hnext : c.next (.decref sv) = some c' := by
    simp only [VfsClient.next, href, if_true, VfsClient.call, inSfs_of_ok hdec]
    rfl
  have hheld' : c'.held sv = 0 := by
    simp only [VfsClient.held, c', List.count_erase_self] at hheld ⊢
    omega
  have hloaded : sv ∈ c'.vfs.sfs.loadedAt := by
    simpa only [Sfs.loadedAt, c', hvn] using hsv
  refine ⟨c', hnext, hloaded, hheld', fun hb' => ?_⟩
  have := hb' sv hloaded
  simp [VfsClient.countsHeld, c', hv', hheld', h1', h1] at this

/-! ### On the sample volume -/

/-- The device name `lhd0`. -/
def lhd0 : List UInt8 := [108, 104, 100, 48]

/-- The sample volume as the boot file system, its root directory also the current directory
(`vfs_setcurdir` takes the second reference), with the disk's next outcomes `media`. -/
def sampleVfs (media : List Bool) : Vfs :=
  let v : Vfs := { sfs := sampleVolume [] media, bootfsVnode := some 0, pCwd := none,
                   kdName := lhd0, spVolname := [] }
  match vfsSetcurdir 0 v with
  | .ok () v => v
  | .error _ v => v

/-- The disk's outcomes for `vfs_remove` of `big`: the four sector operations of `sfs_remove`
(the reads of the directory block and of the inode of `big`, and the read and write of the
directory block by `sfs_dir_unlink`) succeed, and all eleven tries at the indirect block of
`big` fail. -/
def removeFaults : List Bool := List.replicate 4 false ++ List.replicate 11 true

/-- **`vfs_remove` strands the vnode of the file it removes.** From the balanced start, where
the process holds nothing, `vfs_remove` of `big` returns 0 and `big` has no entry any more, but
the vnode of its inode stays in `sfs_vnodes` with a count of 1 that nothing holds: the
truncate in `sfs_reclaim` failed on the indirect block and `vnode_decref` ignored it. -/
theorem vfsRemove_strands_vnode :
    (vfsSystem (sampleVfs removeFaults)).init.Balanced ∧
    ∃ c, (vfsSystem (sampleVfs removeFaults)).Reachable c ∧
      vfsRemove bigName (sampleVfs removeFaults) = .ok () c.vfs ∧ c.vfs.sfs.dirEntries = [] ∧
      (c.vfs.sfs.loaded.find? (·.svIno = 4)).map (·.vnRefcount) = some 1 ∧ ¬ c.Balanced := by
  refine ⟨by decide_cbv, ?_⟩
  have h : returnsWith (fun _ v => v.sfs.dirEntries == [] &&
      (v.sfs.loaded.find? (·.svIno = 4)).map (·.vnRefcount) == some 1 &&
      !decide (VfsClient.Balanced ⟨v, [], []⟩))
      (vfsRemove bigName (sampleVfs removeFaults)) = true := by
    decide_cbv
  obtain ⟨_, v, hr, hp⟩ := returnsWith_eq_true.1 h
  simp only [Bool.and_eq_true, beq_iff_eq, Bool.not_eq_true', decide_eq_false_iff_not] at hp
  refine ⟨⟨v, [], []⟩, .step (.remove bigName) .init ?_, hr, hp.1.1, hp.1.2, hp.2⟩
  simp [vfsSystem, VfsClient.next, VfsClient.call, hr]

end Os161

import Os161.Vfs.Proofs.Cwd

/-!
# `vfs_setbootfs` rejects every name with a colon (`vfs/vfslookup.c`)

`vfs_setbootfs` copies the name into `tmp`, and `s = strchr(tmp, ':')` points at the first
colon, if there is one. "If there's a colon, it must be at the end" is tested as
`strlen(s) > 0`, but `s` starts with the colon itself, so the test holds of every name with a
colon, at the end or not: all of them are rejected with `EINVAL` before anything changes
(`vfsSetbootfs_of_colon`). A name without a colon gets one appended and goes on to `vfs_chdir`
(`vfsSetbootfs_of_not_colon`). So `vfs_setbootfs("lhd0:")` fails where `vfs_setbootfs("lhd0")`
sets the boot filesystem (`vfsSetbootfs_colon_einval`); `cmd_bootfs` strips a trailing colon
before the call, and the menu does not see it.
-/

namespace Os161

open Bytes Exec

/-! ### `strchr(tmp, ':')` -/

theorem strchr_colon_of_mem {l : List UInt8} (h : ':'.toUInt8 ∈ l) :
    ∃ i, l.findIdx? (· == ':'.toUInt8) = some i ∧ i < l.length := by
  have hsome : (l.findIdx? (· == ':'.toUInt8)).isSome := by
    rw [List.findIdx?_isSome, List.any_eq_true]
    exact ⟨_, h, beq_self_eq_true _⟩
  obtain ⟨i, hi⟩ := Option.isSome_iff_exists.mp hsome
  obtain ⟨hlt, -⟩ := List.findIdx?_eq_some_iff_getElem.mp hi
  exact ⟨i, hi, hlt⟩

theorem strchr_colon_of_not_mem {l : List UInt8} (h : ':'.toUInt8 ∉ l) :
    l.findIdx? (· == ':'.toUInt8) = none := by
  rw [List.findIdx?_eq_none_iff]
  intro x hx
  rw [beq_eq_false_iff_ne]
  rintro rfl
  exact h hx

/-- A name that fits is copied whole. -/
theorem CStr.take_of_le {s : CStr} {n : ℕ} (h : s.length ≤ n) : s.take n = s := by
  cases s
  simp only [CStr.take, List.take_of_length_le h]

/-! ### The two ways through `vfs_setbootfs` -/

/-- **Every name with a colon in its first `NAME_MAX - 1` bytes is rejected** with `EINVAL`,
and nothing changes. -/
theorem vfsSetbootfs_of_colon {fsname : CStr}
    (h : ':'.toUInt8 ∈ (fsname.take (NAME_MAX - 1)).bytes) (v : Vfs) :
    vfsSetbootfs fsname v = .error (.err EINVAL) v := by
  obtain ⟨i, hi, hlt⟩ := strchr_colon_of_mem h
  -- `strlen(s)` counts the colon `s` points at
  have hsuffix : 0 < ((fsname.take (NAME_MAX - 1)).bytes.drop i).length := by
    rw [List.length_drop]
    omega
  simp only [vfsSetbootfs, bind_apply, hi, if_pos hsuffix, fail_apply]

/-- A name without a colon in its first `NAME_MAX - 1` bytes gets one appended, and the boot
filesystem becomes the directory `vfs_chdir` goes to. -/
theorem vfsSetbootfs_of_not_colon {fsname : CStr}
    (h : ':'.toUInt8 ∉ (fsname.take (NAME_MAX - 1)).bytes) (v : Vfs) :
    vfsSetbootfs fsname v = (do
      vfsChdir (fsname.take (NAME_MAX - 1)).withColon
      let newguy ← vfsGetcurdir
      changeBootfs (some newguy)) v := by
  simp only [vfsSetbootfs, bind_apply, strchr_colon_of_not_mem h, pure_apply]

/-- **`vfs_setbootfs` of a name with a colon at its end is not that of the name without it.**
For every name without a colon that fits with one added: `vfs_setbootfs(name ":")` fails with
`EINVAL` and changes nothing, while `vfs_setbootfs(name)` runs `vfs_chdir(name ":")` and sets
the boot filesystem to where it goes. Every name with a colon in its first `NAME_MAX - 1`
bytes, at its end or not, is rejected the same way. -/
theorem vfsSetbootfs_colon_einval {name : CStr} (hn : ':'.toUInt8 ∉ name.bytes)
    (hlen : name.length + 1 ≤ NAME_MAX - 1) (v : Vfs) :
    vfsSetbootfs name.withColon v = .error (.err EINVAL) v ∧
      vfsSetbootfs name v = (do
        vfsChdir name.withColon
        let newguy ← vfsGetcurdir
        changeBootfs (some newguy)) v ∧
      ∀ fsname : CStr, ':'.toUInt8 ∈ (fsname.take (NAME_MAX - 1)).bytes →
        vfsSetbootfs fsname v = .error (.err EINVAL) v := by
  have hfits : name.take (NAME_MAX - 1) = name := CStr.take_of_le (by omega)
  have hfits' : name.withColon.take (NAME_MAX - 1) = name.withColon :=
    CStr.take_of_le (by simp only [CStr.length, CStr.withColon, List.length_append]; exact hlen)
  have hcolon : ':'.toUInt8 ∈ (name.withColon.take (NAME_MAX - 1)).bytes := by
    rw [hfits']
    simp [CStr.withColon]
  refine ⟨vfsSetbootfs_of_colon hcolon v, ?_, fun fsname h => vfsSetbootfs_of_colon h v⟩
  rw [vfsSetbootfs_of_not_colon (by rw [hfits]; exact hn), hfits]

/-- On the sample volume, known as `lhd0`: `vfs_setbootfs("lhd0:")` fails with `EINVAL`, and
`vfs_setbootfs("lhd0")` returns 0 with the root as the boot filesystem. -/
theorem vfsSetbootfs_colon_einval_lhd0 :
    vfsSetbootfs (CStr.withColon ⟨lhd0, by decide⟩) (sampleVfs []) =
        .error (.err EINVAL) (sampleVfs []) ∧
      ∃ v', vfsSetbootfs ⟨lhd0, by decide⟩ (sampleVfs []) = .ok () v' ∧
        v'.bootfsVnode = some 0 := by
  obtain ⟨hcolon, hseq, -⟩ :=
    @vfsSetbootfs_colon_einval ⟨lhd0, by decide⟩ (by decide) (by decide) (sampleVfs [])
  have hrun : returnsWith (fun _ v' => v'.bootfsVnode == some 0) ((do
      vfsChdir (CStr.withColon ⟨lhd0, by decide⟩)
      let newguy ← vfsGetcurdir
      changeBootfs (some newguy)) (sampleVfs [])) = true := by
    decide_cbv
  obtain ⟨_, v', hr, hb⟩ := returnsWith_eq_true.1 hrun
  exact ⟨hcolon, v', hseq.trans hr, beq_iff_eq.mp hb⟩

end Os161

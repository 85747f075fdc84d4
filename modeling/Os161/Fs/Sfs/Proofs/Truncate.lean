import Os161.Fs.Sfs.Proofs.Vnode

/-!
# Which blocks `sfs_truncate` frees

The loop over the direct entries frees entry `i` when `i >= blocklen`. The loop over the
indirect block frees entry `j` when `blocklen < SFS_NDIRECT + j`: when its file block
`SFS_NDIRECT + j` lies past `blocklen`, not when it is `blocklen` (`sfsTruncateIndirect_entries`).
So the file block numbered `blocklen`, the first one past the new end, stays mapped whenever it
lies in the indirect block (`sfsTruncateIndirect_keeps_blocklen`). Truncating the sample file
`big`, 16 blocks long, to 15 blocks keeps its 16th block mapped and marked in the free map
(`sfsTruncate_keeps_block_at_blocklen`).
-/

namespace Os161

open Bytes Exec

theorem idEntry_setIdEntry_self (b : Buf) (j : Nat) : idEntry (setIdEntry b j 0) j = 0 := by
  simp [idEntry, setIdEntry, getBE_setBE]

theorem idEntry_setIdEntry_ne (b : Buf) {j j' : Nat} (v : Nat) (h : j ≠ j') :
    idEntry (setIdEntry b j v) j' = idEntry b j' :=
  getBE_setBE_of_disjoint b v (by omega)

/-- **The indirect loop frees exactly the entries past `blocklen`**: from entry `j`, `k`
rounds zero the entries `j'` in `[j, j + k)` with `blocklen < SFS_NDIRECT + j'` and leave every
other entry. -/
theorem sfsTruncateIndirect_entries {blocklen : Nat} :
    ∀ k j (idbuf : Buf) (hz dd : Bool) (s : Sfs) (idbuf' : Buf) (hz' dd' : Bool) (s' : Sfs),
      sfsTruncateIndirect blocklen j k idbuf hz dd s = .ok (idbuf', hz', dd') s' →
      ∀ j', idEntry idbuf' j' =
        if j ≤ j' ∧ j' < j + k ∧ blocklen < SFS_NDIRECT + j' then 0 else idEntry idbuf j' := by
  intro k
  induction k with
  | zero =>
    intro j idbuf hz dd s idbuf' hz' dd' s' h j'
    rw [sfsTruncateIndirect, pure_apply] at h
    cases h
    rw [if_neg (by omega)]
  | succ k ih =>
    intro j idbuf hz dd s idbuf' hz' dd' s' h j'
    rw [sfsTruncateIndirect] at h
    split_ifs at h with hc
    · -- the source frees entry `j` and zeroes it; the later rounds start at `j + 1`
      obtain ⟨_, s₁, -, h⟩ := bind_eq_ok.1 h
      obtain ⟨_, s₂, hp, h⟩ := bind_eq_ok.1 h
      cases hp
      rw [ih (j + 1) _ _ _ _ idbuf' hz' dd' s' h j']
      by_cases hj : j' = j
      · subst hj
        rw [if_neg (by omega), idEntry_setIdEntry_self, if_pos (by omega)]
      · rw [idEntry_setIdEntry_ne _ _ (Ne.symm hj)]
        split_ifs <;> omega
    · obtain ⟨_, s₂, hp, h⟩ := bind_eq_ok.1 h
      cases hp
      rw [ih (j + 1) _ _ _ _ idbuf' hz' dd' s' h j']
      by_cases hj : j' = j
      · -- kept: either not past `blocklen`, or already zero
        subst hj
        split_ifs <;> omega
      · split_ifs <;> omega

/-- The entry of file block `blocklen` survives the indirect loop. -/
theorem sfsTruncateIndirect_keeps_blocklen {blocklen j k : Nat} {idbuf idbuf' : Buf}
    {hz dd hz' dd' : Bool} {s s' : Sfs}
    (h : sfsTruncateIndirect blocklen j k idbuf hz dd s = .ok (idbuf', hz', dd') s') {j' : Nat}
    (hj : SFS_NDIRECT + j' = blocklen) : idEntry idbuf' j' = idEntry idbuf j' := by
  rw [sfsTruncateIndirect_entries k j idbuf hz dd s idbuf' hz' dd' s' h j', if_neg (by omega)]

set_option maxRecDepth 4096 in
/-- On the sample volume, `sfs_truncate` of `big` (16 blocks, the last through the indirect
block) to 7680 bytes, so `blocklen = 15`, returns 0 with `sfi_size = 7680` while file block 15
is still block 21 and block 21 is still marked in the free map. -/
theorem sfsTruncate_keeps_block_at_blocklen :
    ∃ sv s, sfsLookonce 0 bigName (sampleVolume [] []) = .ok (sv, 0) s ∧
      s.fileBlock (s.inodeOf 4) 15 = 21 ∧
      ∃ s', sfsTruncate sv 7680 s = .ok () s' ∧ sfiSize (s'.inodeOf 4) = 7680 ∧
        s'.fileBlock (s'.inodeOf 4) 15 = 21 ∧ s'.freemap.v 21 = true := by
  have h : returnsWith (fun r s => r.2 == 0 && s.fileBlock (s.inodeOf 4) 15 == 21 &&
      returnsWith (fun _ s' => sfiSize (s'.inodeOf 4) == 7680 &&
        s'.fileBlock (s'.inodeOf 4) 15 == 21 && s'.freemap.v 21)
        (sfsTruncate r.1 7680 s))
      (sfsLookonce 0 bigName (sampleVolume [] [])) = true := by
    decide_cbv
  obtain ⟨⟨sv, slot⟩, s, hrun, hp⟩ := returnsWith_eq_true.1 h
  simp only [Bool.and_eq_true, beq_iff_eq] at hp
  obtain ⟨⟨rfl, hblock⟩, htr⟩ := hp
  obtain ⟨_, s', htr, hs'⟩ := returnsWith_eq_true.1 htr
  simp only [Bool.and_eq_true, beq_iff_eq] at hs'
  obtain ⟨⟨hsize, hblock'⟩, hmark⟩ := hs'
  exact ⟨sv, s, hrun, hblock, s', htr, hsize, hblock', hmark⟩

end Os161

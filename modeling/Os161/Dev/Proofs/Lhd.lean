import Os161.Dev.Lhd

/-!
# What `lhd_io` checks, and the sectors it programs

`lhd_io` takes the first sector as `uio_offset / LHD_SECTSIZE` converted to `uint32_t`, and
checks that the request is whole sectors and that `sector + len`, a sum in 32 bits, is at most
`d_blocks`; it then programs the sectors `sector + i` in order (`lhdIo_eq`).

For an offset from 0 whose sectors are numbered below `2^32`, that is the check it means: the
request goes on exactly when it is whole sectors and the sectors from `offset / LHD_SECTSIZE`
to `(offset + resid) / LHD_SECTSIZE` are on the disk, and it then programs them
(`lhdIo_checks`). Past `2^41` bytes the conversion drops the high bits of the sector: a
one-sector write at the offset of sector `2^32 m + s` passes the check and overwrites sector `s`
(`lhdIo_sector_wraps`).
-/

namespace Os161

open Bytes Exec

/-! ### The hardware -/

/-- A sector on the disk that meets no media error: a write stores the card's buffer in it, a
read loads it into the buffer, and one media outcome is used. -/
theorem lhdHardware_ok {lh : Lhd} {sect : Nat} (isWrite : Bool) (hs : sect < lh.dBlocks)
    (hm : lh.lhMedia.head? ≠ some true) :
    lhdHardware sect isWrite lh =
      .ok 0 (if isWrite then
          { lh with lhMedia := lh.lhMedia.drop 1,
                    sectors := Function.update lh.sectors sect lh.lhBuf }
        else { lh with lhMedia := lh.lhMedia.drop 1, lhBuf := lh.sectors sect }) := by
  rcases hmed : lh.lhMedia with _ | ⟨b, rest⟩
  · cases isWrite <;> simp [lhdHardware, bind_apply, hmed, Nat.not_le.mpr hs]
  · cases b
    · cases isWrite <;> simp [lhdHardware, bind_apply, hmed, Nat.not_le.mpr hs]
    · simp [hmed] at hm

theorem lhdHardware_media {lh : Lhd} {sect : Nat} {isWrite : Bool} {rest : List Bool}
    (hs : sect < lh.dBlocks) (hm : lh.lhMedia = true :: rest) :
    lhdHardware sect isWrite lh = .ok EIO { lh with lhMedia := rest } := by
  simp [lhdHardware, bind_apply, hm, Nat.not_le.mpr hs]

/-! ### The checks -/

/-- **`lhd_io`**: the checks of alignment and of the end sector, in 32 bits, then the loop over
the sectors from `uio_offset / LHD_SECTSIZE` cut to 32 bits. -/
theorem lhdIo_eq (lh : Lhd) (u : Uio) :
    lhdIo (lh, u) =
      if Word.ofInt 32 (u.uioOffset.tmod LHD_SECTSIZE) = 0 ∧ u.uioResid % LHD_SECTSIZE = 0 ∧
          Word.ofInt 32 (Word.ofInt 32 (u.uioOffset.tdiv LHD_SECTSIZE) +
            (u.uioResid / LHD_SECTSIZE : Nat)) ≤ lh.dBlocks
      then lhdIoLoop (Word.ofInt 32 (u.uioOffset.tdiv LHD_SECTSIZE)) (u.uioRw = .write) 0
        (u.uioResid / LHD_SECTSIZE) (lh, u)
      else .error (.err EINVAL) (lh, u) := by
  simp only [lhdIo, bind_apply, get_apply]
  by_cases halign : Word.ofInt 32 (u.uioOffset.tmod LHD_SECTSIZE) = 0 ∧ u.uioResid % LHD_SECTSIZE = 0
  · -- whole sectors: the end check decides
    obtain ⟨hoff, hres⟩ := halign
    have hpass : ¬(Word.ofInt 32 (u.uioOffset.tmod LHD_SECTSIZE) ≠ 0 ∨
        u.uioResid % LHD_SECTSIZE ≠ 0) := by
      simp [hoff, hres]
    rw [if_neg hpass]
    by_cases hend : Word.ofInt 32 (Word.ofInt 32 (u.uioOffset.tdiv LHD_SECTSIZE) +
        (u.uioResid / LHD_SECTSIZE : Nat)) ≤ lh.dBlocks
    · have hc := And.intro hoff (And.intro hres hend)
      rw [if_pos hc, if_neg (Nat.not_lt.mpr hend)]
    · have hc : ¬(Word.ofInt 32 (u.uioOffset.tmod LHD_SECTSIZE) = 0 ∧
          u.uioResid % LHD_SECTSIZE = 0 ∧ Word.ofInt 32 (Word.ofInt 32 (u.uioOffset.tdiv LHD_SECTSIZE) +
            (u.uioResid / LHD_SECTSIZE : Nat)) ≤ lh.dBlocks) := fun h => hend h.2.2
      rw [if_neg hc, if_pos (Nat.lt_of_not_le hend)]
      simp
  · have hc : ¬(Word.ofInt 32 (u.uioOffset.tmod LHD_SECTSIZE) = 0 ∧
        u.uioResid % LHD_SECTSIZE = 0 ∧ Word.ofInt 32 (Word.ofInt 32 (u.uioOffset.tdiv LHD_SECTSIZE) +
          (u.uioResid / LHD_SECTSIZE : Nat)) ≤ lh.dBlocks) := fun h => halign ⟨h.1, h.2.1⟩
    have hfail : Word.ofInt 32 (u.uioOffset.tmod LHD_SECTSIZE) ≠ 0 ∨
        u.uioResid % LHD_SECTSIZE ≠ 0 := by
      tauto
    rw [if_neg hc, if_pos hfail]
    simp

/-- An offset from 0 whose sectors are numbered below `2^32`, as `lhd_io` computes them. -/
theorem lhd_sector_of_lt {n r : Nat} (hend : n + r < 2 ^ 41) :
    Word.ofInt 32 ((n : Int).tdiv LHD_SECTSIZE) = n / LHD_SECTSIZE ∧
      Word.ofInt 32 ((n : Int).tmod LHD_SECTSIZE) = n % LHD_SECTSIZE ∧
      Word.ofInt 32 ((n / LHD_SECTSIZE : Nat) + (r / LHD_SECTSIZE : Nat)) =
        n / LHD_SECTSIZE + r / LHD_SECTSIZE := by
  have hdiv : (n : Int).tdiv LHD_SECTSIZE = ((n / LHD_SECTSIZE : Nat) : Int) := rfl
  have hmod : (n : Int).tmod LHD_SECTSIZE = ((n % LHD_SECTSIZE : Nat) : Int) := rfl
  have hsum : n / LHD_SECTSIZE + r / LHD_SECTSIZE < 2 ^ 32 := by
    unfold LHD_SECTSIZE
    omega
  refine ⟨?_, ?_, ?_⟩
  · rw [hdiv]
    exact Word.ofInt_natCast_of_lt (Nat.lt_of_le_of_lt (Nat.le_add_right _ _) hsum)
  · rw [hmod]
    exact Word.ofInt_natCast_of_lt (by unfold LHD_SECTSIZE; omega)
  · exact_mod_cast Word.ofInt_natCast_of_lt hsum

/-- **Below `2^41` bytes the check is the range check.** For an offset from 0 with
`offset + resid < 2^41`, `lhd_io` returns `EINVAL` and changes nothing unless the offset and the
count are whole sectors and the sectors from `offset / LHD_SECTSIZE` up to
`(offset + resid) / LHD_SECTSIZE` are on the disk; otherwise it runs its loop from the sector
`offset / LHD_SECTSIZE`, whose `i`-th round programs the sector `offset / LHD_SECTSIZE + i`. -/
theorem lhdIo_checks {lh : Lhd} {u : Uio} (hoff : 0 ≤ u.uioOffset)
    (hend : u.uioOffset + u.uioResid < 2 ^ 41) :
    lhdIo (lh, u) =
      if u.uioOffset % LHD_SECTSIZE = 0 ∧ u.uioResid % LHD_SECTSIZE = 0 ∧
          (u.uioOffset + u.uioResid) / LHD_SECTSIZE ≤ lh.dBlocks
      then lhdIoLoop (u.uioOffset / LHD_SECTSIZE).toNat (u.uioRw = .write) 0
        (u.uioResid / LHD_SECTSIZE) (lh, u)
      else .error (.err EINVAL) (lh, u) := by
  obtain ⟨n, hn⟩ := Int.eq_ofNat_of_zero_le hoff
  have hlt : n + u.uioResid < 2 ^ 41 := by omega
  obtain ⟨hsect, hsectoff, hsum⟩ := lhd_sector_of_lt hlt
  have hs : LHD_SECTSIZE = 512 := rfl
  -- the conditions on the integers are those on the naturals
  have hcond : (Word.ofInt 32 ((n : Int).tmod LHD_SECTSIZE) = 0 ∧
      u.uioResid % LHD_SECTSIZE = 0 ∧
      Word.ofInt 32 ((n / LHD_SECTSIZE : Nat) + (u.uioResid / LHD_SECTSIZE : Nat)) ≤ lh.dBlocks) ↔
      ((n : Int) % LHD_SECTSIZE = 0 ∧ u.uioResid % LHD_SECTSIZE = 0 ∧
        ((n : Int) + u.uioResid) / LHD_SECTSIZE ≤ lh.dBlocks) := by
    rw [hsectoff, hsum, hs]
    omega
  have hstart : ((n : Int) / LHD_SECTSIZE).toNat = n / LHD_SECTSIZE := by
    rw [hs]
    omega
  rw [lhdIo_eq, hn, hsect, hstart]
  exact if_congr hcond rfl rfl

/-! ### The wrap past `2^41` bytes -/

/-- `uiomove` of a whole kernel uio made by `uio_kinit`. -/
theorem uiomove_kinit {ptr data ptr' : Buf} {p n : Nat} {pos : Int} {rw : UioRw} {iov' : Iovec}
    (hn : 0 < n) (hn' : n < 2 ^ 32)
    (ht : uioTransfer .sysspace rw ptr p n ⟨data, 0, n⟩ = .ok (ptr', iov')) :
    uiomove ptr p n (uioKinit data n pos rw) =
      .ok ptr' { uioKinit data n pos rw with uioIov := [iov'], uioResid := 0, uioOffset := pos + n } := by
  have hsub : Word.sub 32 n n = 0 := by
    rw [Word.sub_of_le (le_refl n) hn', Nat.sub_self]
  simp [uiomove, uiomoveLoop, uioKinit, bind_apply, ht, hsub, Nat.pos_iff_ne_zero.mp hn]

/-- `lhd_io` on a uio with nothing left to move does nothing. -/
theorem lhdIo_of_resid_zero {lh : Lhd} {u : Uio} (hr : u.uioResid = 0)
    (hoff : u.uioOffset.tmod LHD_SECTSIZE = 0)
    (hs : Word.ofInt 32 (u.uioOffset.tdiv LHD_SECTSIZE) ≤ lh.dBlocks) :
    lhdIo (lh, u) = .ok () (lh, u) := by
  have hw : Word.ofInt 32 (Word.ofInt 32 (u.uioOffset.tdiv LHD_SECTSIZE) : Int) =
      Word.ofInt 32 (u.uioOffset.tdiv LHD_SECTSIZE) := Word.ofInt_natCast_of_lt (Word.ofInt_lt _ _)
  simp [lhdIo, lhdIoLoop, bind_apply, hr, hoff, hw, Nat.not_lt.mpr hs]

theorem blockOffset_tdiv (b : Nat) : ((b : Int) * LHD_SECTSIZE).tdiv LHD_SECTSIZE = b :=
  Int.mul_tdiv_cancel _ (by decide)

theorem blockOffset_tmod (b : Nat) : ((b : Int) * LHD_SECTSIZE).tmod LHD_SECTSIZE = 0 :=
  Int.mul_tmod_left _ _

/-- The one-sector write of `data` by `uio_kinit` fills the card's buffer and uses up the uio. -/
theorem uiomove_kinit_sector (buf data : Buf) (pos : Int) :
    uiomove buf 0 LHD_SECTSIZE (uioKinit data LHD_SECTSIZE pos .write) =
      .ok (copy buf 0 data 0 LHD_SECTSIZE)
        { uioKinit data LHD_SECTSIZE pos .write with
          uioIov := [⟨data, LHD_SECTSIZE, 0⟩], uioResid := 0, uioOffset := pos + LHD_SECTSIZE } :=
  uiomove_kinit (by decide) (by decide) (by simp [uioTransfer])

/-- **A one-sector write from a kernel buffer** at an offset whose sector, as `lhd_io`
computes it, is `k` on the disk: the data goes into the card's buffer, the uio is used up, and
`lhd_io` returns what the card returns for sector `k`. -/
theorem lhdIo_write_sector {lh lh' : Lhd} {data : Buf} {pos : Int} {k : Nat} {r : Int}
    (hsect : Word.ofInt 32 (pos.tdiv LHD_SECTSIZE) = k) (hoff : pos.tmod LHD_SECTSIZE = 0)
    (hk : k < lh.dBlocks) (hk' : k + 1 < 2 ^ 32)
    (hhw : lhdHardware k true { lh with lhBuf := copy lh.lhBuf 0 data 0 LHD_SECTSIZE } =
      .ok r lh') :
    lhdIo (lh, uioKinit data LHD_SECTSIZE pos .write) =
      if r = 0 then
        .ok () (lh', { uioKinit data LHD_SECTSIZE pos .write with
          uioIov := [⟨data, LHD_SECTSIZE, 0⟩], uioResid := 0, uioOffset := pos + LHD_SECTSIZE })
      else
        .error (.err r) (lh', { uioKinit data LHD_SECTSIZE pos .write with
          uioIov := [⟨data, LHD_SECTSIZE, 0⟩], uioResid := 0, uioOffset := pos + LHD_SECTSIZE }) := by
  have hend : Word.ofInt 32 ((k : Int) + 1) = k + 1 := by
    exact_mod_cast Word.ofInt_natCast_of_lt hk'
  have hsect' : Word.ofInt 32 (k : Int) = k := Word.ofInt_natCast_of_lt (by omega)
  have hmove := uiomove_kinit_sector lh.lhBuf data pos
  have hone : LHD_SECTSIZE / LHD_SECTSIZE = 1 := by decide
  have hone' : (LHD_SECTSIZE : Int) / LHD_SECTSIZE = 1 := by decide
  simp only [uioKinit] at hmove ⊢
  -- the checks pass, the one round of the loop fills the buffer and calls the card
  by_cases hr : r = 0
  · simp [lhdIo, lhdIoLoop, bind_apply, hsect, hoff, hsect', hend, focus, hmove, hhw, hr, hone,
      hone', Nat.not_lt.mpr (Nat.succ_le_of_lt hk)]
  · simp [lhdIo, lhdIoLoop, bind_apply, hsect, hoff, hsect', hend, focus, hmove, hhw, hr, hone,
      hone', Nat.not_lt.mpr (Nat.succ_le_of_lt hk)]

/-- A one-sector write that meets a media error: the data is in the card's buffer, the uio is
used up, and the error is `EIO`. -/
theorem lhdIo_write_media {lh : Lhd} {data : Buf} {b : Nat} {rest : List Bool}
    (hb : b < lh.dBlocks) (hb' : b + 1 < 2 ^ 32) (hm : lh.lhMedia = true :: rest) :
    lhdIo (lh, uioKinit data LHD_SECTSIZE (b * LHD_SECTSIZE) .write) =
      .error (.err EIO) ({ lh with lhBuf := copy lh.lhBuf 0 data 0 LHD_SECTSIZE, lhMedia := rest },
        { uioKinit data LHD_SECTSIZE (b * LHD_SECTSIZE) .write with
          uioIov := [⟨data, LHD_SECTSIZE, 0⟩], uioResid := 0,
          uioOffset := b * LHD_SECTSIZE + LHD_SECTSIZE }) := by
  have hsect : Word.ofInt 32 (((b : Int) * LHD_SECTSIZE).tdiv LHD_SECTSIZE) = b := by
    rw [blockOffset_tdiv]
    exact Word.ofInt_natCast_of_lt (by omega)
  have hhw : lhdHardware b true { lh with lhBuf := copy lh.lhBuf 0 data 0 LHD_SECTSIZE } =
      .ok EIO { lh with lhBuf := copy lh.lhBuf 0 data 0 LHD_SECTSIZE, lhMedia := rest } :=
    lhdHardware_media hb hm
  have hEIO : EIO ≠ 0 := by decide
  rw [lhdIo_write_sector hsect (blockOffset_tmod b) hb hb' hhw, if_neg hEIO]

/-- A one-sector write from a kernel buffer at an offset whose sector, as `lhd_io` computes it,
is `k` on the disk: the data goes through the card's buffer to sector `k`, and the uio is used
up. -/
theorem lhdIo_write_one {lh : Lhd} {data : Buf} {pos : Int} {k : Nat}
    (hsect : Word.ofInt 32 (pos.tdiv LHD_SECTSIZE) = k) (hoff : pos.tmod LHD_SECTSIZE = 0)
    (hk : k < lh.dBlocks) (hd : lh.dBlocks < 2 ^ 32) (hmed : lh.lhMedia.head? ≠ some true) :
    lhdIo (lh, uioKinit data LHD_SECTSIZE pos .write) =
      .ok () ({ lh with
          lhBuf := copy lh.lhBuf 0 data 0 LHD_SECTSIZE,
          lhMedia := lh.lhMedia.drop 1,
          sectors := Function.update lh.sectors k (copy lh.lhBuf 0 data 0 LHD_SECTSIZE) },
        { uioKinit data LHD_SECTSIZE pos .write with
          uioIov := [⟨data, LHD_SECTSIZE, 0⟩],
          uioResid := 0,
          uioOffset := pos + LHD_SECTSIZE }) := by
  have hhw := @lhdHardware_ok { lh with lhBuf := copy lh.lhBuf 0 data 0 LHD_SECTSIZE } k
    true hk hmed
  simp only [if_true] at hhw
  rw [lhdIo_write_sector hsect hoff hk (by omega) hhw, if_pos rfl]

/-- The one-sector read into a kernel buffer by `uio_kinit`: the card's buffer goes into the
caller's, and the uio is used up. -/
theorem uiomove_kinit_sector_read (buf data : Buf) (pos : Int) :
    uiomove buf 0 LHD_SECTSIZE (uioKinit data LHD_SECTSIZE pos .read) =
      .ok buf
        { uioKinit data LHD_SECTSIZE pos .read with
          uioIov := [⟨copy data 0 buf 0 LHD_SECTSIZE, LHD_SECTSIZE, 0⟩], uioResid := 0,
          uioOffset := pos + LHD_SECTSIZE } :=
  uiomove_kinit (by decide) (by decide) (by simp [uioTransfer])

/-- **A one-sector read into a kernel buffer** at an offset whose sector, as `lhd_io` computes
it, is `k` on the disk, with no media error: the sector goes through the card's buffer into the
caller's, and the uio is used up. -/
theorem lhdIo_read_one {lh : Lhd} {data : Buf} {pos : Int} {k : Nat}
    (hsect : Word.ofInt 32 (pos.tdiv LHD_SECTSIZE) = k) (hoff : pos.tmod LHD_SECTSIZE = 0)
    (hk : k < lh.dBlocks) (hd : lh.dBlocks < 2 ^ 32) (hmed : lh.lhMedia.head? ≠ some true) :
    lhdIo (lh, uioKinit data LHD_SECTSIZE pos .read) =
      .ok () ({ lh with lhMedia := lh.lhMedia.drop 1, lhBuf := lh.sectors k },
        { uioKinit data LHD_SECTSIZE pos .read with
          uioIov := [⟨copy data 0 (lh.sectors k) 0 LHD_SECTSIZE, LHD_SECTSIZE, 0⟩],
          uioResid := 0,
          uioOffset := pos + LHD_SECTSIZE }) := by
  have hend : Word.ofInt 32 ((k : Int) + 1) = k + 1 := by
    exact_mod_cast Word.ofInt_natCast_of_lt (show k + 1 < 2 ^ 32 by omega)
  have hsect' : Word.ofInt 32 (k : Int) = k := Word.ofInt_natCast_of_lt (by omega)
  have hhw := @lhdHardware_ok lh k false hk hmed
  simp only [Bool.false_eq_true, if_false] at hhw
  have hmove := uiomove_kinit_sector_read (lh.sectors k) data pos
  have hone : LHD_SECTSIZE / LHD_SECTSIZE = 1 := by decide
  have hone' : (LHD_SECTSIZE : Int) / LHD_SECTSIZE = 1 := by decide
  simp only [uioKinit] at hmove ⊢
  -- the checks pass; the one round of the loop reads the sector and moves it out
  simp [lhdIo, lhdIoLoop, bind_apply, hsect, hoff, hsect', hend, focus, hmove, hhw, hone, hone',
    attempt, Nat.not_lt.mpr (Nat.succ_le_of_lt hk)]

/-- **Past `2^41` bytes, `lhd_io` writes the wrong sector.** A one-sector write at the offset of
sector `2^32 m + s`, for `m ≥ 1` and a sector `s` on the disk, asks for a sector past the end
of every disk; `lhd_io` cuts its number to `s`, passes the check, writes the data to sector `s`
and returns 0. -/
theorem lhdIo_sector_wraps {lh : Lhd} {data : Buf} {m s : Nat} (hm : 0 < m)
    (hs : s < lh.dBlocks) (hd : lh.dBlocks < 2 ^ 32) (hmed : lh.lhMedia.head? ≠ some true) :
    lh.dBlocks < 2 ^ 32 * m + s ∧
      ∃ u', lhdIo (lh, uioKinit data LHD_SECTSIZE ((2 ^ 32 * m + s) * LHD_SECTSIZE) .write) =
        .ok () ({ lh with
          lhBuf := copy lh.lhBuf 0 data 0 LHD_SECTSIZE,
          lhMedia := lh.lhMedia.drop 1,
          sectors := Function.update lh.sectors s (copy lh.lhBuf 0 data 0 LHD_SECTSIZE) }, u') := by
  have hpos : ((2 ^ 32 * m + s : Nat) : Int) * LHD_SECTSIZE = (2 ^ 32 * m + s) * LHD_SECTSIZE := by
    push_cast
    rfl
  -- the sector number `2^32 m + s` cut to 32 bits
  have hsect : Word.ofInt 32 ((((2 ^ 32 * m + s : Nat) : Int) * LHD_SECTSIZE).tdiv LHD_SECTSIZE) =
      s := by
    have hmod : ((2 ^ 32 * m + s : Nat) : Int) % 2 ^ 32 = s := by
      push_cast
      omega
    rw [blockOffset_tdiv, Word.ofInt, hmod]
    rfl
  -- the sector asked for is past the end of the disk
  have hpast : lh.dBlocks < 2 ^ 32 * m + s := by
    have h32 : 2 ^ 32 ≤ 2 ^ 32 * m := Nat.le_mul_of_pos_right _ hm
    omega
  rw [hpos] at hsect
  have hoff := blockOffset_tmod (2 ^ 32 * m + s)
  rw [hpos] at hoff
  exact ⟨hpast, _, lhdIo_write_one hsect hoff hs hd hmed⟩

/-- A write to the sector `2^32` of a one-sector disk. -/
theorem lhdIo_sector_wraps_first :
    (⟨fun _ => zeros, 1, zeros, []⟩ : Lhd).dBlocks < 2 ^ 32 * 1 + 0 ∧
      ∃ u', lhdIo (⟨fun _ => zeros, 1, zeros, []⟩, uioKinit zeros LHD_SECTSIZE
          ((2 ^ 32 * 1 + 0) * LHD_SECTSIZE) .write) =
        .ok () ({ (⟨fun _ => zeros, 1, zeros, []⟩ : Lhd) with
          lhBuf := copy zeros 0 zeros 0 LHD_SECTSIZE,
          lhMedia := [],
          sectors := Function.update (fun _ => zeros) 0 (copy zeros 0 zeros 0 LHD_SECTSIZE) }, u') :=
  lhdIo_sector_wraps (by decide) (by decide) (by decide) (by decide)

end Os161

import Os161.Dev.LhdIrq
import Os161.Dev.Proofs.Lhd

/-!
# One request on the card at a time

In every state the threads in `lhd_io`, the card and `lhd_irq` reach (`LhdIoInv`), `lh_clear`
is free or held by one thread, and where the holder is in its round fixes what the card,
`lh_done` and `lh_result` hold (`Stage`): the card is idle until the holder starts it, works on
the holder's sector and direction until it finishes, and its completion is acknowledged and
signalled once, by one `V(lh_done)`, before the holder goes past its `P`. The card's last
operation (a history variable, `lhdIoHist`) is then the holder's, as `lhdHardware` does it
(`LhdCard.finish_hardware`).

* `lhd_one_request_at_a_time`: one thread at a time holds `lh_clear`, the card is idle when it
  is given a sector or started, and `lh_done` is at most 1, and 1 only for a waiting holder;
* `lhd_io_own_result`: the result a thread reads is that of its own operation, which did on
  the disk what `lhdHardware` does, with nothing done to the disk since;
* `lhd_request_answered`: the card and `lhd_irq` by themselves let a thread that waits in
  `P(lh_done)` through.
-/

namespace Os161

open Lts Exec

/-! ### Status codes -/

/-- A status the card ends an operation with, which `lhd_irq` acknowledges. -/
def LhdFinished (stat : ℕ) : Prop :=
  stat &&& LHD_STATEMASK = LHD_OK ∨ stat &&& LHD_STATEMASK = LHD_INVSECT ∨
    stat &&& LHD_STATEMASK = LHD_MEDIA

instance : DecidablePred LhdFinished := fun _ => inferInstanceAs (Decidable (_ ∨ _ ∨ _))

/-- The start codes `lhd_io` writes: `LHD_WORKING`, with `LHD_ISWRITE` on a write. -/
def StartCode (v : ℕ) : Prop := v = LHD_WORKING ∨ v = LHD_WORKING ||| LHD_ISWRITE

namespace StartCode

variable {v : ℕ}

theorem working (h : StartCode v) : v &&& LHD_STATEMASK = LHD_WORKING := by
  rcases h with rfl | rfl <;> decide

theorem ne_idle (h : StartCode v) : v ≠ LHD_IDLE := by
  rcases h with rfl | rfl <;> decide

theorem not_finished (h : StartCode v) : ¬LhdFinished v := by
  rcases h with rfl | rfl <;> decide

theorem write_bit (h : StartCode v) : v &&& LHD_ISWRITE = 0 ∨ v &&& LHD_ISWRITE = LHD_ISWRITE := by
  rcases h with rfl | rfl <;> decide

end StartCode

theorem idle_not_working : LHD_IDLE &&& LHD_STATEMASK ≠ LHD_WORKING := by decide

theorem idle_not_finished : ¬LhdFinished LHD_IDLE := by decide

theorem LhdFinished.not_working {v : ℕ} (h : LhdFinished v) : v &&& LHD_STATEMASK ≠ LHD_WORKING := by
  rcases h with h | h | h <;> rw [h] <;> decide

/-- The status of each outcome, with the write bit of the request, gives `lhdHardware`'s
errno back, and `lhd_irq` acknowledges it. -/
theorem code_or_write {w : ℕ} (hw : w = 0 ∨ w = LHD_ISWRITE) :
    (lhdCodeToErrno (LHD_OK ||| w) = 0 ∧ LhdFinished (LHD_OK ||| w)) ∧
      (lhdCodeToErrno (LHD_INVSECT ||| w) = EINVAL ∧ LhdFinished (LHD_INVSECT ||| w)) ∧
      (lhdCodeToErrno (LHD_MEDIA ||| w) = EIO ∧ LhdFinished (LHD_MEDIA ||| w)) := by
  rcases hw with rfl | rfl <;> decide

/-! ### The card does what `lhdHardware` does -/

theorem lhdHardware_past {lh : Lhd} {sect : ℕ} (isWrite : Bool) (hs : lh.dBlocks ≤ sect) :
    lhdHardware sect isWrite lh = .ok EINVAL lh := by
  simp [lhdHardware, bind_apply, hs]

namespace LhdCard

variable {c : LhdCard}

theorem finish_past (hw : c.stat &&& LHD_STATEMASK = LHD_WORKING) (hp : c.disk.dBlocks ≤ c.sect) :
    c.finish = some { c with stat := LHD_INVSECT ||| (c.stat &&& LHD_ISWRITE) } := by
  simp [finish, hw, hp]

theorem finish_media {rest : List Bool} (hw : c.stat &&& LHD_STATEMASK = LHD_WORKING)
    (hp : c.sect < c.disk.dBlocks) (hm : c.disk.lhMedia = true :: rest) :
    c.finish = some { c with
      disk := { c.disk with lhMedia := rest }
      stat := LHD_MEDIA ||| (c.stat &&& LHD_ISWRITE) } := by
  simp [finish, hw, Nat.not_le.mpr hp, hm]

theorem finish_ok (hw : c.stat &&& LHD_STATEMASK = LHD_WORKING) (hp : c.sect < c.disk.dBlocks)
    (hm : c.disk.lhMedia.head? ≠ some true) :
    c.finish = some { c with
      disk := if c.stat &&& LHD_ISWRITE = 0 then
          { c.disk with lhMedia := c.disk.lhMedia.drop 1, lhBuf := c.disk.sectors c.sect }
        else { c.disk with
          lhMedia := c.disk.lhMedia.drop 1
          sectors := Function.update c.disk.sectors c.sect c.disk.lhBuf }
      stat := LHD_OK ||| (c.stat &&& LHD_ISWRITE) } := by
  rcases hmed : c.disk.lhMedia with _ | ⟨b, rest⟩
  · simp [finish, hw, Nat.not_le.mpr hp, hmed]
  · cases b
    · simp [finish, hw, Nat.not_le.mpr hp, hmed]
    · simp [hmed] at hm

theorem finish_of_not_working (hw : c.stat &&& LHD_STATEMASK ≠ LHD_WORKING) : c.finish = none := by
  simp [finish, hw]

/-- A working card can always finish. -/
theorem finish_isSome (hw : c.stat &&& LHD_STATEMASK = LHD_WORKING) : c.finish.isSome := by
  simp only [finish, hw, if_true]
  by_cases hp : c.disk.dBlocks ≤ c.sect
  · simp [hp]
  · simp only [hp, if_false]
    split <;> rfl

/-- **The card finishes an operation as `lhdHardware` describes it.** From a start code, the
card's disk afterwards is that of `lhdHardware` on the sector in `LHD_REG_SECT`, in the direction
of the start code, and `lhd_code_to_errno` of the status it ends with is what `lhdHardware`
returns; the status keeps the write bit, and `lhd_irq` acknowledges it. -/
theorem finish_hardware {c' : LhdCard} (hv : StartCode c.stat) (h : c.finish = some c') :
    lhdHardware c.sect (c.stat &&& LHD_ISWRITE ≠ 0) c.disk = .ok (lhdCodeToErrno c'.stat) c'.disk ∧
      c'.sect = c.sect ∧ LhdFinished c'.stat := by
  have hw := hv.working
  obtain ⟨⟨hok, hokf⟩, ⟨hinv, hinvf⟩, ⟨hmed, hmedf⟩⟩ := code_or_write hv.write_bit
  by_cases hp : c.disk.dBlocks ≤ c.sect
  · -- a sector past the end
    rw [finish_past hw hp, Option.some.injEq] at h
    subst h
    exact ⟨by rw [lhdHardware_past _ hp, hinv], rfl, hinvf⟩
  · rw [Nat.not_le] at hp
    by_cases hm : c.disk.lhMedia.head? = some true
    · -- a media error
      obtain ⟨rest, hrest⟩ : ∃ rest, c.disk.lhMedia = true :: rest := by
        rcases hl : c.disk.lhMedia with _ | ⟨b, rest⟩ <;> simp_all
      rw [finish_media hw hp hrest, Option.some.injEq] at h
      subst h
      exact ⟨by rw [lhdHardware_media hp hrest, hmed], rfl, hmedf⟩
    · -- the transfer, in the direction of the write bit
      rw [finish_ok hw hp hm, Option.some.injEq] at h
      subst h
      refine ⟨?_, rfl, hokf⟩
      rw [lhdHardware_ok _ hp hm, hok]
      rcases hv.write_bit with h0 | h2
      · simp [h0]
      · rw [h2]
        simp [LHD_ISWRITE]

end LhdCard

/-! ### The invariant -/

namespace LhdIoFrame

/-- The sector of round `i` that `lhd_io` writes to `LHD_REG_SECT`. -/
def sectorOf (f : LhdIoFrame) (i : ℕ) : ℕ := Word.ofInt 32 (f.sector + i)

/-- The request is a write: its start code has `LHD_ISWRITE`. -/
def isWrite (f : LhdIoFrame) : Bool := f.statval &&& LHD_ISWRITE ≠ 0

end LhdIoFrame

/-- The thread holds `lh_clear`: it is past its `P(lh->lh_clear)` and before its `V`. -/
def LhdIoPc.holds : LhdIoPc → Bool
  | .clear _ | .ret _ => false
  | _ => true

/-- Records, at each completion of the card, the sector, direction and disk of the operation it
finished: the card's last operation. -/
def lhdRecord (s : LhdIoState) (e : LhdIoEvent) (_ : LhdIoState)
    (h : Option (ℕ × Bool × Lhd)) : Option (ℕ × Bool × Lhd) :=
  match e with
  | .finish => some (s.lh.card.sect, s.lh.card.stat &&& LHD_ISWRITE ≠ 0, s.lh.card.disk)
  | _ => h

/-- The threads in `lhd_io` and the card, with the card's last operation. -/
def lhdIoHist (d : Lhd) : System (LhdIoState × Option (ℕ × Bool × Lhd)) LhdIoEvent :=
  (lhdIoSystem d).withHistory none lhdRecord

/-- The card's last operation was round `i` of `f`, on the disk `d` it found, and did what
`lhdHardware` does: it returned `r` and left the disk `disk`. -/
def OpDone (h : Option (ℕ × Bool × Lhd)) (f : LhdIoFrame) (i : ℕ) (r : Int) (disk : Lhd) :
    Prop :=
  ∃ d, h = some (f.sectorOf i, f.isWrite, d) ∧ lhdHardware (f.sectorOf i) f.isWrite d = .ok r disk

/-- What the card, `lh_done` and `lh_result` hold while the holder of `lh_clear`, with the
frame `f`, is at `pc`. -/
def Stage (lh : LhdSoftc) (h : Option (ℕ × Bool × Lhd)) (f : LhdIoFrame) : LhdIoPc → Prop
  | .fill _ | .sect _ | .drain _ | .release _ => lh.card.stat = LHD_IDLE ∧ lh.done = 0
  | .start i => lh.card.stat = LHD_IDLE ∧ lh.done = 0 ∧ lh.card.sect = f.sectorOf i
  | .wait i =>
    -- the card works on the request, has finished it, or `lhd_irq` has signalled it
    lh.done = 0 ∧ lh.card.stat = f.statval ∧ lh.card.sect = f.sectorOf i ∨
    lh.done = 0 ∧ LhdFinished lh.card.stat ∧
      OpDone h f i (lhdCodeToErrno lh.card.stat) lh.card.disk ∨
    lh.done = 1 ∧ lh.card.stat = LHD_IDLE ∧ OpDone h f i lh.result lh.card.disk
  | .fetch i => lh.card.stat = LHD_IDLE ∧ lh.done = 0 ∧ OpDone h f i lh.result lh.card.disk
  | .clear _ | .ret _ => False

/-- Thread `t` holds `lh_clear`. -/
def LhdIoState.Holds (s : LhdIoState) (t : ℕ) : Prop :=
  ∃ f, s.threads t = some f ∧ f.pc.holds = true

/-- Where `lh_clear` is: free (`none`), with the card idle and `lh_done` 0, or held by thread
`t`, at a stage of its round the card, `lh_done` and `lh_result` agree with. -/
structure ClearAt (s : LhdIoState) (h : Option (ℕ × Bool × Lhd)) (k : Option ℕ) : Prop where
  count : s.lh.clear = if k = none then 1 else 0
  holds : ∀ t, s.Holds t ↔ k = some t
  stage : ∀ t f, k = some t → s.threads t = some f → Stage s.lh h f f.pc
  free : k = none → s.lh.card.stat = LHD_IDLE ∧ s.lh.done = 0

/-- The invariant of the threads in `lhd_io` and the card. -/
structure LhdIoInv (s : LhdIoState) (h : Option (ℕ × Bool × Lhd)) : Prop where
  startCode : ∀ t f, s.threads t = some f → StartCode f.statval
  clear : ∃ k, ClearAt s h k

namespace ClearAt

variable {s : LhdIoState} {h : Option (ℕ × Bool × Lhd)} {k : Option ℕ}

theorem eq_none_of_pos (hk : ClearAt s h k) (hc : 0 < s.lh.clear) : k = none := by
  by_contra hne
  rw [hk.count, if_neg hne] at hc
  exact absurd hc (lt_irrefl 0)

theorem eq_some (hk : ClearAt s h k) {t : ℕ} {f : LhdIoFrame} (ht : s.threads t = some f)
    (hf : f.pc.holds = true) : k = some t :=
  (hk.holds t).mp ⟨f, ht, hf⟩

/-- A thread outside `lhd_io` that calls it does not take `lh_clear`. -/
theorem call {t : ℕ} {f' : LhdIoFrame} (hk : ClearAt s h k) (hout : ¬s.Holds t)
    (hf' : f'.pc.holds = false) :
    ClearAt { s with threads := Function.update s.threads t (some f') } h k where
  count := hk.count
  holds u := by
    by_cases hu : u = t
    · subst hu
      refine ⟨fun ⟨g, hg, hgh⟩ => ?_, fun hku => absurd ((hk.holds u).mpr hku) hout⟩
      simp only [Function.update_self, Option.some.injEq] at hg
      subst hg
      simp [hf'] at hgh
    · simp only [LhdIoState.Holds, Function.update_of_ne hu]
      exact hk.holds u
  stage u g hku hg := by
    have hu : u ≠ t := fun hu => hout (hu ▸ (hk.holds u).mpr hku)
    dsimp only at hg
    rw [Function.update_of_ne hu] at hg
    exact hk.stage u g hku hg
  free := hk.free

/-- The holder moves on within its round. -/
theorem keep {t : ℕ} {f' : LhdIoFrame} (hk : ClearAt s h (some t)) (lh' : LhdSoftc)
    (hc : lh'.clear = s.lh.clear) (hf' : f'.pc.holds = true) (hst : Stage lh' h f' f'.pc) :
    ClearAt ⟨lh', Function.update s.threads t (some f')⟩ h (some t) where
  count := hc.trans hk.count
  holds u := by
    by_cases hu : u = t
    · subst hu
      exact ⟨fun _ => rfl, fun _ => ⟨f', Function.update_self .., hf'⟩⟩
    · simp only [LhdIoState.Holds, Function.update_of_ne hu]
      exact hk.holds u
  stage u g hku hg := by
    obtain rfl : u = t := (Option.some.inj hku).symm
    simp only [Function.update_self, Option.some.injEq] at hg
    exact hg ▸ hst
  free hku := absurd hku (Option.some_ne_none t)

/-- Thread `t` takes the free `lh_clear`. -/
theorem acquire {t : ℕ} {f' : LhdIoFrame} (hk : ClearAt s h none) (lh' : LhdSoftc)
    (hc : lh'.clear = 0) (hf' : f'.pc.holds = true) (hst : Stage lh' h f' f'.pc) :
    ClearAt ⟨lh', Function.update s.threads t (some f')⟩ h (some t) where
  count := by simp [hc]
  holds u := by
    by_cases hu : u = t
    · subst hu
      exact ⟨fun _ => rfl, fun _ => ⟨f', Function.update_self .., hf'⟩⟩
    · have hne : ¬s.Holds u := fun hu' => by simpa using (hk.holds u).mp hu'
      simp only [LhdIoState.Holds, Function.update_of_ne hu]
      exact ⟨fun hx => absurd hx hne, fun hx => absurd (Option.some.inj hx) (Ne.symm hu)⟩
  stage u g hku hg := by
    obtain rfl : u = t := (Option.some.inj hku).symm
    simp only [Function.update_self, Option.some.injEq] at hg
    exact hg ▸ hst
  free hku := absurd hku (Option.some_ne_none t)

/-- The holder `V`s `lh_clear`, with the card idle and `lh_done` 0. -/
theorem release {t : ℕ} {f' : LhdIoFrame} (hk : ClearAt s h (some t)) (lh' : LhdSoftc)
    (hc : lh'.clear = 1) (hf' : f'.pc.holds = false)
    (hidle : lh'.card.stat = LHD_IDLE ∧ lh'.done = 0) :
    ClearAt ⟨lh', Function.update s.threads t (some f')⟩ h none where
  count := by simp [hc]
  holds u := by
    by_cases hu : u = t
    · subst hu
      simp [LhdIoState.Holds, hf']
    · have hne : ¬s.Holds u := fun hu' => hu (Option.some.inj ((hk.holds u).mp hu')).symm
      simp only [LhdIoState.Holds, Function.update_of_ne hu]
      exact ⟨fun hx => absurd hx hne, fun hx => absurd hx (Option.some_ne_none u).symm⟩
  stage _ _ hku := absurd hku (Option.some_ne_none _).symm
  free _ := hidle


/-- A card event changes no thread, and the holder's stage is the new one. -/
theorem card {t : ℕ} {h' : Option (ℕ × Bool × Lhd)} (hk : ClearAt s h (some t))
    (lh' : LhdSoftc) (hc : lh'.clear = s.lh.clear)
    (hst : ∀ f, s.threads t = some f → Stage lh' h' f f.pc) :
    ClearAt { s with lh := lh' } h' (some t) where
  count := hc.trans hk.count
  holds := hk.holds
  stage u f hku hf := by
    obtain rfl : u = t := (Option.some.inj hku).symm
    exact hst f hf
  free hku := absurd hku (Option.some_ne_none t)

end ClearAt

/-! ### What each stage allows -/

namespace Stage

variable {lh : LhdSoftc} {h : Option (ℕ × Bool × Lhd)} {f : LhdIoFrame} {pc : LhdIoPc}

/-- The card works only on the request of a holder waiting in `P(lh_done)`. -/
theorem of_working (hst : Stage lh h f pc) (hw : lh.card.stat &&& LHD_STATEMASK = LHD_WORKING) :
    ∃ i, pc = .wait i ∧ lh.done = 0 ∧ lh.card.stat = f.statval ∧ lh.card.sect = f.sectorOf i := by
  cases pc with
  | wait i =>
    rcases hst with hwork | ⟨-, hfin, -⟩ | ⟨-, hidle, -⟩
    · exact ⟨i, rfl, hwork⟩
    · exact absurd hw hfin.not_working
    · exact absurd (hidle ▸ hw) idle_not_working
  | fill _ | sect _ | drain _ | release _ => exact absurd (hst.1 ▸ hw) idle_not_working
  | start _ | fetch _ => exact absurd (hst.1 ▸ hw) idle_not_working
  | clear _ | ret _ => exact hst.elim

/-- A finished operation waits for `lhd_irq` only with the holder in `P(lh_done)`. -/
theorem of_finished (hst : Stage lh h f pc) (hsc : StartCode f.statval)
    (hf : LhdFinished lh.card.stat) :
    ∃ i, pc = .wait i ∧ lh.done = 0 ∧ OpDone h f i (lhdCodeToErrno lh.card.stat) lh.card.disk := by
  have hidle : lh.card.stat ≠ LHD_IDLE := fun hi => idle_not_finished (hi ▸ hf)
  cases pc with
  | wait i =>
    rcases hst with ⟨-, hstat, -⟩ | ⟨hd, -, hop⟩ | ⟨-, hi, -⟩
    · -- the card still holds the start code, which is not a finished status
      exact absurd (hstat ▸ hf) hsc.not_finished
    · exact ⟨i, rfl, hd, hop⟩
    · exact absurd hi hidle
  | fill _ | sect _ | drain _ | release _ => exact absurd hst.1 hidle
  | start _ | fetch _ => exact absurd hst.1 hidle
  | clear _ | ret _ => exact hst.elim

/-- `lh_done` is positive only for the holder in `P(lh_done)`, after `lhd_irq`. -/
theorem of_done (hst : Stage lh h f pc) (hd : 0 < lh.done) :
    ∃ i, pc = .wait i ∧ lh.done = 1 ∧ lh.card.stat = LHD_IDLE ∧
      OpDone h f i lh.result lh.card.disk := by
  cases pc with
  | wait i =>
    rcases hst with ⟨hd0, -⟩ | ⟨hd0, -⟩ | hsig
    · omega
    · omega
    · exact ⟨i, rfl, hsig⟩
  | fill _ | sect _ | drain _ | release _ => exact absurd hst.2 (Nat.pos_iff_ne_zero.mp hd)
  | start _ | fetch _ => exact absurd hst.2.1 (Nat.pos_iff_ne_zero.mp hd)
  | clear _ | ret _ => exact hst.elim

end Stage

/-! ### Every event keeps the invariant -/

section Steps

variable {s s' : LhdIoState} {h : Option (ℕ × Bool × Lhd)}

theorem lhdIoStep_run {t : ℕ} (hn : lhdIoStep s (.run t) = some s') :
    ∃ f lh' f', s.threads t = some f ∧ lhdIoRun s.lh f = some (lh', f') ∧
      s' = ⟨lh', Function.update s.threads t (some f')⟩ := by
  simp only [lhdIoStep] at hn
  split at hn
  · rename_i f hf
    obtain ⟨⟨lh', f'⟩, hr, rfl⟩ := Option.map_eq_some_iff.mp hn
    exact ⟨f, lh', f', hf, hr, rfl⟩
  · cases hn

namespace LhdIoInv

/-- A step of thread `t` that keeps its start code keeps the invariant once `lh_clear` is
placed. -/
theorem update (hinv : LhdIoInv s h) {t : ℕ} {f f' : LhdIoFrame} {lh' : LhdSoftc}
    (ht : s.threads t = some f) (hsv : f'.statval = f.statval) {k : Option ℕ}
    (hk : ClearAt ⟨lh', Function.update s.threads t (some f')⟩ h k) :
    LhdIoInv ⟨lh', Function.update s.threads t (some f')⟩ h where
  startCode u g hg := by
    by_cases hu : u = t
    · subst hu
      simp only [Function.update_self, Option.some.injEq] at hg
      subst hg
      exact hsv ▸ hinv.startCode u f ht
    · exact hinv.startCode u g (by simpa [Function.update_of_ne hu] using hg)
  clear := ⟨k, hk⟩

/-- **A call of `lhd_io`**: its checks take no lock. -/
theorem call (hinv : LhdIoInv s h) {t : ℕ} {u : Uio} (hn : lhdIoStep s (.call t u) = some s') :
    LhdIoInv s' h := by
  simp only [lhdIoStep] at hn
  split_ifs at hn with hout
  cases hn
  have hnh : ¬s.Holds t := by
    rintro ⟨f, hf, hh⟩
    simp only [LhdIoFrame.outside, hf] at hout
    cases hpc : f.pc <;> simp_all [LhdIoPc.isRet, LhdIoPc.holds]
  have hpc : (lhdIoEnter s.lh u).pc.holds = false := by
    simp only [lhdIoEnter]
    split_ifs <;> rfl
  obtain ⟨k, hk⟩ := hinv.clear
  refine ⟨fun v g hg => ?_, ⟨k, hk.call hnh hpc⟩⟩
  by_cases hv : v = t
  · subst hv
    simp only [Function.update_self, Option.some.injEq] at hg
    subst hg
    simp only [lhdIoEnter, StartCode]
    split <;> simp
  · exact hinv.startCode v g (by simpa [Function.update_of_ne hv] using hg)

/-- **A step of a thread in `lhd_io`**, one case per place in its round. -/
theorem run (hinv : LhdIoInv s h) {t : ℕ} (hn : lhdIoStep s (.run t) = some s') :
    LhdIoInv s' h := by
  obtain ⟨f, lh', f', ht, hr, rfl⟩ := lhdIoStep_run hn
  obtain ⟨k, hk⟩ := hinv.clear
  have hholder (hh : f.pc.holds = true) : k = some t := hk.eq_some ht hh
  cases hpc : f.pc with
  | clear i =>
    -- `P(lh_clear)` goes through only with `lh_clear` free
    simp only [lhdIoRun, hpc] at hr
    by_cases hpos : 0 < s.lh.clear
    · rw [if_pos hpos, Option.some.injEq, Prod.mk.injEq] at hr
      obtain ⟨rfl, rfl⟩ := hr
      obtain rfl := hk.eq_none_of_pos hpos
      obtain ⟨hidle, hdone⟩ := hk.free rfl
      refine hinv.update ht rfl (hk.acquire _ (by simp [hk.count]) ?_ ?_)
      · show (if f.uio.uioRw = .write then LhdIoPc.fill i else .sect i).holds = true
        split <;> rfl
      · show Stage _ h _ (if f.uio.uioRw = .write then LhdIoPc.fill i else .sect i)
        split <;> exact ⟨hidle, hdone⟩
    · rw [if_neg hpos] at hr
      cases hr
  | fill i =>
    obtain rfl := hholder (by rw [hpc]; rfl)
    obtain ⟨hidle, hdone⟩ : Stage s.lh h f (.fill i) := hpc ▸ hk.stage t f rfl ht
    simp only [lhdIoRun, hpc] at hr
    cases hmv : lhdUiomove s.lh f.uio with
    | none => simp [hmv] at hr
    | some r =>
      obtain ⟨res, u⟩ := r
      cases res with
      | ok buf =>
        simp only [hmv, Option.map_some, Option.some.injEq, Prod.mk.injEq] at hr
        obtain ⟨rfl, rfl⟩ := hr
        exact hinv.update ht rfl (hk.keep _ rfl rfl ⟨hidle, hdone⟩)
      | error e =>
        -- the failed `uiomove` returns after `V(lh_clear)`
        simp only [hmv, Option.map_some, Option.some.injEq, Prod.mk.injEq] at hr
        obtain ⟨rfl, rfl⟩ := hr
        exact hinv.update ht rfl (hk.release _ (by simp [hk.count]) rfl ⟨hidle, hdone⟩)
  | sect i =>
    obtain rfl := hholder (by rw [hpc]; rfl)
    obtain ⟨hidle, hdone⟩ : Stage s.lh h f (.sect i) := hpc ▸ hk.stage t f rfl ht
    simp only [lhdIoRun, hpc, LhdCard.writeSect, hidle, if_true, Option.map_some,
      Option.some.injEq, Prod.mk.injEq] at hr
    obtain ⟨rfl, rfl⟩ := hr
    exact hinv.update ht rfl (hk.keep _ rfl rfl ⟨rfl, hdone, rfl⟩)
  | start i =>
    obtain rfl := hholder (by rw [hpc]; rfl)
    obtain ⟨hidle, hdone, hsect⟩ : Stage s.lh h f (.start i) := hpc ▸ hk.stage t f rfl ht
    simp only [lhdIoRun, hpc, LhdCard.start, hidle, if_true, Option.map_some,
      Option.some.injEq, Prod.mk.injEq] at hr
    obtain ⟨rfl, rfl⟩ := hr
    exact hinv.update ht rfl (hk.keep _ rfl rfl (.inl ⟨hdone, rfl, hsect⟩))
  | wait i =>
    obtain rfl := hholder (by rw [hpc]; rfl)
    have hst : Stage s.lh h f (.wait i) := hpc ▸ hk.stage t f rfl ht
    simp only [lhdIoRun, hpc] at hr
    split_ifs at hr with hpos
    simp only [Option.some.injEq, Prod.mk.injEq] at hr
    obtain ⟨rfl, rfl⟩ := hr
    -- only `lhd_irq`'s `V` makes `lh_done` positive
    obtain ⟨_, hi, hd1, hidle, hop⟩ := Stage.of_done hst hpos
    cases hi
    exact hinv.update ht rfl (hk.keep _ rfl rfl ⟨hidle, by simp [hd1], hop⟩)
  | fetch i =>
    obtain rfl := hholder (by rw [hpc]; rfl)
    obtain ⟨hidle, hdone, -⟩ : Stage s.lh h f (.fetch i) := hpc ▸ hk.stage t f rfl ht
    simp only [lhdIoRun, hpc, Option.some.injEq, Prod.mk.injEq] at hr
    obtain ⟨rfl, rfl⟩ := hr
    exact hinv.update ht rfl (hk.keep _ rfl rfl ⟨hidle, hdone⟩)
  | drain i =>
    obtain rfl := hholder (by rw [hpc]; rfl)
    obtain ⟨hidle, hdone⟩ : Stage s.lh h f (.drain i) := hpc ▸ hk.stage t f rfl ht
    simp only [lhdIoRun, hpc] at hr
    split_ifs at hr
    · cases hmv : lhdUiomove s.lh f.uio with
      | none => simp [hmv] at hr
      | some r =>
        obtain ⟨res, u⟩ := r
        cases res with
        | ok buf =>
          simp only [hmv, Option.map_some, Option.some.injEq, Prod.mk.injEq] at hr
          obtain ⟨rfl, rfl⟩ := hr
          exact hinv.update ht rfl (hk.keep _ rfl rfl ⟨hidle, hdone⟩)
        | error e =>
          simp only [hmv, Option.map_some, Option.some.injEq, Prod.mk.injEq] at hr
          obtain ⟨rfl, rfl⟩ := hr
          exact hinv.update ht rfl (hk.keep _ rfl rfl ⟨hidle, hdone⟩)
    · simp only [Option.some.injEq, Prod.mk.injEq] at hr
      obtain ⟨rfl, rfl⟩ := hr
      exact hinv.update ht rfl (hk.keep _ rfl rfl ⟨hidle, hdone⟩)
  | release i =>
    obtain rfl := hholder (by rw [hpc]; rfl)
    obtain ⟨hidle, hdone⟩ : Stage s.lh h f (.release i) := hpc ▸ hk.stage t f rfl ht
    simp only [lhdIoRun, hpc, Option.some.injEq, Prod.mk.injEq] at hr
    obtain ⟨rfl, rfl⟩ := hr
    refine hinv.update ht rfl (hk.release _ (by simp [hk.count]) ?_ ⟨hidle, hdone⟩)
    show (if f.result ≠ 0 then LhdIoPc.ret f.result
      else if i + 1 < f.len then .clear (i + 1) else .ret 0).holds = false
    split_ifs <;> rfl
  | ret r => simp [lhdIoRun, hpc] at hr

/-- **The card finishes** the holder's operation, which it works on. -/
theorem finish (hinv : LhdIoInv s h) (hn : lhdIoStep s .finish = some s') :
    LhdIoInv s' (lhdRecord s .finish s' h) := by
  simp only [lhdIoStep] at hn
  obtain ⟨c', hc', rfl⟩ := Option.map_eq_some_iff.mp hn
  have hwork : s.lh.card.stat &&& LHD_STATEMASK = LHD_WORKING := by
    by_contra hne
    rw [LhdCard.finish_of_not_working hne] at hc'
    cases hc'
  obtain ⟨k, hk⟩ := hinv.clear
  cases k with
  | none => exact absurd ((hk.free rfl).1 ▸ hwork) idle_not_working
  | some t =>
    obtain ⟨f, ht, -⟩ := (hk.holds t).mpr rfl
    obtain ⟨i, hpc, hdone, hstat, hsect⟩ := Stage.of_working (hk.stage t f rfl ht) hwork
    have hsc := hinv.startCode t f ht
    obtain ⟨hhw, -, hfin⟩ := LhdCard.finish_hardware (hstat ▸ hsc) hc'
    refine ⟨hinv.startCode, some t, hk.card _ rfl fun g hg => ?_⟩
    obtain rfl : g = f := Option.some.inj (hg.symm.trans ht)
    -- the holder's operation is finished, and it is the card's last one
    rw [hpc]
    refine .inr (.inl ⟨hdone, hfin, s.lh.card.disk, ?_, ?_⟩)
    · simp [lhdRecord, hsect, hstat, LhdIoFrame.isWrite]
    · rw [← hsect, LhdIoFrame.isWrite, ← hstat]
      exact hhw

/-- **`lhd_irq`** acknowledges a finished operation and signals it, once. -/
theorem irq (hinv : LhdIoInv s h) (hn : lhdIoStep s .irq = some s') : LhdIoInv s' h := by
  simp only [lhdIoStep, Option.some.injEq] at hn
  subst hn
  obtain ⟨k, hk⟩ := hinv.clear
  by_cases hfin : LhdFinished s.lh.card.stat
  · cases k with
    | none => exact absurd ((hk.free rfl).1 ▸ hfin) idle_not_finished
    | some t =>
      obtain ⟨f, ht, -⟩ := (hk.holds t).mpr rfl
      obtain ⟨i, hpc, hdone, hop⟩ :=
        Stage.of_finished (hk.stage t f rfl ht) (hinv.startCode t f ht) hfin
      have hirq : lhdIrq s.lh = { s.lh with
          card := { s.lh.card with stat := 0 }
          result := lhdCodeToErrno s.lh.card.stat
          done := s.lh.done + 1 } := if_pos hfin
      refine ⟨hinv.startCode, some t, hk.card _ (by rw [hirq]) fun g hg => ?_⟩
      obtain rfl : g = f := Option.some.inj (hg.symm.trans ht)
      rw [hpc, hirq]
      exact .inr (.inr ⟨by simp [hdone], rfl, hop⟩)
  · have hirq : lhdIrq s.lh = s.lh := if_neg hfin
    rw [hirq]
    exact hinv

theorem init (d : Lhd) : LhdIoInv (lhdIoSystem d).init none where
  startCode _ _ hf := by simp [lhdIoSystem] at hf
  clear := ⟨none, {
    count := rfl
    holds := fun t => by simp [LhdIoState.Holds, lhdIoSystem]
    stage := fun _ _ h => by cases h
    free := fun _ => ⟨rfl, rfl⟩ }⟩

/-- **Every event keeps the invariant.** -/
theorem step (hinv : LhdIoInv s h) {e : LhdIoEvent} (hn : lhdIoStep s e = some s') :
    LhdIoInv s' (lhdRecord s e s' h) := by
  cases e with
  | call t u => exact hinv.call hn
  | run t => exact hinv.run hn
  | finish => exact hinv.finish hn
  | irq => exact hinv.irq hn

theorem isInductive (d : Lhd) : (lhdIoHist d).Inductive fun x => LhdIoInv x.1 x.2 := by
  refine ⟨init d, fun x e y hx hn => ?_⟩
  obtain ⟨hst, hy⟩ := System.withHistory_next_eq_some hn
  rw [hy]
  exact hx.step hst

end LhdIoInv

end Steps

/-! ### The driver in every reachable state -/

section Reachable

variable {d : Lhd} {s : LhdIoState}

/-- The invariant holds in every reachable state, for some history of the card's operations. -/
theorem lhdIoInv_reachable (hs : (lhdIoSystem d).Reachable s) : ∃ h, LhdIoInv s h := by
  obtain ⟨h, hh⟩ := hs.withHistory none lhdRecord
  exact ⟨h, (LhdIoInv.isInductive d).reachable hh⟩

theorem lhdIoStep_run_isSome {t : ℕ} {f : LhdIoFrame} (ht : s.threads t = some f) :
    (lhdIoStep s (.run t)).isSome = (lhdIoRun s.lh f).isSome := by
  simp [lhdIoStep, ht]

/-- **One request on the card at a time.** In every reachable state at most one thread holds
`lh_clear`, whose count stays at most 1; `lh_done` counts at most 1, and only for a holder
waiting in its `P`; and the card is idle whenever a thread writes `LHD_REG_SECT` or
`LHD_REG_STAT`, so that it takes both. -/
theorem lhd_one_request_at_a_time (hs : (lhdIoSystem d).Reachable s) :
    (∀ t u, s.Holds t → s.Holds u → t = u) ∧ s.lh.clear ≤ 1 ∧ s.lh.done ≤ 1 ∧
    (0 < s.lh.done → ∃ t f i, s.threads t = some f ∧ f.pc = .wait i) ∧
    ∀ t f i, s.threads t = some f → (f.pc = .sect i ∨ f.pc = .start i) →
      ((lhdIoSystem d).next s (.run t)).isSome := by
  obtain ⟨h, hinv⟩ := lhdIoInv_reachable hs
  obtain ⟨k, hk⟩ := hinv.clear
  -- a positive `lh_done` has a holder, waiting, and is 1
  have hdone : 0 < s.lh.done → ∃ t f i, s.threads t = some f ∧ f.pc = .wait i ∧ s.lh.done = 1 := by
    intro hd
    cases k with
    | none => exact absurd hd (by rw [(hk.free rfl).2]; exact lt_irrefl 0)
    | some t =>
      obtain ⟨f, ht, -⟩ := (hk.holds t).mpr rfl
      obtain ⟨i, hpc, h1, -⟩ := Stage.of_done (hk.stage t f rfl ht) hd
      exact ⟨t, f, i, ht, hpc, h1⟩
  refine ⟨fun t u ht hu => ?_, ?_, ?_, ?_, fun t f i ht hpc => ?_⟩
  · exact Option.some.inj (((hk.holds t).mp ht).symm.trans ((hk.holds u).mp hu))
  · rw [hk.count]
    split <;> simp
  · rcases Nat.eq_zero_or_pos s.lh.done with h0 | hd
    · omega
    · obtain ⟨-, -, -, -, -, h1⟩ := hdone hd
      omega
  · intro hd
    obtain ⟨t, f, i, ht, hpc, -⟩ := hdone hd
    exact ⟨t, f, i, ht, hpc⟩
  · have hholds : f.pc.holds = true := by rcases hpc with hpc | hpc <;> rw [hpc] <;> rfl
    have hst := hk.stage t f (hk.eq_some ht hholds) ht
    show (lhdIoStep s (.run t)).isSome
    rw [lhdIoStep_run_isSome ht]
    rcases hpc with hpc | hpc <;> rw [hpc] at hst
    · simp [lhdIoRun, hpc, LhdCard.writeSect, hst.1]
    · simp [lhdIoRun, hpc, LhdCard.start, hst.1]

/-- A thread that has given the card sector 0 finds it idle, so that it takes the start code. -/
theorem lhd_one_request_at_a_time_start :
    ∃ s f, (lhdIoSystem ⟨fun _ _ => 0, 4, fun _ => 0, []⟩).Reachable s ∧
      s.threads 0 = some f ∧ f.pc = .start 0 ∧ s.lh.clear ≤ 1 ∧
      ((lhdIoSystem ⟨fun _ _ => 0, 4, fun _ => 0, []⟩).next s (.run 0)).isSome := by
  obtain ⟨s, hs, hp⟩ := (lhdIoSystem ⟨fun _ _ => 0, 4, fun _ => 0, []⟩).reachable_of_run
    [.call 0 (uioKinit (fun _ => 0) 512 0 .read), .run 0, .run 0]
    (fun s => (s.threads 0).map LhdIoFrame.pc == some (.start 0)) (by decide)
  obtain ⟨f, ht, hpc⟩ := Option.map_eq_some_iff.mp (beq_iff_eq.mp hp)
  obtain ⟨-, hc, -, -, hrun⟩ := lhd_one_request_at_a_time hs
  exact ⟨s, f, hs, ht, hpc, hc, hrun 0 f 0 ht (.inr hpc)⟩

/-- **A thread reads the result of its own operation.** In every reachable state, a thread
about to read `lh_result` after its `P(lh_done)` finds the card idle and the card's last
operation its own: on its sector and in its direction, done as `lhdHardware` does it from the
disk the card found, which returned the `lh_result` it reads and left the disk as it is. No
other operation has touched the disk or the card's buffer since. -/
theorem lhd_io_own_result {h : Option (ℕ × Bool × Lhd)} (hs : (lhdIoHist d).Reachable (s, h))
    {t : ℕ} {f : LhdIoFrame} {i : ℕ} (ht : s.threads t = some f) (hpc : f.pc = .fetch i) :
    s.lh.card.stat = LHD_IDLE ∧ OpDone h f i s.lh.result s.lh.card.disk := by
  obtain ⟨-, k, hk⟩ := (LhdIoInv.isInductive d).reachable hs
  have hst := hk.stage t f (hk.eq_some ht (by rw [hpc]; rfl)) ht
  rw [hpc] at hst
  exact ⟨hst.1, hst.2.2⟩

/-- A read of sector 0 of a four-sector disk has been answered, and its thread is about to read
`lh_result`. -/
theorem lhd_io_own_result_read :
    ∃ s h f, (lhdIoHist ⟨fun _ _ => 0, 4, fun _ => 0, []⟩).Reachable (s, h) ∧
      s.threads 0 = some f ∧ f.pc = .fetch 0 ∧
      s.lh.card.stat = LHD_IDLE ∧ OpDone h f 0 s.lh.result s.lh.card.disk := by
  obtain ⟨⟨s, h⟩, hs, hp⟩ := (lhdIoHist ⟨fun _ _ => 0, 4, fun _ => 0, []⟩).reachable_of_run
    [.call 0 (uioKinit (fun _ => 0) 512 0 .read), .run 0, .run 0, .run 0, .finish, .irq, .run 0]
    (fun x => (x.1.threads 0).map LhdIoFrame.pc == some (.fetch 0)) (by decide)
  obtain ⟨f, ht, hpc⟩ := Option.map_eq_some_iff.mp (beq_iff_eq.mp hp)
  exact ⟨s, h, f, hs, ht, hpc, lhd_io_own_result hs ht hpc⟩

end Reachable

/-! ### The card answers -/

/-- The events of the card and of `lhd_irq`, which no thread makes. -/
def LhdIoEvent.OfCard : LhdIoEvent → Prop
  | .finish | .irq => True
  | _ => False

/-- Thread `t` may go on, and the threads are those of `th`. -/
def LhdIoState.LetThrough (th : ℕ → Option LhdIoFrame) (t : ℕ) (s : LhdIoState) : Prop :=
  s.threads = th ∧ (lhdIoStep s (.run t)).isSome

section Answered

variable {d : Lhd} {s : LhdIoState} {t : ℕ} {f : LhdIoFrame} {i : ℕ}

theorem answered_of_done (ht : s.threads t = some f) (hpc : f.pc = .wait i)
    (hd : 0 < s.lh.done) :
    (lhdIoSystem d).Leads LhdIoEvent.OfCard (LhdIoState.LetThrough s.threads t) s := by
  refine System.Leads.of_holds ⟨rfl, ?_⟩
  rw [lhdIoStep_run_isSome ht]
  simp [lhdIoRun, hpc, hd]

/-- `lhd_irq` acknowledges a finished operation, and its `V` lets the waiting thread on. -/
theorem answered_of_finished (ht : s.threads t = some f) (hpc : f.pc = .wait i)
    (hfin : LhdFinished s.lh.card.stat) :
    (lhdIoSystem d).Leads LhdIoEvent.OfCard (LhdIoState.LetThrough s.threads t) s := by
  have hirq : lhdIrq s.lh = { s.lh with
      card := { s.lh.card with stat := 0 }
      result := lhdCodeToErrno s.lh.card.stat
      done := s.lh.done + 1 } := if_pos hfin
  have hst : lhdIoStep s .irq = some { s with lh := lhdIrq s.lh } := rfl
  exact System.Leads.step (e := .irq) trivial hst
    (answered_of_done (s := { s with lh := lhdIrq s.lh }) ht hpc (by rw [hirq]; exact Nat.succ_pos _))

/-- The card finishes the operation it works on, and `lhd_irq` lets the waiting thread on. -/
theorem answered_of_working (ht : s.threads t = some f) (hpc : f.pc = .wait i)
    (hsc : StartCode s.lh.card.stat) :
    (lhdIoSystem d).Leads LhdIoEvent.OfCard (LhdIoState.LetThrough s.threads t) s := by
  obtain ⟨c', hc'⟩ := Option.isSome_iff_exists.mp (LhdCard.finish_isSome hsc.working)
  obtain ⟨-, -, hfin⟩ := LhdCard.finish_hardware hsc hc'
  have hst : lhdIoStep s .finish = some { s with lh := { s.lh with card := c' } } := by
    simp [lhdIoStep, hc']
  exact System.Leads.step (e := .finish) trivial hst
    (answered_of_finished (s := { s with lh := { s.lh with card := c' } }) ht hpc hfin)

/-- **A request is answered.** From every reachable state in which thread `t` waits in
`P(lh_done)`, the card and `lhd_irq` by themselves, with no step of any thread, bring the
driver to a state where `lh_done` lets `t` on: its request is never lost, whichever threads
wait for `lh_clear` meanwhile. -/
theorem lhd_request_answered (hs : (lhdIoSystem d).Reachable s) (ht : s.threads t = some f)
    (hpc : f.pc = .wait i) :
    (lhdIoSystem d).Leads LhdIoEvent.OfCard (LhdIoState.LetThrough s.threads t) s := by
  obtain ⟨h, hinv⟩ := lhdIoInv_reachable hs
  obtain ⟨k, hk⟩ := hinv.clear
  have hst := hk.stage t f (hk.eq_some ht (by rw [hpc]; rfl)) ht
  rw [hpc] at hst
  -- the card works on the request, has finished it, or `lhd_irq` has signalled it
  rcases hst with ⟨-, hstat, -⟩ | ⟨-, hfin, -⟩ | ⟨hd, -, -⟩
  · exact answered_of_working ht hpc (hstat ▸ hinv.startCode t f ht)
  · exact answered_of_finished ht hpc hfin
  · exact answered_of_done ht hpc (by omega)

/-- A thread that has started a read of sector 0 and waits for the card is answered. -/
theorem lhd_request_answered_read :
    ∃ s f, (lhdIoSystem ⟨fun _ _ => 0, 4, fun _ => 0, []⟩).Reachable s ∧
      s.threads 0 = some f ∧ f.pc = .wait 0 ∧
      (lhdIoSystem ⟨fun _ _ => 0, 4, fun _ => 0, []⟩).Leads LhdIoEvent.OfCard
        (LhdIoState.LetThrough s.threads 0) s := by
  obtain ⟨s, hs, hp⟩ := (lhdIoSystem ⟨fun _ _ => 0, 4, fun _ => 0, []⟩).reachable_of_run
    [.call 0 (uioKinit (fun _ => 0) 512 0 .read), .run 0, .run 0, .run 0]
    (fun s => (s.threads 0).map LhdIoFrame.pc == some (.wait 0)) (by decide)
  obtain ⟨f, ht, hpc⟩ := Option.map_eq_some_iff.mp (beq_iff_eq.mp hp)
  exact ⟨s, f, hs, ht, hpc, lhd_request_answered hs ht hpc⟩

end Answered

end Os161

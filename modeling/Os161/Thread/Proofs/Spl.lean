import Os161.Thread.Spl

/-!
# The count of `IPL_HIGH` raises

In every state a thread reaches by `splx` calls and spinlock acquisitions and releases, in any
order (`SplInv`):

* `t_curspl` is `IPL_NONE` or `IPL_HIGH`;
* `t_iplhigh_count` is one for `t_curspl == IPL_HIGH` plus one for each spinlock the thread
  holds;
* the CPU takes interrupts exactly when `t_iplhigh_count` is 0.

`SplInv.step` proves that each call keeps it, one case per call, from the spec lemmas of
`splraise`, `spllower`, `splx`, `spinlock_acquire` and `spinlock_release`; `spl_bookkeeping`
reads the claim off it. `splStep_isSome` says which calls go through: `splx` of either level
always, an acquisition of a lock the thread does not hold, and a release of one it holds.
-/

namespace Os161

open Exec

variable {ι : Type}

namespace SplThread

/-- The state after `splraise(IPL_NONE, IPL_HIGH)`. -/
def raised (t : SplThread ι) : SplThread ι :=
  { t with irqOn := if t.tIplhighCount = 0 then false else t.irqOn,
           tIplhighCount := t.tIplhighCount + 1 }

/-- The state after `spllower(IPL_HIGH, IPL_NONE)`. -/
def lowered (t : SplThread ι) : SplThread ι :=
  { t with tIplhighCount := t.tIplhighCount - 1,
           irqOn := if t.tIplhighCount - 1 = 0 then true else t.irqOn }

/-! ### One spec lemma per function -/

variable (t : SplThread ι)

theorem splraise_apply : (splraise IPL_NONE IPL_HIGH : Exec Int (SplThread ι) Unit) t =
    .ok () t.raised := by
  by_cases h0 : t.tIplhighCount = 0
  · simp [splraise, raised, bind_apply, h0]
  · simp [splraise, raised, bind_apply, h0]

theorem splraise_of_ne {oldspl : Nat} (h : oldspl ≠ IPL_NONE) (newspl : Nat) :
    (splraise oldspl newspl : Exec Int (SplThread ι) Unit) t = .error .halt t := by
  simp [splraise, bind_apply, h]

theorem splraise_of_ne_high {newspl : Nat} (h : newspl ≠ IPL_HIGH) (oldspl : Nat) :
    (splraise oldspl newspl : Exec Int (SplThread ι) Unit) t = .error .halt t := by
  by_cases ho : oldspl = IPL_NONE
  · simp [splraise, bind_apply, ho, h]
  · exact splraise_of_ne t ho newspl

theorem spllower_apply : (spllower IPL_HIGH IPL_NONE : Exec Int (SplThread ι) Unit) t =
    .ok () t.lowered := by
  by_cases h0 : t.tIplhighCount - 1 = 0
  · simp [spllower, lowered, bind_apply, h0]
  · simp [spllower, lowered, bind_apply, h0]

/-- `splx` at the level the thread is at changes nothing. -/
theorem splx_self {spl : Nat} (h : t.tCurspl = spl) :
    (splx spl : Exec Int (SplThread ι) Nat) t = .ok spl t := by
  simp [splx, bind_apply, h]

/-- `splx(IPL_HIGH)` from `IPL_NONE` raises. -/
theorem splx_raise (h : t.tCurspl = IPL_NONE) :
    (splx IPL_HIGH : Exec Int (SplThread ι) Nat) t =
      .ok IPL_NONE { t.raised with tCurspl := IPL_HIGH } := by
  have hlt : IPL_NONE < IPL_HIGH := by decide
  simp only [splx, bind_apply, get_apply, h, if_pos hlt, splraise_apply, modify_apply,
    pure_apply]

/-- `splx(IPL_NONE)` from `IPL_HIGH` lowers. -/
theorem splx_lower (h : t.tCurspl = IPL_HIGH) :
    (splx IPL_NONE : Exec Int (SplThread ι) Nat) t =
      .ok IPL_HIGH { t with tCurspl := IPL_NONE }.lowered := by
  have hlt : IPL_NONE < IPL_HIGH := by decide
  have hnlt : ¬IPL_HIGH < IPL_NONE := by decide
  simp only [splx, bind_apply, get_apply, h, if_neg hnlt, if_pos hlt, modify_apply,
    spllower_apply, pure_apply]

/-- `splx` of a level other than the two halts in `splraise`. -/
theorem splx_of_gt {spl : Nat} (h : t.tCurspl < spl) (hspl : spl ≠ IPL_HIGH) :
    (splx spl : Exec Int (SplThread ι) Nat) t = .error .halt t := by
  simp [splx, bind_apply, h, splraise_of_ne_high t hspl]

/-- After a raise, interrupts are off, whatever they were. -/
theorem raised_irqOn {t : SplThread ι} (hirq : t.irqOn = true ↔ t.tIplhighCount = 0) :
    t.raised.irqOn = false := by
  by_cases h0 : t.tIplhighCount = 0
  · simp [raised, h0]
  · have hoff : t.irqOn = false := by
      rw [← Bool.not_eq_true, hirq]
      exact h0
    simp [raised, h0, hoff]

/-- A lower from a positive count turns interrupts on exactly when it takes the count to 0. -/
theorem lowered_irqOn_iff {t : SplThread ι} (hirq : t.irqOn = true ↔ t.tIplhighCount = 0)
    (hpos : 0 < t.tIplhighCount) : t.lowered.irqOn = true ↔ t.tIplhighCount - 1 = 0 := by
  have hoff : t.irqOn = false := by
    rw [← Bool.not_eq_true, hirq]
    omega
  by_cases h0 : t.tIplhighCount - 1 = 0
  · simp [lowered, h0]
  · simp [lowered, h0, hoff]

variable [DecidableEq ι]

theorem spinlockAcquire_of_not_mem {lk : ι} (h : lk ∉ t.held) :
    spinlockAcquire lk t = .ok () { t.raised with held := insert lk t.held } := by
  simp only [spinlockAcquire, bind_apply, splraise_apply, get_apply]
  simp [raised, h]

theorem spinlockAcquire_of_mem {lk : ι} (h : lk ∈ t.held) :
    spinlockAcquire lk t = .error .halt t.raised := by
  simp only [spinlockAcquire, bind_apply, splraise_apply, get_apply]
  simp [raised, h]

theorem spinlockRelease_of_mem {lk : ι} (h : lk ∈ t.held) :
    spinlockRelease lk t = .ok () { t with held := t.held.erase lk }.lowered := by
  simp only [spinlockRelease, bind_apply, get_apply, assert_apply, if_pos h, set_apply]
  exact spllower_apply _

theorem spinlockRelease_of_not_mem {lk : ι} (h : lk ∉ t.held) :
    spinlockRelease lk t = .error .halt t := by
  simp [spinlockRelease, bind_apply, h]

end SplThread

/-! ### The invariant -/

/-- The bookkeeping of the interrupt level. -/
structure SplInv (t : SplThread ι) : Prop where
  curspl : t.tCurspl = IPL_NONE ∨ t.tCurspl = IPL_HIGH
  /-- One raise for `IPL_HIGH` and one for each spinlock held. -/
  count : t.tIplhighCount = (if t.tCurspl = IPL_HIGH then 1 else 0) + t.held.card
  /-- Interrupts are on exactly when nothing has raised the level. -/
  irq : t.irqOn = true ↔ t.tIplhighCount = 0

namespace SplInv

variable {t : SplThread ι}

/-- `splx` to `IPL_HIGH` from `IPL_NONE`. -/
theorem raise (hinv : SplInv t) (h : t.tCurspl = IPL_NONE) :
    SplInv { t.raised with tCurspl := IPL_HIGH } := by
  have hc := hinv.count
  rw [h, if_neg (by decide)] at hc
  refine ⟨.inr rfl, ?_, ?_⟩
  · show t.tIplhighCount + 1 = (if IPL_HIGH = IPL_HIGH then 1 else 0) + t.held.card
    rw [if_pos rfl]
    omega
  · show t.raised.irqOn = true ↔ t.tIplhighCount + 1 = 0
    rw [SplThread.raised_irqOn hinv.irq]
    simp

/-- `splx` to `IPL_NONE` from `IPL_HIGH`. -/
theorem lower (hinv : SplInv t) (h : t.tCurspl = IPL_HIGH) :
    SplInv { t with tCurspl := IPL_NONE }.lowered := by
  have hc := hinv.count
  rw [h, if_pos rfl] at hc
  refine ⟨.inl rfl, ?_, SplThread.lowered_irqOn_iff (t := { t with tCurspl := IPL_NONE }) hinv.irq
    (by show 0 < t.tIplhighCount; omega)⟩
  show t.tIplhighCount - 1 = (if IPL_NONE = IPL_HIGH then 1 else 0) + t.held.card
  rw [if_neg (by decide)]
  omega

variable [DecidableEq ι]

/-- `spinlock_acquire` of a lock the thread does not hold. -/
theorem acquire (hinv : SplInv t) {lk : ι} (h : lk ∉ t.held) :
    SplInv { t.raised with held := insert lk t.held } := by
  refine ⟨hinv.curspl, ?_, ?_⟩
  · show t.tIplhighCount + 1 = (if t.tCurspl = IPL_HIGH then 1 else 0) + (insert lk t.held).card
    rw [Finset.card_insert_of_notMem h, hinv.count]
    omega
  · show t.raised.irqOn = true ↔ t.tIplhighCount + 1 = 0
    rw [SplThread.raised_irqOn hinv.irq]
    simp

/-- `spinlock_release` of a lock the thread holds. -/
theorem release (hinv : SplInv t) {lk : ι} (h : lk ∈ t.held) :
    SplInv { t with held := t.held.erase lk }.lowered := by
  have hcard := Finset.card_erase_of_mem h
  have hpos : 0 < t.held.card := Finset.card_pos.mpr ⟨lk, h⟩
  have hc := hinv.count
  refine ⟨hinv.curspl, ?_, SplThread.lowered_irqOn_iff (t := { t with held := t.held.erase lk })
    hinv.irq (by show 0 < t.tIplhighCount; omega)⟩
  show t.tIplhighCount - 1 = (if t.tCurspl = IPL_HIGH then 1 else 0) + (t.held.erase lk).card
  rw [hcard]
  omega

/-- **Every call keeps the invariant.** -/
theorem step {t' : SplThread ι} (hinv : SplInv t) {e : SplEvent ι} (hn : splStep t e = some t') :
    SplInv t' := by
  cases e with
  | splx spl =>
    simp only [splStep] at hn
    rcases lt_trichotomy t.tCurspl spl with hlt | heq | hgt
    · -- raising: only `IPL_NONE` to `IPL_HIGH` gets past the `KASSERT`s
      by_cases hspl : spl = IPL_HIGH
      · subst hspl
        have hnone : t.tCurspl = IPL_NONE := by
          rcases hinv.curspl with h | h
          · exact h
          · rw [h] at hlt
            exact absurd hlt (lt_irrefl _)
        rw [SplThread.splx_raise t hnone, returned_ok, Option.some.injEq] at hn
        rw [← hn]
        exact hinv.raise hnone
      · rw [SplThread.splx_of_gt t hlt hspl, returned_halt] at hn
        cases hn
    · rw [SplThread.splx_self t heq, returned_ok, Option.some.injEq] at hn
      rw [← hn]
      exact hinv
    · -- lowering: the level was `IPL_HIGH` and goes to `IPL_NONE`
      have hhigh : t.tCurspl = IPL_HIGH := by
        rcases hinv.curspl with h | h
        · rw [h] at hgt
          exact absurd hgt (Nat.not_lt_zero _)
        · exact h
      have hspl : spl = IPL_NONE := by
        rw [hhigh] at hgt
        unfold IPL_NONE
        unfold IPL_HIGH at hgt
        omega
      subst hspl
      rw [SplThread.splx_lower t hhigh, returned_ok, Option.some.injEq] at hn
      rw [← hn]
      exact hinv.lower hhigh
  | acquire lk =>
    simp only [splStep] at hn
    by_cases h : lk ∈ t.held
    · rw [SplThread.spinlockAcquire_of_mem t h, returned_halt] at hn
      cases hn
    · rw [SplThread.spinlockAcquire_of_not_mem t h, returned_ok, Option.some.injEq] at hn
      rw [← hn]
      exact hinv.acquire h
  | release lk =>
    simp only [splStep] at hn
    by_cases h : lk ∈ t.held
    · rw [SplThread.spinlockRelease_of_mem t h, returned_ok, Option.some.injEq] at hn
      rw [← hn]
      exact hinv.release h
    · rw [SplThread.spinlockRelease_of_not_mem t h, returned_halt] at hn
      cases hn

end SplInv

variable [DecidableEq ι]

/-- **The invariant holds in every state the thread reaches.** -/
theorem splInv_inductive : (splSystem : Lts.System (SplThread ι) (SplEvent ι)).Inductive SplInv := by
  refine ⟨⟨.inr rfl, ?_, ?_⟩, fun t e t' hinv hn => hinv.step hn⟩
  · show 1 = (if IPL_HIGH = IPL_HIGH then 1 else 0) + (∅ : Finset ι).card
    simp
  · show false = true ↔ 1 = 0
    simp

/-- **Interrupt-level bookkeeping.** In every state a thread reaches by `splx` calls and spinlock
acquisitions and releases, in any order: `t_curspl` is `IPL_NONE` or `IPL_HIGH`;
`t_iplhigh_count` is `[t_curspl == IPL_HIGH]` plus the number of spinlocks the thread holds;
interrupts are off on the CPU exactly when `t_iplhigh_count > 0`; and with no spinlock held and
`t_curspl == IPL_NONE`, the count is 0 and interrupts are on. -/
theorem spl_bookkeeping {t : SplThread ι} (ht : splSystem.Reachable t) :
    (t.tCurspl = IPL_NONE ∨ t.tCurspl = IPL_HIGH) ∧
      t.tIplhighCount = (if t.tCurspl = IPL_HIGH then 1 else 0) + t.held.card ∧
      (t.irqOn = false ↔ 0 < t.tIplhighCount) ∧
      (t.held = ∅ → t.tCurspl = IPL_NONE → t.tIplhighCount = 0 ∧ t.irqOn = true) := by
  have hinv := Lts.System.Inductive.reachable splInv_inductive ht
  have hoff : t.irqOn = false ↔ 0 < t.tIplhighCount := by
    rw [← Bool.not_eq_true, hinv.irq]
    omega
  refine ⟨hinv.curspl, hinv.count, hoff, ?_⟩
  intro hheld hnone
  have hzero : t.tIplhighCount = 0 := by
    rw [hinv.count, hheld, hnone, if_neg (by decide), Finset.card_empty]
  exact ⟨hzero, hinv.irq.mpr hzero⟩

/-- The sequence of `spl.c`'s comment, from `spl0()`: `spinlock_acquire(&red)`,
`s = splhigh()`, `spinlock_acquire(&blue)`, `splx(s)`, `spinlock_release(&red)`,
`spinlock_release(&blue)` ends with interrupts on. -/
theorem spl_bookkeeping_red_blue :
    let t : SplThread Nat := ⟨IPL_NONE, 0, true, ∅⟩
    (t.tCurspl = IPL_NONE ∨ t.tCurspl = IPL_HIGH) ∧
      t.tIplhighCount = (if t.tCurspl = IPL_HIGH then 1 else 0) + t.held.card ∧
      (t.irqOn = false ↔ 0 < t.tIplhighCount) ∧
      (t.held = ∅ → t.tCurspl = IPL_NONE → t.tIplhighCount = 0 ∧ t.irqOn = true) :=
  spl_bookkeeping (Lts.System.Reachable.init.run
    (show (splSystem : Lts.System (SplThread Nat) (SplEvent Nat)).run splSystem.init
      [.splx IPL_NONE, .acquire 0, .splx IPL_HIGH, .acquire 1, .splx IPL_NONE, .release 0,
        .release 1] = some ⟨IPL_NONE, 0, true, ∅⟩ by decide))

/-- **Which calls go through.** From every state satisfying the invariant, `splx` of either
level returns, `spinlock_acquire(lk)` returns exactly when the thread does not hold `lk` (else
the deadlock panic), and `spinlock_release(lk)` exactly when it holds `lk`. -/
theorem splStep_isSome {t : SplThread ι} (hinv : SplInv t) :
    (splStep t (.splx IPL_NONE)).isSome ∧ (splStep t (.splx IPL_HIGH)).isSome ∧
      (∀ lk, (splStep t (.acquire lk)).isSome ↔ lk ∉ t.held) ∧
      (∀ lk, (splStep t (.release lk)).isSome ↔ lk ∈ t.held) := by
  refine ⟨?_, ?_, ?_, ?_⟩
  · rcases hinv.curspl with h | h
    · simp [splStep, SplThread.splx_self t h]
    · simp [splStep, SplThread.splx_lower t h]
  · rcases hinv.curspl with h | h
    · simp [splStep, SplThread.splx_raise t h]
    · simp [splStep, SplThread.splx_self t h]
  · intro lk
    by_cases h : lk ∈ t.held
    · simp [splStep, SplThread.spinlockAcquire_of_mem t h, h]
    · simp [splStep, SplThread.spinlockAcquire_of_not_mem t h, h]
  · intro lk
    by_cases h : lk ∈ t.held
    · simp [splStep, SplThread.spinlockRelease_of_mem t h, h]
    · simp [splStep, SplThread.spinlockRelease_of_not_mem t h, h]

end Os161

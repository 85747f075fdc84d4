import Os161.Thread.Synch

/-!
# Locks are mutually exclusive; `cv_wait` loses wakeups

* `lock_mutual_exclusion`: in every reachable state of any number of threads calling the
  primitives in any order, for every lock, at most one thread is between the return of its
  `lock_acquire` and its next `lock_release`; `holder` is that thread (`NULL` when there is
  none), `held` is 1 exactly when `holder` is set, `lock_do_i_hold` is true exactly for that
  thread, and a `lock_release` by another thread changes nothing. The invariant is `LockInv`;
  what a step does to a lock is said once, by `step_lock_other`, `step_lockAcquire` and
  `step_lockRelease`.
* `cvWait_lost_wakeup`: `cv_wait` releases the lock before it locks the channel. A thread that
  takes the lock in that window and broadcasts wakes nobody, and the waiter then goes to sleep.
-/

namespace Os161

open Threads

/-! ### What one step does to a lock -/

section Steps

variable {t lk : Nat} {s s' : Synch} {fl : Flow Prim}

/-- **A step of a frame that is not `lock_acquire(lk)` or `lock_release(lk)` leaves the lock
alone.** -/
theorem step_lock_other {f : Prim} (h : f.step t s = some (s', fl))
    (hacq : ∀ b, f ≠ .lockAcquire lk b) (hrel : f ≠ .lockRelease lk) :
    s'.locks lk = s.locks lk := by
  cases f with
  | lockAcquire lk' b =>
    have hne : lk ≠ lk' := fun e => hacq b (by rw [e])
    simp only [Prim.step] at h
    split_ifs at h
    split at h
    · obtain ⟨rfl, -⟩ := Prod.mk.inj (Option.some.inj h)
      exact Function.update_of_ne hne _ _
    · obtain ⟨rfl, -⟩ := Prod.mk.inj (Option.some.inj h)
      exact Function.update_of_ne hne _ _
  | lockRelease lk' =>
    have hne : lk ≠ lk' := fun e => hrel (by rw [e])
    simp only [Prim.step] at h
    split_ifs at h
    · obtain ⟨rfl, -⟩ := Prod.mk.inj (Option.some.inj h)
      exact Function.update_of_ne hne _ _
    · obtain ⟨rfl, -⟩ := Prod.mk.inj (Option.some.inj h)
      rfl
  | cvWait cv lk' pc =>
    cases pc with
    | release | sleep =>
      simp only [Prim.step] at h
      obtain ⟨rfl, -⟩ := Prod.mk.inj (Option.some.inj h)
      rfl
    | asleep =>
      simp only [Prim.step] at h
      split_ifs at h
      obtain ⟨rfl, -⟩ := Prod.mk.inj (Option.some.inj h)
      rfl
  | cvSignal cv lk' | cvBroadcast cv lk' | V sem =>
    simp only [Prim.step] at h
    obtain ⟨rfl, -⟩ := Prod.mk.inj (Option.some.inj h)
    rfl
  | P sem b =>
    simp only [Prim.step] at h
    split_ifs at h
    · obtain ⟨rfl, -⟩ := Prod.mk.inj (Option.some.inj h)
      rfl
    · obtain ⟨rfl, -⟩ := Prod.mk.inj (Option.some.inj h)
      rfl

/-- **`lock_acquire(lk)`** either takes a free lock and returns, or leaves `holder` and `held`
as they are (it goes to sleep on `lk_wchan`). -/
theorem step_lockAcquire {b : Bool} (h : (Prim.lockAcquire lk b).step t s = some (s', fl)) :
    (fl = .ret ∧ (s.locks lk).holder = none ∧ (s'.locks lk).holder = some t ∧
      (s'.locks lk).held = 1) ∨
    (fl ≠ .ret ∧ (s'.locks lk).holder = (s.locks lk).holder ∧
      (s'.locks lk).held = (s.locks lk).held) := by
  simp only [Prim.step] at h
  split_ifs at h
  split at h
  · rename_i hnone
    obtain ⟨rfl, rfl⟩ := Prod.mk.inj (Option.some.inj h)
    exact .inl ⟨rfl, hnone, by simp, by simp⟩
  · obtain ⟨rfl, rfl⟩ := Prod.mk.inj (Option.some.inj h)
    exact .inr ⟨by simp, by simp, by simp⟩

/-- **`lock_release(lk)`** clears a lock its caller holds and otherwise changes nothing. -/
theorem step_lockRelease (h : (Prim.lockRelease lk).step t s = some (s', fl)) :
    ((s.locks lk).holder = some t ∧ (s'.locks lk).holder = none ∧ (s'.locks lk).held = 0) ∨
    ((s.locks lk).holder ≠ some t ∧ s' = s) := by
  simp only [Prim.step] at h
  split_ifs at h with hhold
  · obtain ⟨rfl, -⟩ := Prod.mk.inj (Option.some.inj h)
    exact .inl ⟨by simpa [lockDoIHold] using hhold, by simp, by simp⟩
  · obtain ⟨rfl, -⟩ := Prod.mk.inj (Option.some.inj h)
    exact .inr ⟨by simpa [lockDoIHold] using hhold, rfl⟩

end Steps

/-! ### The history variable -/

section History

variable {t lk : Nat} {fl : Flow Prim} {cs : Nat → Nat → Bool}

theorem csUpdate_lockAcquire_ret (b : Bool) :
    csUpdate t (.lockAcquire lk b) .ret cs lk = Function.update (cs lk) t true := by
  simp [csUpdate]

theorem csUpdate_lockAcquire_of_ne_ret {b : Bool} (hfl : fl ≠ .ret) :
    csUpdate t (.lockAcquire lk b) fl cs = cs := by
  cases fl with
  | ret => exact absurd rfl hfl
  | goto _ | call _ _ => rfl

theorem csUpdate_lockRelease :
    csUpdate t (.lockRelease lk) fl cs lk = Function.update (cs lk) t false := by
  simp [csUpdate]

/-- Only the frames of `lock_acquire(lk)` and `lock_release(lk)` move `inCs lk`. -/
theorem csUpdate_other {f : Prim} (hacq : ∀ b, f ≠ .lockAcquire lk b)
    (hrel : f ≠ .lockRelease lk) : csUpdate t f fl cs lk = cs lk := by
  cases f with
  | lockAcquire lk' b =>
    have hne : lk ≠ lk' := fun e => hacq b (by rw [e])
    cases fl <;> simp [csUpdate, Function.update_of_ne hne]
  | lockRelease lk' =>
    have hne : lk ≠ lk' := fun e => hrel (by rw [e])
    simp [csUpdate, Function.update_of_ne hne]
  | cvWait | cvSignal | cvBroadcast | P | V => rfl

end History

/-! ### The lock invariant -/

/-- **The lock invariant**: for every lock, `held` is 1 exactly when `holder` is set (and 0
otherwise), and the threads between a `lock_acquire` and the next `lock_release` are exactly
the holder. -/
def LockInv (x : SynchState) : Prop :=
  ∀ lk, (x.synch.locks lk).held = (if (x.synch.locks lk).holder = none then 0 else 1) ∧
    ∀ u, x.inCs lk u = true ↔ (x.synch.locks lk).holder = some u

theorem lockInv_init (counts : Nat → Nat) : LockInv (synchSystem counts).init.shared := by
  intro lk
  simp [synchSystem, Synch.created]

/-- **One step keeps the lock invariant**: the three ways a step can touch a lock. -/
theorem lockInv_run {t : Nat} {f : Prim} {x x' : SynchState} {fl : Flow Prim}
    (hx : LockInv x) (h : f.run t x = some (x', fl)) : LockInv x' := by
  obtain ⟨s', hstep, rfl⟩ := Prim.run_eq_some h
  intro lk
  obtain ⟨hheld, hcs⟩ := hx lk
  by_cases hrel : f = .lockRelease lk
  · subst hrel
    simp only [csUpdate_lockRelease]
    rcases step_lockRelease hstep with ⟨hold, hnew, hnheld⟩ | ⟨hnot, rfl⟩
    · -- the holder gives the lock up
      refine ⟨by simp [hnew, hnheld], fun u => ?_⟩
      by_cases hu : u = t
      · subst hu; simp [hnew]
      · rw [Function.update_of_ne hu, hcs u, hold, hnew]
        simp [Ne.symm hu]
    · -- another thread's release changes nothing
      refine ⟨hheld, fun u => ?_⟩
      by_cases hu : u = t
      · subst hu; simpa using hnot
      · rw [Function.update_of_ne hu, hcs u]
  by_cases hacq : ∃ b, f = .lockAcquire lk b
  · obtain ⟨b, rfl⟩ := hacq
    rcases step_lockAcquire hstep with ⟨rfl, hfree, hnew, hnheld⟩ | ⟨hfl, hsame, hsheld⟩
    · -- the lock was free and the caller takes it
      simp only [csUpdate_lockAcquire_ret]
      refine ⟨by simp [hnew, hnheld], fun u => ?_⟩
      by_cases hu : u = t
      · subst hu; simp [hnew]
      · rw [Function.update_of_ne hu, hcs u, hfree, hnew]
        simp [Ne.symm hu]
    · -- the caller sleeps on `lk_wchan`
      simp only [csUpdate_lockAcquire_of_ne_ret hfl]
      exact ⟨by rw [hsheld, hsame]; exact hheld, fun u => by rw [hcs u, hsame]⟩
  · simp only [not_exists] at hacq
    have hlock := step_lock_other hstep hacq hrel
    simp only [csUpdate_other hacq hrel, hlock]
    exact ⟨hheld, hcs⟩

/-- The lock invariant holds in every reachable state. -/
theorem lockInv_inductive (counts : Nat → Nat) :
    (synchSystem counts).Inductive fun m => LockInv m.shared := by
  refine ⟨lockInv_init counts, fun m e m' hm h => ?_⟩
  cases e with
  | call t c =>
    obtain ⟨-, rfl⟩ := Machine.call_eq_some h
    exact hm
  | run t =>
    obtain ⟨f, rest, x', fl, -, hrun, rfl⟩ := Machine.step_eq_some h
    exact lockInv_run hm hrun

/-- **Lock mutual exclusion and ownership.** In every reachable state of any number of threads
calling the primitives in any interleaving, for every lock `lk`: at most one thread is between
the return of its `lock_acquire(lk)` and its next `lock_release(lk)`; `holder` is exactly that
thread; `held` is 1 iff `holder` is set; `lock_do_i_hold(lk)` is true exactly for that thread;
and a `lock_release(lk)` by any other thread leaves the lock, its `holder`, `held` and
`lk_wchan`, unchanged. -/
theorem lock_mutual_exclusion (counts : Nat → Nat) {m : Machine SynchState Prim}
    (hm : (synchSystem counts).Reachable m) (lk : Nat) :
    (∀ t u, m.shared.inCs lk t = true → m.shared.inCs lk u = true → t = u) ∧
    (∀ t, (m.shared.synch.locks lk).holder = some t ↔ m.shared.inCs lk t = true) ∧
    ((m.shared.synch.locks lk).holder = none ↔ ∀ t, m.shared.inCs lk t = false) ∧
    ((m.shared.synch.locks lk).held = 1 ↔ (m.shared.synch.locks lk).holder ≠ none) ∧
    (∀ t, lockDoIHold m.shared.synch lk t = m.shared.inCs lk t) ∧
    (∀ t s' fl, m.shared.inCs lk t = false →
      (Prim.lockRelease lk).step t m.shared.synch = some (s', fl) → s' = m.shared.synch) := by
  obtain ⟨hheld, hcs⟩ := (lockInv_inductive counts).reachable hm lk
  refine ⟨fun t u ht hu => ?_, fun t => (hcs t).symm, ?_, ?_, fun t => ?_, ?_⟩
  · have h := ((hcs t).mp ht).symm.trans ((hcs u).mp hu)
    exact Option.some.inj h
  · constructor
    · intro hnone t
      cases h : m.shared.inCs lk t with
      | false => rfl
      | true => simp [hnone] at hcs; exact absurd h (by simp [hcs t])
    · intro hall
      cases hh : (m.shared.synch.locks lk).holder with
      | none => rfl
      | some t => exact absurd ((hcs t).mpr hh) (by simp [hall t])
  · rw [hheld]
    split_ifs with h <;> simp [h]
  · rw [lockDoIHold]
    cases hin : m.shared.inCs lk t with
    | true => simpa using (hcs t).mp hin
    | false =>
      have : (m.shared.synch.locks lk).holder ≠ some t := fun h => by simp [(hcs t).mpr h] at hin
      simpa using this
  · intro t s' fl hnot h
    rcases step_lockRelease h with ⟨hold, -, -⟩ | ⟨-, rfl⟩
    · simp [(hcs t).mpr hold] at hnot
    · rfl

/-- After thread 0 calls `lock_acquire(lock 0)` and it returns, thread 0 is the holder and
`held` is 1. -/
theorem lock_mutual_exclusion_after_acquire :
    ∃ m, (synchSystem fun _ => 0).Reachable m ∧ m.shared.inCs 0 0 = true ∧
      (m.shared.synch.locks 0).holder = some 0 ∧ (m.shared.synch.locks 0).held = 1 := by
  obtain ⟨m, hm, hin⟩ := Lts.System.reachable_of_run (synchSystem fun _ => 0)
    [.call 0 (.lockAcquire 0), .run 0] (fun m => m.shared.inCs 0 0) (by decide)
  have h := lock_mutual_exclusion (fun _ => 0) hm 0
  have hholder := (h.2.1 0).mpr hin
  exact ⟨m, hm, hin, hholder, h.2.2.2.1.mpr (by simp [hholder])⟩

/-! ### `cv_wait` -/

/-- Thread 0 (the waiter) takes lock 0. -/
def cvWaiterHolds : List SynchEvent := [.call 0 (.lockAcquire 0), .run 0]

/-- The waiter calls `cv_wait(cv 0, lock 0)`, which runs `lock_release(lock 0)`. -/
def cvWaiterReleases : List SynchEvent := [.call 0 (.cvWait 0 0), .run 0, .run 0]

/-- Thread 1 (the signaller) takes lock 0, then calls `cv_broadcast(cv 0, lock 0)`; both
calls return. -/
def cvSignallerBroadcasts : List SynchEvent :=
  [.call 1 (.lockAcquire 0), .run 1, .call 1 (.cvBroadcast 0 0), .run 1]

/-- **A wakeup lost by `cv_wait`.** The waiter calls `cv_wait` while it holds the lock; its
`lock_release` runs; the signaller then completes `lock_acquire` and a `cv_broadcast` that
returns with the channel empty; the waiter's next step puts it to sleep on `cv_wchan`, where
it stays although the broadcast came after its `cv_wait`. -/
theorem cvWait_lost_wakeup :
    ∃ m₁ m₂ m₃ m₄,
      (synchSystem fun _ => 0).run (synchSystem fun _ => 0).init cvWaiterHolds = some m₁ ∧
      (m₁.shared.synch.locks 0).holder = some 0 ∧ m₁.frames 0 = [] ∧
      (synchSystem fun _ => 0).run m₁ cvWaiterReleases = some m₂ ∧
      m₂.frames 0 = [.cvWait 0 0 .sleep] ∧ (m₂.shared.synch.locks 0).holder = none ∧
      (synchSystem fun _ => 0).run m₂ cvSignallerBroadcasts = some m₃ ∧
      (m₃.shared.synch.locks 0).holder = some 1 ∧ m₃.frames 1 = [] ∧
      (synchSystem fun _ => 0).next m₃ (.run 0) = some m₄ ∧
      0 ∈ (m₄.shared.synch.cvs 0).wcThreads :=
  ⟨_, _, _, _, rfl, by decide, by decide, rfl, by decide, by decide, rfl, by decide, by decide,
    rfl, by decide⟩

end Os161

import Os161.Thread.Synch

/-!
# Semaphores count exactly and strand no count

`P` takes `sem_lock`, and while `sem_count` is 0 locks `sem_wchan`, drops `sem_lock` and sleeps;
`V` takes `sem_lock`, increments `sem_count` and wakes one sleeper. A woken thread is runnable
but has not yet re-acquired `sem_lock`, and a newcomer may take the count before it does.

* `semInv_inductive`: in every reachable state, for every semaphore, the sleepers are distinct
  threads in the loop of `P`, and while one sleeps `sem_count` is at most the number of threads
  woken from `sem_wchan` that have not yet re-acquired `sem_lock` (`SemInv`). What a step does
  to a semaphore is said once, by `step_P`, `step_V` and `step_sem_other`, and what it does to
  the invariant by `SemInv.sleep`, `SemInv.take`, `SemInv.wakeone` and `SemInv.of_frames`.
* `semaphore_counts_exactly`: with history variables for the `P` and `V` calls that have
  returned (`semSystem`), `sem_count` is the initial count plus the `V`s minus the `P`s.
-/

namespace Os161

open Threads

/-! ### What one step does to a semaphore -/

section Steps

variable {t sem : Nat} {s s' : Synch} {fl : Flow Prim}

/-- **`P(sem)`** is not enabled for a sleeper; otherwise it goes to sleep on a zero count and
takes a positive one. -/
theorem step_P {b : Bool} (h : (Prim.P sem b).step t s = some (s', fl)) :
    ¬(b = true ∧ t ∈ (s.sems sem).semWchan.wcThreads) ∧
    (((s.sems sem).semCount = 0 ∧ fl = .goto (.P sem true) ∧
        s' = s.setSem sem { s.sems sem with semWchan := wchanSleep t (s.sems sem).semWchan }) ∨
      ((s.sems sem).semCount ≠ 0 ∧ fl = .ret ∧
        s' = s.setSem sem { s.sems sem with semCount := (s.sems sem).semCount - 1 })) := by
  simp only [Prim.step] at h
  split_ifs at h with hslept hzero
  · obtain ⟨rfl, rfl⟩ := Prod.mk.inj (Option.some.inj h)
    exact ⟨hslept, .inl ⟨hzero, rfl, rfl⟩⟩
  · obtain ⟨rfl, rfl⟩ := Prod.mk.inj (Option.some.inj h)
    exact ⟨hslept, .inr ⟨hzero, rfl, rfl⟩⟩

/-- **`V(sem)`** increments the count, wakes one sleeper and returns. -/
theorem step_V (h : (Prim.V sem).step t s = some (s', fl)) :
    fl = .ret ∧ s' = s.setSem sem
      ⟨(s.sems sem).semCount + 1, wchanWakeone (s.sems sem).semWchan⟩ := by
  simp only [Prim.step] at h
  obtain ⟨rfl, rfl⟩ := Prod.mk.inj (Option.some.inj h)
  exact ⟨rfl, rfl⟩

/-- **A step of a frame that is not `P(sem)` or `V(sem)` leaves the semaphore alone.** -/
theorem step_sem_other {f : Prim} (h : f.step t s = some (s', fl))
    (hP : ∀ b, f ≠ .P sem b) (hV : f ≠ .V sem) : s'.sems sem = s.sems sem := by
  cases f with
  | P sem' b =>
    have hne : sem ≠ sem' := fun e => hP b (by rw [e])
    rcases (step_P h).2 with ⟨-, -, rfl⟩ | ⟨-, -, rfl⟩ <;>
      exact Function.update_of_ne hne _ _
  | V sem' =>
    have hne : sem ≠ sem' := fun e => hV (by rw [e])
    rw [(step_V h).2]
    exact Function.update_of_ne hne _ _
  | lockAcquire lk b =>
    -- the lock and condition variable frames write locks and channels only
    simp only [Prim.step] at h
    split_ifs at h
    split at h <;> (obtain ⟨rfl, -⟩ := Prod.mk.inj (Option.some.inj h)) <;> rfl
  | lockRelease lk =>
    simp only [Prim.step] at h
    split_ifs at h <;> (obtain ⟨rfl, -⟩ := Prod.mk.inj (Option.some.inj h)) <;> rfl
  | cvWait cv lk pc =>
    cases pc <;> simp only [Prim.step] at h <;> (try split_ifs at h) <;>
      (obtain ⟨rfl, -⟩ := Prod.mk.inj (Option.some.inj h)) <;> rfl
  | cvSignal cv lk | cvBroadcast cv lk =>
    simp only [Prim.step] at h
    obtain ⟨rfl, -⟩ := Prod.mk.inj (Option.some.inj h)
    rfl

end Steps

/-! ### The invariant of a semaphore -/

/-- Thread `t` is in the loop of `P(sem)`, after a `wchan_sleep`. -/
def InP (frames : Nat → List Prim) (sem t : Nat) : Prop :=
  ∃ rest, frames t = .P sem true :: rest

/-- Thread `t` has been woken from `sem_wchan` and has not yet re-acquired `sem_lock`. -/
def Woken (m : Semaphore) (frames : Nat → List Prim) (sem t : Nat) : Prop :=
  InP frames sem t ∧ t ∉ m.semWchan.wcThreads

/-- **The invariant of semaphore `sem`** (`m`) under the stacks `frames`: each sleeper sleeps once
and in `P(sem)`, and while one sleeps, at least `sem_count` threads have been woken and not yet
re-acquired `sem_lock`. -/
structure SemInv (m : Semaphore) (frames : Nat → List Prim) (sem : Nat) : Prop where
  nodup : m.semWchan.wcThreads.Nodup
  asleep_inP : ∀ t ∈ m.semWchan.wcThreads, InP frames sem t
  not_stranded : m.semWchan.wcThreads ≠ [] →
    ∃ W : Finset Nat, m.semCount ≤ W.card ∧ ∀ t ∈ W, Woken m frames sem t

/-- A thread in the loop of `P(sem)` whose stack a step leaves alone is still in it. -/
theorem InP.of_frames {frames frames' : Nat → List Prim} {sem t : Nat} (ht : InP frames sem t)
    (hfr : frames' t = frames t) : InP frames' sem t := by
  rw [InP, hfr]
  exact ht

/-- The thread at the top of whose stack is `f` is in the loop of `P(sem)` only if `f` is that
loop. -/
theorem ne_of_inP {frames : Nat → List Prim} {sem t v : Nat} {f : Prim} {rest : List Prim}
    (hv : frames v = f :: rest) (hf : f ≠ .P sem true) (ht : InP frames sem t) : t ≠ v := by
  rintro rfl
  obtain ⟨rest', hrest'⟩ := ht
  rw [hv, List.cons.injEq] at hrest'
  exact hf hrest'.1

namespace SemInv

variable {m : Semaphore} {frames frames' : Nat → List Prim} {sem v : Nat}

/-- A step that leaves the semaphore alone and moves no thread in the loop of `P(sem)`. -/
theorem of_frames (hinv : SemInv m frames sem)
    (hfr : ∀ t, InP frames sem t → frames' t = frames t) : SemInv m frames' sem := by
  have hinP : ∀ t, InP frames sem t → InP frames' sem t := fun t ht => ht.of_frames (hfr t ht)
  refine ⟨hinv.nodup, fun t ht => hinP t (hinv.asleep_inP t ht), fun hne => ?_⟩
  obtain ⟨W, hcard, hW⟩ := hinv.not_stranded hne
  exact ⟨W, hcard, fun t ht => ⟨hinP t (hW t ht).1, (hW t ht).2⟩⟩

/-- **`V`**: the count and the woken threads grow by one while a sleeper is left. -/
theorem wakeone (hinv : SemInv m frames sem)
    (hfr : ∀ t, InP frames sem t → frames' t = frames t) :
    SemInv ⟨m.semCount + 1, wchanWakeone m.semWchan⟩ frames' sem := by
  have hinP : ∀ t, InP frames sem t → InP frames' sem t := fun t ht => ht.of_frames (hfr t ht)
  refine ⟨hinv.nodup.sublist (List.tail_sublist _),
    fun t ht => hinP t (hinv.asleep_inP t (List.mem_of_mem_tail ht)), fun hne => ?_⟩
  -- the channel was `u :: rest`, and `u` joins the woken threads
  obtain ⟨u, rest, hwc⟩ : ∃ u rest, m.semWchan.wcThreads = u :: rest := by
    cases hwc : m.semWchan.wcThreads with
    | nil => simp [wchanWakeone, hwc] at hne
    | cons u rest => exact ⟨u, rest, rfl⟩
  obtain ⟨W, hcard, hW⟩ := hinv.not_stranded (by simp [hwc])
  have hu : u ∉ W := fun hu => (hW u hu).2 (by simp [hwc])
  have hrest : u ∉ rest := (List.nodup_cons.mp (hwc ▸ hinv.nodup)).1
  have hcard' : (insert u W).card = W.card + 1 := Finset.card_insert_of_notMem hu
  refine ⟨insert u W, hcard' ▸ Nat.succ_le_succ hcard, fun t ht => ?_⟩
  simp only [wchanWakeone, hwc, List.tail_cons]
  rcases Finset.mem_insert.mp ht with rfl | ht
  · exact ⟨hinP t (hinv.asleep_inP t (by simp [hwc])), hrest⟩
  · refine ⟨hinP t (hW t ht).1, fun hmem => (hW t ht).2 ?_⟩
    simp [hwc, hmem]

/-- **`P` on a zero count**: the caller, not a sleeper, joins the channel in the loop of `P`. -/
theorem sleep (hinv : SemInv m frames sem) (hzero : m.semCount = 0)
    (hv : v ∉ m.semWchan.wcThreads) (hv' : InP frames' sem v)
    (hfr : ∀ t, t ≠ v → frames' t = frames t) :
    SemInv { m with semWchan := wchanSleep v m.semWchan } frames' sem := by
  refine ⟨?_, fun t ht => ?_, fun _ => ⟨∅, by simp [hzero], by simp⟩⟩
  · rw [wchanSleep, ← List.concat_eq_append]
    exact hinv.nodup.concat hv
  · rcases List.mem_append.mp ht with ht | ht
    · have htv : t ≠ v := fun e => hv (e ▸ ht)
      exact (hinv.asleep_inP t ht).of_frames (hfr t htv)
    · rw [List.mem_singleton.mp ht]
      exact hv'

/-- **`P` on a positive count**: the caller, not a sleeper, takes one; the woken threads lose at
most the caller. -/
theorem take (hinv : SemInv m frames sem) (hv : v ∉ m.semWchan.wcThreads)
    (hfr : ∀ t, t ≠ v → frames' t = frames t) :
    SemInv { m with semCount := m.semCount - 1 } frames' sem := by
  refine ⟨hinv.nodup, fun t ht => ?_, fun hne => ?_⟩
  · have htv : t ≠ v := fun e => hv (e ▸ ht)
    exact (hinv.asleep_inP t ht).of_frames (hfr t htv)
  · obtain ⟨W, hcard, hW⟩ := hinv.not_stranded hne
    refine ⟨W.erase v, ?_, fun t ht => ?_⟩
    · have hle : W.card - 1 ≤ (W.erase v).card := Finset.pred_card_le_card_erase
      simp only
      omega
    · obtain ⟨htv, ht⟩ := Finset.mem_erase.mp ht
      exact ⟨(hW t ht).1.of_frames (hfr t htv), (hW t ht).2⟩

end SemInv

/-! ### Every reachable state -/

section Reachable

variable {counts : Nat → Nat} {m m' : Machine SynchState Prim}

theorem synchSystem_init_sems (counts : Nat → Nat) (sem : Nat) :
    (synchSystem counts).init.shared.synch.sems sem = ⟨counts sem, {}⟩ := rfl

/-- A step of the threads keeps the invariant of every semaphore: a call moves an idle thread,
in no loop of `P`; a step of a thread is a `V`, a `P` or a step that leaves the semaphore alone. -/
theorem semInv_step {e : SynchEvent} (hm : ∀ sem, SemInv (m.shared.synch.sems sem) m.frames sem)
    (h : (synchSystem counts).next m e = some m') (sem : Nat) :
    SemInv (m'.shared.synch.sems sem) m'.frames sem := by
  have hinv := hm sem
  cases e with
  | call t c =>
    obtain ⟨hidle, rfl⟩ := Machine.call_eq_some h
    refine hinv.of_frames fun u hu => Function.update_of_ne ?_ _ _
    rintro rfl
    obtain ⟨rest, hrest⟩ := hu
    rw [hidle] at hrest
    cases hrest
  | run v =>
    obtain ⟨f, rest, x', fl, hfv, hrun, rfl⟩ := Machine.step_eq_some h
    obtain ⟨s', hstep, rfl⟩ := Prim.run_eq_some hrun
    dsimp only
    have hfr : ∀ u, u ≠ v → Function.update m.frames v (fl.push rest) u = m.frames u :=
      fun u hu => Function.update_of_ne hu _ _
    by_cases hV : f = .V sem
    · subst hV
      obtain ⟨-, rfl⟩ := step_V hstep
      rw [Synch.setSem_sems, Function.update_self]
      exact hinv.wakeone fun u hu => hfr u (ne_of_inP hfv (by simp) hu)
    by_cases hP : ∃ b, f = .P sem b
    · obtain ⟨b, rfl⟩ := hP
      obtain ⟨hslept, hcases⟩ := step_P hstep
      -- the caller is not asleep: a sleeper's `P` is not enabled, and a new `P` is not the loop
      have hv : v ∉ (m.shared.synch.sems sem).semWchan.wcThreads := by
        intro hv
        cases b with
        | true => exact hslept ⟨rfl, hv⟩
        | false =>
          obtain ⟨rest', hrest'⟩ := hinv.asleep_inP v hv
          rw [hfv] at hrest'
          simp at hrest'
      rcases hcases with ⟨hzero, rfl, rfl⟩ | ⟨-, rfl, rfl⟩
      · rw [Synch.setSem_sems, Function.update_self]
        exact hinv.sleep hzero hv ⟨rest, by simp⟩ hfr
      · rw [Synch.setSem_sems, Function.update_self]
        exact hinv.take hv hfr
    · simp only [not_exists] at hP
      rw [step_sem_other hstep hP hV]
      exact hinv.of_frames fun u hu => hfr u (ne_of_inP hfv (hP true) hu)

/-- **The invariant of every semaphore holds in every reachable state.** -/
theorem semInv_inductive (counts : Nat → Nat) :
    (synchSystem counts).Inductive fun m =>
      ∀ sem, SemInv (m.shared.synch.sems sem) m.frames sem := by
  refine ⟨fun sem => ?_, fun _ _ _ hm h => semInv_step hm h⟩
  rw [synchSystem_init_sems]
  exact ⟨List.nodup_nil, fun _ h => (by cases h), fun h => absurd rfl h⟩

end Reachable

/-! ### The calls that have returned -/

/-- History variables, not in the source: for every semaphore, the `P` and `V` calls on it that
have returned. -/
structure SemCounts where
  doneP : Nat → Nat
  doneV : Nat → Nat

namespace SemCounts

/-- The call whose frame is `f` has returned. -/
def complete (c : SemCounts) : Prim → SemCounts
  | .P sem _ => { c with doneP := Function.update c.doneP sem (c.doneP sem + 1) }
  | .V sem => { c with doneV := Function.update c.doneV sem (c.doneV sem + 1) }
  | _ => c

/-- The counts after the event `e` leads from `m` to `m'`: a step that pops the top frame of its
thread completes the call of that frame. -/
def record (m : Machine SynchState Prim) (e : SynchEvent) (m' : Machine SynchState Prim)
    (c : SemCounts) : SemCounts :=
  match e with
  | .call _ _ => c
  | .run t =>
    match m.frames t with
    | f :: rest => if m'.frames t = rest then c.complete f else c
    | [] => c

variable {c : SemCounts} {sem : Nat}

@[simp] theorem complete_P_doneP (b : Bool) :
    (c.complete (.P sem b)).doneP sem = c.doneP sem + 1 := by
  simp [complete]

@[simp] theorem complete_P_doneV (b : Bool) :
    (c.complete (.P sem b)).doneV sem = c.doneV sem := rfl

@[simp] theorem complete_V_doneP : (c.complete (.V sem)).doneP sem = c.doneP sem := rfl

@[simp] theorem complete_V_doneV : (c.complete (.V sem)).doneV sem = c.doneV sem + 1 := by
  simp [complete]

/-- The calls of other frames move neither count of `sem`. -/
theorem complete_other {f : Prim} (hP : ∀ b, f ≠ .P sem b) (hV : f ≠ .V sem) :
    (c.complete f).doneP sem = c.doneP sem ∧ (c.complete f).doneV sem = c.doneV sem := by
  cases f with
  | P sem' b =>
    have hne : sem ≠ sem' := fun e => hP b (by rw [e])
    exact ⟨Function.update_of_ne hne _ _, rfl⟩
  | V sem' =>
    have hne : sem ≠ sem' := fun e => hV (by rw [e])
    exact ⟨rfl, Function.update_of_ne hne _ _⟩
  | lockAcquire | lockRelease | cvWait | cvSignal | cvBroadcast => exact ⟨rfl, rfl⟩

/-- A step of thread `t` completes the call of its top frame exactly when it returns. -/
theorem record_run {m m' : Machine SynchState Prim} {t : Nat} {f : Prim} {rest : List Prim}
    {fl : Flow Prim} (hf : m.frames t = f :: rest) (hf' : m'.frames t = fl.push rest) :
    record m (.run t) m' c = if fl = .ret then c.complete f else c := by
  simp only [record, hf, hf', Flow.push_eq_self_iff]

end SemCounts

/-- The threads calling the primitives, with the counts of the calls that have returned. -/
def semSystem (counts : Nat → Nat) :
    Lts.System (Machine SynchState Prim × SemCounts) SynchEvent :=
  (synchSystem counts).withHistory ⟨fun _ => 0, fun _ => 0⟩ SemCounts.record

/-- `sem_count` is the initial count plus the `V`s minus the `P`s that have returned. -/
def CountInv (counts : Nat → Nat) (x : Machine SynchState Prim × SemCounts) : Prop :=
  ∀ sem, (x.1.shared.synch.sems sem).semCount + x.2.doneP sem = counts sem + x.2.doneV sem

/-- One step keeps the count: a `V` adds one to both sides, a `P` that returns takes one from the
count and adds one to the `P`s, and every other step moves neither. -/
theorem countInv_step {counts : Nat → Nat} {x y : Machine SynchState Prim × SemCounts}
    {e : SynchEvent} (hx : CountInv counts x) (h : (semSystem counts).next x e = some y) :
    CountInv counts y := by
  obtain ⟨hn, hy⟩ := Lts.System.withHistory_next_eq_some h
  obtain ⟨m', c'⟩ := y
  dsimp only at hn hy
  subst hy
  intro sem
  cases e with
  | call t cl =>
    obtain ⟨-, rfl⟩ := Machine.call_eq_some hn
    exact hx sem
  | run v =>
    obtain ⟨f, rest, x', fl, hfv, hrun, rfl⟩ := Machine.step_eq_some hn
    obtain ⟨s', hstep, rfl⟩ := Prim.run_eq_some hrun
    rw [SemCounts.record_run hfv (Function.update_self _ _ _)]
    have hc := hx sem
    dsimp only
    by_cases hV : f = .V sem
    · subst hV
      obtain ⟨rfl, rfl⟩ := step_V hstep
      simp only [if_true, SemCounts.complete_V_doneP, SemCounts.complete_V_doneV,
        Synch.setSem_sems, Function.update_self]
      omega
    by_cases hP : ∃ b, f = .P sem b
    · obtain ⟨b, rfl⟩ := hP
      rcases (step_P hstep).2 with ⟨-, rfl, rfl⟩ | ⟨hpos, rfl, rfl⟩
      · -- going to sleep completes nothing and leaves the count
        simp only [reduceCtorEq, if_false, Synch.setSem_sems, Function.update_self]
        exact hc
      · simp only [if_true, SemCounts.complete_P_doneP, SemCounts.complete_P_doneV,
          Synch.setSem_sems, Function.update_self]
        omega
    · simp only [not_exists] at hP
      have hd : (x.2.complete f).doneP sem = x.2.doneP sem ∧
          (x.2.complete f).doneV sem = x.2.doneV sem := SemCounts.complete_other hP hV
      rw [step_sem_other hstep hP hV]
      split_ifs
      · rw [hd.1, hd.2]
        exact hc
      · exact hc

/-- **Semaphores count exactly and strand no count.** In every reachable state of any number of
threads calling the primitives in any interleaving, for every semaphore: `sem_count` is its
initial count plus the `V`s minus the `P`s that have returned, which is never negative; and
while a thread sleeps on `sem_wchan`, `sem_count` is at most the number of threads woken from
`sem_wchan` that have not yet re-acquired `sem_lock`. -/
theorem semaphore_counts_exactly (counts : Nat → Nat) {x : Machine SynchState Prim × SemCounts}
    (hx : (semSystem counts).Reachable x) (sem : Nat) :
    ((x.1.shared.synch.sems sem).semCount : ℤ) = counts sem + x.2.doneV sem - x.2.doneP sem ∧
      x.2.doneP sem ≤ counts sem + x.2.doneV sem ∧
      ((x.1.shared.synch.sems sem).semWchan.wcThreads ≠ [] →
        ((x.1.shared.synch.sems sem).semCount : ℕ∞) ≤
          {t | Woken (x.1.shared.synch.sems sem) x.1.frames sem t}.encard) := by
  have hind := ((semInv_inductive counts).withHistory ⟨fun _ => 0, fun _ => 0⟩
    SemCounts.record).and ⟨fun _ => rfl, fun _ _ _ _ hx h => countInv_step hx h⟩
  obtain ⟨hinv, hcount⟩ := hind.reachable hx
  have hc := hcount sem
  refine ⟨by omega, by omega, fun hne => ?_⟩
  obtain ⟨W, hcard, hW⟩ := (hinv sem).not_stranded hne
  calc ((x.1.shared.synch.sems sem).semCount : ℕ∞)
      ≤ W.card := by exact_mod_cast hcard
    _ = (W : Set Nat).encard := (Set.encard_coe_eq_coe_finsetCard W).symm
    _ ≤ _ := Set.encard_le_encard fun t ht => hW t ht

/-- Threads 0 and 1 go to sleep in `P` on a zero count and thread 2's `V` wakes thread 0: the
count is 1, thread 1 still sleeps, and thread 0 is woken and has not re-acquired `sem_lock`. -/
theorem semaphore_counts_exactly_after_wakeup :
    ∃ x, (semSystem fun _ => 0).Reachable x ∧
      (x.1.shared.synch.sems 0).semWchan.wcThreads = [1] ∧
      ((x.1.shared.synch.sems 0).semCount : ℤ) = 0 + x.2.doneV 0 - x.2.doneP 0 ∧
      x.2.doneP 0 ≤ 0 + x.2.doneV 0 ∧
      ((x.1.shared.synch.sems 0).semWchan.wcThreads ≠ [] →
        ((x.1.shared.synch.sems 0).semCount : ℕ∞) ≤
          {t | Woken (x.1.shared.synch.sems 0) x.1.frames 0 t}.encard) := by
  obtain ⟨x, hx, hp⟩ := Lts.System.reachable_of_run (semSystem fun _ => 0)
    [.call 0 (.P 0), .run 0, .call 1 (.P 0), .run 1, .call 2 (.V 0), .run 2]
    (fun x => (x.1.shared.synch.sems 0).semWchan.wcThreads == [1]) (by decide)
  exact ⟨x, hx, by simpa using hp, semaphore_counts_exactly (fun _ => 0) hx 0⟩

end Os161

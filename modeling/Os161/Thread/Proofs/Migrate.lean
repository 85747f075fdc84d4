import Os161.Thread.Migrate
import Os161.Thread.Proofs.Threadlist
import Os161.Lib.Lists

/-!
# Thread migration conserves threads

`Sched.threads allcpus s` is the multiset of the threads on the run queues of `allcpus`. From
the moment `thread_consider_migration` takes its victims off the current CPU's run queue to its
end, `MigrationInv` holds: the threads on the run queues and the victims together are the
threads there were, `curthread` is on the current CPU's run queue or among the victims and on
no other run queue it was not on, the other run queues only grow at their tails and only up to
`one_share`, and a thread whose `t_cpu` changed is on the run queue of the CPU it names. The
take loop establishes it (`MigrationInv.take`), one round of the send loop keeps it
(`MigrationInv.send`, `MigrationInv.skip`), and so does the return of the leftovers
(`MigrationInv.giveBack`); `threadConsiderMigration_inv` chains these through the loops, and
`migration_conserves_threads` reads the claim off the invariant with no victim left.

The run queues are sets of distinct CPUs (`allcpus.Nodup`), and no thread is on two run queues
or twice on one (`(s.threads allcpus).Nodup`): a thread has one `t_listnode`, which is on at
most one list.
-/

namespace Os161

open Exec Function

variable {ι τ : Type}

/-! ### The list operations are the deque operations of the thread lists -/

/-- The steps the model takes on a run queue are what the deque operations that
`threadlist_remtail`, `threadlist_remhead`, `threadlist_addhead` and `threadlist_addtail`
implement do to the list (`Threadlist.implements_call`). -/
theorem deque_call_seq [DecidableEq τ] (q : Threadlist.Deque τ) (t : τ) :
    (Threadlist.Deque.call .remtail q).1 = q.seq.getLast? ∧
      (Threadlist.Deque.call .remtail q).2.seq = q.seq.dropLast ∧
      (Threadlist.Deque.call .remhead q).1 = q.seq.head? ∧
      (Threadlist.Deque.call .remhead q).2.seq = q.seq.tail ∧
      (Threadlist.Deque.call (.addhead t) q).2.seq = t :: q.seq ∧
      (Threadlist.Deque.call (.addtail t) q).2.seq = q.seq ++ [t] := by
  obtain ⟨l, D⟩ := q
  refine ⟨?_, ?_, ?_, ?_, rfl, rfl⟩
  · cases h : l.getLast? <;> simp [Threadlist.Deque.call, h]
  · cases h : l.getLast? with
    | none =>
      have hl : l = [] := List.getLast?_eq_none_iff.mp h
      simp [Threadlist.Deque.call, hl]
    | some t => simp [Threadlist.Deque.call, h]
  · cases l <;> rfl
  · cases l <;> rfl

namespace Sched

variable {s : Sched ι τ} {c d : ι} {l l' : List τ} {t u : τ}

section SetRunqueue

variable [DecidableEq ι]

@[simp] theorem setRunqueue_runqueue_self : (s.setRunqueue c l).runqueue c = l := by
  simp [setRunqueue]

theorem setRunqueue_runqueue_of_ne (h : d ≠ c) : (s.setRunqueue c l).runqueue d = s.runqueue d := by
  simp [setRunqueue, h]

@[simp] theorem setRunqueue_tCpu : (s.setRunqueue c l).tCpu = s.tCpu := rfl

@[simp] theorem setRunqueue_self : s.setRunqueue c (s.runqueue c) = s := by
  simp [setRunqueue]

@[simp] theorem setRunqueue_setRunqueue :
    (s.setRunqueue c l).setRunqueue c l' = s.setRunqueue c l' := by
  simp [setRunqueue]

end SetRunqueue

section SetTCpu

variable [DecidableEq τ]

@[simp] theorem setTCpu_runqueue : (s.setTCpu t c).runqueue = s.runqueue := rfl

@[simp] theorem setTCpu_tCpu_self : (s.setTCpu t c).tCpu t = c := by
  simp [setTCpu]

theorem setTCpu_tCpu_of_ne (h : u ≠ t) : (s.setTCpu t c).tCpu u = s.tCpu u := by
  simp [setTCpu, h]

end SetTCpu

/-- The threads on the run queues of `allcpus`, each as often as it is on them. -/
def threads (allcpus : List ι) (s : Sched ι τ) : Multiset τ :=
  (allcpus.map fun c => (s.runqueue c : Multiset τ)).sum

@[simp] theorem threads_setTCpu [DecidableEq τ] (allcpus : List ι) :
    (s.setTCpu t c).threads allcpus = s.threads allcpus := rfl

theorem mem_threads {allcpus : List ι} : t ∈ s.threads allcpus ↔ ∃ c ∈ allcpus, t ∈ s.runqueue c := by
  induction allcpus with
  | nil => simp [threads]
  | cons c cs ih =>
    simp only [threads, List.map_cons, List.sum_cons, Multiset.mem_add, Multiset.mem_coe] at ih ⊢
    rw [ih]
    simp

variable [DecidableEq ι]

/-- **Replacing one run queue of `allcpus` changes the threads by the difference.** -/
theorem threads_setRunqueue {allcpus : List ι} (hc : c ∈ allcpus) (hcpus : allcpus.Nodup)
    (l : List τ) :
    (s.setRunqueue c l).threads allcpus + s.runqueue c = s.threads allcpus + l := by
  have hfun : (fun d => ((s.setRunqueue c l).runqueue d : Multiset τ)) =
      update (fun d => (s.runqueue d : Multiset τ)) c l := by
    funext d
    by_cases hdc : d = c
    · subst hdc
      simp
    · simp [setRunqueue_runqueue_of_ne hdc, hdc]
  rw [threads, hfun]
  exact List.sum_map_update_add _ c _ hc hcpus

/-- Appending to one run queue of `allcpus` adds the appended threads. -/
theorem threads_append {allcpus : List ι} (hc : c ∈ allcpus) (hcpus : allcpus.Nodup)
    (l : List τ) :
    (s.setRunqueue c (s.runqueue c ++ l)).threads allcpus = s.threads allcpus + l := by
  have h := threads_setRunqueue (s := s) hc hcpus (s.runqueue c ++ l)
  rw [← Multiset.coe_add, ← add_assoc, add_right_comm] at h
  exact add_right_cancel h

end Sched

/-! ### The loops -/

section Loops

variable [DecidableEq ι] (curcpu : ι)

/-- The counting loop: `my_count` is the count of the current CPU's run queue if it is among
`allcpus`, and `total_count` the sum of the counts. -/
theorem migrationCount_eq (s : Sched ι τ) (cs : List ι) (myCount totalCount : ℕ) :
    migrationCount curcpu s cs (myCount, totalCount) =
      (if curcpu ∈ cs then (s.runqueue curcpu).length else myCount,
        totalCount + (cs.map fun c => (s.runqueue c).length).sum) := by
  induction cs generalizing myCount totalCount with
  | nil => simp [migrationCount]
  | cons c cs ih =>
    rw [migrationCount, ih]
    by_cases hc : c = curcpu
    · subst hc
      simp [Nat.add_assoc]
    · have hmem : curcpu ∈ c :: cs ↔ curcpu ∈ cs := by simp [Ne.symm hc]
      simp only [hc, if_false, hmem, List.map_cons, List.sum_cons, Nat.add_assoc]

/-- The take loop moves the last `n` threads of the current CPU's run queue, in order, to the
front of `victims`. -/
theorem migrationTake_eq (n : ℕ) :
    ∀ (s : Sched ι τ) (victims : List τ), n ≤ (s.runqueue curcpu).length →
      migrationTake curcpu n victims s =
        .ok ((s.runqueue curcpu).drop ((s.runqueue curcpu).length - n) ++ victims)
          (s.setRunqueue curcpu ((s.runqueue curcpu).take ((s.runqueue curcpu).length - n))) := by
  induction n with
  | zero =>
    intro s victims _
    simp [migrationTake]
  | succ n ih =>
    intro s victims hn
    -- the run queue ends in the thread that `threadlist_remtail` returns
    obtain ⟨l, t, hl⟩ : ∃ l t, s.runqueue curcpu = l ++ [t] := by
      rcases List.eq_nil_or_concat (s.runqueue curcpu) with h | ⟨l, t, h⟩
      · rw [h] at hn
        simp at hn
      · exact ⟨l, t, by rw [h, List.concat_eq_append]⟩
    have hlen : (s.runqueue curcpu).length = l.length + 1 := by simp [hl]
    have hrun := ih (s.setRunqueue curcpu l) (t :: victims) (by simp; omega)
    simp only [Sched.setRunqueue_runqueue_self, Sched.setRunqueue_setRunqueue] at hrun
    simp only [migrationTake, bind_apply, get_apply, hl, List.getLast?_concat,
      List.dropLast_concat, set_apply, hrun]
    rw [List.length_append, List.length_singleton,
      show l.length + 1 - (n + 1) = l.length - n by omega,
      List.drop_append_of_le_length (by omega), List.take_append_of_le_length (by omega)]
    simp

/-- The return loop appends the leftovers to the current CPU's run queue. -/
theorem migrationReturn_eq (victims : List τ) :
    ∀ s : Sched ι τ, migrationReturn curcpu victims s =
      .ok [] (s.setRunqueue curcpu (s.runqueue curcpu ++ victims)) := by
  induction victims with
  | nil =>
    intro s
    simp [migrationReturn]
  | cons t victims ih =>
    intro s
    simp only [migrationReturn, bind_apply, modify_apply, ih]
    simp

end Loops

/-! ### The invariant of the migration -/

/-- What holds of the run queues `s` and the victims from the moment the victims are taken off
the current CPU's run queue, relative to the run queues `s₀` before the call. -/
structure MigrationInv (allcpus : List ι) (curcpu : ι) (curthread : τ) (oneShare : ℕ)
    (s₀ s : Sched ι τ) (victims : List τ) : Prop where
  /-- No thread is lost or duplicated. -/
  threads : s.threads allcpus + victims = s₀.threads allcpus
  /-- `curthread`, if it was on the current CPU's run queue, is there or among the victims. -/
  cur : curthread ∈ s₀.runqueue curcpu → curthread ∈ s.runqueue curcpu ∨ curthread ∈ victims
  /-- `curthread` has not come onto another CPU's run queue. -/
  cur_other : ∀ c, c ≠ curcpu → curthread ∈ s.runqueue c → curthread ∈ s₀.runqueue c
  /-- The other run queues only grow at their tails. -/
  prefix_other : ∀ c, c ≠ curcpu → s₀.runqueue c <+: s.runqueue c
  /-- A thread whose `t_cpu` changed is on the run queue of the CPU it names. -/
  tCpu_moved : ∀ t, s.tCpu t ≠ s₀.tCpu t → t ∈ s.runqueue (s.tCpu t)
  /-- A thread new on another CPU's run queue has its `t_cpu` set to that CPU. -/
  sent : ∀ c ∈ allcpus, c ≠ curcpu → ∀ t ∈ s.runqueue c, t ∉ s₀.runqueue c → s.tCpu t = c
  /-- The other run queues grow only up to `one_share`. -/
  bound : ∀ c, c ≠ curcpu → (s.runqueue c).length ≤ max (s₀.runqueue c).length oneShare

namespace MigrationInv

variable {allcpus : List ι} {curcpu c : ι} {curthread t : τ} {oneShare : ℕ}
  {s₀ s : Sched ι τ} {victims : List τ}

/-- Nothing has moved yet. -/
theorem refl : MigrationInv allcpus curcpu curthread oneShare s₀ s₀ [] where
  threads := by simp
  cur h := .inl h
  cur_other _ _ h := h
  prefix_other _ _ := List.prefix_refl _
  tCpu_moved _ h := absurd rfl h
  sent _ _ _ _ h h' := absurd h h'
  bound _ _ := le_max_left _ _

/-- A victim is on no run queue of `allcpus`. -/
theorem not_mem_of_victim (h : MigrationInv allcpus curcpu curthread oneShare s₀ s victims)
    (hnd : (s₀.threads allcpus).Nodup) (ht : t ∈ victims) (hc : c ∈ allcpus) :
    t ∉ s.runqueue c := by
  rw [← h.threads] at hnd
  intro hts
  have hdis := (Multiset.nodup_add.mp hnd).2.2
  exact Multiset.disjoint_left.mp hdis (Sched.mem_threads.2 ⟨c, hc, hts⟩) ht

/-- **Putting `curthread` back at the tail of the victims keeps the invariant.** -/
theorem skip (h : MigrationInv allcpus curcpu curthread oneShare s₀ s (t :: victims)) :
    MigrationInv allcpus curcpu curthread oneShare s₀ s (victims ++ [t]) where
  threads := by
    rw [← h.threads, ← Multiset.coe_eq_coe.mpr (List.perm_append_singleton t victims)]
  cur hcur := by simpa [or_comm] using h.cur hcur
  cur_other := h.cur_other
  prefix_other := h.prefix_other
  tCpu_moved := h.tCpu_moved
  sent := h.sent
  bound := h.bound

variable [DecidableEq ι]

/-- **The take loop establishes the invariant**: the victims are the tail of the current CPU's
run queue. -/
theorem take (hcur : curcpu ∈ allcpus) (hcpus : allcpus.Nodup) (k : ℕ) :
    MigrationInv allcpus curcpu curthread oneShare s₀
      (s₀.setRunqueue curcpu ((s₀.runqueue curcpu).take k)) ((s₀.runqueue curcpu).drop k) where
  threads := by
    have h := Sched.threads_setRunqueue (s := s₀) hcur hcpus ((s₀.runqueue curcpu).take k)
    have hsplit : (s₀.runqueue curcpu : Multiset τ) =
        ((s₀.runqueue curcpu).take k : Multiset τ) + ((s₀.runqueue curcpu).drop k : Multiset τ) := by
      rw [Multiset.coe_add, List.take_append_drop]
    rw [hsplit, ← add_assoc, add_right_comm] at h
    exact add_right_cancel h
  cur h := by
    rw [← List.take_append_drop k (s₀.runqueue curcpu), List.mem_append] at h
    simpa using h
  cur_other c hc h := by rwa [Sched.setRunqueue_runqueue_of_ne hc] at h
  prefix_other c hc := by rw [Sched.setRunqueue_runqueue_of_ne hc]
  tCpu_moved _ h := absurd rfl h
  sent c _ hc t ht ht' := by
    rw [Sched.setRunqueue_runqueue_of_ne hc] at ht
    exact absurd ht ht'
  bound c hc := by
    rw [Sched.setRunqueue_runqueue_of_ne hc]
    exact le_max_left _ _

/-- **Sending the head of the victims to another CPU keeps the invariant**, when that CPU holds
fewer than `one_share` threads and the head is not `curthread`. -/
theorem send [DecidableEq τ] (h : MigrationInv allcpus curcpu curthread oneShare s₀ s (t :: victims))
    (hnd : (s₀.threads allcpus).Nodup) (hcpus : allcpus.Nodup) (hc : c ∈ allcpus)
    (hcc : c ≠ curcpu) (htc : t ≠ curthread) (hlt : (s.runqueue c).length < oneShare) :
    MigrationInv allcpus curcpu curthread oneShare s₀
      ((s.setTCpu t c).setRunqueue c (s.runqueue c ++ [t])) victims := by
  -- the thread sent is on no run queue
  have hfree : ∀ d ∈ allcpus, t ∉ s.runqueue d := fun d hd =>
    h.not_mem_of_victim hnd List.mem_cons_self hd
  have hrq : ∀ d, d ≠ c → ((s.setTCpu t c).setRunqueue c (s.runqueue c ++ [t])).runqueue d =
      s.runqueue d := fun d hd => Sched.setRunqueue_runqueue_of_ne hd
  constructor
  · have hsum := Sched.threads_append (s := s.setTCpu t c) hc hcpus [t]
    rw [Sched.setTCpu_runqueue] at hsum
    rw [hsum, Sched.threads_setTCpu, add_assoc, ← h.threads]
    simp
  · intro hcur'
    rcases h.cur hcur' with hin | hin
    · exact .inl (by rwa [hrq curcpu (Ne.symm hcc)])
    · rcases List.mem_cons.mp hin with heq | hin
      · exact absurd heq.symm htc
      · exact .inr hin
  · intro d hd hin
    by_cases hdc : d = c
    · subst hdc
      simp only [Sched.setRunqueue_runqueue_self, List.mem_append, List.mem_singleton] at hin
      rcases hin with hin | heq
      · exact h.cur_other d hd hin
      · exact absurd heq.symm htc
    · rw [hrq d hdc] at hin
      exact h.cur_other d hd hin
  · intro d hd
    by_cases hdc : d = c
    · subst hdc
      simp only [Sched.setRunqueue_runqueue_self]
      exact (h.prefix_other d hd).trans (List.prefix_append _ _)
    · rw [hrq d hdc]
      exact h.prefix_other d hd
  · intro u hu
    by_cases hut : u = t
    · subst hut
      simp
    · simp only [Sched.setRunqueue_tCpu, Sched.setTCpu_tCpu_of_ne hut] at hu ⊢
      have hmem := h.tCpu_moved u hu
      by_cases hdc : s.tCpu u = c
      · rw [hdc] at hmem ⊢
        simp [hmem]
      · rwa [hrq _ hdc]
  · intro d hd hdcur u hu hu₀
    by_cases hdc : d = c
    · subst hdc
      simp only [Sched.setRunqueue_runqueue_self, List.mem_append, List.mem_singleton] at hu
      rcases hu with hu | rfl
      · have hut : u ≠ t := fun heq => hfree d hd (heq ▸ hu)
        simp only [Sched.setRunqueue_tCpu, Sched.setTCpu_tCpu_of_ne hut]
        exact h.sent d hd hdcur u hu hu₀
      · simp
    · rw [hrq d hdc] at hu
      have hut : u ≠ t := fun heq => hfree d hd (heq ▸ hu)
      simp only [Sched.setRunqueue_tCpu, Sched.setTCpu_tCpu_of_ne hut]
      exact h.sent d hd hdcur u hu hu₀
  · intro d hd
    by_cases hdc : d = c
    · subst hdc
      simp only [Sched.setRunqueue_runqueue_self, List.length_append, List.length_singleton]
      exact le_max_of_le_right hlt
    · rw [hrq d hdc]
      exact h.bound d hd

/-- **Giving the leftovers back to the current CPU keeps the invariant**, with no victim left. -/
theorem giveBack (h : MigrationInv allcpus curcpu curthread oneShare s₀ s victims)
    (hcur : curcpu ∈ allcpus) (hcpus : allcpus.Nodup) :
    MigrationInv allcpus curcpu curthread oneShare s₀
      (s.setRunqueue curcpu (s.runqueue curcpu ++ victims)) [] where
  threads := by
    rw [Sched.threads_append hcur hcpus, ← h.threads]
    simp
  cur hcur' := by
    rcases h.cur hcur' with hin | hin <;> simp [hin]
  cur_other c hc hin := by
    rw [Sched.setRunqueue_runqueue_of_ne hc] at hin
    exact h.cur_other c hc hin
  prefix_other c hc := by
    rw [Sched.setRunqueue_runqueue_of_ne hc]
    exact h.prefix_other c hc
  tCpu_moved u hu := by
    have hmem := h.tCpu_moved u hu
    by_cases hd : s.tCpu u = curcpu
    · simp only [Sched.setRunqueue_tCpu] at hu ⊢
      rw [hd] at hmem ⊢
      simp [hmem]
    · simp only [Sched.setRunqueue_tCpu]
      rwa [Sched.setRunqueue_runqueue_of_ne hd]
  sent c hc hcc u hu hu₀ := by
    rw [Sched.setRunqueue_runqueue_of_ne hcc] at hu
    exact h.sent c hc hcc u hu hu₀
  bound c hc := by
    rw [Sched.setRunqueue_runqueue_of_ne hc]
    exact h.bound c hc

end MigrationInv

/-! ### The loops keep the invariant -/

variable [DecidableEq ι] [DecidableEq τ]

section Runs

variable {allcpus : List ι} {curcpu : ι} (curthread : τ) (oneShare : ℕ) {s₀ : Sched ι τ}

/-- **The send loop on another CPU keeps the invariant**, and keeps at least `to_send` victims:
it takes one victim or puts `curthread` back for each unit of `to_send`. -/
theorem migrationSend_inv (hnd : (s₀.threads allcpus).Nodup) (hcpus : allcpus.Nodup) {c : ι}
    (hc : c ∈ allcpus) (hcc : c ≠ curcpu) (toSend : ℕ) :
    ∀ (victims : List τ) (s : Sched ι τ),
      MigrationInv allcpus curcpu curthread oneShare s₀ s victims → toSend ≤ victims.length →
      ∃ victims' toSend' s', migrationSend c curthread oneShare victims toSend s =
        .ok (victims', toSend') s' ∧ MigrationInv allcpus curcpu curthread oneShare s₀ s' victims' ∧
        toSend' ≤ victims'.length := by
  induction toSend with
  | zero =>
    intro victims s h _
    exact ⟨victims, 0, s, rfl, h, Nat.zero_le _⟩
  | succ k ih =>
    intro victims s h hk
    by_cases hlt : (s.runqueue c).length < oneShare
    · -- `c` takes the head of the victims, which is there since `to_send > 0`
      obtain ⟨t, vs, rfl⟩ : ∃ t vs, victims = t :: vs := by
        cases victims with
        | nil => simp at hk
        | cons t vs => exact ⟨t, vs, rfl⟩
      have hk' : k ≤ vs.length := by simp at hk; omega
      by_cases htc : t = curthread
      · obtain ⟨victims', toSend', s', hrun, hinv, hle⟩ :=
          ih (vs ++ [t]) s h.skip (by simp; omega)
        refine ⟨victims', toSend', s', ?_, hinv, hle⟩
        subst htc
        simp only [migrationSend, bind_apply, get_apply, hlt, if_true]
        exact hrun
      · obtain ⟨victims', toSend', s', hrun, hinv, hle⟩ :=
          ih vs _ (h.send hnd hcpus hc hcc htc hlt) hk'
        refine ⟨victims', toSend', s', ?_, hinv, hle⟩
        simp only [migrationSend, bind_apply, get_apply, hlt, if_true, htc, if_false, set_apply]
        exact hrun
    · exact ⟨victims, k + 1, s, by simp [migrationSend, bind_apply, hlt], h, hk⟩

/-- **The loop over the CPUs keeps the invariant.** -/
theorem migrationCpus_inv (hnd : (s₀.threads allcpus).Nodup) (hcpus : allcpus.Nodup)
    (cs : List ι) (hcs : ∀ c ∈ cs, c ∈ allcpus) :
    ∀ (victims : List τ) (toSend : ℕ) (s : Sched ι τ),
      MigrationInv allcpus curcpu curthread oneShare s₀ s victims → toSend ≤ victims.length →
      ∃ victims' toSend' s', migrationCpus curcpu curthread oneShare cs victims toSend s =
        .ok (victims', toSend') s' ∧ MigrationInv allcpus curcpu curthread oneShare s₀ s' victims' := by
  induction cs with
  | nil =>
    intro victims toSend s h _
    exact ⟨victims, toSend, s, rfl, h⟩
  | cons c cs ih =>
    intro victims toSend s h hle
    have hcs' : ∀ d ∈ cs, d ∈ allcpus := fun d hd => hcs d (List.mem_cons_of_mem c hd)
    by_cases hpos : toSend > 0
    · by_cases hcc : c = curcpu
      · obtain ⟨victims', toSend', s', hrun, hinv⟩ := ih hcs' victims toSend s h hle
        exact ⟨victims', toSend', s', by simp [migrationCpus, hpos, hcc, hrun], hinv⟩
      · obtain ⟨v₁, n₁, s₁, hsend, hinv₁, hle₁⟩ :=
          migrationSend_inv curthread oneShare hnd hcpus (hcs c List.mem_cons_self) hcc toSend
            victims s h hle
        obtain ⟨victims', toSend', s', hrun, hinv⟩ := ih hcs' v₁ n₁ s₁ hinv₁ hle₁
        refine ⟨victims', toSend', s', ?_, hinv⟩
        simp only [migrationCpus, hpos, hcc, if_true, if_false, bind_apply, hsend]
        exact hrun
    · exact ⟨victims, toSend, s, by simp [migrationCpus, hpos], h⟩

end Runs

/-- **`thread_consider_migration` returns, and ends with the invariant and no victim left.** -/
theorem threadConsiderMigration_inv (allcpus : List ι) (hcpus : allcpus.Nodup) (curcpu : ι)
    (hcur : curcpu ∈ allcpus) (curthread : τ) (s : Sched ι τ) (hnd : (s.threads allcpus).Nodup) :
    ∃ s', threadConsiderMigration allcpus curcpu curthread s = .ok () s' ∧
      MigrationInv allcpus curcpu curthread
        (DIVROUNDUP (allcpus.map fun c => (s.runqueue c).length).sum allcpus.length) s s' [] := by
  obtain ⟨oneShare, hshare⟩ : ∃ n,
      DIVROUNDUP (allcpus.map fun c => (s.runqueue c).length).sum allcpus.length = n := ⟨_, rfl⟩
  have hcount : migrationCount curcpu s allcpus (0, 0) =
      ((s.runqueue curcpu).length, (allcpus.map fun c => (s.runqueue c).length).sum) := by
    rw [migrationCount_eq, if_pos hcur, Nat.zero_add]
  simp only [threadConsiderMigration, bind_apply, get_apply, hcount, hshare]
  by_cases hlt : (s.runqueue curcpu).length < oneShare
  · -- the current CPU holds less than its share: nothing moves
    exact ⟨s, by simp [hlt], MigrationInv.refl⟩
  · -- the victims are the threads past the first `one_share` of the current CPU's run queue
    have htake := migrationTake_eq curcpu ((s.runqueue curcpu).length - oneShare) s [] (by omega)
    rw [List.append_nil, show (s.runqueue curcpu).length -
      ((s.runqueue curcpu).length - oneShare) = oneShare by omega] at htake
    have hinv₁ : MigrationInv allcpus curcpu curthread oneShare s
        (s.setRunqueue curcpu ((s.runqueue curcpu).take oneShare))
        ((s.runqueue curcpu).drop oneShare) :=
      MigrationInv.take hcur hcpus oneShare
    obtain ⟨victims, toSend', s₂, hcpu, hinv₂⟩ :=
      migrationCpus_inv curthread oneShare hnd hcpus allcpus (fun c hc => hc) _
        ((s.runqueue curcpu).length - oneShare) _ hinv₁ (by simp)
    refine ⟨s₂.setRunqueue curcpu (s₂.runqueue curcpu ++ victims), ?_, hinv₂.giveBack hcur hcpus⟩
    simp only [hlt, if_false, bind_apply, htake, hcpu]
    cases victims with
    | nil => simp
    | cons t vs => simp [bind_apply, migrationReturn_eq]

/-- **Thread migration conserves threads**: with the CPUs of `allcpus` distinct and no thread
on two run queues, `thread_consider_migration` returns (its `KASSERT` that no victim is left
holds), the threads on the run queues are the ones there were, `curthread` stays on the
current CPU's run queue if it was there and comes onto no other, a thread whose `t_cpu` changed
is on the run queue of the CPU it names, a thread new on another CPU's run queue has its `t_cpu`
set to that CPU, and no other CPU's run queue grows past `one_share`. -/
theorem migration_conserves_threads (allcpus : List ι) (hcpus : allcpus.Nodup) (curcpu : ι)
    (hcur : curcpu ∈ allcpus) (curthread : τ) (s : Sched ι τ) (hnd : (s.threads allcpus).Nodup) :
    ∃ s', threadConsiderMigration allcpus curcpu curthread s = .ok () s' ∧
      s'.threads allcpus = s.threads allcpus ∧
      (curthread ∈ s.runqueue curcpu → curthread ∈ s'.runqueue curcpu) ∧
      (∀ c, c ≠ curcpu → (curthread ∈ s'.runqueue c ↔ curthread ∈ s.runqueue c)) ∧
      (∀ t, s'.tCpu t ≠ s.tCpu t → t ∈ s'.runqueue (s'.tCpu t)) ∧
      (∀ c ∈ allcpus, c ≠ curcpu → ∀ t ∈ s'.runqueue c, t ∉ s.runqueue c → s'.tCpu t = c) ∧
      (∀ c, c ≠ curcpu → (s'.runqueue c).length ≤
        max (s.runqueue c).length
          (DIVROUNDUP (allcpus.map fun c => (s.runqueue c).length).sum allcpus.length)) := by
  obtain ⟨s', hrun, hinv⟩ := threadConsiderMigration_inv allcpus hcpus curcpu hcur curthread s hnd
  refine ⟨s', hrun, ?_, ?_, ?_, hinv.tCpu_moved, hinv.sent, hinv.bound⟩
  · simpa using hinv.threads
  · intro hin
    simpa using hinv.cur hin
  · intro c hc
    exact ⟨hinv.cur_other c hc, fun hin => (hinv.prefix_other c hc).subset hin⟩

/-- Two CPUs, the first running three threads and the second none. -/
def twoCpus : Sched ℕ ℕ where
  runqueue c := if c = 0 then [10, 11, 12] else []
  tCpu _ := 0

/-- The share is 2: the last thread moves to the second CPU, which `t_cpu` then names. -/
example : (match threadConsiderMigration [0, 1] 0 99 twoCpus with
    | .ok _ s' => (s'.runqueue 0, s'.runqueue 1, s'.tCpu 12)
    | .error _ _ => ([], [], 0)) = ([10, 11], [12], 1) := by decide

/-- When the last thread is `curthread`, it stays. -/
example : (match threadConsiderMigration [0, 1] 0 12 twoCpus with
    | .ok _ s' => (s'.runqueue 0, s'.runqueue 1)
    | .error _ _ => ([], [])) = ([10, 11, 12], []) := by decide

theorem migration_conserves_threads_two_cpus :
    ∃ s', threadConsiderMigration [0, 1] 0 12 twoCpus = .ok () s' ∧
      s'.threads [0, 1] = twoCpus.threads [0, 1] ∧
      (12 ∈ twoCpus.runqueue 0 → 12 ∈ s'.runqueue 0) ∧
      (∀ c, c ≠ 0 → (12 ∈ s'.runqueue c ↔ 12 ∈ twoCpus.runqueue c)) ∧
      (∀ t, s'.tCpu t ≠ twoCpus.tCpu t → t ∈ s'.runqueue (s'.tCpu t)) ∧
      (∀ c ∈ [0, 1], c ≠ 0 → ∀ t ∈ s'.runqueue c, t ∉ twoCpus.runqueue c → s'.tCpu t = c) ∧
      (∀ c, c ≠ 0 → (s'.runqueue c).length ≤
        max (twoCpus.runqueue c).length
          (DIVROUNDUP ([0, 1].map fun c => (twoCpus.runqueue c).length).sum [0, 1].length)) :=
  migration_conserves_threads [0, 1] (by decide) 0 (by decide) 12 twoCpus (by decide)

end Os161

import Os161.Proc.Proc

/-!
# Process ids and the error paths of `sys_fork`

`next_pid` only grows and each process takes its value once: in every reachable state the live
process created `p`-th has pid `p`, and `next_pid` counts the processes created
(`pidsFresh_reachable`). The pids of the live processes are therefore distinct
(`pid_injective`), but they start at 0 with `kproc`, so the first user process has pid 1, below
`__PID_MIN`, and the process created after 32767 others has pid 32768, above `__PID_MAX`
(`user_pid_out_of_range`).

`sys_fork` has one path per failure point (`sysFork_trapframe_null` to `sysFork_ok`). The two
`ENOMEM` returns come before the `splx` and leave interrupts off, so that the thread's next
system call fails the assertion in `mips_trap` (`syscallEntry_of_high`); a failed `as_copy` or
filetable `kmalloc` panics; and a failed `thread_fork` returns with the child still counted in
`proc_count` and its trapframe and filetable allocated (`sysFork_failure_leaves_state`).
-/

namespace Os161

namespace ProcSys

open Exec

/-! ### The states the steps lead to -/

/-- After `splhigh` from `IPL_NONE`. -/
def raised (s : ProcSys) : ProcSys :=
  { s with tCurspl := IPL_HIGH, tIplhighCount := s.tIplhighCount + 1 }

/-- After `splx(IPL_NONE)` from `IPL_HIGH`. -/
def lowered (s : ProcSys) : ProcSys :=
  { s with tCurspl := IPL_NONE, tIplhighCount := s.tIplhighCount - 1 }

/-- After `proc_create` returns a process. -/
def created (s : ProcSys) : ProcSys :=
  { s with procs := s.procs ++ [some ⟨s.nextPid⟩], nextPid := s.nextPid + 1 }

/-- After `proc_count++`. -/
def counted (s : ProcSys) : ProcSys := { s with procCount := s.procCount + 1 }

/-- After a `kmalloc` of `b` for the child. -/
def alloc (b : KBlock) (s : ProcSys) : ProcSys := { s with kblocks := b :: s.kblocks }

/-- After `sys_fork` called `thread_fork`, from `IPL_NONE`. -/
def forked (s : ProcSys) : ProcSys :=
  (alloc .filetable (alloc .trapframe s.raised).created.counted).lowered

variable {s t : ProcSys}

theorem proc_created (s : ProcSys) : s.created.proc s.procs.length = some ⟨s.nextPid⟩ := by
  simp [proc, created]

/-! ### `spl` -/

theorem splhigh_of_none (h0 : s.tCurspl = IPL_NONE) : splhigh s = .ok IPL_NONE s.raised := by
  simp [splhigh, splx, splraise, bind_apply, h0, IPL_NONE, IPL_HIGH, raised]

theorem splx_none_of_high (h1 : s.tCurspl = IPL_HIGH) :
    splx IPL_NONE s = .ok IPL_HIGH s.lowered := by
  simp [splx, spllower, bind_apply, h1, IPL_NONE, IPL_HIGH, lowered]

/-- A thread that returned to user mode with interrupts off panics at its next system call. -/
theorem syscallEntry_of_high (h1 : s.tCurspl = IPL_HIGH) : syscallEntry s = .error .halt s := by
  simp [syscallEntry, bind_apply, h1, IPL_HIGH]

/-! ### `proc.c` -/

theorem procCreateRunprogram_ok (s : ProcSys) :
    procCreateRunprogram true true s = .ok (some s.procs.length) s.created.counted := rfl

theorem procCreateRunprogram_null {procOk nameOk : Bool} (h : ¬(procOk = true ∧ nameOk = true))
    (s : ProcSys) : procCreateRunprogram procOk nameOk s = .ok none s := by
  cases procOk <;> cases nameOk <;> first | rfl | simp at h

theorem sysGetpid_of_proc {p : Nat} {pr : Proc} (hp : s.proc p = some pr) :
    sysGetpid p s = .ok pr.pPid s := by
  simp [sysGetpid, bind_apply, hp]

theorem kmallocBlock_true (b : KBlock) (s : ProcSys) :
    kmallocBlock true b s = .ok true (alloc b s) := rfl

theorem kmallocBlock_false (b : KBlock) (s : ProcSys) : kmallocBlock false b s = .ok false s := rfl

/-! ### The paths of `sys_fork`, in the order the source meets its failure points -/

section SysFork

variable {env : ForkEnv} (h0 : s.tCurspl = IPL_NONE)
include h0

theorem sysFork_trapframe_null (ht : env.trapframe = false) :
    sysFork env s = .error (.err ENOMEM) s.raised := by
  simp only [sysFork, bind_apply, splhigh_of_none h0, ht, kmallocBlock_false, Bool.not_false,
    if_true, fail_apply]

theorem sysFork_proc_null (ht : env.trapframe = true) (hp : ¬(env.proc = true ∧ env.name = true)) :
    sysFork env s = .error (.err ENOMEM) (alloc .trapframe s.raised) := by
  simp only [sysFork, bind_apply, splhigh_of_none h0, ht, kmallocBlock_true,
    procCreateRunprogram_null hp, Bool.not_true, Bool.false_eq_true, if_false, fail_apply]

theorem sysFork_asCopy_panic (ht : env.trapframe = true) (hp : env.proc = true)
    (hn : env.name = true) (ha : env.asCopy ≠ 0) :
    sysFork env s = .error .halt (alloc .trapframe s.raised).created.counted := by
  simp only [sysFork, bind_apply, splhigh_of_none h0, ht, hp, hn, kmallocBlock_true,
    procCreateRunprogram_ok, Bool.not_true, Bool.false_eq_true, if_false, ne_eq, ha,
    not_false_eq_true, if_true, halt_apply]

theorem sysFork_filetable_panic (ht : env.trapframe = true) (hp : env.proc = true)
    (hn : env.name = true) (ha : env.asCopy = 0) (hf : env.filetable = false) :
    sysFork env s = .error .halt (alloc .trapframe s.raised).created.counted := by
  simp only [sysFork, bind_apply, splhigh_of_none h0, ht, hp, hn, ha, hf, kmallocBlock_true,
    kmallocBlock_false, procCreateRunprogram_ok, Bool.not_true, Bool.not_false,
    Bool.false_eq_true, if_false, ne_eq, not_true_eq_false, if_true, halt_apply]

theorem sysFork_threadFork_error {e : Int} (he : e ≠ 0) :
    sysFork ⟨true, true, true, 0, true, e⟩ s = .error (.err e) s.forked := by
  have h1 : (alloc .filetable (alloc .trapframe s.raised).created.counted).tCurspl = IPL_HIGH :=
    rfl
  simp only [sysFork, bind_apply, splhigh_of_none h0, kmallocBlock_true,
    procCreateRunprogram_ok, Bool.not_true, Bool.false_eq_true, if_false, ne_eq,
    not_true_eq_false, splx_none_of_high h1, he, not_false_eq_true, if_true, fail_apply, forked]

theorem sysFork_ok : sysFork ⟨true, true, true, 0, true, 0⟩ s = .ok s.nextPid s.forked := by
  have h1 : (alloc .filetable (alloc .trapframe s.raised).created.counted).tCurspl = IPL_HIGH :=
    rfl
  -- the child is the process created last
  have hp : s.forked.proc (alloc .trapframe s.raised).procs.length = some ⟨s.nextPid⟩ :=
    proc_created _
  simp only [sysFork, bind_apply, splhigh_of_none h0, kmallocBlock_true,
    procCreateRunprogram_ok, Bool.not_true, Bool.false_eq_true, if_false, ne_eq,
    not_true_eq_false, splx_none_of_high h1, get_apply]
  rw [← forked, hp]
  rfl

end SysFork

end ProcSys

open ProcSys Exec

/-! ### Steps of the system -/

section Steps

variable {s t : ProcSys}

theorem returned_procCreateRunprogram {procOk nameOk : Bool}
    (h : returned (procCreateRunprogram procOk nameOk s) = some t) :
    t = s ∨ t = s.created.counted := by
  by_cases hpn : procOk = true ∧ nameOk = true
  · obtain ⟨rfl, rfl⟩ := hpn
    rw [procCreateRunprogram_ok s, returned_ok] at h
    exact .inr (Option.some.inj h).symm
  · rw [procCreateRunprogram_null hpn s, returned_ok] at h
    exact .inl (Option.some.inj h).symm

theorem returned_procDestroy {p : Nat} (h : returned (procDestroy p s) = some t) :
    t = { s with procs := s.procs.set p none, procCount := s.procCount - 1 } := by
  simp only [procDestroy, bind_apply, get_apply, assert_apply, set_apply] at h
  -- every failed assertion halts, and a halt takes no step
  split_ifs at h <;> simp at h
  exact h.symm

/-- A `sys_fork` that returns, with the child's pid or an error, ends in one of three states. -/
theorem returned_sysFork {env : ForkEnv} (h0 : s.tCurspl = IPL_NONE)
    (h : returned (sysFork env s) = some t) :
    t = s.raised ∨ t = alloc .trapframe s.raised ∨ t = s.forked := by
  obtain ⟨tf, pr, nm, ac, ft, th⟩ := env
  cases tf
  case false =>
    rw [sysFork_trapframe_null h0 rfl, returned_err] at h
    exact .inl (Option.some.inj h).symm
  by_cases hpn : pr = true ∧ nm = true
  case neg =>
    rw [sysFork_proc_null h0 rfl hpn, returned_err] at h
    exact .inr (.inl (Option.some.inj h).symm)
  obtain ⟨rfl, rfl⟩ := hpn
  by_cases ha : ac = 0
  case neg =>
    rw [sysFork_asCopy_panic h0 rfl rfl rfl ha, returned_halt] at h
    cases h
  subst ha
  cases ft
  case false =>
    rw [sysFork_filetable_panic h0 rfl rfl rfl rfl rfl, returned_halt] at h
    cases h
  by_cases hth : th = 0
  · subst hth
    rw [sysFork_ok h0, returned_ok] at h
    exact .inr (.inr (Option.some.inj h).symm)
  · rw [sysFork_threadFork_error h0 hth, returned_err] at h
    exact .inr (.inr (Option.some.inj h).symm)

end Steps

/-! ### Pids -/

/-- The live process created `p`-th has pid `p`, and `next_pid` is the number of processes
created. -/
structure PidsFresh (s : ProcSys) : Prop where
  nextPid_eq : s.nextPid = s.procs.length
  pid_eq : ∀ p pr, s.proc p = some pr → pr.pPid = p

namespace PidsFresh

variable {s t : ProcSys}

/-- Only the process table and `next_pid` matter. -/
theorem congr (h : PidsFresh s) (hp : t.procs = s.procs) (hn : t.nextPid = s.nextPid) :
    PidsFresh t where
  nextPid_eq := by rw [hn, hp]; exact h.nextPid_eq
  pid_eq p pr hpr := h.pid_eq p pr (by rwa [proc, hp] at hpr)

theorem created (h : PidsFresh s) : PidsFresh s.created where
  nextPid_eq := by simp [ProcSys.created, h.nextPid_eq]
  pid_eq p pr hpr := by
    simp only [proc, ProcSys.created] at hpr
    -- the old processes, the new one at the end, and nothing past it
    rcases lt_trichotomy p s.procs.length with hlt | rfl | hgt
    · rw [List.getElem?_append_left hlt] at hpr
      exact h.pid_eq p pr hpr
    · simp only [List.getElem?_append_right (le_refl _), Nat.sub_self, List.getElem?_cons_zero,
        Option.join_some, Option.some.injEq] at hpr
      rw [← hpr, h.nextPid_eq]
    · rw [List.getElem?_eq_none (by simp; omega)] at hpr
      cases hpr

theorem destroyed (h : PidsFresh s) (p c : Nat) :
    PidsFresh { s with procs := s.procs.set p none, procCount := c } where
  nextPid_eq := by simp [h.nextPid_eq]
  pid_eq q qr hqr := by
    simp only [proc, List.getElem?_set] at hqr
    split_ifs at hqr
    · simp at hqr
    · cases hqr
    · exact h.pid_eq q qr hqr

end PidsFresh

theorem pidsFresh_init : PidsFresh procSystem.init := by
  have hboot : PidsFresh procBoot := ⟨rfl, fun p pr h => by simp [proc, procBoot] at h⟩
  exact hboot.created.congr rfl rfl

theorem pidsFresh_step {s t : ProcSys} {e : ProcEvent} (hs : PidsFresh s)
    (h : procSystem.next s e = some t) : PidsFresh t := by
  cases e with
  | createRunprogram procOk nameOk =>
    rcases returned_procCreateRunprogram h with rfl | rfl
    · exact hs
    · exact hs.created.congr rfl rfl
  | fork env =>
    -- the fork starts from the caller's state with interrupts on
    have hs' : PidsFresh { s with tCurspl := IPL_NONE, tIplhighCount := 0 } := hs.congr rfl rfl
    rcases returned_sysFork rfl h with rfl | rfl | rfl
    · exact hs'.congr rfl rfl
    · exact hs'.congr rfl rfl
    · exact (hs'.congr rfl rfl : PidsFresh (alloc .trapframe _)).created.congr rfl rfl
  | exit p =>
    rw [returned_procDestroy h]
    exact hs.destroyed p _

theorem pidsFresh_inductive : procSystem.Inductive PidsFresh :=
  ⟨pidsFresh_init, fun _ _ _ hs h => pidsFresh_step hs h⟩

/-- **Pids are creation numbers**: in every reachable state, `sys_getpid` in the process created
`p`-th returns `p`. -/
theorem pidsFresh_reachable {s : ProcSys} (hs : procSystem.Reachable s) : PidsFresh s :=
  Lts.System.Inductive.reachable pidsFresh_inductive hs

theorem sysGetpid_reachable {s : ProcSys} (hs : procSystem.Reachable s) {p : Nat} {pr : Proc}
    (hp : s.proc p = some pr) : sysGetpid p s = .ok p s := by
  rw [sysGetpid_of_proc hp, (pidsFresh_reachable hs).pid_eq p pr hp]

/-- **No two live processes share a pid.** -/
theorem pid_injective {s : ProcSys} (hs : procSystem.Reachable s) {p q : Nat} {pr qr : Proc}
    (hp : s.proc p = some pr) (hq : s.proc q = some qr) (he : pr.pPid = qr.pPid) : p = q := by
  have h := pidsFresh_reachable hs
  rw [h.pid_eq p pr hp, h.pid_eq q qr hq] at he
  exact Int.ofNat.inj he

/-- Boot, then `n` calls of `proc_create_runprogram` that succeed: the last process has pid
`n`. -/
theorem run_createRunprogram (n : Nat) :
    ∃ s, procSystem.run procSystem.init (List.replicate n (.createRunprogram true true)) = some s ∧
      s.procs.length = n + 1 ∧ s.nextPid = n + 1 ∧ s.kproc = some 0 ∧ s.proc n = some ⟨n⟩ := by
  induction n with
  | zero => exact ⟨_, rfl, rfl, rfl, rfl, rfl⟩
  | succ n ih =>
    obtain ⟨s, hrun, hlen, hnext, hk, -⟩ := ih
    refine ⟨s.created.counted, ?_, ?_, ?_, hk, ?_⟩
    · rw [List.replicate_succ', Lts.System.run_append, hrun]
      rfl
    · simp [created, counted, hlen]
    · simp [created, counted, hnext]
    · have h := proc_created s
      rw [hlen, hnext] at h
      exact h

/-- `kproc` takes pid 0, so the first user process has pid 1, below `__PID_MIN`; and `next_pid`
is never checked against `__PID_MAX`, so the process created after 32767 others has pid
32768. -/
theorem user_pid_out_of_range :
    (∃ s, procSystem.Reachable s ∧ s.kproc ≠ some 1 ∧ sysGetpid 1 s = .ok 1 s) ∧ 1 < PID_MIN ∧
      (∃ s, procSystem.Reachable s ∧ s.kproc ≠ some 32768 ∧ sysGetpid 32768 s = .ok 32768 s) ∧
      PID_MAX < 32768 := by
  obtain ⟨s₁, hrun₁, -, -, hk₁, hp₁⟩ := run_createRunprogram 1
  obtain ⟨s₂, hrun₂, -, -, hk₂, hp₂⟩ := run_createRunprogram 32768
  refine ⟨⟨s₁, Lts.System.Reachable.init.run hrun₁, by rw [hk₁]; decide, ?_⟩, by decide,
    ⟨s₂, Lts.System.Reachable.init.run hrun₂, by rw [hk₂]; decide, ?_⟩, by decide⟩
  · exact sysGetpid_of_proc hp₁
  · exact sysGetpid_of_proc hp₂

/-- The failure points of `sys_fork` entered with interrupts on: the two `ENOMEM` returns leave
interrupts off (the second also the trapframe allocated), a failed `as_copy` or filetable
`kmalloc` panics, and a failed `thread_fork` returns with the child counted in `proc_count` and
its trapframe and filetable allocated. -/
theorem sysFork_failure_leaves_state (s : ProcSys) (h0 : s.tCurspl = IPL_NONE) (env : ForkEnv)
    {e : Int} (he : e ≠ 0) :
    (∃ s', sysFork { env with trapframe := false } s = .error (.err ENOMEM) s' ∧
      s'.tCurspl = IPL_HIGH) ∧
    (∃ s', sysFork { env with trapframe := true, proc := false } s = .error (.err ENOMEM) s' ∧
      s'.tCurspl = IPL_HIGH ∧ s'.kblocks = .trapframe :: s.kblocks) ∧
    (∃ s', sysFork { env with trapframe := true, proc := true, name := true, asCopy := e } s =
      .error .halt s') ∧
    (∃ s', sysFork
      { env with trapframe := true, proc := true, name := true, asCopy := 0, filetable := false } s =
        .error .halt s') ∧
    ∃ s', sysFork ⟨true, true, true, 0, true, e⟩ s = .error (.err e) s' ∧
      s'.tCurspl = IPL_NONE ∧ s'.procCount = s.procCount + 1 ∧
      s'.kblocks = .filetable :: .trapframe :: s.kblocks :=
  ⟨⟨_, sysFork_trapframe_null h0 rfl, rfl⟩,
    ⟨_, sysFork_proc_null h0 rfl (by simp), rfl, rfl⟩,
    ⟨_, sysFork_asCopy_panic h0 rfl rfl rfl he⟩,
    ⟨_, sysFork_filetable_panic h0 rfl rfl rfl rfl rfl⟩,
    ⟨_, sysFork_threadFork_error h0 he, rfl, rfl, rfl⟩⟩

theorem sysFork_failure_leaves_state_boot :
    procSystem.init.tCurspl = IPL_NONE ∧ ENOMEM ≠ 0 ∧
    (∃ s', sysFork ⟨true, true, true, 0, true, ENOMEM⟩ procSystem.init = .error (.err ENOMEM) s' ∧
      s'.tCurspl = IPL_NONE ∧ s'.procCount = procSystem.init.procCount + 1 ∧
      s'.kblocks = .filetable :: .trapframe :: procSystem.init.kblocks) :=
  ⟨rfl, by decide,
    (sysFork_failure_leaves_state procSystem.init rfl ⟨true, true, true, 0, true, 0⟩
      (by decide : ENOMEM ≠ 0)).2.2.2.2⟩

end Os161

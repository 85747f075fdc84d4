import Os161.Include.Kern
import Os161.Lib.Exec

/-!
# Thread migration (`thread/thread.c`, `thread_consider_migration`)

`thread_consider_migration` runs on the CPU `curcpu` and moves threads from the tail of its run
queue to the run queues of the other CPUs that hold fewer than their share. The model works on
what the run queues stand for: a CPU's run queue is the list of its threads, head first, as
`Threadlist.Abs` relates a `struct threadlist` to it, and each `threadlist_*` call is the list
operation it implements (`Threadlist.implements_call`): `threadlist_remtail` takes the last
thread off, `threadlist_remhead` the first, and `threadlist_addhead` and `threadlist_addtail`
put one on at either end. A `NULL` that an empty list returns and the code then follows halts.
`victims` is a local list of the function.

The spinlocks only keep other CPUs out; the model is a run in which nothing else changes the
run queues. The counters are `unsigned`s that count threads, far below `2^32`, so they are
`Nat`s; `one_share` is `DIVROUNDUP` as the macro computes it.
-/

namespace Os161

open Exec

/-- The run queue of every CPU, head first, and the `t_cpu` field of every thread. -/
structure Sched (ι τ : Type) where
  runqueue : ι → List τ
  tCpu : τ → ι

variable {ι τ : Type} [DecidableEq ι] [DecidableEq τ]

namespace Sched

/-- `c->c_runqueue` now holds `l`. -/
def setRunqueue (s : Sched ι τ) (c : ι) (l : List τ) : Sched ι τ :=
  { s with runqueue := Function.update s.runqueue c l }

/-- `t->t_cpu = c`. -/
def setTCpu (s : Sched ι τ) (t : τ) (c : ι) : Sched ι τ :=
  { s with tCpu := Function.update s.tCpu t c }

end Sched

/-- The first loop: `total_count` adds up the counts of the run queues of `allcpus`, and
`my_count` is the count of the current CPU's. -/
def migrationCount (curcpu : ι) (s : Sched ι τ) : List ι → Nat × Nat → Nat × Nat
  | [], acc => acc
  | c :: cs, (myCount, totalCount) =>
    migrationCount curcpu s cs
      (if c = curcpu then (s.runqueue c).length else myCount, totalCount + (s.runqueue c).length)

/-- The loop that moves `to_send` threads, one at a time, from the tail of the current CPU's run
queue to the head of `victims`. -/
def migrationTake (curcpu : ι) : Nat → List τ → Exec Int (Sched ι τ) (List τ)
  | 0, victims => pure victims
  | n + 1, victims => do
    let s ← get
    match (s.runqueue curcpu).getLast? with
    | none => halt
    | some t =>
      set (s.setRunqueue curcpu (s.runqueue curcpu).dropLast)
      migrationTake curcpu n (t :: victims)

/-- The inner loop on the CPU `c`: while `c` holds fewer than `one_share` threads and `to_send`
is positive, the head of `victims` goes to the tail of `c`'s run queue with `t_cpu = c`, except
`curthread`, which goes back to the tail of `victims`; both count against `to_send`. -/
def migrationSend (c : ι) (curthread : τ) (oneShare : Nat) :
    List τ → Nat → Exec Int (Sched ι τ) (List τ × Nat)
  | victims, 0 => pure (victims, 0)
  | victims, toSend + 1 => do
    let s ← get
    if (s.runqueue c).length < oneShare then
      match victims with
      -- `threadlist_remhead` returns `NULL`, and `t->t_cpu` follows it
      | [] => halt
      | t :: victims =>
        if t = curthread then migrationSend c curthread oneShare (victims ++ [t]) toSend
        else do
          set ((s.setTCpu t c).setRunqueue c (s.runqueue c ++ [t]))
          migrationSend c curthread oneShare victims toSend
    else pure (victims, toSend + 1)

/-- The loop over `allcpus` while `to_send` is positive, which skips the current CPU. -/
def migrationCpus (curcpu : ι) (curthread : τ) (oneShare : Nat) :
    List ι → List τ → Nat → Exec Int (Sched ι τ) (List τ × Nat)
  | [], victims, toSend => pure (victims, toSend)
  | c :: cs, victims, toSend =>
    if toSend > 0 then
      if c = curcpu then migrationCpus curcpu curthread oneShare cs victims toSend
      else do
        let (victims, toSend) ← migrationSend c curthread oneShare victims toSend
        migrationCpus curcpu curthread oneShare cs victims toSend
    else pure (victims, toSend)

/-- The last loop: the leftovers go back, head first, to the tail of the current CPU's run
queue, until `threadlist_remhead(&victims)` returns `NULL`. -/
def migrationReturn (curcpu : ι) : List τ → Exec Int (Sched ι τ) (List τ)
  | [] => pure []
  | t :: victims => do
    modify fun s => s.setRunqueue curcpu (s.runqueue curcpu ++ [t])
    migrationReturn curcpu victims

/-- `thread_consider_migration()` on the CPU `curcpu`, which runs `curthread`. -/
def threadConsiderMigration (allcpus : List ι) (curcpu : ι) (curthread : τ) :
    Exec Int (Sched ι τ) Unit := do
  let (myCount, totalCount) := migrationCount curcpu (← get) allcpus (0, 0)
  let oneShare := DIVROUNDUP totalCount allcpus.length
  if myCount < oneShare then pure ()
  else do
    let toSend := myCount - oneShare
    let victims ← migrationTake curcpu toSend []
    let (victims, _) ← migrationCpus curcpu curthread oneShare allcpus victims toSend
    let victims ← if !victims.isEmpty then migrationReturn curcpu victims else pure victims
    assert victims.isEmpty

end Os161

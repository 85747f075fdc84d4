import Os161.Lib.Lts
import Os161.Lib.Threads

/-!
# Locks, condition variables and semaphores (`thread/synch.c`, `thread/thread.c`)

The synchronisation primitives over any number of threads, as atomic steps of the threads
that run them. An atomic step is a section of code protected by a spinlock. Sections that
overlap form one step: in `lock_acquire` the thread takes `wc_lock` (`wchan_lock`) before it
drops `lk_lock`, and keeps `wc_lock` until `thread_switch` has put it on the channel, so the
test of `holder`, the release of `lk_lock` and the enqueue on `lk_wchan` are one step; every
section under `wc_lock` lies inside a step, so no spinlock is ever held between steps and the
spinlocks themselves leave no trace in the state. A thread is interrupted only where it holds
no spinlock:

* asleep on a wait channel, after `wchan_sleep`. `wchan_wakeone` and `wchan_wakeall` take
  threads off the channel (`threadlist_remhead`); a thread off the channel is runnable, and its
  next step re-acquires the spinlock it slept under;
* in `cv_wait`, between its `lock_release(lock)` and its `wchan_lock(cv->cv_wchan)`;
* between the calls its caller makes.

`lock_do_i_hold` reads `holder` without a spinlock: it is a function of the state.
-/

namespace Os161

open Threads

/-- `struct wchan`: the threads asleep on the channel, in order (`wc_threads`). -/
structure Wchan where
  wcThreads : List Nat := []
  deriving DecidableEq, Repr

/-- `threadlist_addtail(&wc->wc_threads, cur)` in `thread_switch(S_SLEEP, wc)`. -/
def wchanSleep (t : Nat) (wc : Wchan) : Wchan := ⟨wc.wcThreads ++ [t]⟩

/-- `wchan_wakeone`: the first sleeper, if any, leaves the channel. -/
def wchanWakeone (wc : Wchan) : Wchan := ⟨wc.wcThreads.tail⟩

/-- `wchan_wakeall`: every sleeper leaves the channel. -/
def wchanWakeall (_ : Wchan) : Wchan := ⟨[]⟩

/-- `struct lock`: `held`, `holder` (`none` is `NULL`) and `lk_wchan`. -/
structure Lock where
  held : Nat := 0
  holder : Option Nat := none
  lkWchan : Wchan := {}
  deriving DecidableEq, Repr

/-- `struct semaphore`: `sem_count` (never negative: `sem_create` asserts it and `P` only
decrements a positive count) and `sem_wchan`. -/
structure Semaphore where
  semCount : Nat
  semWchan : Wchan := {}
  deriving DecidableEq, Repr

/-- The synchronisation objects, by index: locks, condition variables (a `struct cv` is its
`cv_wchan`) and semaphores. -/
structure Synch where
  locks : Nat → Lock
  cvs : Nat → Wchan
  sems : Nat → Semaphore

namespace Synch

def setLock (s : Synch) (lk : Nat) (l : Lock) : Synch :=
  { s with locks := Function.update s.locks lk l }

def setCv (s : Synch) (cv : Nat) (wc : Wchan) : Synch :=
  { s with cvs := Function.update s.cvs cv wc }

def setSem (s : Synch) (sem : Nat) (m : Semaphore) : Synch :=
  { s with sems := Function.update s.sems sem m }

@[simp] theorem setLock_locks (s : Synch) (lk : Nat) (l : Lock) :
    (s.setLock lk l).locks = Function.update s.locks lk l := rfl
@[simp] theorem setLock_cvs (s : Synch) (lk : Nat) (l : Lock) : (s.setLock lk l).cvs = s.cvs := rfl
@[simp] theorem setLock_sems (s : Synch) (lk : Nat) (l : Lock) :
    (s.setLock lk l).sems = s.sems := rfl
@[simp] theorem setCv_locks (s : Synch) (cv : Nat) (wc : Wchan) :
    (s.setCv cv wc).locks = s.locks := rfl
@[simp] theorem setCv_cvs (s : Synch) (cv : Nat) (wc : Wchan) :
    (s.setCv cv wc).cvs = Function.update s.cvs cv wc := rfl
@[simp] theorem setCv_sems (s : Synch) (cv : Nat) (wc : Wchan) :
    (s.setCv cv wc).sems = s.sems := rfl
@[simp] theorem setSem_locks (s : Synch) (sem : Nat) (m : Semaphore) :
    (s.setSem sem m).locks = s.locks := rfl
@[simp] theorem setSem_cvs (s : Synch) (sem : Nat) (m : Semaphore) :
    (s.setSem sem m).cvs = s.cvs := rfl
@[simp] theorem setSem_sems (s : Synch) (sem : Nat) (m : Semaphore) :
    (s.setSem sem m).sems = Function.update s.sems sem m := rfl

end Synch

/-- `lock_do_i_hold(lk)` run by thread `t`. -/
def lockDoIHold (s : Synch) (lk t : Nat) : Bool := (s.locks lk).holder == some t

/-- Where `cv_wait` is: before its `lock_release`, before `wchan_lock`/`wchan_sleep`, or
asleep on `cv_wchan`. -/
inductive WaitPc where
  | release
  | sleep
  | asleep
  deriving DecidableEq, Repr

/-- A frame of a primitive. `slept`: the thread went to sleep on the object's channel and
runs again only once a wakeup has taken it off. -/
inductive Prim where
  | lockAcquire (lk : Nat) (slept : Bool)
  | lockRelease (lk : Nat)
  | cvWait (cv lk : Nat) (pc : WaitPc)
  | cvSignal (cv lk : Nat)
  | cvBroadcast (cv lk : Nat)
  | P (sem : Nat) (slept : Bool)
  | V (sem : Nat)
  deriving DecidableEq, Repr

/-- One atomic step of thread `t` at the frame `f` (module doc); `none` while `t` is asleep. -/
def Prim.step (t : Nat) : Prim → Synch → Option (Synch × Flow Prim)
  | .lockAcquire lk slept, s =>
    let l := s.locks lk
    if slept ∧ t ∈ l.lkWchan.wcThreads then none else
    match l.holder with
    | none => some (s.setLock lk { l with holder := some t, held := 1 }, .ret)
    | some _ =>
      some (s.setLock lk { l with lkWchan := wchanSleep t l.lkWchan }, .goto (.lockAcquire lk true))
  | .lockRelease lk, s =>
    let l := s.locks lk
    if lockDoIHold s lk t then
      some (s.setLock lk { held := 0, holder := none, lkWchan := wchanWakeone l.lkWchan }, .ret)
    else some (s, .ret)
  | .cvWait cv lk .release, s => some (s, .call (.lockRelease lk) (.cvWait cv lk .sleep))
  | .cvWait cv lk .sleep, s => some (s.setCv cv (wchanSleep t (s.cvs cv)), .goto (.cvWait cv lk .asleep))
  | .cvWait cv lk .asleep, s =>
    -- after `wchan_sleep` returns, `cv_wait` ends with `lock_acquire(lock)`
    if t ∈ (s.cvs cv).wcThreads then none else some (s, .goto (.lockAcquire lk false))
  | .cvSignal cv _, s => some (s.setCv cv (wchanWakeone (s.cvs cv)), .ret)
  | .cvBroadcast cv _, s => some (s.setCv cv (wchanWakeall (s.cvs cv)), .ret)
  | .P sem slept, s =>
    let m := s.sems sem
    if slept ∧ t ∈ m.semWchan.wcThreads then none else
    if m.semCount = 0 then
      some (s.setSem sem { m with semWchan := wchanSleep t m.semWchan }, .goto (.P sem true))
    else some (s.setSem sem { m with semCount := m.semCount - 1 }, .ret)
  | .V sem, s =>
    let m := s.sems sem
    some (s.setSem sem { semCount := m.semCount + 1, semWchan := wchanWakeone m.semWchan }, .ret)

/-- The calls a thread may make. -/
inductive SynchCall where
  | lockAcquire (lk : Nat)
  | lockRelease (lk : Nat)
  | cvWait (cv lk : Nat)
  | cvSignal (cv lk : Nat)
  | cvBroadcast (cv lk : Nat)
  | P (sem : Nat)
  | V (sem : Nat)
  deriving DecidableEq, Repr

/-- The entry frame of a call. -/
def SynchCall.frame : SynchCall → Prim
  | .lockAcquire lk => .lockAcquire lk false
  | .lockRelease lk => .lockRelease lk
  | .cvWait cv lk => .cvWait cv lk .release
  | .cvSignal cv lk => .cvSignal cv lk
  | .cvBroadcast cv lk => .cvBroadcast cv lk
  | .P sem => .P sem false
  | .V sem => .V sem

/-- The objects as `lock_create`, `cv_create` and `sem_create(name, counts sem)` leave them. -/
def Synch.created (counts : Nat → Nat) : Synch where
  locks _ := {}
  cvs _ := {}
  sems sem := { semCount := counts sem }

/-- The state the threads share: the objects, and a history variable `inCs lk t` (not in the
source): `t` has returned from `lock_acquire(lk)` and not run a `lock_release(lk)` since. -/
structure SynchState where
  synch : Synch
  inCs : Nat → Nat → Bool

/-- How a step of thread `t` at frame `f` moves the history variable. -/
def csUpdate (t : Nat) (f : Prim) (fl : Flow Prim) (cs : Nat → Nat → Bool) :
    Nat → Nat → Bool :=
  match f, fl with
  | .lockAcquire lk _, .ret => Function.update cs lk (Function.update (cs lk) t true)
  | .lockRelease lk, _ => Function.update cs lk (Function.update (cs lk) t false)
  | _, _ => cs

/-- A step of the primitives with the history variable moved along. -/
def Prim.run (t : Nat) (f : Prim) (x : SynchState) : Option (SynchState × Flow Prim) :=
  (f.step t x.synch).map fun r => (⟨r.1, csUpdate t f r.2 x.inCs⟩, r.2)

/-- A step of the primitives is a step of the frame, with the history variable moved along. -/
theorem Prim.run_eq_some {t : Nat} {f : Prim} {x x' : SynchState} {fl : Flow Prim}
    (h : f.run t x = some (x', fl)) :
    ∃ s', f.step t x.synch = some (s', fl) ∧ x' = ⟨s', csUpdate t f fl x.inCs⟩ := by
  obtain ⟨⟨s', fl'⟩, hstep, heq⟩ := Option.map_eq_some_iff.mp h
  obtain ⟨rfl, rfl⟩ := Prod.mk.inj heq
  exact ⟨s', hstep, rfl⟩

/-- An idle thread calls a primitive, or a thread takes its next atomic step. -/
inductive SynchEvent where
  | call (t : Nat) (c : SynchCall)
  | run (t : Nat)
  deriving DecidableEq, Repr

/-- Any number of threads calling the primitives in any order, from the creation of the
objects: all threads idle, no lock held. -/
def synchSystem (counts : Nat → Nat) : Lts.System (Machine SynchState Prim) SynchEvent where
  init := ⟨⟨Synch.created counts, fun _ _ => false⟩, fun _ => []⟩
  next m
    | .call t c => m.call t c.frame
    | .run t => m.step Prim.run t

end Os161

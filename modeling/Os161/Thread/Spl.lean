import Os161.Proc.Proc

/-!
# Interrupt levels and spinlocks (`thread/spl.c`, `thread/spinlock.c`)

The interrupt state of one thread on its CPU: `t_curspl`, `t_iplhigh_count`, whether the CPU
takes interrupts (`cpu_irqoff`/`cpu_irqon`), and the spinlocks whose `lk_holder` is this CPU.
`splraise` and `spllower` count the raises of `IPL_HIGH`, by `splx` and by every spinlock the
thread holds, and turn interrupts off on the first raise and on again on the last lower, so
that acquisitions, releases and `splx` calls need not nest.

`CURCPU_EXISTS()` holds (the thread runs after `thread_bootstrap`). A `KASSERT` that fails and
the deadlock panic of `spinlock_acquire` halt. The test-and-set loop of `spinlock_acquire` spins
while another CPU holds the lock; the model's acquisition is the call that gets it. While the
thread holds a spinlock its interrupts are off, so it stays on its CPU, and `lk_holder == mycpu`
means that the thread holds the lock.
-/

namespace Os161

open Exec

/-- The interrupt state of a thread on its CPU: `t_curspl`, `t_iplhigh_count`, the CPU's
interrupt enable, and the spinlocks it holds. -/
structure SplThread (ι : Type) where
  tCurspl : Nat
  tIplhighCount : Nat
  irqOn : Bool
  held : Finset ι
  deriving DecidableEq

variable {ι : Type} [DecidableEq ι]

namespace SplThread

/-- `splraise(oldspl, newspl)`: the first raise turns interrupts off. -/
def splraise (oldspl newspl : Nat) : Exec Int (SplThread ι) Unit := do
  -- only one priority level, only one valid args configuration
  assert (oldspl = IPL_NONE)
  assert (newspl = IPL_HIGH)
  let t ← get
  if t.tIplhighCount = 0 then set { t with irqOn := false }
  modify fun t => { t with tIplhighCount := t.tIplhighCount + 1 }

/-- `spllower(oldspl, newspl)`: the last lower turns interrupts on. -/
def spllower (oldspl newspl : Nat) : Exec Int (SplThread ι) Unit := do
  assert (oldspl = IPL_HIGH)
  assert (newspl = IPL_NONE)
  modify fun t => { t with tIplhighCount := t.tIplhighCount - 1 }
  let t ← get
  if t.tIplhighCount = 0 then set { t with irqOn := true }

/-- `splx(spl)`: set the level, returning the old one. -/
def splx (spl : Nat) : Exec Int (SplThread ι) Nat := do
  let t ← get
  if t.tCurspl < spl then
    -- turning interrupts off
    splraise t.tCurspl spl
    modify fun t => { t with tCurspl := spl }
    return t.tCurspl
  else if spl < t.tCurspl then
    -- turning interrupts on
    modify fun t => { t with tCurspl := spl }
    spllower t.tCurspl spl
    return t.tCurspl
  else return spl

/-- `splhigh()`. -/
def splhigh : Exec Int (SplThread ι) Nat := splx IPL_HIGH

/-- `spl0()`. -/
def spl0 : Exec Int (SplThread ι) Nat := splx IPL_NONE

/-- `spinlock_acquire(lk)`. -/
def spinlockAcquire (lk : ι) : Exec Int (SplThread ι) Unit := do
  splraise IPL_NONE IPL_HIGH
  let t ← get
  -- "Deadlock on spinlock %p"
  if lk ∈ t.held then halt
  set { t with held := insert lk t.held }

/-- `spinlock_release(lk)`. -/
def spinlockRelease (lk : ι) : Exec Int (SplThread ι) Unit := do
  let t ← get
  assert (lk ∈ t.held)
  set { t with held := t.held.erase lk }
  spllower IPL_HIGH IPL_NONE

end SplThread

/-- A call of the thread: `splx(spl)` (`splhigh` and `spl0` are `splx` of `IPL_HIGH` and
`IPL_NONE`), or the acquisition or release of a spinlock. -/
inductive SplEvent (ι : Type) where
  | splx (spl : Nat)
  | acquire (lk : ι)
  | release (lk : ι)

/-- The call, as a step of the thread's interrupt state; a call that halts takes no step. -/
def splStep (t : SplThread ι) : SplEvent ι → Option (SplThread ι)
  | .splx spl => returned (SplThread.splx spl t)
  | .acquire lk => returned (SplThread.spinlockAcquire lk t)
  | .release lk => returned (SplThread.spinlockRelease lk t)

/-- The calls of a thread from the state `thread_create` leaves it in: `t_curspl = IPL_HIGH` and
`t_iplhigh_count = 1`, holding no spinlock, on a CPU with interrupts off. -/
def splSystem : Lts.System (SplThread ι) (SplEvent ι) where
  init := ⟨IPL_HIGH, 1, false, ∅⟩
  next := splStep

end Os161

import Os161.Klib.Queue

/-!
# The bowl locks of `synchprobs/catmouse_synch.c`

`catmouse_sync_init(bowls)` allocates `bowl_locks`, a block of `bowls` lock pointers, with
`kmalloc(sizeof(*bowl_locks) * bowls)`, the size computed in 32-bit `size_t` (`ptrBlock`), and
then stores a new lock in `bowl_locks[i]` for `i = 0, 1, ..., bowls`; `catmouse_sync_cleanup`
destroys `bowl_locks[i]` for the same `i`. `cat_before_eating(bowl)`, `cat_after_eating(bowl)`,
`mouse_before_eating(bowl)` and `mouse_after_eating(bowl)` all use `bowl_locks[bowl]`, with
`bowl` in `1..NumBowls` as `catmouse.c` chooses it.

This module models what the functions do with `bowl_locks`: the block, as the slots it has
room for (`none` for a slot not written yet), reached through `slotGet` and `slotSet`, which
halt on a slot outside the block; `NULL` is no block at all. What the four functions do with
the lock they read, their semaphore and condition variable calls, is the synchronisation that
`Os161.Synchprobs.Catmouse` runs, with `bowl_locks[bowl]` as lock `bowl`. `lock_create` makes a
new lock, numbered in the order of creation; its name, `"bowl"+i`, is not read.
-/

namespace Os161

open Exec

/-- `bowl_locks` and the locks created and destroyed. -/
structure BowlLocks where
  kmalloc : KmallocOracle
  /-- The block `bowl_locks` points to, or `none` for `NULL`. -/
  block : Option (List (Option Nat))
  /-- The number of locks `lock_create` has made; the next one is lock `locks`. -/
  locks : Nat
  /-- The locks `lock_destroy` has freed, the last first. -/
  destroyed : List Nat

namespace BowlLocks

/-- `bowl_locks[i] = lock_create(..)`. -/
def storeLock (i : Nat) : Exec Int BowlLocks Unit := do
  let s ← get
  let some b := s.block | halt
  let b ← slotSet b i s.locks
  set { s with block := some b, locks := s.locks + 1 }

/-- `bowl_locks[i]`. -/
def loadLock (i : Nat) : Exec Int BowlLocks Nat := do
  let s ← get
  let some b := s.block | halt
  slotGet b i

/-- `lock_destroy(bowl_locks[i])`. -/
def destroyLock (i : Nat) : Exec Int BowlLocks Unit := do
  let lk ← loadLock i
  modify fun s => { s with destroyed := lk :: s.destroyed }

/-- `for (i = from; n rounds; i++) body(i)`: the loops of `catmouse_sync_init` and
`catmouse_sync_cleanup`, `n` the number of rounds their test `i <= bowls` lets through. -/
def forRounds (body : Nat → Exec Int BowlLocks Unit) : Nat → Nat → Exec Int BowlLocks Unit
  | 0, _ => pure ()
  | n + 1, i => do
    body i
    forRounds body n (i + 1)

end BowlLocks

open BowlLocks

/-- `catmouse_sync_init(bowls)`, as far as `bowl_locks` goes. -/
def catmouseSyncInit (bowls : Int) : Exec Int BowlLocks Unit := do
  if bowls ≠ 0 then
    let fails ← focus BowlLocks.kmalloc (fun o s => { s with kmalloc := o }) kmallocFails
    modify fun s => { s with block := if fails then none else some (ptrBlock bowls) }
  -- `for (int i = 0; i <= bowls; i++)`
  forRounds storeLock (bowls + 1).toNat 0

/-- `catmouse_sync_cleanup(bowls)`, as far as `bowl_locks` goes. -/
def catmouseSyncCleanup (bowls : Int) : Exec Int BowlLocks Unit := do
  assert (← get).block.isSome
  -- `for (int i = 0; i <= bowls; i++)`
  forRounds destroyLock (bowls + 1).toNat 0

/-- The lock `bowl_locks[bowl]` that `cat_before_eating(bowl)`, `cat_after_eating(bowl)`,
`mouse_before_eating(bowl)` and `mouse_after_eating(bowl)` use: each reads that slot, and
nothing else of the block, before it hands the lock to `lock_do_i_hold`, `cv_wait`,
`lock_acquire`, `lock_release` or `cv_broadcast`. The `*_before_eating` functions
`KASSERT(bowl_locks != NULL)` and the `*_after_eating` ones `KASSERT(bowl_locks[bowl] != NULL)`;
with `NULL` a halt either way and `lock_create` always returning a lock, the two come to the
same. -/
def bowlLock (bowl : Nat) : Exec Int BowlLocks Nat := do
  assert (← get).block.isSome
  loadLock bowl

end Os161

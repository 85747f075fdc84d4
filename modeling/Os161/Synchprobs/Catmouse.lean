import Os161.Thread.Synch

/-!
# The cat/mouse simulation (`synchprobs/catmouse.c`, `synchprobs/catmouse_synch.c`)

Cat and mouse threads eat from `NumBowls` bowls. Each round of a creature is
`*_before_eating(bowl); *_eat(bowl); *_after_eating(bowl)`, with `bowl` in `1..NumBowls`
(`catmouse.c` picks it at random). The `*_eat` functions of `catmouse.c` check, under the
semaphore `mutex`, that no creature of the other kind is eating and that the bowl is free, and
`panic` otherwise; the `*_before_eating`/`*_after_eating` functions of `catmouse_synch.c` are
the synchronisation under test.

Objects, as `catmouse_sync_init(NumBowls)` and `initialize_bowls` create them: lock `i` is
`bowl_locks[i]`, condition variable 0 is `cv_cats` and 1 is `cv_mice`, semaphore 0 is
`globalCatMouseSem` (count `NumBowls`) and 1 is `mutex` (count 1). The statistics kept under
`perf_mutex` and the sleeping and eating delays do not affect what is checked and are left out.
-/

namespace Os161

open Threads

/-- `cv_cats`. -/
def cvCats : Nat := 0
/-- `cv_mice`. -/
def cvMice : Nat := 1
/-- `globalCatMouseSem`. -/
def globalCatMouseSem : Nat := 0
/-- `mutex` of `catmouse.c`. -/
def catmouseMutex : Nat := 1

/-- The shared state: the synchronisation objects and the simulation state of `catmouse.c`:
`bowls[i-1]` is `'c'`, `'m'` or `'-'`, the two eating counts, and whether the kernel has
panicked (a failed `KASSERT` or an explicit `panic`). -/
structure CatmouseState where
  synch : Synch
  bowls : Nat → Char
  eatingCatsCount : Nat
  eatingMiceCount : Nat
  panicked : Bool

/-- Which creature: the two halves of `catmouse.c` and of `catmouse_synch.c` differ only in
the letter, the count and the order of the calls. -/
inductive Creature where
  | cat
  | mouse
  deriving DecidableEq, Repr

/-- The letter `*_eat` writes into the bowl. -/
def Creature.letter : Creature → Char
  | .cat => 'c'
  | .mouse => 'm'

/-- Where `cat_eat`/`mouse_eat` is: entering (`P(mutex)`), at the checks and the update,
eating (then `P(mutex)` again), at the final update. -/
inductive EatPc where
  | enter
  | check
  | eating
  | finish
  deriving DecidableEq, Repr

/-- Where a creature is in its round, or in `*_before_eating`/`*_after_eating`. -/
inductive RoundPc where
  | before
  | eat
  | after
  deriving DecidableEq, Repr

/-- The frames of the simulation threads. -/
inductive CmFrame where
  | prim (p : Prim)
  /-- One iteration of `cat_simulation`/`mouse_simulation`. -/
  | round (c : Creature) (bowl : Nat) (pc : RoundPc)
  /-- `cat_before_eating(bowl)`, at the test of its `while` loop. -/
  | catBefore (bowl : Nat)
  /-- `mouse_before_eating(bowl)`: `lock_acquire`, then (`true`) `P`. -/
  | mouseBefore (bowl : Nat) (acquired : Bool)
  | eat (c : Creature) (bowl : Nat) (pc : EatPc)
  /-- `cat_after_eating(bowl)` or `mouse_after_eating(bowl)`, by the number of calls made. -/
  | after (c : Creature) (bowl : Nat) (done : Nat)
  deriving DecidableEq, Repr

namespace CatmouseState

def setPanicked (x : CatmouseState) : CatmouseState := { x with panicked := true }

end CatmouseState

/-- The checks and the update of `cat_eat` (`c = cat`) or `mouse_eat` at the start of the
meal, under `mutex`: `panic` if a creature of the same kind is at the bowl or one of the other
kind is eating anywhere, `KASSERT` that the bowl is free, then count the eater and mark the
bowl. -/
def eatCheck (c : Creature) (bowl : Nat) (x : CatmouseState) : CatmouseState :=
  let others := match c with
    | .cat => x.eatingMiceCount
    | .mouse => x.eatingCatsCount
  if x.bowls (bowl - 1) = c.letter ∨ 0 < others ∨ x.bowls (bowl - 1) ≠ '-' then x.setPanicked
  else
    let x := { x with bowls := Function.update x.bowls (bowl - 1) c.letter }
    match c with
    | .cat => { x with eatingCatsCount := x.eatingCatsCount + 1 }
    | .mouse => { x with eatingMiceCount := x.eatingMiceCount + 1 }

/-- The update at the end of the meal: `KASSERT` that the creature is counted and at its bowl,
then uncount it and free the bowl. -/
def eatFinish (c : Creature) (bowl : Nat) (x : CatmouseState) : CatmouseState :=
  let count := match c with
    | .cat => x.eatingCatsCount
    | .mouse => x.eatingMiceCount
  if count = 0 ∨ x.bowls (bowl - 1) ≠ c.letter then x.setPanicked
  else
    let x := { x with bowls := Function.update x.bowls (bowl - 1) '-' }
    match c with
    | .cat => { x with eatingCatsCount := x.eatingCatsCount - 1 }
    | .mouse => { x with eatingMiceCount := x.eatingMiceCount - 1 }

/-- One atomic step of thread `t` at a frame, with `NumBowls = numBowls`. -/
def CmFrame.step (numBowls t : Nat) : CmFrame → CatmouseState →
    Option (CatmouseState × Flow CmFrame)
  | .prim p, x => (p.step t x.synch).map fun r => ({ x with synch := r.1 }, r.2.map .prim)
  | .round c bowl .before, x =>
    match c with
    | .cat => some (x, .call (.catBefore bowl) (.round c bowl .eat))
    | .mouse => some (x, .call (.mouseBefore bowl false) (.round c bowl .eat))
  | .round c bowl .eat, x => some (x, .call (.eat c bowl .enter) (.round c bowl .after))
  | .round c bowl .after, x => some (x, .goto (.after c bowl 0))
  | .catBefore bowl, x =>
    -- `while (!lock_do_i_hold(bowl_locks[bowl])) cv_wait(cv_cats, bowl_locks[bowl]);`
    if lockDoIHold x.synch bowl t then some (x, .goto (.prim (.P globalCatMouseSem false)))
    else some (x, .call (.prim (.cvWait cvCats bowl .release)) (.catBefore bowl))
  | .mouseBefore bowl false, x =>
    some (x, .call (.prim (.lockAcquire bowl false)) (.mouseBefore bowl true))
  | .mouseBefore _ true, x => some (x, .goto (.prim (.P globalCatMouseSem false)))
  | .eat c bowl .enter, x =>
    if bowl = 0 ∨ numBowls < bowl then some (x.setPanicked, .ret)
    else some (x, .call (.prim (.P catmouseMutex false)) (.eat c bowl .check))
  | .eat c bowl .check, x =>
    some (eatCheck c bowl x, .call (.prim (.V catmouseMutex)) (.eat c bowl .eating))
  | .eat c bowl .eating, x => some (x, .call (.prim (.P catmouseMutex false)) (.eat c bowl .finish))
  | .eat c bowl .finish, x => some (eatFinish c bowl x, .goto (.prim (.V catmouseMutex)))
  -- `cat_after_eating`: `cv_broadcast(cv_mice, ..)`, `lock_release`, `V(globalCatMouseSem)`
  | .after .cat bowl 0, x => some (x, .call (.prim (.cvBroadcast cvMice bowl)) (.after .cat bowl 1))
  | .after .cat bowl 1, x => some (x, .call (.prim (.lockRelease bowl)) (.after .cat bowl 2))
  | .after .cat _ _, x => some (x, .goto (.prim (.V globalCatMouseSem)))
  -- `mouse_after_eating`: `V(globalCatMouseSem)`, `lock_release`, `cv_broadcast(cv_cats, ..)`
  | .after .mouse bowl 0, x =>
    some (x, .call (.prim (.V globalCatMouseSem)) (.after .mouse bowl 1))
  | .after .mouse bowl 1, x =>
    some (x, .call (.prim (.lockRelease bowl)) (.after .mouse bowl 2))
  | .after .mouse bowl _, x => some (x, .goto (.prim (.cvBroadcast cvCats bowl)))

/-- A creature thread starts a round at a bowl, or a thread takes its next step. -/
inductive CmEvent where
  | round (t : Nat) (c : Creature) (bowl : Nat)
  | run (t : Nat)
  deriving DecidableEq, Repr

/-- The state after `catmouse_sync_init(numBowls)` and `initialize_bowls`. -/
def catmouseInit (numBowls : Nat) : CatmouseState where
  synch := Synch.created fun sem => if sem = globalCatMouseSem then numBowls else 1
  bowls _ := '-'
  eatingCatsCount := 0
  eatingMiceCount := 0
  panicked := false

/-- The simulation with `NumBowls = numBowls`: any number of cat and mouse threads, each
round at a legal bowl, in any interleaving; nothing runs after a panic. -/
def catmouseSystem (numBowls : Nat) : Lts.System (Machine CatmouseState CmFrame) CmEvent where
  init := ⟨catmouseInit numBowls, fun _ => []⟩
  next m e :=
    if m.shared.panicked then none else
    match e with
    | .round t c bowl =>
      if 1 ≤ bowl ∧ bowl ≤ numBowls then m.call t (.round c bowl .before) else none
    | .run t => m.step (CmFrame.step numBowls) t

/-! ### A cat and a mouse eating at once -/

/-- A cat comes to bowl 1, does not hold its lock, and goes to sleep in `cv_wait(cv_cats, ..)`
(its `lock_release` does nothing). -/
def catWaitsTrace : List CmEvent := .round 0 .cat 1 :: List.replicate 5 (.run 0)

/-- Thread `t` runs `n` steps of a mouse round at bowl `b`. -/
def mouseRoundTrace (t b n : Nat) : List CmEvent := .round t .mouse b :: List.replicate n (.run t)

/-- A mouse eats at bowl 1 and, in `mouse_after_eating`, wakes the cat; the cat takes the lock of
bowl 1 in `cv_wait`, leaves `cat_before_eating` and starts to eat; a mouse then comes to bowl 2,
whose lock is free, and reaches the checks of `mouse_eat`. -/
def catAndMouseTrace : List CmEvent :=
  catWaitsTrace ++ mouseRoundTrace 1 1 21 ++ List.replicate 9 (.run 0) ++ mouseRoundTrace 1 2 9

/-- **The bowl locks do not keep cats and mice apart.** With two bowls, a mouse at bowl 2 starts
to eat while a cat eats at bowl 1, and `mouse_eat` panics ("attempt to make a mouse eat while
cats are eating"). -/
theorem catmouse_mouse_eats_with_cat :
    ∃ m, (catmouseSystem 2).Reachable m ∧ m.shared.eatingCatsCount = 1 ∧
      m.shared.bowls 0 = 'c' ∧ m.shared.panicked = true := by
  obtain ⟨m, hm, hp⟩ := Lts.System.reachable_of_run (catmouseSystem 2) catAndMouseTrace
    (fun m => m.shared.eatingCatsCount == 1 && m.shared.bowls 0 == 'c' && m.shared.panicked)
    (by decide)
  simp only [Bool.and_eq_true, beq_iff_eq] at hp
  exact ⟨m, hm, hp.1.1, hp.1.2, hp.2⟩

end Os161

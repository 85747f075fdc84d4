import Os161.Lib.Lts
import Os161.Lib.Word

/-!
# Console input (`dev/generic/console.c`)

The device's read interrupt calls `con_input(cs, ch)`, which puts the character in the ring
buffer `cs_gotchars` at `cs_gotchars_head` and `V`s `cs_rsem`, or drops it when the next head
would meet `cs_gotchars_tail`. A thread reads with `getch`, that is `getch_intr`: it `P`s
`cs_rsem`, reads `cs_gotchars[cs_gotchars_tail]` and moves the tail on. The slots hold
`unsigned char`s, so the `int` character is stored as its low byte.

The model is a transition system (`console`) whose events are a whole `con_input`, which runs
in the interrupt handler, and the three steps of `getch_intr` by the one thread that reads the
console (`con_io` holds `con_userlock_read` around its `getch`es). The semaphore is its count:
`P` is enabled when it is positive, as the thread sleeps in `P` until then. The contents of the
buffer before the first character are whatever the memory held (`buf₀`).
-/

namespace Os161

/-- `CONSOLE_INPUT_BUFFER_SIZE`. -/
def CONSOLE_INPUT_BUFFER_SIZE : ℕ := 32

/-- Where the reading thread is in `getch_intr`. -/
inductive GetchPc where
  /-- not in `getch_intr` -/
  | idle
  /-- past `P(cs->cs_rsem)` -/
  | gotSem
  /-- past `ret = cs->cs_gotchars[cs->cs_gotchars_tail]` -/
  | gotChar (ret : ℕ)
  deriving DecidableEq

/-- The input side of `struct con_softc`, the count of `cs_rsem`, and the reading thread. -/
structure ConSoftc where
  gotchars : ℕ → ℕ
  gotcharsHead : ℕ
  gotcharsTail : ℕ
  rsem : ℕ
  pc : GetchPc

/-- `con_input(cs, ch)`. -/
def conInput (cs : ConSoftc) (ch : Int) : ConSoftc :=
  let nexthead := (cs.gotcharsHead + 1) % CONSOLE_INPUT_BUFFER_SIZE
  if nexthead = cs.gotcharsTail then
    -- overflow; drop character
    cs
  else
    { cs with gotchars := Function.update cs.gotchars cs.gotcharsHead (Word.ofInt 8 ch),
              gotcharsHead := nexthead,
              rsem := cs.rsem + 1 }

/-- An event: a read interrupt with the character `ch`, or a step of `getch_intr`. -/
inductive ConEvent where
  | input (ch : Int)
  | getchP
  | getchRead
  | getchTail

/-- One event. -/
def conStep (cs : ConSoftc) : ConEvent → Option ConSoftc
  | .input ch => some (conInput cs ch)
  | .getchP =>
    match cs.pc with
    | .idle => if cs.rsem > 0 then some { cs with rsem := cs.rsem - 1, pc := .gotSem } else none
    | _ => none
  | .getchRead =>
    match cs.pc with
    | .gotSem => some { cs with pc := .gotChar (cs.gotchars cs.gotcharsTail) }
    | _ => none
  | .getchTail =>
    match cs.pc with
    | .gotChar _ =>
      some { cs with gotcharsTail := (cs.gotcharsTail + 1) % CONSOLE_INPUT_BUFFER_SIZE, pc := .idle }
    | _ => none

/-- The console from `con_attach`-time setup: `cs_rsem` created with count 0, head and tail 0. -/
def console (buf₀ : ℕ → ℕ) : Lts.System ConSoftc ConEvent where
  init := ⟨buf₀, 0, 0, 0, .idle⟩
  next := conStep

end Os161

import Os161.Lib.Lts
import Os161.Lib.Word

/-!
# Console output on the serial port (`dev/generic/console.c`, `dev/lamebus/lser.c`)

`putch(ch)` from a thread that is not in an interrupt and has no raised interrupt level runs
`putch_intr`: it `P`s `cs_wsem`, created with count 1, and hands the character to `lser_write`,
which panics ("lser: Not clear to write") if `ls_wbusy` is set, and otherwise sets it and writes
the character to `LSER_REG_CHAR`. When the device has sent it, it sets `LSER_IRQ_ACTIVE` in
`LSER_REG_WIRQ` and interrupts; `lser_irq` clears `ls_wbusy` and the ready condition, releases
`ls_lock` and calls `ls_start`, which is `con_start`, which `V`s `cs_wsem`. From an interrupt or
at a raised level `putch` runs `putch_polled`, that is `lser_writepolled`, which holds `ls_lock`
throughout: it first waits for a character in flight and clears its ready condition, then
sends its own character and polls until it is out, and leaves the ready condition set when it
found one in flight, so that `lser_irq` still sees that character's completion.

The model is a transition system (`serialConsole`) over any number of threads. Its events are
the two steps of `putch_intr` (the `P`, and the `lser_write` after it), a whole
`lser_writepolled`, the device finishing its character, the part of `lser_irq` under `ls_lock`,
and the `con_start` after it. The semaphore is its count: `P` is enabled when it is positive,
as the thread sleeps in `P` until then. While `lser_writepolled` holds `ls_lock` only the device
moves, so its polls are the device finishing the character it sends. `lser_irq` may run at any
time, as the bus calls it for either half of the port and for its masked and unmasked states
alike; the half that reads (`con_input`) is `Os161.Dev.Console`. A step that halts or never
ends is not enabled: the panic of `lser_write`, a poll with nothing in flight, and a character
written to a device that is still sending one, which the device cannot take.
-/

namespace Os161

/-- The output side of the console: the count of `cs_wsem`, the threads in `putch_intr`, the
output state of `struct lser_softc`, and the serial device. -/
structure LserState where
  /-- The count of `cs_wsem`. -/
  wsem : ℕ
  /-- The threads past `P(cs->cs_wsem)` in `putch_intr`, with the character each sends. -/
  putch : ℕ → Option Int
  /-- `ls_wbusy`. -/
  wbusy : Bool
  /-- The `lser_irq`s that saw a completion and have not yet called `ls_start`. -/
  starting : ℕ
  /-- The character the device is sending. -/
  sending : Option ℕ
  /-- `LSER_IRQ_ACTIVE` in `LSER_REG_WIRQ`: the device has finished a character. -/
  wirqActive : Bool
  /-- The characters the device has sent, in order. -/
  wire : List ℕ

namespace LserState

/-- Writing `ch` to `LSER_REG_CHAR`: the device starts sending it. A device that is still
sending a character cannot take another. -/
def writeChar (ch : Int) (s : LserState) : Option LserState :=
  match s.sending with
  | none => some { s with sending := some (Word.ofInt 32 ch) }
  | some _ => none

/-- The device finishes the character it sends and sets `LSER_IRQ_ACTIVE`. -/
def finish (s : LserState) : Option LserState :=
  match s.sending with
  | some c => some { s with sending := none, wire := s.wire ++ [c], wirqActive := true }
  | none => none

/-- `lser_poll_until_write(sc)`: read `LSER_REG_WIRQ` until `LSER_IRQ_ACTIVE` is set, which
the device does when it finishes its character; with none in flight the loop never ends. -/
def pollUntilWrite (s : LserState) : Option LserState :=
  if s.wirqActive then some s else s.finish

/-- `lser_write(ls, ch)`, under `ls_lock`. -/
def lserWrite (ch : Int) (s : LserState) : Option LserState :=
  -- "lser: Not clear to write"
  if s.wbusy then none
  else writeChar ch { s with wbusy := true }

/-- `lser_writepolled(sc, ch)`, under `ls_lock` throughout. -/
def lserWritepolled (ch : Int) (s : LserState) : Option LserState := do
  let (s, irqpending) ← if s.wbusy then
      -- wait for the character in flight, then clear its ready condition
      (pollUntilWrite s).map fun s => ({ s with wirqActive := false }, true)
    else some (s, false)
  let s ← writeChar ch s
  let s ← pollUntilWrite s
  -- with an interrupt pending, the ready condition stays for `lser_irq`
  pure (if irqpending then s else { s with wirqActive := false })

/-- The write half of `lser_irq(sc)`, under `ls_lock`; its call of `ls_start` after the lock is
released is counted in `starting`. -/
def lserIrq (s : LserState) : LserState :=
  if s.wirqActive then { s with wbusy := false, wirqActive := false, starting := s.starting + 1 }
  else s

end LserState

open LserState

/-- An event of the console's output side. -/
inductive LserEvent where
  /-- `P(cs->cs_wsem)` in `putch_intr(cs, ch)` by thread `t`. -/
  | putchP (t : ℕ) (ch : Int)
  /-- `cs->cs_send(cs->cs_devdata, ch)`, that is `lser_write`, by thread `t` after its `P`. -/
  | putchSend (t : ℕ)
  /-- `putch_polled(cs, ch)`, that is `lser_writepolled`. -/
  | putchPolled (ch : Int)
  /-- The device finishes its character. -/
  | finish
  /-- `lser_irq` up to the release of `ls_lock`. -/
  | irq
  /-- `ls_start`, that is `con_start`: `V(cs->cs_wsem)`. -/
  | conStart

/-- One event. -/
def lserStep (s : LserState) : LserEvent → Option LserState
  | .putchP t ch =>
    if s.putch t = none ∧ 0 < s.wsem then
      some { s with wsem := s.wsem - 1, putch := Function.update s.putch t (some ch) }
    else none
  | .putchSend t =>
    match s.putch t with
    | some ch => lserWrite ch { s with putch := Function.update s.putch t none }
    | none => none
  | .putchPolled ch => lserWritepolled ch s
  | .finish => s.finish
  | .irq => some (lserIrq s)
  | .conStart =>
    if 0 < s.starting then some { s with starting := s.starting - 1, wsem := s.wsem + 1 }
    else none

/-- The console's output side after `config_lser` and `config_con`: `cs_wsem` created with
count 1, `ls_wbusy` false, the ready condition cleared, nothing sent. -/
def serialConsole : Lts.System LserState LserEvent where
  init := ⟨1, fun _ => none, false, 0, none, false, []⟩
  next := lserStep

end Os161

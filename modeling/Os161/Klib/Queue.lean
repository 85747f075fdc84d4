import Os161.Klib.Array

/-!
# Queues of pointers (`lib/queue.c`)

A `struct queue` is a ring buffer of `void *`: `size` slots in the block `data`, the elements
from `nextread` on up to `nextwrite`, going round; one slot always stays free, so that a full
queue is told from an empty one. `q_addtail` on a full queue first grows it (`q_grow`): a new
block of at least twice the slots, into which `q_grow` puts the old elements back by calling
`q_addtail` once for each.

The fields are C `int`s, and C's `%` rounds toward zero (`Int.tmod`). The block of `n` slots is
`kmalloc(n * sizeof(void *))`, a size computed in 32-bit `size_t`; the model keeps the block as
the slots it has room for, `none` for a slot whose contents are unknown, and reading or writing
outside it, or reading a slot never written, is undefined and halts. `q_grow`'s `nsize *= 2` is
taken in 32-bit two's complement, as the machine computes it. Whether a `kmalloc` succeeds is
the environment's choice (`KmallocOracle`).

`q_grow` and `q_addtail` call each other. The model passes `q_grow` the `q_addtail` it calls,
one level of the recursion further down (`qAddtailN`); `q_grow`'s own calls of `q_addtail`
never grow the queue again, so the two levels of `qAddtail` are all a run reaches.
-/

namespace Os161

open Exec

/-- `struct queue`. -/
structure Queue (α : Type) where
  size : Int
  nextwrite : Int
  nextread : Int
  data : List (Option α)

variable {α σ : Type}

/-- `data[i]`. -/
def slotGet (data : List (Option α)) (i : Int) : Exec Int σ α :=
  if 0 ≤ i then
    match data[i.toNat]? with
    | some (some x) => pure x
    | _ => halt
  else halt

/-- `data[i] = x`: the block after the write. -/
def slotSet (data : List (Option α)) (i : Int) (x : α) : Exec Int σ (List (Option α)) :=
  if 0 ≤ i ∧ i < data.length then pure (data.set i.toNat (some x)) else halt

/-- `kmalloc` on the state of a queue operation. -/
def queueKmallocFails : Exec Int (KmallocOracle × Queue α) Bool :=
  focus Prod.fst (fun o s => (o, s.2)) kmallocFails

/-- `q_create(size)`: `none` is the `NULL` it returns when a `kmalloc` fails. -/
def qCreate (size : Int) : Exec Int KmallocOracle (Option (Queue α)) := do
  if ← kmallocFails then return none
  -- the block of `size` slots; on failure `q` is freed
  if ← kmallocFails then return none
  pure (some ⟨size, 0, 0, ptrBlock size⟩)

/-- `q_empty(q)`. -/
def qEmpty (q : Queue α) : Bool := q.nextwrite == q.nextread

/-- The loop of `q_grow` that doubles `nsize` until it reaches `targetsize`; a double that wraps
to a value `≤ 0` fails the `KASSERT`. From a positive size, 32 rounds end it. -/
def qGrowSize (targetsize : Int) : Nat → Int → Exec Int σ Int
  | 0, _ => halt
  | fuel + 1, nsize =>
    if nsize < targetsize then do
      let nsize := Word.toInt 32 (nsize * 2)
      assert (nsize > 0)
      qGrowSize targetsize fuel nsize
    else pure nsize

/-- The loop of `q_grow` that puts the old elements `olddata[i]`, from `i` on up to `onw`, back
with `addtail`, each of which must return 0; `osize` rounds suffice. -/
def qGrowCopy (addtail : α → Exec Int (KmallocOracle × Queue α) Unit) (olddata : List (Option α))
    (onw osize : Int) : Nat → Int → Exec Int (KmallocOracle × Queue α) Unit
  | 0, _ => halt
  | fuel + 1, i =>
    if i = onw then pure ()
    else do
      let x ← slotGet olddata i
      let result ← attempt (addtail x)
      assert result.isOk
      qGrowCopy addtail olddata onw osize fuel ((i + 1).tmod osize)

/-- `q_grow(q, targetsize)`, with `addtail` the `q_addtail` it calls. -/
def qGrow (addtail : α → Exec Int (KmallocOracle × Queue α) Unit) (targetsize : Int) :
    Exec Int (KmallocOracle × Queue α) Unit := do
  let (_, q) ← get
  let nsize ← qGrowSize targetsize 32 q.size
  if ← queueKmallocFails then fail ENOMEM
  modify fun (o, _) => (o, ⟨nsize, 0, 0, ptrBlock nsize⟩)
  qGrowCopy addtail q.data q.nextwrite q.size q.size.toNat q.nextread

/-- `q_addtail(q, ptr)`, `n` levels of the recursion through `q_grow` deep. -/
def qAddtailN : Nat → α → Exec Int (KmallocOracle × Queue α) Unit
  | 0, _ => halt
  | n + 1, ptr => do
    let (_, q) ← get
    assert (q.size > 0)
    let nextnext ←
      if (q.nextwrite + 1).tmod q.size = q.nextread then do
        qGrow (qAddtailN n) (q.size + 1)
        let (_, q) ← get
        pure ((q.nextwrite + 1).tmod q.size)
      else pure ((q.nextwrite + 1).tmod q.size)
    let (o, q) ← get
    let data ← slotSet q.data q.nextwrite ptr
    set (o, { q with data, nextwrite := nextnext })

/-- `q_addtail(q, ptr)`. -/
def qAddtail (ptr : α) : Exec Int (KmallocOracle × Queue α) Unit := qAddtailN 2 ptr

/-- `q_preallocate(q, size)`. -/
def qPreallocate (size : Int) : Exec Int (KmallocOracle × Queue α) Unit := do
  let (_, q) ← get
  assert (q.size > 0)
  if size > q.size then qGrow qAddtail size

/-- `q_remhead(q)`. -/
def qRemhead : Exec Int (KmallocOracle × Queue α) α := do
  let (o, q) ← get
  assert (q.size > 0)
  assert (qEmpty q = false)
  let ret ← slotGet q.data q.nextread
  set (o, { q with nextread := (q.nextread + 1).tmod q.size })
  pure ret

/-- `q_peek(q)`: `none` is the `NULL` it returns on an empty queue. -/
def qPeek : Exec Int (KmallocOracle × Queue α) (Option α) := do
  let (_, q) ← get
  assert (q.size > 0)
  if qEmpty q then pure none else some <$> slotGet q.data q.nextread

/-- The loop of `q_len`, which steps `tmp` from `nextread` round to `nextwrite`; `size` rounds and
the last test suffice. -/
def qLenLoop (q : Queue α) : Nat → Int → Int → Exec Int σ Int
  | 0, _, _ => halt
  | fuel + 1, tmp, count =>
    if tmp ≠ q.nextwrite then qLenLoop q fuel ((tmp + 1).tmod q.size) (count + 1) else pure count

/-- `q_len(theq)`. -/
def qLen : Exec Int (KmallocOracle × Queue α) Int := do
  let (_, q) ← get
  qLenLoop q (q.size.toNat + 1) q.nextread 0

end Os161

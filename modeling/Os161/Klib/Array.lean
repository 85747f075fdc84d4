import Os161.Include.Kern
import Os161.Lib.Exec
import Os161.Lib.Word

/-!
# Resizable arrays (`lib/array.c`, `include/array.h`)

A `struct array` is `v`, `num` and `max`: `v` is the block that holds the pointers, of which
the first `num` are the elements. `array_setsize` grows the array by doubling `max` when `num`
passes it, and allocates the new block with `kmalloc(newmax*sizeof(*a->v))`, a size computed in
32-bit `size_t`: the model keeps the block as the slots that many bytes hold, `none` for a slot
whose contents are unknown, so that a block smaller than `max` shows. A store outside the block
is undefined and halts. `ARRAYS_CHECKED` is defined, so the `ARRAYASSERT`s are `KASSERT`s.

Whether a `kmalloc` succeeds is the environment's choice: `KmallocOracle` holds the outcomes
of the next calls.
-/

namespace Os161

open Exec

/-- The outcomes of the next calls to `kmalloc` (`true`: it returns `NULL`); once the list is
used up, every call succeeds. -/
structure KmallocOracle where
  kmFails : List Bool

/-- Whether the next `kmalloc` returns `NULL`. -/
def kmallocFails : Exec ε KmallocOracle Bool :=
  modifyGet fun o => match o.kmFails with
    | [] => (false, o)
    | b :: bs => (b, ⟨bs⟩)

/-- The next `kmalloc` returns, and takes one outcome. -/
theorem kmallocFails_apply (o : KmallocOracle) :
    ∃ b o', (kmallocFails : Exec ε KmallocOracle Bool) o = .ok b o' := by
  unfold kmallocFails
  cases h : o.kmFails <;> simp [h]

/-- A `kmalloc` made on the state of a data structure leaves the data structure. -/
theorem kmallocFails_focus_apply {β : Type} (o : KmallocOracle) (x : β) :
    ∃ b o', (focus Prod.fst (fun o s => (o, s.2)) kmallocFails :
      Exec ε (KmallocOracle × β) Bool) (o, x) = .ok b (o', x) := by
  obtain ⟨b, o', hk⟩ := kmallocFails_apply (ε := ε) o
  exact ⟨b, o', by simp [focus, hk]⟩

/-- `sizeof(void *)` on the 32-bit MIPS target. -/
def SIZEOF_PTR : Int := 4

/-- The block that `kmalloc(n * sizeof(void *))` returns: `n * sizeof(void *)` in `size_t`, and
the slots of that many bytes, of unknown contents. -/
def ptrBlock {α : Type} (n : Int) : List (Option α) :=
  List.replicate (Word.ofInt 32 (n * SIZEOF_PTR) / SIZEOF_PTR.toNat) none

/-- `struct array`: the block `v`, `num` and `max`. -/
structure KArray (α : Type) where
  v : List (Option α)
  num : Nat
  max : Nat

namespace KArray

variable {α : Type}

/-- `array_init`. -/
def empty : KArray α := ⟨[], 0, 0⟩

/-- The elements `v[0 .. num-1]`. -/
def elems (a : KArray α) : List (Option α) := a.v.take a.num

end KArray

/-- The growth loop of `array_setsize`: `while (num > newmax) newmax = newmax ? newmax*2 : 4;`
in 32-bit arithmetic. The value doubles until it passes `num` or wraps to 0, after which it
repeats, so a run that ends takes fewer than 34 rounds; `none` is a loop that does not end. -/
def arrayGrow (num : Nat) : Nat → Nat → Option Nat
  | _, 0 => none
  | newmax, fuel + 1 =>
    if num > newmax then arrayGrow num (if newmax ≠ 0 then Word.ofInt 32 (newmax * 2) else 4) fuel
    else some newmax

/-- `array_setsize(a, num)`. -/
def arraySetsize {α : Type} (num : Nat) : Exec Int (KmallocOracle × KArray α) Unit := do
  let (o, a) ← get
  if num > a.max then
    match arrayGrow num a.max 34 with
    | none => halt
    | some newmax =>
      let nul ← focus Prod.fst (fun o s => (o, s.2)) kmallocFails
      if nul then fail ENOMEM else
      let newptr : List (Option α) := ptrBlock newmax
      -- `memcpy` of the `num` elements into the new block, past its end if it is too small;
      -- the other slots are unknown
      if newptr.length < a.num then halt else
      modify fun (o, _) => (o, ({ v := a.elems ++ newptr.drop a.num, num, max := newmax } : KArray α))
  else set (o, { a with num })

/-- `a->v[index] = val`. -/
def arrayStore {σ α : Type} (a : KArray α) (index : Nat) (val : α) : Exec Int σ (KArray α) :=
  if index < a.v.length then pure { a with v := a.v.set index (some val) } else halt

/-- `array_add(a, val, &index)`: the index of the new element. -/
def arrayAdd {α : Type} (val : α) : Exec Int (KmallocOracle × KArray α) Nat := do
  let (_, a) ← get
  let index := a.num
  arraySetsize (Word.ofInt 32 (index + 1))
  let (o, a) ← get
  set (o, ← arrayStore a index val)
  pure index

/-- `array_get(a, index)`: reading a slot that was never written is undefined. -/
def arrayGet {ε σ α : Type} (a : KArray α) (index : Nat) : Exec ε σ α := do
  assert (index < a.num)
  match a.v[index]? with
  | some (some x) => pure x
  | _ => halt

/-- `array_set(a, index, val)`. -/
def arraySet {α : Type} (index : Nat) (val : α) : Exec Int (KArray α) Unit := do
  let a ← get
  assert (index < a.num)
  set (← arrayStore a index val)

/-- `array_remove(a, index)`: the elements after `index` move down one slot. -/
def arrayRemove {α : Type} (index : Nat) : Exec Int (KArray α) Unit := do
  let a ← get
  assert (a.num ≤ a.max)
  assert (index < a.num)
  -- `memmove` of `v[index+1 .. num-1]` one slot down; `v[num-1]` keeps its value
  set { a with v := (a.v.take a.num).eraseIdx index ++ a.v.drop (a.num - 1), num := a.num - 1 }

end Os161

import Os161.Klib.Bitmap
import Os161.Lib.Refine

/-!
# The bitmap invariant and the allocation law (`lib/bitmap.c`)

A bitmap stands for the set of marked indices below `nbits` (`Bitmap.Represents`): the bits of
its last byte past `nbits` are set, and below `nbits` a bit is set exactly for the indices of the
set. `bitmap_create` makes a bitmap that stands for the empty set (`represents_create`);
`bitmap_mark` and `bitmap_unmark` add and remove their index, and `bitmap_alloc` adds the least
index below `nbits` that is not in the set, or returns `ENOSPC` when every one is in it
(`implements_call`). `bitmapCalls_refine` carries this over every sequence of calls.

The padding bits are what keep `bitmap_alloc`, which scans whole bytes, below `nbits`. All of it
needs `DIVROUNDUP(nbits, 8)` not to wrap (`Bitmap.Fits`): for the seven largest `unsigned` sizes
it is 0, and `bitmap_alloc` of a fresh bitmap returns `ENOSPC` with no index marked
(`bitmapAlloc_create_wraps`).
-/

namespace Os161

open Exec

namespace Bitmap

/-- `DIVROUNDUP(nbits, BITS_PER_WORD)` does not wrap. -/
def Fits (nbits : Nat) : Prop := nbits + (BITS_PER_WORD - 1) < 2 ^ 32

/-- Without a wrap, the bytes of the bitmap hold its `nbits` bits and fewer than a byte more. -/
theorem divroundup_bits {nbits : Nat} (hfit : Fits nbits) :
    nbits ≤ DIVROUNDUP nbits BITS_PER_WORD * BITS_PER_WORD ∧
      DIVROUNDUP nbits BITS_PER_WORD * BITS_PER_WORD < nbits + BITS_PER_WORD := by
  unfold Fits at hfit
  unfold DIVROUNDUP
  rw [Word.add_of_lt hfit]
  unfold BITS_PER_WORD
  omega

/-- The bitmap `b` stands for the set `m` of marked indices. -/
structure Represents (b : Bitmap) (m : Set Nat) : Prop where
  /-- The bits of the last byte past `nbits` are set. -/
  padding : ∀ i, b.nbits ≤ i → i < DIVROUNDUP b.nbits BITS_PER_WORD * BITS_PER_WORD →
    b.v i = true
  /-- Below `nbits`, `bitmap_isset` is membership. -/
  isset : ∀ i < b.nbits, bitmapIsset b i = true ↔ i ∈ m
  /-- Only indices below `nbits` are marked. -/
  lt : ∀ i ∈ m, i < b.nbits

variable {b : Bitmap} {m : Set Nat} {i : Nat}

/-- **A fresh bitmap has nothing marked.** -/
theorem represents_create (nbits : Nat) : Represents (bitmapCreate nbits) ∅ where
  padding _ hi _ := decide_eq_true hi
  isset _ hi := by
    simp only [bitmapCreate] at hi
    simp [bitmapIsset, bitmapCreate, Nat.not_le.mpr hi]
  lt _ h := absurd h (Set.notMem_empty _)

/-- Setting bit `i` below `nbits` marks `i`. -/
theorem Represents.mark (h : Represents b m) (hi : i < b.nbits) :
    Represents { b with v := Function.update b.v i true } (insert i m) where
  padding j hj hjw := by
    dsimp only at hj hjw ⊢
    rw [Function.update_of_ne (by omega)]
    exact h.padding j hj hjw
  isset j hj := by
    by_cases hji : j = i
    · subst hji
      simp [bitmapIsset]
    · simp only [bitmapIsset, Function.update_of_ne hji, Set.mem_insert_iff, hji, false_or]
      exact h.isset j hj
  lt j hj := by
    rcases hj with rfl | hj
    · exact hi
    · exact h.lt j hj

/-- Clearing bit `i` below `nbits` unmarks `i`. -/
theorem Represents.unmark (h : Represents b m) (hi : i < b.nbits) :
    Represents { b with v := Function.update b.v i false } (m \ {i}) where
  padding j hj hjw := by
    dsimp only at hj hjw ⊢
    rw [Function.update_of_ne (by omega)]
    exact h.padding j hj hjw
  isset j hj := by
    by_cases hji : j = i
    · subst hji
      simp [bitmapIsset]
    · simp only [bitmapIsset, Function.update_of_ne hji, Set.mem_sdiff, Set.mem_singleton_iff, hji,
        not_false_eq_true, and_true]
      exact h.isset j hj
  lt j hj := h.lt j hj.1

/-! ### The calls -/

/-- The calls of the bitmap interface. -/
inductive BitmapCall where
  | mark (index : Nat)
  | unmark (index : Nat)
  | alloc

/-- A call on the bitmap. `bitmap_mark` and `bitmap_unmark` return nothing; 0 stands for it. -/
def BitmapCall.impl : BitmapCall → Exec Int Bitmap Nat
  | .mark i => do bitmapMark i; pure 0
  | .unmark i => do bitmapUnmark i; pure 0
  | .alloc => bitmapAlloc

/-- What a call needs of the marked set: the `KASSERT`s of `bitmap_mark` and `bitmap_unmark`. -/
def BitmapCall.pre (nbits : Nat) : BitmapCall → Set Nat → Prop
  | .mark i, m => i < nbits ∧ i ∉ m
  | .unmark i, m => i < nbits ∧ i ∈ m
  | .alloc, _ => True

/-- What a call does to the marked set and returns: `bitmap_alloc` marks and returns the least
unmarked index below `nbits`, or returns `ENOSPC` when every index below `nbits` is marked. -/
def BitmapCall.post (nbits : Nat) : BitmapCall → Set Nat → Except Int Nat → Set Nat → Prop
  | .mark i, m, r, m' => r = .ok 0 ∧ m' = insert i m
  | .unmark i, m, r, m' => r = .ok 0 ∧ m' = m \ {i}
  | .alloc, m, r, m' =>
    (r = .error ENOSPC ∧ m' = m ∧ ∀ i < nbits, i ∈ m) ∨
      ∃ i < nbits, r = .ok i ∧ i ∉ m ∧ (∀ j < i, j ∈ m) ∧ m' = insert i m

/-- A bitmap of `nbits` bits that stands for a marked set. -/
def Abs (nbits : Nat) (b : Bitmap) (m : Set Nat) : Prop := b.nbits = nbits ∧ Represents b m

theorem implements_mark (nbits i : Nat) :
    Implements (Abs nbits) ((BitmapCall.mark i).pre nbits) ((BitmapCall.mark i).post nbits)
      (BitmapCall.mark i).impl := by
  rintro b m ⟨rfl, h⟩ ⟨hi, hm⟩
  -- the bit of an unmarked index is clear, so both `KASSERT`s hold
  have hv : b.v i = false := by
    simpa [bitmapIsset] using mt (h.isset i hi).mp hm
  refine ⟨.ok 0, { b with v := Function.update b.v i true }, _, ?_, ⟨rfl, rfl⟩, rfl, h.mark hi⟩
  exact attempt_of_ok (by simp [BitmapCall.impl, bitmapMark, bind_apply, hi, hv])

theorem implements_unmark (nbits i : Nat) :
    Implements (Abs nbits) ((BitmapCall.unmark i).pre nbits) ((BitmapCall.unmark i).post nbits)
      (BitmapCall.unmark i).impl := by
  rintro b m ⟨rfl, h⟩ ⟨hi, hm⟩
  have hv : b.v i = true := (h.isset i hi).mpr hm
  refine ⟨.ok 0, { b with v := Function.update b.v i false }, _, ?_, ⟨rfl, rfl⟩, rfl,
    h.unmark hi⟩
  exact attempt_of_ok (by simp [BitmapCall.impl, bitmapUnmark, bind_apply, hi, hv])

theorem implements_alloc {nbits : Nat} (hfit : Fits nbits) :
    Implements (Abs nbits) (BitmapCall.alloc.pre nbits) (BitmapCall.alloc.post nbits)
      BitmapCall.alloc.impl := by
  rintro b m ⟨rfl, h⟩ -
  obtain ⟨hcover, -⟩ := divroundup_bits hfit
  rcases hj : findClear b.v 0 (DIVROUNDUP b.nbits BITS_PER_WORD * BITS_PER_WORD) with _ | j
  · -- every byte is full: every index below `nbits` is marked
    have hall := findClear_eq_none hj
    refine ⟨.error ENOSPC, b, m, ?_, .inl ⟨rfl, rfl, fun i hi => ?_⟩, rfl, h⟩
    · exact attempt_of_err (by simp [BitmapCall.impl, bitmapAlloc, bind_apply, hj])
    · exact (h.isset i hi).mp (hall i (Nat.zero_le i) (by omega))
  · obtain ⟨-, hjw, hv, hbelow⟩ := findClear_spec hj
    -- the padding bits are set, so the clear bit found is below `nbits`
    have hjn : j < b.nbits := by
      by_contra hge
      rw [h.padding j (by omega) (by omega)] at hv
      exact Bool.noConfusion hv
    have hnot : j ∉ m := fun hm => by
      rw [← h.isset j hjn, bitmapIsset, hv] at hm
      exact Bool.noConfusion hm
    refine ⟨.ok j, { b with v := Function.update b.v j true }, _, ?_,
      .inr ⟨j, hjn, rfl, hnot, fun l hl => (h.isset l (by omega)).mp (hbelow l (by omega) hl),
        rfl⟩, rfl, h.mark hjn⟩
    exact attempt_of_ok (by simp [BitmapCall.impl, bitmapAlloc, bind_apply, hj, hjn])

/-- Every call implements its abstract operation. -/
theorem implements_call {nbits : Nat} (hfit : Fits nbits) (c : BitmapCall) :
    Implements (Abs nbits) (c.pre nbits) (c.post nbits) c.impl := by
  cases c with
  | mark i => exact implements_mark nbits i
  | unmark i => exact implements_unmark nbits i
  | alloc => exact implements_alloc hfit

/-- **The bitmap refines the set of marked indices.** From `bitmap_create(nbits)`, every
sequence of calls returns what the abstract calls return, and the bitmap it ends in stands for
the marked set the abstract calls end in (padding bits set, `bitmap_isset` below `nbits` is
membership), until a call's `KASSERT` fails. -/
theorem bitmapCalls_refine {nbits : Nat} (hfit : Fits nbits) (cs : List BitmapCall) :
    (∃ rs b m, runCalls BitmapCall.impl cs (bitmapCreate nbits) = .ok rs b ∧
        AbsRun (BitmapCall.pre nbits) (BitmapCall.post nbits) ∅ cs rs m ∧ Abs nbits b m) ∨
      ∃ cs₁ c cs₂ rs₁ b₁ m₁, cs = cs₁ ++ c :: cs₂ ∧
        runCalls BitmapCall.impl cs₁ (bitmapCreate nbits) = .ok rs₁ b₁ ∧
        AbsRun (BitmapCall.pre nbits) (BitmapCall.post nbits) ∅ cs₁ rs₁ m₁ ∧ Abs nbits b₁ m₁ ∧
        ¬c.pre nbits m₁ :=
  Implements.runCalls (implements_call hfit) ⟨rfl, represents_create nbits⟩ cs

end Bitmap

/-! ### When `DIVROUNDUP` wraps -/

/-- **`bitmap_alloc` of a fresh bitmap of one of the seven largest sizes returns `ENOSPC`**:
`nbits + 7` wraps, so the bitmap has no bytes to scan, while no index is marked. -/
theorem bitmapAlloc_create_wraps (nbits : Nat) (hbig : 2 ^ 32 - BITS_PER_WORD < nbits)
    (hu : nbits < 2 ^ 32) :
    bitmapAlloc (bitmapCreate nbits) = .error (.err ENOSPC) (bitmapCreate nbits) ∧
      bitmapIsset (bitmapCreate nbits) 0 = false := by
  have hzero : DIVROUNDUP nbits BITS_PER_WORD = 0 := by
    unfold DIVROUNDUP Word.add
    unfold BITS_PER_WORD at *
    omega
  constructor
  · simp [bitmapAlloc, bind_apply, hzero, bitmapCreate, findClear]
  · simp only [bitmapIsset, bitmapCreate, decide_eq_false_iff_not, Nat.not_le]
    omega

/-- A bitmap of `0xffffffff` bits. -/
theorem bitmapAlloc_create_wraps_max :
    bitmapAlloc (bitmapCreate (2 ^ 32 - 1)) = .error (.err ENOSPC) (bitmapCreate (2 ^ 32 - 1)) ∧
      bitmapIsset (bitmapCreate (2 ^ 32 - 1)) 0 = false :=
  bitmapAlloc_create_wraps _ (by decide) (by decide)

end Os161

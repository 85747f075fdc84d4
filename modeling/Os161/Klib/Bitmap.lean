import Os161.Include.Kern
import Os161.Lib.Bytes
import Os161.Lib.Exec

/-!
# Bitmaps (`lib/bitmap.c`)

A `struct bitmap` is `nbits` and an array of `DIVROUNDUP(nbits, 8)` bytes (`WORD_TYPE` is
`unsigned char`); bit `i` is bit `i % 8` of byte `i / 8` (`bitmap_translate`). The model keeps
the bits as a function of their index. `bitmap_create` marks the bits of the last byte past
`nbits` in use, so that `bitmap_alloc`, which returns the lowest clear bit of the array,
never hands them out.
-/

namespace Os161

open Exec

/-- `BITS_PER_WORD`. -/
def BITS_PER_WORD : Nat := 8

/-- `struct bitmap`: `nbits` and the bits of `v`. -/
structure Bitmap where
  nbits : Nat
  v : Nat → Bool

/-- The bits of a fresh bitmap (`bitmap_create` after its `kmalloc`s): clear below `nbits`,
set in the rest of the last byte. -/
def bitmapCreate (nbits : Nat) : Bitmap := { nbits, v := fun i => decide (nbits ≤ i) }

/-- The first clear bit among the `k` bits from `i` on. -/
def findClear (v : Nat → Bool) : Nat → Nat → Option Nat
  | _, 0 => none
  | i, k + 1 => if v i then findClear v (i + 1) k else some i

/-- `bitmap_alloc(b, &index)`: scanning the `maxix = DIVROUNDUP(nbits, BITS_PER_WORD)` bytes in
order and each byte from its low bit is scanning the bit indices in order. -/
def bitmapAlloc : Exec Int Bitmap Nat := do
  let b ← get
  match findClear b.v 0 (DIVROUNDUP b.nbits BITS_PER_WORD * BITS_PER_WORD) with
  | none => fail ENOSPC
  | some i => do
    set { b with v := Function.update b.v i true }
    assert (i < b.nbits)
    pure i

/-- `bitmap_mark(b, index)`. -/
def bitmapMark (index : Nat) : Exec Int Bitmap Unit := do
  let b ← get
  assert (index < b.nbits)
  assert (b.v index = false)
  set { b with v := Function.update b.v index true }

/-- `bitmap_unmark(b, index)`. -/
def bitmapUnmark (index : Nat) : Exec Int Bitmap Unit := do
  let b ← get
  assert (index < b.nbits)
  assert (b.v index = true)
  set { b with v := Function.update b.v index false }

/-- `bitmap_isset(b, index)`: no range check in the source. -/
def bitmapIsset (b : Bitmap) (index : Nat) : Bool := b.v index

/-- `bitmap_getdata(b)`: the bytes of the array, byte `k` holding the bits `8 * k + j`. -/
def bitmapGetdata (b : Bitmap) : Bytes.Buf := fun k =>
  Bytes.byteOfBits fun j => b.v (BITS_PER_WORD * k + j)

/-! ### What `bitmap_alloc` finds -/

theorem findClear_spec {v : Nat → Bool} {i k j : Nat} (h : findClear v i k = some j) :
    i ≤ j ∧ j < i + k ∧ v j = false ∧ ∀ l, i ≤ l → l < j → v l = true := by
  induction k generalizing i with
  | zero => simp [findClear] at h
  | succ k ih =>
    simp only [findClear] at h
    split at h
    · rename_i hv
      obtain ⟨h1, h2, h3, h4⟩ := ih h
      refine ⟨by omega, by omega, h3, fun l hl hlj => ?_⟩
      rcases Nat.eq_or_lt_of_le hl with rfl | hl'
      · exact hv
      · exact h4 l hl' hlj
    · rename_i hv
      cases h
      exact ⟨le_refl _, by omega, by simpa using hv, fun l hl hlj => absurd hlj (by omega)⟩

theorem findClear_eq_none {v : Nat → Bool} {i k : Nat} (h : findClear v i k = none) :
    ∀ l, i ≤ l → l < i + k → v l = true := by
  induction k generalizing i with
  | zero => intro l h1 h2; omega
  | succ k ih =>
    simp only [findClear] at h
    split at h
    · rename_i hv
      intro l hl hlk
      rcases Nat.eq_or_lt_of_le hl with rfl | hl'
      · exact hv
      · exact ih h l hl' (by omega)
    · cases h

/-- What `bitmap_alloc` does when it returns `i`: bit `i` was clear, is below `nbits`, and is now
set. -/
theorem bitmapAlloc_eq_ok {bm bm' : Bitmap} {i : Nat} (h : bitmapAlloc bm = .ok i bm') :
    bm.v i = false ∧ i < bm.nbits ∧ bm' = { bm with v := Function.update bm.v i true } := by
  simp only [bitmapAlloc, bind_apply, get_apply] at h
  rcases hj : findClear bm.v 0 (DIVROUNDUP bm.nbits BITS_PER_WORD * BITS_PER_WORD) with _ | j
  · simp [hj] at h
  · by_cases hlt : j < bm.nbits
    · simp only [hj, bind_apply, set_apply, assert_apply, hlt, if_true, pure_apply,
        EStateM.Result.ok.injEq] at h
      obtain ⟨rfl, rfl⟩ := h
      exact ⟨(findClear_spec hj).2.2.1, hlt, rfl⟩
    · simp [hj, bind_apply, hlt] at h

end Os161

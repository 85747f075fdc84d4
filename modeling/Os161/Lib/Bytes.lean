import Mathlib

/-!
# Byte buffers

A buffer is a function from positions to bytes; only the positions of the buffer are ever
read. Fixed-width fields are stored most significant byte first, as on a big-endian machine.

* `getBE b o n`: the `n`-byte number at `o`; `setBE b o n v`: store `v` there.
* `copy dst d src s len`: `memmove` of `len` bytes from `src + s` to `dst + d`; `copy_succ`
  is how a byte loop builds it, `copy_append` how two copies of adjacent runs make one.
* `slice b o n`: the `n` bytes at `o` as a list, what a copy is specified by (`slice_copy`).
* `getBE_setBE` (a stored field reads back modulo its width), `getBE_setBE_of_disjoint` and
  `getBE_congr` (a field only depends on its own bytes): what the decoders of on-disk
  structures use.
-/

namespace Bytes

/-- A byte buffer. -/
abbrev Buf := Nat → UInt8

/-- The buffer of zeros (`bzero`). -/
def zeros : Buf := fun _ => 0

/-- The byte whose bit `j` is `f j`, for `j < 8`. -/
def byteOfBits (f : Nat → Bool) : UInt8 := UInt8.ofNat (Nat.ofBits fun j : Fin 8 => f j)

/-- The `n`-byte big-endian number at position `o`. -/
def getBE (b : Buf) (o : Nat) : Nat → Nat
  | 0 => 0
  | n + 1 => (b o).toNat * 256 ^ n + getBE b (o + 1) n

/-- Store `v` (taken modulo `256 ^ n`) as an `n`-byte big-endian number at `o`. -/
def setBE (b : Buf) (o n v : Nat) : Buf := fun i =>
  if o ≤ i ∧ i < o + n then UInt8.ofNat (v / 256 ^ (o + n - 1 - i)) else b i

/-- `memmove(dst + d, src + s, len)`. -/
def copy (dst : Buf) (d : Nat) (src : Buf) (s len : Nat) : Buf := fun i =>
  if d ≤ i ∧ i < d + len then src (s + (i - d)) else dst i

@[simp] theorem zeros_apply (i : Nat) : zeros i = 0 := rfl

-- The equations of the definitions above, which the proofs below rewrite with.

theorem getBE_zero (b : Buf) (o : Nat) : getBE b o 0 = 0 := rfl

theorem getBE_succ (b : Buf) (o n : Nat) :
    getBE b o (n + 1) = (b o).toNat * 256 ^ n + getBE b (o + 1) n := rfl

theorem setBE_apply (b : Buf) (o n v i : Nat) :
    setBE b o n v i = if o ≤ i ∧ i < o + n then UInt8.ofNat (v / 256 ^ (o + n - 1 - i)) else b i :=
  rfl

theorem copy_apply (dst : Buf) (d : Nat) (src : Buf) (s len i : Nat) :
    copy dst d src s len i = if d ≤ i ∧ i < d + len then src (s + (i - d)) else dst i := rfl

theorem toNat_byteOfBits (f : Nat → Bool) :
    (byteOfBits f).toNat = Nat.ofBits fun j : Fin 8 => f j :=
  UInt8.toNat_ofNat_of_lt' (Nat.ofBits_lt_two_pow _)

/-- A byte built from bits gives them back. -/
theorem testBit_byteOfBits (f : Nat → Bool) {j : Nat} (hj : j < 8) :
    (byteOfBits f).toNat.testBit j = f j := by
  rw [toNat_byteOfBits, Nat.testBit_ofBits_lt _ _ hj]

/-! ### Reading fields -/

/-- A field only depends on its own bytes. -/
theorem getBE_congr {b b' : Buf} {o n : Nat} (h : ∀ i, o ≤ i → i < o + n → b i = b' i) :
    getBE b o n = getBE b' o n := by
  induction n generalizing o with
  | zero => rfl
  | succ n ih =>
    have h0 : b o = b' o := h o (Nat.le_refl o) (by omega)
    have hr : getBE b (o + 1) n = getBE b' (o + 1) n :=
      ih fun i hi hi' => h i (by omega) (by omega)
    rw [getBE_succ, getBE_succ, h0, hr]

@[simp] theorem getBE_zeros (o n : Nat) : getBE zeros o n = 0 := by
  induction n generalizing o with
  | zero => rfl
  | succ n ih => simp [getBE_succ, ih]

/-! ### Writing fields -/

theorem setBE_of_not_mem {b : Buf} {o n v i : Nat} (hi : i < o ∨ o + n ≤ i) :
    setBE b o n v i = b i := by
  rw [setBE_apply, if_neg (by omega)]

/-- **A stored field reads back**, modulo its width. -/
theorem getBE_setBE (b : Buf) (o n v : Nat) : getBE (setBE b o n v) o n = v % 256 ^ n := by
  induction n generalizing o with
  | zero => simp [getBE_zero, Nat.mod_one]
  | succ n ih =>
    -- the bytes after the first are those `setBE` stores for the `n`-byte field at `o + 1`
    have htail : getBE (setBE b o (n + 1) v) (o + 1) n = getBE (setBE b (o + 1) n v) (o + 1) n := by
      apply getBE_congr
      intro i hi hi'
      rw [setBE_apply, setBE_apply, if_pos (by omega), if_pos (by omega)]
      congr 3
      omega
    have hhead : (setBE b o (n + 1) v o).toNat = v / 256 ^ n % 256 := by
      rw [setBE_apply, if_pos (by omega), show o + (n + 1) - 1 - o = n by omega]
      simp
    simp only [getBE_succ, hhead, htail, ih, Nat.mod_pow_succ]
    rw [Nat.add_comm, Nat.mul_comm]

/-- Storing a field leaves every field that does not overlap it. -/
theorem getBE_setBE_of_disjoint (b : Buf) {o n o' n' : Nat} (v : Nat)
    (h : o' + n' ≤ o ∨ o + n ≤ o') : getBE (setBE b o n v) o' n' = getBE b o' n' :=
  getBE_congr fun _ hi hi' => setBE_of_not_mem (by omega)

/-! ### Copying -/

theorem copy_of_mem {dst src : Buf} {d s len i : Nat} (h1 : d ≤ i) (h2 : i < d + len) :
    copy dst d src s len i = src (s + (i - d)) := by
  rw [copy_apply, if_pos ⟨h1, h2⟩]

theorem copy_of_not_mem {dst src : Buf} {d s len i : Nat} (h : i < d ∨ d + len ≤ i) :
    copy dst d src s len i = dst i := by
  rw [copy_apply, if_neg (by omega)]

@[simp] theorem copy_zero (dst src : Buf) (d s : Nat) : copy dst d src s 0 = dst := by
  funext i
  exact copy_of_not_mem (by omega)

/-- A copy of `len + 1` bytes is the copy of `len` bytes and then the store of the last one:
how a byte loop builds it. -/
theorem copy_succ (dst src : Buf) (d s len : Nat) :
    copy dst d src s (len + 1) = Function.update (copy dst d src s len) (d + len) (src (s + len)) := by
  funext i
  by_cases hi : i = d + len
  · subst hi
    rw [Function.update_self, copy_of_mem (by omega) (by omega), Nat.add_sub_cancel_left]
  · rw [Function.update_of_ne hi]
    by_cases hin : d ≤ i ∧ i < d + len
    · rw [copy_of_mem hin.1 (by omega), copy_of_mem hin.1 hin.2]
    · rw [copy_of_not_mem (by omega), copy_of_not_mem (by omega)]

/-- Zeroing a run of bytes and then the run right after it zeroes both. -/
theorem copy_zeros_append (b : Buf) (d m n : Nat) :
    copy (copy b d zeros 0 m) (d + m) zeros 0 n = copy b d zeros 0 (m + n) := by
  funext i
  by_cases h1 : d ≤ i ∧ i < d + m
  · rw [copy_of_not_mem (by omega), copy_of_mem h1.1 h1.2, copy_of_mem h1.1 (by omega)]
  · by_cases h2 : d + m ≤ i ∧ i < d + m + n
    · rw [copy_of_mem h2.1 h2.2, copy_of_mem (by omega) (by omega), zeros_apply, zeros_apply]
    · rw [copy_of_not_mem (by omega), copy_of_not_mem (by omega), copy_of_not_mem (by omega)]

/-- Copying a run and then the run right after it copies both. -/
theorem copy_append (dst src : Buf) (d s m n : Nat) :
    copy (copy dst d src s m) (d + m) src (s + m) n = copy dst d src s (m + n) := by
  funext i
  by_cases h1 : d ≤ i ∧ i < d + m
  · rw [copy_of_not_mem (by omega), copy_of_mem h1.1 h1.2, copy_of_mem h1.1 (by omega)]
  · by_cases h2 : d + m ≤ i ∧ i < d + m + n
    · rw [copy_of_mem h2.1 h2.2, copy_of_mem (by omega) (by omega)]
      congr 1
      omega
    · rw [copy_of_not_mem (by omega), copy_of_not_mem (by omega), copy_of_not_mem (by omega)]

/-! ### Runs of bytes -/

/-- The `n` bytes at `o`, in order. -/
def slice (b : Buf) (o n : Nat) : List UInt8 := (List.range n).map fun i => b (o + i)

theorem slice_eq_map (b : Buf) (o n : Nat) : slice b o n = (List.range n).map fun i => b (o + i) :=
  rfl

@[simp] theorem length_slice (b : Buf) (o n : Nat) : (slice b o n).length = n := by
  simp [slice_eq_map]

@[simp] theorem slice_zero (b : Buf) (o : Nat) : slice b o 0 = [] := rfl

theorem slice_add (b : Buf) (o m n : Nat) :
    slice b o (m + n) = slice b o m ++ slice b (o + m) n := by
  simp [slice_eq_map, List.range_add, Nat.add_assoc]

/-- A run only depends on its own bytes. -/
theorem slice_congr {b b' : Buf} {o n : Nat} (h : ∀ i, o ≤ i → i < o + n → b i = b' i) :
    slice b o n = slice b' o n := by
  simp only [slice_eq_map, List.map_inj_left, List.mem_range]
  intro i hi
  exact h (o + i) (by omega) (by omega)

theorem slice_take (b : Buf) (o : Nat) {m n : Nat} (h : m ≤ n) :
    (slice b o n).take m = slice b o m := by
  obtain ⟨k, rfl⟩ : ∃ k, n = m + k := ⟨n - m, by omega⟩
  rw [slice_add, List.take_left' (length_slice _ _ _)]

theorem slice_drop (b : Buf) (o m n : Nat) : (slice b o n).drop m = slice b (o + m) (n - m) := by
  rcases Nat.le_total m n with h | h
  · obtain ⟨k, rfl⟩ : ∃ k, n = m + k := ⟨n - m, by omega⟩
    rw [slice_add, List.drop_left' (length_slice _ _ _), Nat.add_sub_cancel_left]
  · rw [List.drop_eq_nil_of_le (by simpa using h), Nat.sub_eq_zero_of_le h, slice_zero]

/-- **A copy puts the source's run at the destination.** -/
theorem slice_copy (dst src : Buf) (d s n : Nat) : slice (copy dst d src s n) d n = slice src s n := by
  simp only [slice_eq_map, List.map_inj_left, List.mem_range]
  intro i hi
  rw [copy_of_mem (by omega) (by omega), Nat.add_sub_cancel_left]

/-- A copy leaves every run it does not reach. -/
theorem slice_copy_of_disjoint (dst src : Buf) {d s len o n : Nat} (h : o + n ≤ d ∨ d + len ≤ o) :
    slice (copy dst d src s len) o n = slice dst o n :=
  slice_congr fun _ hi hi' => copy_of_not_mem (by omega)

/-- A list of bytes read as a buffer from position 0 reads back. -/
theorem slice_getD (l : List UInt8) : slice (fun j => l.getD j 0) 0 l.length = l := by
  apply List.ext_getElem (by simp)
  intro i h₁ h₂
  simp [slice_eq_map, List.getD_eq_getElem?_getD, List.getElem?_eq_getElem h₂]

end Bytes

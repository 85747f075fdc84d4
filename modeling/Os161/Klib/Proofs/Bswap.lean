import Os161.Klib.Bswap
import Os161.Lib.ByteOrder
import Mathlib.Tactic.IntervalCases

/-!
# `bswap64` does not reverse its bytes

Each masked shift of a byte swap moves one byte (`BitVec.byte_and_shiftLeft`,
`BitVec.byte_and_ushiftRight`), so where every byte of the result comes from can be read off
the masks and shift amounts. `bswap16` and `bswap32` reverse their bytes. In `bswap64`, bytes 4
and 5 are shifted left by 8 and 24 where the reversal shifts them right: byte 4 lands in byte 5,
on byte 2, and byte 5 leaves the word (`byte_bswap64`). Bytes 2 and 3 of the result are 0, and
`bswap64` undoes itself only on the words whose bytes 2 to 5 are 0
(`bswap64_misplaces_bytes`).
-/

namespace Os161

open BitVec

/-! ### `bswap16` and `bswap32` -/

/-- **`bswap16` reverses the two bytes.** -/
theorem bswap16_reverses : ReversesBytes 2 bswap16 := by
  intro x k hk
  simp only [bswap16, byte_or]
  rw [byte_and_shiftLeft x 0 1 (by decide) rfl (by omega),
    byte_and_ushiftRight x 1 1 (by decide) rfl (by decide) k]
  interval_cases k <;> simp

/-- **`bswap32` reverses the four bytes.** -/
theorem bswap32_reverses : ReversesBytes 4 bswap32 := by
  intro x k hk
  simp only [bswap32, byte_or]
  rw [byte_and_shiftLeft x 0 3 (by decide) rfl (by omega),
    byte_and_shiftLeft x 1 1 (by decide) rfl (by omega),
    byte_and_ushiftRight x 2 1 (by decide) rfl (by decide) k,
    byte_and_ushiftRight x 3 3 (by decide) rfl (by decide) k]
  interval_cases k <;> simp

theorem bswap16_bswap16 (x : BitVec 16) : bswap16 (bswap16 x) = x :=
  ReversesBytes.involutive (n := 2) rfl bswap16_reverses x

theorem bswap32_bswap32 (x : BitVec 32) : bswap32 (bswap32 x) = x :=
  ReversesBytes.involutive (n := 4) rfl bswap32_reverses x

/-! ### `join32to64` and `split64to32` -/

/-- **`split64to32` undoes `join32to64`.** -/
theorem split64to32_join32to64 (a b : BitVec 32) : split64to32 (join32to64 a b) = (a, b) := by
  have hmask : (0xffffffff : ℕ) = 2 ^ 32 - 1 := rfl
  simp only [split64to32, join32to64, Prod.mk.injEq]
  constructor
  · -- the high word: bits 32 to 63, all of them from `a`
    apply eq_of_getLsbD_eq
    intro i hi
    have hhi : 32 + i - 32 = i := by omega
    simp only [getLsbD_setWidth, getLsbD_ushiftRight, getLsbD_or, getLsbD_shiftLeft, hhi, hi,
      show 32 + i < 64 by omega, show i < 64 by omega, show ¬32 + i < 32 by omega,
      getLsbD_of_ge b (32 + i) (by omega), decide_true, decide_false, Bool.true_and,
      Bool.not_false, Bool.or_false]
  · -- the low word: bits 0 to 31, all of them from `b`
    apply eq_of_getLsbD_eq
    intro i hi
    simp only [getLsbD_setWidth, getLsbD_and, getLsbD_or, getLsbD_shiftLeft, getLsbD_ofNat, hmask,
      Nat.testBit_two_pow_sub_one, hi, show i < 64 by omega, decide_true, Bool.true_and,
      Bool.and_false, Bool.false_or, Bool.and_true, Bool.not_true, Bool.false_and]

/-- **`join32to64` undoes `split64to32`.** -/
theorem join32to64_split64to32 (x : BitVec 64) :
    join32to64 (split64to32 x).1 (split64to32 x).2 = x := by
  have hmask : (0xffffffff : ℕ) = 2 ^ 32 - 1 := rfl
  simp only [split64to32, join32to64]
  apply eq_of_getLsbD_eq
  intro i hi
  simp only [getLsbD_setWidth, getLsbD_or, getLsbD_shiftLeft, getLsbD_ushiftRight, getLsbD_and,
    getLsbD_ofNat, hmask, Nat.testBit_two_pow_sub_one, hi, decide_true, Bool.true_and]
  by_cases h : i < 32
  · simp [h]
  · -- bit `i` of the high word, `i - 32` of `(x >>> 32).setWidth 32`
    have hh : 32 + (i - 32) = i := by omega
    simp [h, hh, show i - 32 < 32 by omega, show i - 32 < 64 by omega]

/-- Bytes 0 to 3 of `join32to64 a b` are those of `b`, bytes 4 to 7 those of `a`. -/
theorem byte_join32to64 (a b : BitVec 32) {k : ℕ} (hk : k < 8) :
    (join32to64 a b).byte k = if k < 4 then b.byte k else a.byte (k - 4) := by
  apply eq_of_getLsbD_eq
  intro t ht
  simp only [getLsbD_byte, join32to64, getLsbD_or, getLsbD_shiftLeft, getLsbD_setWidth, ht,
    decide_true, Bool.true_and]
  split
  · rename_i hk4
    simp only [getLsbD_byte, ht, decide_true, Bool.true_and, show 8 * k + t < 32 by omega,
      show 8 * k + t < 64 by omega, decide_true, Bool.not_true, Bool.false_and, Bool.false_or]
  · rename_i hk4
    have hidx : 8 * k + t - 32 = 8 * (k - 4) + t := by omega
    simp only [getLsbD_byte, ht, decide_true, Bool.true_and, hidx, show 8 * k + t < 64 by omega,
      show ¬8 * k + t < 32 by omega, show 8 * (k - 4) + t < 64 by omega, decide_false,
      Bool.not_false, getLsbD_of_ge b (8 * k + t) (by omega), Bool.or_false]

/-- **What a byte reversal of 64-bit words does to a joined pair**: it joins the two words
swapped, in the other order. -/
theorem ReversesBytes.join32to64 {f : BitVec 64 → BitVec 64} (hf : ReversesBytes 8 f)
    (a b : BitVec 32) : f (join32to64 a b) = join32to64 (bswap32 b) (bswap32 a) := by
  apply eq_of_byte_eq (n := 8) rfl
  intro k hk
  rw [hf _ k hk, byte_join32to64 _ _ (by omega), byte_join32to64 _ _ hk]
  by_cases hk4 : k < 4
  · -- byte `k` of the result is byte `3 - k` of `a`, swapped into place by `bswap32 a`
    rw [if_neg (by omega), if_pos hk4, bswap32_reverses a k hk4]
    congr 1
    omega
  · rw [if_pos (by omega), if_neg hk4, bswap32_reverses b (k - 4) (by omega)]
    congr 1
    omega

/-! ### `bswap64` -/

/-- **Where each byte of `bswap64 x` comes from**, one term of the or for each mask: byte `j`
of `x` lands in byte `j + d` or `j - d`. The fifth and sixth terms shift left, putting byte 4
in byte 5 and byte 5 in byte 8, past the word. -/
theorem byte_bswap64 (x : BitVec 64) {k : ℕ} (hk : k < 8) :
    (bswap64 x).byte k =
      ((if k = 7 then x.byte 0 else 0) ||| (if k = 6 then x.byte 1 else 0)
        ||| (if k = 5 then x.byte 2 else 0) ||| (if k = 4 then x.byte 3 else 0)
        ||| (if k = 5 then x.byte 4 else 0) ||| (if k = 8 then x.byte 5 else 0)
        ||| (if k = 1 then x.byte 6 else 0) ||| (if k = 0 then x.byte 7 else 0)) := by
  simp only [bswap64, byte_or]
  rw [byte_and_shiftLeft x 0 7 (by decide) rfl (by omega),
    byte_and_shiftLeft x 1 5 (by decide) rfl (by omega),
    byte_and_shiftLeft x 2 3 (by decide) rfl (by omega),
    byte_and_shiftLeft x 3 1 (by decide) rfl (by omega),
    byte_and_shiftLeft x 4 1 (by decide) rfl (by omega),
    byte_and_shiftLeft x 5 3 (by decide) rfl (by omega),
    byte_and_ushiftRight x 6 5 (by decide) rfl (by decide) k,
    byte_and_ushiftRight x 7 7 (by decide) rfl (by decide) k]
  have h6 : (k + 5 = 6) = (k = 1) := by simp only [eq_iff_iff]; omega
  have h7 : (k + 7 = 7) = (k = 0) := by simp only [eq_iff_iff]; omega
  simp only [h6, h7, Nat.reduceAdd]

/-- `bswap64` is not a byte reversal: on `0x0000010000000000`, byte 2 of the result is 0 where
the reversal has byte 5, which is 1. -/
theorem bswap64_not_reverses : ¬ReversesBytes 8 bswap64 := by
  intro h
  have h2 := h 0x0000010000000000#64 2 (by decide)
  rw [byte_bswap64 _ (by decide)] at h2
  simp only [OfNat.ofNat_ne_zero, if_false, Nat.reduceEqDiff] at h2
  exact absurd h2 (by decide)

/-- **`bswap64` does not reverse the bytes of a word.** For every `x`, the bytes of `bswap64 x`,
from the least significant, are bytes 7, 6, none, none, 3, 2 or 4, 1 and 0 of `x`, where the
reversal has bytes 5 and 4 in the third and fourth place and byte 2 alone in the sixth; and
`bswap64 (bswap64 x) = x` holds exactly when bytes 2 to 5 of `x` are 0. -/
theorem bswap64_misplaces_bytes (x : BitVec 64) :
    (List.range 8).map (bswap64 x).byte =
        [x.byte 7, x.byte 6, 0, 0, x.byte 3, x.byte 2 ||| x.byte 4, x.byte 1, x.byte 0] ∧
      (bswap64 (bswap64 x) = x ↔
        x.byte 2 = 0 ∧ x.byte 3 = 0 ∧ x.byte 4 = 0 ∧ x.byte 5 = 0) := by
  have hrange : List.range 8 = [0, 1, 2, 3, 4, 5, 6, 7] := rfl
  refine ⟨?_, ?_⟩
  · simp [hrange, byte_bswap64]
  constructor
  · -- bytes 2 to 5 of `bswap64 (bswap64 x)` are 0, 0, 0 and byte 3 of `x`
    intro h
    have hb : ∀ k, (bswap64 (bswap64 x)).byte k = x.byte k := fun k => by rw [h]
    have h2 := hb 2
    have h3 := hb 3
    have h4 := hb 4
    have h5 := hb 5
    simp [byte_bswap64] at h2 h3 h4 h5
    exact ⟨h2.symm, h3.symm, h4.symm, h5.symm.trans h3.symm⟩
  · rintro ⟨h2, h3, h4, h5⟩
    apply eq_of_byte_eq (n := 8) rfl
    intro k hk
    interval_cases k <;> simp [byte_bswap64, h2, h3, h4, h5]

/-- On `0x0102030405060708`, `bswap64` gives `0x0807060500000201`, not `0x0807060504030201`,
and a second `bswap64` does not give the word back. -/
theorem bswap64_misplaces_bytes_sample :
    bswap64 0x0102030405060708#64 = 0x0807060500000201#64 ∧
      bswap64 (bswap64 0x0102030405060708#64) ≠ 0x0102030405060708#64 := by
  refine ⟨by decide, fun h => ?_⟩
  have h2 := ((bswap64_misplaces_bytes 0x0102030405060708#64).2.mp h).1
  exact absurd h2 (by decide)

end Os161

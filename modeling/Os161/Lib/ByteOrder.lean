import Mathlib.Data.BitVec

/-!
# The bytes of a word

`x.byte k` is byte `k` of a bit vector, counting from the least significant; two words of whole
bytes are equal when all their bytes are (`BitVec.eq_of_byte_eq`).

A byte swap written as an or of masked shifts moves each byte on its own: masking `x` with
`0xff << 8j` keeps byte `j`, and shifting that left by `8d` puts it at byte `j + d`
(`BitVec.byte_and_shiftLeft`), right by `8d` at byte `j - d` (`BitVec.byte_and_ushiftRight`).
`ReversesBytes f` says that byte `k` of `f x` is byte `n - 1 - k` of `x`; such an `f` undoes
itself (`ReversesBytes.involutive`).
-/

namespace BitVec

variable {w : ℕ}

/-- Byte `k` of `x`, counting from the least significant. -/
def byte (x : BitVec w) (k : ℕ) : BitVec 8 := x.extractLsb' (8 * k) 8

theorem getLsbD_byte (x : BitVec w) (k t : ℕ) :
    (x.byte k).getLsbD t = (decide (t < 8) && x.getLsbD (8 * k + t)) :=
  getLsbD_extractLsb' _ _ x t

theorem byte_or (x y : BitVec w) (k : ℕ) : (x ||| y).byte k = x.byte k ||| y.byte k :=
  extractLsb'_or

/-- **Words of `n` bytes are equal when their bytes are.** -/
theorem eq_of_byte_eq {n : ℕ} (hw : w = 8 * n) {x y : BitVec w}
    (h : ∀ k < n, x.byte k = y.byte k) : x = y := by
  apply eq_of_getLsbD_eq
  intro i hi
  have hk : i / 8 < n := by omega
  have hbit := congrArg (fun b : BitVec 8 => b.getLsbD (i % 8)) (h (i / 8) hk)
  simp only [getLsbD_byte, Nat.mod_lt i (by omega : 0 < 8), decide_true, Bool.true_and,
    Nat.div_add_mod] at hbit
  exact hbit

/-- The mask `0xff << 8j` keeps the bits of byte `j`. -/
theorem testBit_byteMask {m j i : ℕ} (hm : m = 0xff * 2 ^ (8 * j)) :
    m.testBit i = (decide (8 * j ≤ i) && decide (i < 8 * j + 8)) := by
  have h255 : (0xff : ℕ) = 2 ^ 8 - 1 := rfl
  rw [hm, Nat.testBit_mul_two_pow, h255, Nat.testBit_two_pow_sub_one]
  by_cases hji : 8 * j ≤ i
  · simp only [hji, decide_true, Bool.true_and, decide_eq_decide]
    omega
  · simp only [hji, decide_false, Bool.false_and]

/-- **A masked left shift moves one byte.** Masking with `0xff << 8j` and shifting left by `8d`
puts byte `j` at byte `j + d`, and leaves every other byte within the word 0. -/
theorem byte_and_shiftLeft (x : BitVec w) {m : ℕ} (j d : ℕ) {s : ℕ}
    (hm : m = 0xff * 2 ^ (8 * j)) (hs : s = 8 * d) {k : ℕ} (hk : 8 * k + 8 ≤ w) :
    ((x &&& BitVec.ofNat w m) <<< s).byte k = if k = j + d then x.byte j else 0 := by
  apply eq_of_getLsbD_eq
  intro t ht
  split
  · rename_i hjd
    simp only [getLsbD_byte, getLsbD_shiftLeft, getLsbD_and, getLsbD_ofNat, testBit_byteMask hm]
    -- bit `t` of byte `j + d` comes from bit `t` of byte `j`
    have hidx : 8 * k + t - s = 8 * j + t := by omega
    simp only [hidx, ht, decide_true, Bool.true_and]
    by_cases hx : x.getLsbD (8 * j + t)
    · simp only [hx, Bool.true_and, Bool.and_eq_true, decide_eq_true_eq, Bool.not_eq_true',
        decide_eq_false_iff_not]
      omega
    · simp [hx]
  · rename_i hjd
    -- no bit of `x` lands in another byte
    rw [show (0 : BitVec 8).getLsbD t = false by simp, Bool.eq_false_iff]
    intro hbit
    simp only [getLsbD_byte, getLsbD_shiftLeft, getLsbD_and, getLsbD_ofNat, testBit_byteMask hm,
      Bool.and_eq_true, decide_eq_true_eq, Bool.not_eq_true', decide_eq_false_iff_not] at hbit
    omega

/-- **A masked right shift moves one byte.** Masking with `0xff << 8j` and shifting right by
`8d` puts byte `j` at byte `j - d`, for `d ≤ j`, and leaves every other byte 0. -/
theorem byte_and_ushiftRight (x : BitVec w) {m : ℕ} (j d : ℕ) {s : ℕ}
    (hm : m = 0xff * 2 ^ (8 * j)) (hs : s = 8 * d) (hj : 8 * j + 8 ≤ w) (k : ℕ) :
    ((x &&& BitVec.ofNat w m) >>> s).byte k = if k + d = j then x.byte j else 0 := by
  apply eq_of_getLsbD_eq
  intro t ht
  split
  · rename_i hjd
    simp only [getLsbD_byte, getLsbD_ushiftRight, getLsbD_and, getLsbD_ofNat, testBit_byteMask hm]
    -- bit `t` of byte `j - d` comes from bit `t` of byte `j`
    have hidx : s + (8 * k + t) = 8 * j + t := by omega
    simp only [hidx, ht, decide_true, Bool.true_and]
    by_cases hx : x.getLsbD (8 * j + t)
    · simp only [hx, Bool.true_and, Bool.and_eq_true, decide_eq_true_eq]
      omega
    · simp [hx]
  · rename_i hjd
    rw [show (0 : BitVec 8).getLsbD t = false by simp, Bool.eq_false_iff]
    intro hbit
    simp only [getLsbD_byte, getLsbD_ushiftRight, getLsbD_and, getLsbD_ofNat, testBit_byteMask hm,
      Bool.and_eq_true, decide_eq_true_eq] at hbit
    omega

end BitVec

/-- `f` reverses the order of the `n` bytes of a word. -/
def ReversesBytes {w : ℕ} (n : ℕ) (f : BitVec w → BitVec w) : Prop :=
  ∀ x, ∀ k < n, (f x).byte k = x.byte (n - 1 - k)

/-- **Reversing the bytes twice gives the word back.** -/
theorem ReversesBytes.involutive {w n : ℕ} {f : BitVec w → BitVec w} (hw : w = 8 * n)
    (h : ReversesBytes n f) (x : BitVec w) : f (f x) = x := by
  apply BitVec.eq_of_byte_eq hw
  intro k hk
  rw [h (f x) k hk, h x (n - 1 - k) (by omega)]
  congr 1
  omega

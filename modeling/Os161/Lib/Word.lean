import Mathlib

/-!
# Unsigned machine words

C converts an integer to an unsigned type of `w` bits by reducing it modulo `2 ^ w`; unsigned
arithmetic wraps the same way. Here the value of an unsigned word is a natural number below
`2 ^ w` and `ofInt w x` is the conversion of the integer `x`.

* `ofInt`, `sub`, `add`: conversion, wrapping subtraction and addition.
* `ofInt_of_lt`, `sub_of_le`, `add_of_lt`: where no wrap happens, they are the plain
  operations.
* `toInt`: the value of a signed `w`-bit integer that two's complement arithmetic leaves, and
  `toInt_of_lt`: a value in range is itself.
-/

namespace Word

/-- `(uintW_t) x`: the integer `x` reduced modulo `2 ^ w`. -/
def ofInt (w : Nat) (x : Int) : Nat := (x % 2 ^ w).toNat

/-- `a - b` in unsigned `w`-bit arithmetic. -/
def sub (w a b : Nat) : Nat := ofInt w ((a : Int) - b)

/-- `a + b` in unsigned `w`-bit arithmetic. -/
def add (w a b : Nat) : Nat := (a + b) % 2 ^ w

theorem ofInt_lt (w : Nat) (x : Int) : ofInt w x < 2 ^ w := by
  have hpos : (0 : Int) < 2 ^ w := by positivity
  have h1 := Int.emod_nonneg x hpos.ne'
  have h2 := Int.emod_lt_of_pos x hpos
  have hc : ((2 ^ w : Nat) : Int) = 2 ^ w := by norm_cast
  unfold ofInt
  omega

theorem ofInt_of_lt {w : Nat} {x : Int} (h0 : 0 ≤ x) (h : x < 2 ^ w) : ofInt w x = x.toNat := by
  unfold ofInt
  rw [Int.emod_eq_of_lt h0 h]

@[simp] theorem ofInt_natCast_of_lt {w n : Nat} (h : n < 2 ^ w) : ofInt w n = n := by
  rw [ofInt_of_lt (by omega) (by exact_mod_cast h)]
  rfl

@[simp] theorem ofInt_zero (w : Nat) : ofInt w 0 = 0 := by
  simp [ofInt]

theorem sub_of_le {w a b : Nat} (hb : b ≤ a) (ha : a < 2 ^ w) : sub w a b = a - b := by
  have hc : ((2 ^ w : Nat) : Int) = 2 ^ w := by norm_cast
  unfold sub
  rw [ofInt_of_lt (by omega) (by omega)]
  omega

theorem add_of_lt {w a b : Nat} (h : a + b < 2 ^ w) : add w a b = a + b :=
  Nat.mod_eq_of_lt h

/-- `(intW_t) x`: the integer `x` reduced to the range `[-2^(w-1), 2^(w-1))` of a signed `w`-bit
integer, as two's complement arithmetic wraps. -/
def toInt (w : Nat) (x : Int) : Int :=
  if (ofInt w x : Int) < 2 ^ (w - 1) then ofInt w x else ofInt w x - 2 ^ w

theorem toInt_of_lt {w : Nat} {x : Int} (h0 : 0 ≤ x) (h : x < 2 ^ (w - 1)) : toInt w x = x := by
  have hle : (2 : Int) ^ (w - 1) ≤ 2 ^ w := pow_le_pow_right₀ (by norm_num) (Nat.sub_le w 1)
  have hc : ((2 ^ w : Nat) : Int) = 2 ^ w := by norm_cast
  have hx : (ofInt w x : Int) = x := by
    rw [ofInt_of_lt h0 (by omega)]
    omega
  simp only [toInt, hx, h, if_true]

end Word

import Mathlib.Data.List.Basic
import Mathlib.Order.Basic

/-!
# Ring buffers

A ring buffer keeps its elements in `s` slots, from a read index `r` on, going round, up to a
write index `w`; the code computes the next index as `(i + 1) % s`. Here the slot `k` places
after `r` is `idx s r k`, written as a sum that wraps at most once, so that facts about indices
close by `omega`; `idx_eq_mod` says it is the code's `%`. `dist s r w` is the number of
elements, and `window cell s r c` the contents of the `c` slots from `r` on, for any way `cell`
of reading a slot.

* `idx_dist`, `dist_idx`: the write index is `dist` places after the read index;
* `window_push`: writing the slot at the write index and moving it on appends that slot;
* `window_pop`: moving the read index on drops the first slot;
* `window_congr`: the contents read only the slots in the window.
-/

namespace Ring

variable {β : Type*} {s r w k c : ℕ}

/-- The slot `k` places after `r` in a ring of `s` slots, for `r < s` and `k ≤ s`. -/
def idx (s r k : ℕ) : ℕ := if r + k < s then r + k else r + k - s

/-- The number of slots from `r` on before `w`. -/
def dist (s r w : ℕ) : ℕ := if r ≤ w then w - r else w + s - r

/-- The contents of the `c` slots from `r` on, in order. -/
def window (cell : ℕ → β) (s r : ℕ) : ℕ → List β
  | 0 => []
  | c + 1 => window cell s r c ++ [cell (idx s r c)]

theorem idx_lt (hr : r < s) (hk : k ≤ s) : idx s r k < s := by
  unfold idx
  split <;> omega

/-- The one-wrap sum is the code's `(r + k) % s`. -/
theorem idx_eq_mod (hr : r < s) (hk : k ≤ s) : idx s r k = (r + k) % s := by
  unfold idx
  split
  · rename_i h
    exact (Nat.mod_eq_of_lt h).symm
  · rename_i h
    rw [Nat.mod_eq_sub_mod (by omega), Nat.mod_eq_of_lt (by omega)]

@[simp] theorem idx_zero (hr : r < s) : idx s r 0 = r := by
  simp [idx, hr]

/-- Different places before a whole turn are different slots. -/
theorem idx_ne {a b : ℕ} (hab : a < b) (hb : b < s) : idx s r a ≠ idx s r b := by
  unfold idx
  split <;> split <;> omega

/-- One place after `k` places is `k + 1` places. -/
theorem idx_idx_one (hr : r < s) (hk : k < s) : idx s (idx s r k) 1 = idx s r (k + 1) := by
  unfold idx
  split <;> split <;> split <;> omega

/-- `k` places after the next slot is `k + 1` places. -/
theorem idx_one_idx (hr : r < s) (hk : k < s) : idx s (idx s r 1) k = idx s r (k + 1) := by
  unfold idx
  split <;> split <;> split <;> omega

theorem dist_lt (hr : r < s) (hw : w < s) : dist s r w < s := by
  unfold dist
  split <;> omega

/-- The write index is `dist` places after the read index. -/
theorem idx_dist (hr : r < s) (hw : w < s) : idx s r (dist s r w) = w := by
  unfold idx dist
  split <;> split <;> omega

theorem dist_idx (hr : r < s) (hk : k < s) : dist s r (idx s r k) = k := by
  unfold idx dist
  split <;> split <;> omega

@[simp] theorem dist_self : dist s r r = 0 := by
  simp [dist]

theorem dist_eq_zero_iff (hr : r < s) : dist s r w = 0 ↔ w = r := by
  unfold dist
  split <;> omega

/-- The next write index is the read index exactly when the ring is full, with `s - 1` elements. -/
theorem idx_one_eq_iff (hr : r < s) (hw : w < s) : idx s w 1 = r ↔ dist s r w + 1 = s := by
  unfold idx dist
  split <;> split <;> omega

/-- Moving the write index on adds one element, unless the ring is full. -/
theorem dist_push (hr : r < s) (hw : w < s) (h : dist s r w + 1 < s) :
    dist s r (idx s w 1) = dist s r w + 1 := by
  unfold dist at h
  unfold idx dist
  split_ifs at h ⊢ <;> omega

/-- Moving the read index on removes one element. -/
theorem dist_pop (hr : r < s) (hw : w < s) (h : w ≠ r) :
    dist s (idx s r 1) w + 1 = dist s r w := by
  unfold idx dist
  split <;> split <;> split <;> omega

@[simp] theorem length_window (cell : ℕ → β) (s r c : ℕ) : (window cell s r c).length = c := by
  induction c with
  | zero => rfl
  | succ c ih => simp [window, ih]

/-- The `k`-th element is the slot `k` places on. -/
theorem getElem?_window (cell : ℕ → β) (hk : k < c) :
    (window cell s r c)[k]? = some (cell (idx s r k)) := by
  induction c with
  | zero => omega
  | succ c ih =>
    simp only [window]
    rcases Nat.lt_succ_iff_lt_or_eq.mp hk with hk | rfl
    · rw [List.getElem?_append_left (by simpa using hk)]
      exact ih hk
    · simp

/-- **The contents read only the slots of the window.** -/
theorem window_congr {cell cell' : ℕ → β} (h : ∀ k < c, cell' (idx s r k) = cell (idx s r k)) :
    window cell' s r c = window cell s r c := by
  induction c with
  | zero => rfl
  | succ c ih =>
    simp only [window]
    rw [ih fun k hk => h k (by omega), h c (by omega)]

/-- **Push**: with the slot at the write index `idx s r c` set, one more slot holds it. -/
theorem window_push {cell cell' : ℕ → β} {x : β}
    (h : ∀ k < c, cell' (idx s r k) = cell (idx s r k)) (hx : cell' (idx s r c) = x) :
    window cell' s r (c + 1) = window cell s r c ++ [x] := by
  simp only [window]
  rw [window_congr h, hx]

/-- **Pop**: the first slot, then the window from the next slot. -/
theorem window_pop (cell : ℕ → β) (hr : r < s) (hc : c < s) :
    window cell s r (c + 1) = cell r :: window cell s (idx s r 1) c := by
  induction c with
  | zero => simp [window, hr]
  | succ c ih =>
    rw [window, ih (by omega), window, idx_one_idx hr (by omega)]
    rfl

end Ring

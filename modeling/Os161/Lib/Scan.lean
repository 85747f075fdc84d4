import Mathlib.Data.List.DropRight

/-!
# Reading a stream until a stop, into the cells of a memory

A loop that takes one item of its input at a time and decides, from the item and its state,
whether to go on or to stop (`Scan.run`): it ends with its state and the input it did not read,
or with `none` when the input runs out before an item stops it. `Scan.run_map` carries a
simulation through a whole run: when an abstraction function commutes with one step and an
invariant is kept, the run of the concrete loop maps to the run of the abstract one. An input
that ends with an item every state stops at is read to a stop (`Scan.run_append_isSome`).

`Cells.take b n` is the list of the first `n` cells of a memory `b`, as a C string held in a
buffer of which `n` cells are in use; writing at or past `n` leaves it as it is, and going back
one cell drops its last element. Going back while the last cell satisfies `p` leaves
`List.rdropWhile p` of it (`Cells.take_popWhile`).
-/

namespace Scan

variable {α σ τ : Type*}

/-- Feed the items of the input to `step` until it says to stop; the state then and the items
not read, or `none` if the input runs out first. -/
def run (step : α → σ → Bool × σ) : List α → σ → Option (σ × List α)
  | [], _ => none
  | a :: as, s => if (step a s).1 then some ((step a s).2, as) else run step as (step a s).2

variable {step : α → σ → Bool × σ}

@[simp]
theorem run_nil (s : σ) : run step [] s = none := rfl

theorem run_cons (a : α) (as : List α) (s : σ) :
    run step (a :: as) s = if (step a s).1 then some ((step a s).2, as) else run step as (step a s).2 :=
  rfl

/-- **Simulation over a whole run.** If `f` maps each step of `step` from a state satisfying
`P` to the step of `step'` from its image, and the step keeps `P`, then the two runs agree
through `f`, and `P` holds where the concrete run stops. -/
theorem run_map {step' : α → τ → Bool × τ} (f : σ → τ) (P : σ → Prop)
    (hstep : ∀ a s, P s → step' a (f s) = ((step a s).1, f (step a s).2) ∧ P (step a s).2)
    (as : List α) {s : σ} (hs : P s) :
    (run step as s).map (Prod.map f id) = run step' as (f s) ∧ ∀ r ∈ run step as s, P r.1 := by
  induction as generalizing s with
  | nil => simp
  | cons a as ih =>
    obtain ⟨hsim, hP⟩ := hstep a s hs
    rw [run_cons, run_cons, hsim]
    by_cases hstop : (step a s).1
    · simp only [hstop, if_true, Option.map_some, Prod.map_apply, id_eq, Option.mem_def,
        Option.some.injEq, true_and]
      rintro r rfl
      exact hP
    · simp only [hstop, Bool.false_eq_true, if_false]
      exact ih hP

/-- A run on an input whose last item stops every state stops. -/
theorem run_append_isSome {a : α} (hstop : ∀ s, (step a s).1 = true) (as : List α) (s : σ) :
    (run step (as ++ [a]) s).isSome := by
  induction as generalizing s with
  | nil => simp [run_cons, hstop]
  | cons b as ih =>
    rw [List.cons_append, run_cons]
    split
    · rfl
    · exact ih _

end Scan

namespace Cells

variable {β : Type*}

/-- The first `n` cells of the memory `b`. -/
def take (b : ℕ → β) (n : ℕ) : List β := (List.range n).map b

@[simp]
theorem take_zero (b : ℕ → β) : take b 0 = [] := rfl

theorem take_succ (b : ℕ → β) (n : ℕ) : take b (n + 1) = take b n ++ [b n] := by
  simp [take, List.range_succ]

@[simp]
theorem length_take (b : ℕ → β) (n : ℕ) : (take b n).length = n := by
  simp [take]

theorem mem_take {b : ℕ → β} {n : ℕ} {x : β} : x ∈ take b n ↔ ∃ i < n, b i = x := by
  simp [take]

/-- Cells past the first `n` are not part of them. -/
theorem take_congr {b b' : ℕ → β} {n : ℕ} (h : ∀ i < n, b i = b' i) : take b n = take b' n :=
  List.map_congr_left fun i hi => h i (List.mem_range.mp hi)

/-- Writing at or past the cell `n` leaves the first `n` as they are. -/
theorem take_update_of_le (b : ℕ → β) {n i : ℕ} (h : n ≤ i) (x : β) :
    take (Function.update b i x) n = take b n :=
  take_congr fun j hj => Function.update_of_ne (by omega) x b

/-- Writing the cell `n` and moving on one appends it. -/
theorem take_update_succ (b : ℕ → β) (n : ℕ) (x : β) :
    take (Function.update b n x) (n + 1) = take b n ++ [x] := by
  rw [take_succ, take_update_of_le b (le_refl n), Function.update_self]

/-- Going back one cell drops the last. -/
theorem take_sub_one (b : ℕ → β) (n : ℕ) : take b (n - 1) = (take b n).dropLast := by
  cases n with
  | zero => rfl
  | succ n => rw [take_succ, List.dropLast_concat, Nat.add_sub_cancel]

/-- The loop `while (n > 0 && p(b[n-1])) { g(); n--; }`, with `g` what each round does
besides. -/
def popWhile (p : β → Bool) (b : ℕ → β) {γ : Type*} (g : γ → γ) : ℕ → γ → ℕ × γ
  | 0, c => (0, c)
  | n + 1, c => if p (b n) then popWhile p b g n (g c) else (n + 1, c)

theorem popWhile_le (p : β → Bool) (b : ℕ → β) {γ : Type*} (g : γ → γ) (n : ℕ) (c : γ) :
    (popWhile p b g n c).1 ≤ n := by
  induction n generalizing c with
  | zero => exact le_refl 0
  | succ n ih =>
    simp only [popWhile]
    split
    · exact (ih _).trans (Nat.le_succ n)
    · exact le_refl _

/-- **The cells left by `popWhile` are those of `List.rdropWhile`.** -/
theorem take_popWhile (p : β → Bool) (b : ℕ → β) {γ : Type*} (g : γ → γ) (n : ℕ) (c : γ) :
    take b (popWhile p b g n c).1 = (take b n).rdropWhile p := by
  induction n generalizing c with
  | zero => simp [popWhile]
  | succ n ih =>
    simp only [popWhile]
    by_cases hp : p (b n)
    · rw [if_pos hp, ih, take_succ, List.rdropWhile_concat_pos _ _ _ hp]
    · rw [if_neg hp, take_succ, List.rdropWhile_concat_neg _ _ _ hp]

end Cells

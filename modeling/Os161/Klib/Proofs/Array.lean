import Os161.Klib.Array
import Os161.Lib.Refine

/-!
# Resizable arrays refine lists (`lib/array.c`, `include/array.h`)

An array stands for the list of its elements `v[0 .. num-1]`, keeps `num <= max`, and its block
`v` has `max` slots (`KArray.Abs`). Through that abstraction, `array_add` appends and returns
the old length, `array_setsize` cuts the list or extends it with elements whose values are
unknown, `array_remove` deletes one element and keeps the rest in order, and `array_set` writes
one (`implements_add`, `implements_setsize`, `implements_remove`, `implements_set`);
`array_get` reads one (`arrayGet_of_abs`). When the allocation fails, `array_setsize` and
`array_add` return `ENOMEM` with the array as it was (`arraySetsize_error`, `arrayAdd_error`).

All of this is for sizes up to `2 ^ 29`. The growth loop of `array_setsize` doubles `newmax` in
32-bit arithmetic, and from an empty array the doubling goes through the powers of two up to
`2 ^ 31` and then wraps to 0: an `array_setsize` to a size past `2 ^ 31` never returns
(`arrayGrow_never`, `arraySetsize_hangs`). Between the two, the loop ends at `2 ^ 30` or
`2 ^ 31`, and the block of `newmax*sizeof(*a->v)` bytes wraps to 0 bytes: `array_setsize`
returns 0 with `num` and `max` at least the size and no slot in the block
(`arraySetsize_wraps`).
-/

namespace Os161

open Exec

variable {α : Type}

namespace KArray

/-- The array stands for the list `l`: its elements are `l`, `num <= max`, and the block has
`max` slots. -/
def Abs (a : KArray α) (l : List (Option α)) : Prop := a.num ≤ a.max ∧ a.v.length = a.max ∧ a.elems = l

theorem Abs.length_eq {a : KArray α} {l : List (Option α)} (h : a.Abs l) : l.length = a.num := by
  obtain ⟨hle, hmax, rfl⟩ := h
  simp only [elems, List.length_take]
  omega

end KArray

/-- The block of `n` slots has `n % 2^30` of them: `n * sizeof(void *)` is taken modulo
`2^32`. -/
theorem ptrBlock_natCast (n : ℕ) :
    ptrBlock (n : Int) = List.replicate (n % 2 ^ 30) (none : Option α) := by
  have h4 : SIZEOF_PTR.toNat = 4 := rfl
  unfold ptrBlock Word.ofInt
  rw [h4]
  congr 1
  unfold SIZEOF_PTR
  omega

/-- The block of `n` slots, for `n` below `2^30`, has exactly `n` slots. -/
theorem ptrBlock_of_lt {n : ℕ} (hn : n < 2 ^ 30) :
    ptrBlock (n : Int) = List.replicate n (none : Option α) := by
  rw [ptrBlock_natCast, Nat.mod_eq_of_lt hn]

/-! ### The growth loop -/

/-- The loop ends with a size of at least `num`. -/
theorem arrayGrow_le {num m k newmax : Nat} (h : arrayGrow num m k = some newmax) :
    num ≤ newmax := by
  induction k generalizing m with
  | zero => simp [arrayGrow] at h
  | succ k ih =>
    simp only [arrayGrow] at h
    split at h
    · exact ih h
    · cases h
      omega

/-- From a positive size `m`, the loop ends within `k + 1` rounds when `num ≤ m * 2 ^ k` and
`num ≤ 2 ^ 31`: no doubling wraps on the way. -/
theorem arrayGrow_isSome {num m k fuel : Nat} (hm : 0 < m) (hnum : num ≤ 2 ^ 31)
    (hk : num ≤ m * 2 ^ k) (hfuel : k < fuel) : (arrayGrow num m fuel).isSome := by
  obtain ⟨f, rfl⟩ : ∃ f, fuel = f + 1 := ⟨fuel - 1, by omega⟩
  induction k generalizing m f with
  | zero => simp [arrayGrow, show ¬num > m by omega]
  | succ k ih =>
    simp only [arrayGrow]
    split
    · -- `m < num ≤ 2 ^ 31`, so `newmax * 2` does not wrap
      have hdouble : Word.ofInt 32 ((m : Int) * 2) = m * 2 := by
        have hcast : ((m * 2 : Nat) : Int) = (m : Int) * 2 := by push_cast; ring
        rw [← hcast, Word.ofInt_natCast_of_lt (by omega)]
      have hk' : num ≤ m * 2 * 2 ^ k := by
        have : m * 2 ^ (k + 1) = m * 2 * 2 ^ k := by ring
        omega
      obtain ⟨f', rfl⟩ : ∃ f', f = f' + 1 := ⟨f - 1, by omega⟩
      rw [if_pos (by omega), hdouble]
      exact ih (m := m * 2) (f := f') (by omega) hk' (by omega)
    · simp

/-- **The growth loop ends for every size up to `2 ^ 31`.** -/
theorem arrayGrow_ok {num : Nat} (m : Nat) (hnum : num ≤ 2 ^ 31) :
    ∃ newmax, arrayGrow num m 34 = some newmax := by
  rw [← Option.isSome_iff_exists]
  rcases Nat.eq_zero_or_pos m with rfl | hm
  · by_cases h0 : num = 0
    · simp [arrayGrow, h0]
    -- from 0 the first round sets `newmax` to 4
    rw [show (34 : Nat) = 33 + 1 from rfl, arrayGrow, if_pos (show num > 0 by omega),
      if_neg (by decide)]
    refine arrayGrow_isSome (k := 29) ?_ hnum ?_ ?_
    · decide
    · omega
    · decide
  · exact arrayGrow_isSome (k := 31) hm hnum
      (le_trans hnum (Nat.le_mul_of_pos_left _ hm)) (by decide)

/-- Below `2 ^ 31`, the loop ends where it started, or less than twice past `num`, or at 4. -/
theorem arrayGrow_lt {num m k newmax : Nat} (h : arrayGrow num m k = some newmax)
    (hnum : num ≤ 2 ^ 31) : newmax ≤ m ∨ newmax < 2 * num ∨ newmax ≤ 4 := by
  induction k generalizing m with
  | zero => simp [arrayGrow] at h
  | succ k ih =>
    simp only [arrayGrow] at h
    split at h
    · rename_i hlt
      -- `m < num ≤ 2 ^ 31`: the double does not wrap
      have hnext : (if m ≠ 0 then Word.ofInt 32 ((m : Int) * 2) else 4) ≤ 2 * m ∨
          (if m ≠ 0 then Word.ofInt 32 ((m : Int) * 2) else 4) = 4 := by
        by_cases hm : m = 0
        · simp [hm]
        · have hcast : ((m * 2 : Nat) : Int) = (m : Int) * 2 := by push_cast; ring
          rw [if_pos hm, ← hcast, Word.ofInt_natCast_of_lt (by omega)]
          omega
      rcases ih h with h' | h' | h' <;> omega
    · cases h
      exact .inl (le_refl _)

/-- The sizes the loop goes through from 0: 0 and the powers of two from 4 to `2 ^ 31`. -/
def GrowSize (x : Nat) : Prop := x = 0 ∨ ∃ j, 2 ≤ j ∧ j ≤ 31 ∧ x = 2 ^ j

/-- One round of the loop keeps the size a `GrowSize`: doubling `2 ^ 31` wraps to 0. -/
theorem growSize_next {x : Nat} (hx : GrowSize x) :
    GrowSize (if x ≠ 0 then Word.ofInt 32 ((x : Int) * 2) else 4) := by
  rcases hx with rfl | ⟨j, hj2, hj31, rfl⟩
  · exact .inr ⟨2, le_refl _, by decide, rfl⟩
  rw [if_pos (by positivity)]
  have hcast : ((2 ^ (j + 1) : Nat) : Int) = ((2 ^ j : Nat) : Int) * 2 := by push_cast; ring
  rcases Nat.lt_or_ge j 31 with hj | hj
  · have hlt : 2 ^ (j + 1) < 2 ^ 32 := Nat.pow_lt_pow_right (by decide) (by omega)
    rw [← hcast, Word.ofInt_natCast_of_lt hlt]
    exact .inr ⟨j + 1, by omega, by omega, rfl⟩
  · obtain rfl : j = 31 := by omega
    exact .inl (by decide)

/-- From a size the loop goes through from 0, it ends on such a size. -/
theorem arrayGrow_growSize {num x k newmax : Nat} (hx : GrowSize x)
    (h : arrayGrow num x k = some newmax) : GrowSize newmax := by
  induction k generalizing x with
  | zero => simp [arrayGrow] at h
  | succ k ih =>
    simp only [arrayGrow] at h
    split at h
    · exact ih (growSize_next hx) h
    · cases h
      exact hx

/-- Past `2 ^ 29`, those sizes are `2 ^ 30` and `2 ^ 31`, whose blocks of pointers have a size
of 0 bytes in 32 bits. -/
theorem growSize_bytes_wrap {x : Nat} (hx : GrowSize x) (hlt : 2 ^ 29 < x) :
    Word.ofInt 32 ((x : Int) * SIZEOF_PTR) = 0 := by
  rcases hx with rfl | ⟨j, -, hj31, rfl⟩
  · omega
  have hj : 29 < j := (Nat.pow_lt_pow_iff_right (by decide)).mp hlt
  obtain rfl | rfl : j = 30 ∨ j = 31 := by omega
  · decide
  · decide

/-- **Past `2 ^ 31` the loop from 0 never ends**, whatever the number of rounds. -/
theorem arrayGrow_never {num : Nat} (hnum : 2 ^ 31 < num) :
    ∀ fuel x, GrowSize x → arrayGrow num x fuel = none
  | 0, _, _ => rfl
  | fuel + 1, x, hx => by
    have hlt : x < num := by
      rcases hx with rfl | ⟨j, -, hj31, rfl⟩
      · omega
      · exact lt_of_le_of_lt (Nat.pow_le_pow_right (by decide) hj31) hnum
    simp only [arrayGrow, if_pos hlt]
    exact arrayGrow_never hnum fuel _ (growSize_next hx)

/-- **`array_setsize` of an empty array to a size above `2 ^ 31` never returns.** -/
theorem arraySetsize_hangs (o : KmallocOracle) {n : Nat} (hn : 2 ^ 31 < n) :
    arraySetsize n ((o, KArray.empty) : KmallocOracle × KArray α) =
      .error .halt (o, KArray.empty) := by
  have hnone := arrayGrow_never hn 34 0 (.inl rfl)
  simp [arraySetsize, bind_apply, KArray.empty, show n > 0 by omega, hnone]

/-- `array_setsize(a, 0x80000001)` on an empty array. -/
theorem arraySetsize_hangs_two_pow :
    arraySetsize (2 ^ 31 + 1) ((⟨[]⟩, KArray.empty) : KmallocOracle × KArray Nat) =
      .error .halt (⟨[]⟩, KArray.empty) :=
  arraySetsize_hangs _ (by decide)

/-- **Between `2 ^ 29` and `2 ^ 31`, `array_setsize` of an empty array allocates no room.** The
loop ends at `newmax` of `2 ^ 30` or `2 ^ 31`, whose `newmax*sizeof(*a->v)` is 0 in `size_t`;
with the `kmalloc` succeeding, `array_setsize` returns 0 with `num = n ≤ max = newmax` and a
block of no slots. -/
theorem arraySetsize_wraps (bs : List Bool) {n : Nat} (hn : 2 ^ 29 < n) (hn' : n ≤ 2 ^ 31) :
    ∃ newmax : ℕ, n ≤ newmax ∧ Word.ofInt 32 ((newmax : Int) * SIZEOF_PTR) = 0 ∧
      arraySetsize n ((⟨false :: bs⟩, KArray.empty) : KmallocOracle × KArray α) =
        .ok () (⟨bs⟩, ⟨[], n, newmax⟩) := by
  obtain ⟨newmax, hg⟩ := arrayGrow_ok 0 hn'
  have hle := arrayGrow_le hg
  have hbytes := growSize_bytes_wrap (arrayGrow_growSize (.inl rfl) hg) (by omega)
  have hblock : ptrBlock (newmax : Int) = ([] : List (Option α)) := by
    simp [ptrBlock, hbytes]
  refine ⟨newmax, hle, hbytes, ?_⟩
  simp [arraySetsize, bind_apply, KArray.empty, show n > 0 by omega, hg, focus, kmallocFails,
    hblock, KArray.elems]

/-- `array_setsize(a, 0x20000001)` on an empty array. -/
theorem arraySetsize_wraps_two_pow :
    ∃ newmax : ℕ, 2 ^ 29 + 1 ≤ newmax ∧ Word.ofInt 32 ((newmax : Int) * SIZEOF_PTR) = 0 ∧
      arraySetsize (2 ^ 29 + 1) ((⟨[false]⟩, KArray.empty) : KmallocOracle × KArray Nat) =
        .ok () (⟨[]⟩, ⟨[], 2 ^ 29 + 1, newmax⟩) :=
  arraySetsize_wraps [] (by decide) (by decide)

/-! ### The operations on the elements -/

/-- The slots of `v` up to `n`: the first `m` elements, then the slots from `m` to `n`. -/
theorem take_eq_take_take_append {β : Type} (v : List β) (m n : Nat) :
    v.take n = (v.take m).take n ++ (v.drop m).take (n - m) := by
  rcases Nat.le_total n m with h | h
  · simp [List.take_take, Nat.min_eq_left h, Nat.sub_eq_zero_of_le h]
  · rw [List.take_take, Nat.min_eq_right h, ← List.take_add, Nat.add_sub_cancel' h]

/-- What `array_setsize(a, n)` may do to the elements: cut them to `n`, or extend them to `n`
with elements whose values are unknown, or return `ENOMEM` and leave them. -/
def setsizePost (n : Nat) (l : List (Option α)) (r : Except Int Unit) (l' : List (Option α)) :
    Prop :=
  (r = .ok () ∧ l'.length = n ∧ ∃ junk, l' = l.take n ++ junk) ∨ (r = .error ENOMEM ∧ l' = l)

/-- `array_setsize` through the abstraction, with the oracle of `kmalloc` beside the array. -/
theorem implements_setsize (n : Nat) :
    Implements (fun (s : KmallocOracle × KArray α) l => s.2.Abs l) (fun _ => n ≤ 2 ^ 29)
      (setsizePost n) (arraySetsize n) := by
  rintro ⟨o, a⟩ l ⟨hle, hmax, rfl⟩ hn
  dsimp only at hle hmax hn
  have htl : a.elems.length = a.num := by
    rw [KArray.elems, List.length_take]
    omega
  by_cases hgrow : n > a.max
  · obtain ⟨newmax, hg⟩ := arrayGrow_ok a.max (show n ≤ 2 ^ 31 by omega)
    have hnew := arrayGrow_le hg
    -- `newmax` stays below `2 ^ 30`, so the block has its `newmax` slots
    have hsmall : newmax < 2 ^ 30 := by
      rcases arrayGrow_lt hg (by omega) with h | h | h <;> omega
    have hblock := ptrBlock_of_lt (α := α) hsmall
    obtain ⟨b, o', hfocus⟩ := kmallocFails_focus_apply (ε := Int) o a
    cases b
    · -- the new block holds the elements, then slots of unknown contents up to `newmax`
      refine ⟨.ok (), (o', ⟨a.elems ++ List.replicate (newmax - a.num) none, n, newmax⟩), _,
        attempt_of_ok ?_, .inl ⟨rfl, ?_, List.replicate (n - a.num) none, ?_⟩, hnew, ?_, rfl⟩
      · simp [arraySetsize, bind_apply, hgrow, hg, hfocus, hblock, show ¬newmax < a.num by omega]
      · show ((a.elems ++ List.replicate (newmax - a.num) none).take n).length = n
        rw [List.length_take, List.length_append, List.length_replicate, htl]
        omega
      · show (a.elems ++ List.replicate (newmax - a.num) none).take n =
          a.elems.take n ++ List.replicate (n - a.num) none
        rw [List.take_append, List.take_replicate, htl, List.take_of_length_le (by omega)]
        congr 2
        omega
      · show (a.elems ++ List.replicate (newmax - a.num) none).length = newmax
        rw [List.length_append, List.length_replicate, htl]
        omega
    · exact ⟨.error ENOMEM, (o', a), _, attempt_of_err (by simp [arraySetsize, bind_apply,
        hgrow, hg, hfocus]), .inr ⟨rfl, rfl⟩, hle, hmax, rfl⟩
  · -- `n` fits in the slots there are: only `num` changes
    refine ⟨.ok (), (o, { a with num := n }), _, attempt_of_ok ?_,
      .inl ⟨rfl, ?_, (a.v.drop a.num).take (n - a.num), ?_⟩, ?_, hmax, rfl⟩
    · simp [arraySetsize, bind_apply, hgrow]
    · simp only [KArray.elems, List.length_take]
      omega
    · exact take_eq_take_take_append a.v a.num n
    · show n ≤ a.max
      omega

/-- **An error return of `array_setsize` is `ENOMEM`, with the array as it was.** -/
theorem arraySetsize_error {n : Nat} {s s' : KmallocOracle × KArray α} {e : Int}
    (h : arraySetsize n s = .error (.err e) s') : e = ENOMEM ∧ s'.2 = s.2 := by
  obtain ⟨o, a⟩ := s
  simp only [arraySetsize, bind_apply, get_apply] at h
  by_cases hgrow : n > a.max
  · rw [if_pos hgrow] at h
    rcases hg : arrayGrow n a.max 34 with _ | newmax
    · simp [hg] at h
    · obtain ⟨b, o', hfocus⟩ := kmallocFails_focus_apply (ε := Int) o a
      simp only [hg, bind_apply, hfocus] at h
      -- only a failed allocation returns an error, before anything is written
      cases b
      · simp only [Bool.false_eq_true, if_false] at h
        split at h <;> simp [halt_apply, modify_apply] at h
      · simp only [if_true, fail_apply, EStateM.Result.error.injEq, Stop.err.injEq] at h
        obtain ⟨rfl, rfl⟩ := h
        exact ⟨rfl, rfl⟩
  · simp [hgrow] at h

/-- What `array_add(a, x)` may do to the elements: append `x` and return the old length, or
return `ENOMEM` and leave them. -/
def addPost (x : α) (l : List (Option α)) (r : Except Int Nat) (l' : List (Option α)) : Prop :=
  (r = .ok l.length ∧ l' = l ++ [some x]) ∨ (r = .error ENOMEM ∧ l' = l)

/-- A store inside the block writes its slot. -/
theorem arrayStore_of_lt {σ : Type} {a : KArray α} {index : Nat} (val : α)
    (h : index < a.v.length) (s : σ) :
    (arrayStore a index val : Exec Int σ (KArray α)) s =
      .ok { a with v := a.v.set index (some val) } s := by
  simp [arrayStore, h, pure_apply]

/-- A store returns no error code: it writes its slot, or it is outside the block and halts. -/
theorem arrayStore_ne_err {σ : Type} {a : KArray α} {index : Nat} {val : α} {s s' : σ} {e : Int} :
    (arrayStore a index val : Exec Int σ (KArray α)) s ≠ .error (.err e) s' := by
  unfold arrayStore
  split <;> simp [pure_apply, halt_apply]

/-- `array_add` through the abstraction: `array_setsize` to one more, then the store. -/
theorem implements_add (x : α) :
    Implements (fun (s : KmallocOracle × KArray α) l => s.2.Abs l) (fun l => l.length < 2 ^ 29)
      (addPost x) (arrayAdd x) := by
  rintro ⟨o, a⟩ l hab hlt
  have hnum : l.length = a.num := hab.length_eq
  have hidx : Word.ofInt 32 ((a.num : Int) + 1) = a.num + 1 := by
    have hcast : ((a.num + 1 : Nat) : Int) = (a.num : Int) + 1 := by push_cast; ring
    rw [← hcast, Word.ofInt_natCast_of_lt (by omega)]
  obtain ⟨r, ⟨o₁, a₁⟩, l₁, hx, hpost, hab₁⟩ :=
    implements_setsize (a.num + 1) (o, a) l hab (by omega)
  rcases hpost with ⟨rfl, hlen₁, junk, rfl⟩ | ⟨rfl, rfl⟩
  · have hset : arraySetsize (a.num + 1) (o, a) = .ok () (o₁, a₁) := by
      rcases attempt_eq_ok.1 hx with ⟨_, -, h⟩ | ⟨_, h, -⟩
      · exact h
      · cases h
    -- `array_setsize` added one slot of unknown contents, which the store fills with `x`
    rw [List.take_of_length_le (by omega)] at hab₁ hlen₁
    obtain ⟨j, rfl⟩ : ∃ j, junk = [j] :=
      List.length_eq_one_iff.mp (by simp only [List.length_append] at hlen₁; omega)
    have hnum₁ := hab₁.length_eq
    obtain ⟨hle₁, hmax₁, hel₁⟩ := hab₁
    dsimp only at hle₁ hmax₁ hel₁ hnum₁
    have hin : a.num < a₁.v.length := by
      rw [List.length_append, List.length_singleton] at hnum₁
      omega
    refine ⟨.ok a.num, (o₁, { a₁ with v := a₁.v.set a.num (some x) }), l ++ [some x],
      attempt_of_ok ?_, .inl ⟨by rw [hnum], rfl⟩, hle₁, ?_, ?_⟩
    · simp [arrayAdd, bind_apply, hidx, hset, arrayStore_of_lt x hin]
    · rw [List.length_set]
      exact hmax₁
    · simp only [KArray.elems] at hel₁ ⊢
      rw [List.take_set, hel₁, ← hnum, List.set_append_right _ _ (le_refl _), Nat.sub_self]
      rfl
  · have herr : arraySetsize (a.num + 1) (o, a) = .error (.err ENOMEM) (o₁, a₁) := by
      rcases attempt_eq_ok.1 hx with ⟨_, h, -⟩ | ⟨_, h, h'⟩
      · cases h
      · cases h
        exact h'
    exact ⟨.error ENOMEM, (o₁, a₁), _, attempt_of_err (by simp [arrayAdd, bind_apply, hidx, herr]),
      .inr ⟨rfl, rfl⟩, hab₁⟩

/-- **An error return of `array_add` is `ENOMEM`, with the array as it was.** -/
theorem arrayAdd_error {x : α} {s s' : KmallocOracle × KArray α} {e : Int}
    (h : arrayAdd x s = .error (.err e) s') : e = ENOMEM ∧ s'.2 = s.2 := by
  obtain ⟨o, a⟩ := s
  simp only [arrayAdd, bind_apply, get_apply] at h
  split at h
  · -- the store after a successful `array_setsize` returns no error code
    split at h
    · simp [set_apply, pure_apply] at h
    · rename_i e' s₂ hstore
      simp only [EStateM.Result.error.injEq] at h
      obtain ⟨rfl, rfl⟩ := h
      exact absurd hstore arrayStore_ne_err
  · rename_i herr
    simp only [EStateM.Result.error.injEq] at h
    obtain ⟨rfl, rfl⟩ := h
    exact arraySetsize_error herr

/-- `array_remove` through the abstraction: the element at `i` goes, the rest stay in order. -/
theorem implements_remove (i : Nat) :
    Implements KArray.Abs (fun l => i < l.length) (fun l r l' => r = .ok () ∧ l' = l.eraseIdx i)
      (arrayRemove i : Exec Int (KArray α) Unit) := by
  rintro a l hab hi
  have hnum := hab.length_eq
  obtain ⟨hle, hmax, rfl⟩ := hab
  -- the elements after `i` move down; the slot `num - 1` keeps its old value
  have hlen : (a.elems.eraseIdx i).length = a.num - 1 := by
    rw [List.length_eraseIdx_of_lt hi, hnum]
  refine ⟨.ok (), { a with v := a.elems.eraseIdx i ++ a.v.drop (a.num - 1), num := a.num - 1 },
    _, attempt_of_ok ?_, ⟨rfl, rfl⟩, ?_, ?_, ?_⟩
  · simp [arrayRemove, bind_apply, hle, KArray.elems, show i < a.num by omega]
  · show a.num - 1 ≤ a.max
    omega
  · show (a.elems.eraseIdx i ++ a.v.drop (a.num - 1)).length = a.max
    rw [List.length_append, hlen, List.length_drop]
    omega
  · exact List.take_left' hlen

/-- `array_set` through the abstraction. -/
theorem implements_set (i : Nat) (x : α) :
    Implements KArray.Abs (fun l => i < l.length) (fun l r l' => r = .ok () ∧ l' = l.set i (some x))
      (arraySet i x) := by
  rintro a l hab hi
  have hnum := hab.length_eq
  obtain ⟨hle, hmax, rfl⟩ := hab
  have hin : i < a.v.length := by omega
  refine ⟨.ok (), { a with v := a.v.set i (some x) }, _, attempt_of_ok ?_, ⟨rfl, rfl⟩, hle, ?_, ?_⟩
  · simp [arraySet, bind_apply, show i < a.num by omega, arrayStore_of_lt x hin]
  · rw [List.length_set]
    exact hmax
  · simp only [KArray.elems, List.take_set]

/-- `array_get` through the abstraction: the element at `i`, where it was written. -/
theorem arrayGet_of_abs {ε σ : Type} {a : KArray α} {l : List (Option α)} {i : Nat} {x : α}
    (h : a.Abs l) (hx : l[i]? = some (some x)) (s : σ) :
    (arrayGet a i : Exec ε σ α) s = .ok x s := by
  have hnum := h.length_eq
  obtain ⟨-, -, rfl⟩ := h
  have hi : i < a.num := by
    rw [← hnum]
    exact (List.getElem?_eq_some_iff.mp hx).1
  rw [KArray.elems, List.getElem?_take, if_pos hi] at hx
  simp [arrayGet, bind_apply, hi, hx]

end Os161

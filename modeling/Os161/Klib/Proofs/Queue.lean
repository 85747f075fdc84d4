import Os161.Klib.Queue
import Os161.Klib.Proofs.Array
import Os161.Lib.Ring
import Os161.Lib.Refine

/-!
# The ring-buffer queue refines a FIFO list (`lib/queue.c`)

A queue stands for the list of its elements (`Queue.Layout`): its fields are the naturals of a
ring of `size` slots whose block has exactly those slots, and the elements are the slots from
`nextread` on up to `nextwrite`, going round (`Ring.window`). Each operation is the FIFO
operation on that list (`Queue.implements_call`): `q_addtail` appends, or returns `ENOMEM` with
the queue unchanged; `q_remhead` takes the head off, `q_peek` returns it (`NULL` on an empty
queue) and `q_len` the length, both without a change; `q_preallocate` keeps the list, or returns
`ENOMEM`. `q_grow` keeps the list and both indices below the new size (`qGrow_spec`). From a
queue that `q_create` returns, every sequence of calls runs as the FIFO operations allow
(`queue_refines_fifo`).

A ring of `size` slots holds `size - 1` elements, and `q_preallocate(q, n)` only makes `size` at
least `n`: on the queue `q_create(n)` returns it does nothing, and the `n`-th `q_addtail` after
it grows the queue again (`qPreallocate_short_by_one`).

All of it holds while the sizes stay below `2^30` (`Queue.Abs`), so that
`size * sizeof(void *)` does not wrap in `size_t`: `q_create` gets a size below that, and the
queue never holds `2^29` elements or is preallocated past `2^29`, so that `q_grow` stays below
it. Past it the code breaks: `q_create(0x40000000)` asks `kmalloc` for `0x40000000 * 4`, which
wraps to 0 bytes, and the first `q_addtail` writes outside the block
(`qAddtail_create_overflows`); and from a power-of-two size, `q_preallocate` to a size past
`2^30` doubles `nsize` to `2^31`, which wraps negative and fails the `KASSERT`
(`qPreallocate_doubling_overflows`).
-/

namespace Os161

open Exec

variable {α σ : Type}

/-- C's `(i + 1) % size` on an index of the ring is the next slot. -/
theorem tmod_next {i s : ℕ} (hi : i < s) :
    ((i : Int) + 1).tmod (s : Int) = (Ring.idx s i 1 : Int) := by
  rw [Ring.idx_eq_mod hi (by omega), ← Nat.cast_add_one]
  rfl

theorem slotGet_of_getD {data : List (Option α)} {i : ℕ} {x : α} (h : data.getD i none = some x)
    (st : σ) : slotGet data (i : Int) st = .ok x st := by
  have hi : data[i]? = some (some x) := by
    rw [List.getD_eq_getElem?_getD] at h
    cases hd : data[i]? <;> simp_all
  simp [slotGet, hi]

theorem slotSet_of_lt {data : List (Option α)} {i : ℕ} (hi : i < data.length) (x : α) (st : σ) :
    slotSet data (i : Int) x st = .ok (data.set i (some x)) st := by
  simp [slotSet, hi]

namespace Queue

/-- The queue `q` is the ring of `s` slots holding `l`, from slot `r` on up to slot `w`. -/
structure Layout (q : Queue α) (s r w : ℕ) (l : List α) : Prop where
  size : q.size = s
  nextread : q.nextread = r
  nextwrite : q.nextwrite = w
  read_lt : r < s
  write_lt : w < s
  length_data : q.data.length = s
  /-- `data[nextread]`, `data[nextread+1 mod size]`, ... up to `nextwrite` are the elements. -/
  elems : Ring.window (fun i => q.data.getD i none) s r (Ring.dist s r w) = l.map some

/-- `q` holds the list `l`, its head first. -/
def Represents (q : Queue α) (l : List α) : Prop := ∃ s r w, q.Layout s r w l

/-- A fresh block of `n` slots holds the empty list. -/
theorem layout_fresh {n : ℕ} (h0 : 0 < n) (hn : n < 2 ^ 30) :
    (⟨n, 0, 0, ptrBlock n⟩ : Queue α).Layout n 0 0 [] where
  size := rfl
  nextread := rfl
  nextwrite := rfl
  read_lt := h0
  write_lt := h0
  length_data := by simp [ptrBlock_of_lt hn]
  elems := by simp [Ring.window]

namespace Layout

variable {q : Queue α} {s r w : ℕ} {l : List α}

theorem length_eq (h : q.Layout s r w l) : l.length = Ring.dist s r w := by
  have hlen := congrArg List.length h.elems
  simp only [Ring.length_window, List.length_map] at hlen
  exact hlen.symm

/-- A ring holds fewer elements than it has slots: one stays free. -/
theorem length_lt (h : q.Layout s r w l) : l.length < s := by
  rw [h.length_eq]
  exact Ring.dist_lt h.read_lt h.write_lt

/-- The `k`-th element is in the slot `k` places after `nextread`. -/
theorem getD_idx (h : q.Layout s r w l) {k : ℕ} (hk : k < l.length) :
    q.data.getD (Ring.idx s r k) none = some l[k] := by
  have hw := Ring.getElem?_window (fun i => q.data.getD i none) (s := s) (r := r)
    (hk.trans_eq h.length_eq)
  rw [h.elems, List.getElem?_map, List.getElem?_eq_getElem hk] at hw
  simpa using hw.symm

/-- **Push**: the element written into the slot at `nextwrite`, which moves on, is appended. -/
theorem push (h : q.Layout s r w l) (hroom : l.length + 1 < s) (x : α) :
    ({ q with data := q.data.set w (some x), nextwrite := (Ring.idx s w 1 : Int) } :
      Queue α).Layout s r (Ring.idx s w 1) (l ++ [x]) where
  size := h.size
  nextread := h.nextread
  nextwrite := rfl
  read_lt := h.read_lt
  write_lt := Ring.idx_lt h.write_lt (by omega)
  length_data := by simp [h.length_data]
  elems := by
    have hd := h.length_eq
    rw [Ring.dist_push h.read_lt h.write_lt (by omega), List.map_append, ← h.elems]
    apply Ring.window_push
    · -- the slots of the elements are not the one written
      intro k hk
      have hne : Ring.idx s r k ≠ w := by
        rw [← Ring.idx_dist h.read_lt h.write_lt]
        exact Ring.idx_ne hk (Ring.dist_lt h.read_lt h.write_lt)
      simp [List.getD_eq_getElem?_getD, List.getElem?_set_ne (Ne.symm hne)]
    · rw [Ring.idx_dist h.read_lt h.write_lt]
      simp [List.getD_eq_getElem?_getD, h.length_data, h.write_lt]

/-- The slot of an element is not the one at `nextwrite`. -/
theorem idx_ne_write (h : q.Layout s r w l) {k : ℕ} (hk : k < l.length) : Ring.idx s r k ≠ w := by
  rw [← Ring.idx_dist h.read_lt h.write_lt, ← h.length_eq]
  exact Ring.idx_ne hk h.length_lt

/-- `nextwrite` is as many places after `nextread` as there are elements. -/
theorem idx_length (h : q.Layout s r w l) : Ring.idx s r l.length = w := by
  rw [h.length_eq, Ring.idx_dist h.read_lt h.write_lt]

/-- A ring that holds an element has its indices apart. -/
theorem write_ne_of_cons {x : α} (h : q.Layout s r w (x :: l)) : w ≠ r := fun hwr => by
  have hd := h.length_eq
  rw [hwr, Ring.dist_self] at hd
  simp at hd

/-- The head is in the slot at `nextread`. -/
theorem getD_read {x : α} (h : q.Layout s r w (x :: l)) : q.data.getD r none = some x := by
  have hx := h.getD_idx (k := 0) (by simp)
  rwa [Ring.idx_zero h.read_lt] at hx

/-- **Pop**: `nextread` moved on drops the head. -/
theorem pop {x : α} (h : q.Layout s r w (x :: l)) :
    ({ q with nextread := (Ring.idx s r 1 : Int) } : Queue α).Layout s (Ring.idx s r 1) w l where
  size := h.size
  nextread := rfl
  nextwrite := h.nextwrite
  read_lt := Ring.idx_lt h.read_lt (by have := h.read_lt; omega)
  write_lt := h.write_lt
  length_data := h.length_data
  elems := by
    have hpop := Ring.dist_pop h.read_lt h.write_lt h.write_ne_of_cons
    have hlt := Ring.dist_lt h.read_lt h.write_lt
    have he := h.elems
    rw [← hpop, Ring.window_pop _ h.read_lt (by omega)] at he
    simp only [List.map_cons, List.cons.injEq] at he
    exact he.2

end Layout

/-- The state of a queue operation holds `l`, in a ring of fewer than `2^30` slots, so that the
size of its block does not wrap. -/
def Abs (st : KmallocOracle × Queue α) (l : List α) : Prop :=
  st.2.Represents l ∧ st.2.size < 2 ^ 30

end Queue

/-! ### What each function does to a queue that holds a list -/

section Spec

variable {q : Queue α} {s r w : ℕ} {l : List α}

/-- `q_addtail` with a free slot to spare writes at `nextwrite` and moves it on, at any depth of
the recursion through `q_grow`. -/
theorem qAddtailN_of_room (n : ℕ) (h : q.Layout s r w l) (hroom : l.length + 1 < s) (x : α)
    (o : KmallocOracle) :
    qAddtailN (n + 1) x (o, q) =
      .ok () (o, { q with data := q.data.set w (some x), nextwrite := (Ring.idx s w 1 : Int) }) := by
  have hnot : Ring.idx s w 1 ≠ r := by
    rw [Ne, Ring.idx_one_eq_iff h.read_lt h.write_lt, ← h.length_eq]
    omega
  have hs : (0 : Int) < s := by have := h.read_lt; omega
  simp only [qAddtailN, bind_apply, get_apply, h.size, h.nextwrite, h.nextread, assert_apply,
    gt_iff_lt, hs, if_true, tmod_next h.write_lt, Nat.cast_inj, hnot, if_false, pure_apply,
    slotSet_of_lt (h.length_data ▸ h.write_lt), set_apply]

/-- A round of `q_grow`'s doubling loop below the target. -/
theorem qGrowSize_of_lt {target nsize : Int} (h : nsize < target)
    (hpos : 0 < Word.toInt 32 (nsize * 2)) (fuel : ℕ) (st : σ) :
    qGrowSize target (fuel + 1) nsize st = qGrowSize target fuel (Word.toInt 32 (nsize * 2)) st := by
  -- the doubled size stays a variable here: the kernel would otherwise evaluate the 32-bit wrap
  have hstep : ∀ m : Int, 0 < m →
      (assert (m > 0) >>= fun _ => qGrowSize target fuel m) st = qGrowSize target fuel m st := by
    intro m hm
    rw [bind_apply, assert_apply, if_pos hm]
  rw [qGrowSize.eq_2, if_pos h]
  exact hstep _ hpos

/-- A double that wraps to a value `≤ 0` fails the `KASSERT`. -/
theorem qGrowSize_of_wrap {target nsize : Int} (h : nsize < target)
    (hwrap : Word.toInt 32 (nsize * 2) ≤ 0) (fuel : ℕ) (st : σ) :
    qGrowSize target (fuel + 1) nsize st = .error .halt st := by
  have hstep : ∀ m : Int, m ≤ 0 →
      (assert (m > 0) >>= fun _ => qGrowSize target fuel m) st = .error .halt st := by
    intro m hm
    rw [bind_apply, assert_apply, if_neg (not_lt.mpr hm)]
  rw [qGrowSize.eq_2, if_pos h]
  exact hstep _ hwrap

/-- From a power of two up to `2^30`, the loop towards a target past `2^30` doubles to `2^31`,
which wraps negative and fails the `KASSERT`. -/
theorem qGrowSize_pow_wraps {target : Int} (ht : 2 ^ 30 < target) (st : σ) (fuel : ℕ) :
    ∀ k : ℕ, k ≤ 30 → 30 - k < fuel → qGrowSize target fuel ((2 : Int) ^ k) st = .error .halt st := by
  induction fuel with
  | zero => intro k _ hfuel; omega
  | succ fuel ih =>
    intro k hk hfuel
    have hlt : (2 : Int) ^ k < target :=
      lt_of_le_of_lt (pow_le_pow_right₀ (by norm_num) hk) ht
    rcases Nat.lt_or_ge k 30 with hk' | hk'
    · -- below `2^30` the double is the next power of two
      have hdbl : Word.toInt 32 ((2 : Int) ^ k * 2) = 2 ^ (k + 1) := by
        rw [← pow_succ]
        apply Word.toInt_of_lt (by positivity)
        calc (2 : Int) ^ (k + 1) ≤ 2 ^ 30 := pow_le_pow_right₀ (by norm_num) (by omega)
          _ < 2 ^ (32 - 1) := by norm_num
      rw [qGrowSize_of_lt hlt (by rw [hdbl]; positivity), hdbl]
      exact ih (k + 1) (by omega) (by omega)
    · -- `2^30 * 2` is `2^31`, which is negative as an `int`
      obtain rfl : k = 30 := by omega
      exact qGrowSize_of_wrap hlt (by decide) fuel st

/-- The loop ends at a size that reaches the target. -/
theorem qGrowSize_of_le {target nsize : Int} (h : target ≤ nsize) (fuel : ℕ) (st : σ) :
    qGrowSize target (fuel + 1) nsize st = .ok nsize st := by
  rw [qGrowSize.eq_2, if_neg (not_lt.mpr h)]
  rfl

/-- `q_grow`'s doubling of a size below the target, up to a target of at most `2^30`: no double
wraps, and the size reached is below twice the target. -/
theorem qGrowSize_doubles {target : ℕ} (ht : target ≤ 2 ^ 30) (st : σ) (fuel : ℕ) :
    ∀ nsize : ℕ, 0 < nsize → nsize < 2 * target → target ≤ nsize * 2 ^ fuel →
      ∃ n' : ℕ, qGrowSize (target : Int) (fuel + 1) (nsize : Int) st = .ok (n' : Int) st ∧
        target ≤ n' ∧ n' < 2 * target ∧ nsize ≤ n' := by
  induction fuel with
  | zero =>
    intro nsize h0 hlt hf
    have hle : target ≤ nsize := by simpa using hf
    exact ⟨nsize, qGrowSize_of_le (by exact_mod_cast hle) 0 st, hle, hlt, le_rfl⟩
  | succ fuel ih =>
    intro nsize h0 hlt hf
    by_cases hle : target ≤ nsize
    · exact ⟨nsize, qGrowSize_of_le (by exact_mod_cast hle) _ st, hle, hlt, le_rfl⟩
    · -- one doubling, below `2^31`, so it does not wrap
      have hdbl : Word.toInt 32 ((nsize : Int) * 2) = ((2 * nsize : ℕ) : Int) := by
        rw [Word.toInt_of_lt (by positivity) (by norm_num; omega)]
        push_cast
        ring
      have hf' : target ≤ 2 * nsize * 2 ^ fuel := by
        rw [pow_succ] at hf
        linarith
      obtain ⟨n', hrun, h1, h2, h3⟩ := ih (2 * nsize) (by omega) (by omega) hf'
      refine ⟨n', ?_, h1, h2, by omega⟩
      have hlt' : (nsize : Int) < target := by exact_mod_cast (not_le.mp hle)
      have hpos : (0 : Int) < ((2 * nsize : ℕ) : Int) := by exact_mod_cast (by omega : 0 < 2 * nsize)
      rw [qGrowSize_of_lt hlt' (hdbl ▸ hpos), hdbl]
      exact hrun

/-- **The loop of `q_grow`** puts the old elements, from the `k`-th on, back into the new block
with `q_addtail`, which has room for each. -/
theorem qGrowCopy_spec (n : ℕ) (h : q.Layout s r w l) {s' : ℕ} (hroom : l.length < s')
    (o : KmallocOracle) (fuel : ℕ) :
    ∀ (k : ℕ) (q' : Queue α), k ≤ l.length → l.length - k < fuel → q'.Layout s' 0 k (l.take k) →
      ∃ q'', qGrowCopy (qAddtailN (n + 1)) q.data (w : Int) (s : Int) fuel (Ring.idx s r k : Int)
        (o, q') = .ok () (o, q'') ∧ q''.Layout s' 0 l.length l := by
  induction fuel with
  | zero => intro k q' hk hfuel; omega
  | succ fuel ih =>
    intro k q' hk hfuel h'
    have hdist := h.length_eq
    have hlt := h.length_lt
    rcases Nat.lt_or_ge k l.length with hkl | hkl
    · -- the `k`-th element is not the last: copy it and go on
      have hlen' : (l.take k).length = k := by simp [hkl.le]
      -- the new ring is not full and starts at slot 0, so the write index does not wrap
      have hidx' : Ring.idx s' k 1 = k + 1 := by
        unfold Ring.idx
        split <;> omega
      have hadd := qAddtailN_of_room n h' (by omega) l[k] o
      have hpush := h'.push (by omega) l[k]
      rw [hidx', List.take_concat_get' l k hkl] at hpush
      rw [hidx'] at hadd
      obtain ⟨q'', hrun, hq''⟩ := ih (k + 1) _ hkl (by omega) hpush
      refine ⟨q'', ?_, hq''⟩
      rw [qGrowCopy, if_neg (by exact_mod_cast h.idx_ne_write hkl)]
      simp only [bind_apply, slotGet_of_getD (h.getD_idx hkl), attempt_of_ok hadd, assert_apply,
        Except.isOk, Except.toBool, if_true, tmod_next (Ring.idx_lt h.read_lt (show k ≤ s by omega))]
      rw [Ring.idx_idx_one h.read_lt (show k < s by omega)]
      exact hrun
    · -- all are copied: the index is back at `nextwrite`
      have hk' : k = l.length := le_antisymm hk hkl
      subst hk'
      refine ⟨q', ?_, by simpa using h'⟩
      simp [qGrowCopy, h.idx_length]

/-- From a positive size below a target of at most `2^29`, `q_grow`'s 32 rounds reach a size
from the target up to `2^30`. -/
theorem qGrowSize_spec {s t : ℕ} (hs0 : 0 < s) (hst : s < t) (ht : t ≤ 2 ^ 29) (st : σ) :
    ∃ s' : ℕ, qGrowSize (t : Int) 32 (s : Int) st = .ok (s' : Int) st ∧ t ≤ s' ∧ s' < 2 ^ 30 := by
  obtain ⟨s', hsize, hts', hs't, -⟩ := qGrowSize_doubles (by omega) st 31 s hs0 (by omega)
    (le_trans (show t ≤ 2 ^ 31 by omega) (Nat.le_mul_of_pos_left (2 ^ 31) hs0))
  exact ⟨s', hsize, hts', by omega⟩

/-- `q_grow` whose `kmalloc` fails returns `ENOMEM` with the queue as it was. -/
theorem qGrow_of_kmallocFails (addtail : α → Exec Int (KmallocOracle × Queue α) Unit)
    (h : q.Layout s r w l) {t : ℕ} (hst : s < t) (ht : t ≤ 2 ^ 29) (bs : List Bool) :
    qGrow addtail (t : Int) (⟨true :: bs⟩, q) = .error (.err ENOMEM) (⟨bs⟩, q) := by
  obtain ⟨s', hsize, -⟩ := qGrowSize_spec (by have := h.read_lt; omega) hst ht
    ((⟨true :: bs⟩, q) : KmallocOracle × Queue α)
  have hfocus : (queueKmallocFails : Exec Int (KmallocOracle × Queue α) Bool) (⟨true :: bs⟩, q) =
      .ok true (⟨bs⟩, q) := rfl
  simp only [qGrow, bind_apply, get_apply, h.size, hsize, hfocus, if_true, fail_apply]

/-- **`q_grow`** to a target above the size, up to `2^29`: it returns `ENOMEM` with the queue as
it was, or the queue is a ring of a size from the target up to `2^30`, holding the same list from
slot 0 on. -/
theorem qGrow_spec (n : ℕ) (h : q.Layout s r w l) {t : ℕ} (hst : s < t) (ht : t ≤ 2 ^ 29)
    (o : KmallocOracle) :
    ∃ o', qGrow (qAddtailN (n + 1)) (t : Int) (o, q) = .error (.err ENOMEM) (o', q) ∨
      ∃ s' q', qGrow (qAddtailN (n + 1)) (t : Int) (o, q) = .ok () (o', q') ∧
        t ≤ s' ∧ s' < 2 ^ 30 ∧ q'.Layout s' 0 l.length l := by
  obtain ⟨s', hsize, hts', hs'⟩ := qGrowSize_spec (by have := h.read_lt; omega) hst ht (o, q)
  obtain ⟨b, o', hfocus⟩ := kmallocFails_focus_apply (ε := Int) o q
  refine ⟨o', ?_⟩
  cases b
  · -- the new block is a fresh ring of `s'` slots, into which the loop copies the list
    have hfresh : (⟨s', 0, 0, ptrBlock s'⟩ : Queue α).Layout s' 0 0 (l.take 0) := by
      simpa using Queue.layout_fresh (by omega) hs'
    obtain ⟨q', hcopy, hq'⟩ := qGrowCopy_spec n h (show l.length < s' by have := h.length_lt; omega)
      o' s 0 _ (Nat.zero_le _) (by have := h.length_lt; omega) hfresh
    refine .inr ⟨s', q', ?_, hts', hs', hq'⟩
    rw [Ring.idx_zero h.read_lt, ← h.nextread, ← h.nextwrite] at hcopy
    simp only [qGrow, bind_apply, get_apply, h.size, hsize, queueKmallocFails, hfocus,
      Bool.false_eq_true, if_false, modify_apply, Int.toNat_natCast]
    exact hcopy
  · left
    simp only [qGrow, bind_apply, get_apply, h.size, hsize, queueKmallocFails, hfocus, if_true,
      fail_apply]

/-- `q_addtail` on a full queue first grows it to a ring of fewer than `2^30` slots: it returns
`ENOMEM` with the queue as it was, or appends to the grown ring. -/
theorem qAddtailN_of_full (n : ℕ) (h : q.Layout s r w l) (hfull : l.length + 1 = s)
    (hs : s < 2 ^ 29) (x : α) (o : KmallocOracle) :
    ∃ o', qAddtailN (n + 2) x (o, q) = .error (.err ENOMEM) (o', q) ∨
      ∃ q', qAddtailN (n + 2) x (o, q) = .ok () (o', q') ∧ Queue.Abs (o', q') (l ++ [x]) := by
  have hidx : Ring.idx s w 1 = r := by
    rw [Ring.idx_one_eq_iff h.read_lt h.write_lt, ← h.length_eq]
    exact hfull
  have hs0 : (0 : Int) < s := by have := h.read_lt; omega
  obtain ⟨o', hgrow | ⟨s', q', hgrow, hts', hs', hq'⟩⟩ :=
    qGrow_spec (n := n) h (t := s + 1) (by omega) (by omega) o
  · -- the allocation of the new block fails
    rw [Nat.cast_add_one] at hgrow
    refine ⟨o', .inl ?_⟩
    rw [qAddtailN.eq_2]
    simp only [bind_apply, get_apply, h.size, h.nextwrite, h.nextread, assert_apply,
      gt_iff_lt, hs0, if_true, tmod_next h.write_lt, hidx, hgrow]
  · -- the grown ring has room: the element goes at its `nextwrite`, which is the length
    rw [Nat.cast_add_one] at hgrow
    have hroom : l.length + 1 < s' := by omega
    refine ⟨o', .inr ⟨_, ?_, ⟨s', 0, _, hq'.push hroom x⟩, ?_⟩⟩
    · rw [qAddtailN.eq_2]
      simp only [bind_apply, get_apply, h.size, h.nextwrite, h.nextread, assert_apply,
        gt_iff_lt, hs0, if_true, tmod_next h.write_lt, hidx, hgrow, pure_apply, hq'.size,
        hq'.nextwrite, tmod_next hq'.write_lt, slotSet_of_lt (hq'.length_data ▸ hq'.write_lt),
        set_apply]
    · show q'.size < 2 ^ 30
      rw [hq'.size]
      exact_mod_cast hs'

/-- **`q_addtail`** on a queue of fewer than `2^29 - 1` elements returns `ENOMEM` with the queue
as it was, or appends the element. -/
theorem qAddtail_spec {o : KmallocOracle} (h : Queue.Abs (o, q) l) (hl : l.length + 1 < 2 ^ 29)
    (x : α) :
    ∃ o', qAddtail x (o, q) = .error (.err ENOMEM) (o', q) ∨
      ∃ q', qAddtail x (o, q) = .ok () (o', q') ∧ Queue.Abs (o', q') (l ++ [x]) := by
  obtain ⟨⟨s, r, w, hl'⟩, hsize⟩ := h
  have hlt := hl'.length_lt
  rcases Nat.lt_or_ge (l.length + 1) s with hroom | hfull
  · -- a free slot to spare: no growth, and the oracle is not asked
    refine ⟨o, .inr ⟨_, qAddtailN_of_room 1 hl' hroom x o, ⟨s, r, _, hl'.push hroom x⟩, ?_⟩⟩
    exact hsize
  · exact qAddtailN_of_full 0 hl' (by omega) (by omega) x o

/-- **`q_preallocate`** to a size up to `2^29` keeps the list: it grows the ring, or returns
`ENOMEM` with the queue as it was. -/
theorem qPreallocate_spec {o : KmallocOracle} (h : Queue.Abs (o, q) l) {size : Int}
    (hsize : size ≤ 2 ^ 29) :
    ∃ o', qPreallocate size (o, q) = .error (.err ENOMEM) (o', q) ∨
      ∃ q', qPreallocate size (o, q) = .ok () (o', q') ∧ Queue.Abs (o', q') l := by
  obtain ⟨⟨s, r, w, hl⟩, hq⟩ : q.Represents l ∧ q.size < 2 ^ 30 := h
  have hs0 : (0 : Int) < s := by have := hl.read_lt; omega
  by_cases hgt : size > s
  · -- a size above the ring's is a natural, and the ring grows to it
    obtain ⟨t, rfl⟩ : ∃ t : ℕ, size = t := ⟨size.toNat, by omega⟩
    have hst : s < t := by exact_mod_cast hgt
    -- `q_preallocate` grows with `q_addtail` itself, two levels of the recursion deep
    obtain ⟨o', hgrow | ⟨s', q', hgrow, -, hs', hq'⟩⟩ :=
      qGrow_spec (n := 1) hl (t := t) hst (by exact_mod_cast hsize) o
    · change qGrow qAddtail _ _ = _ at hgrow
      refine ⟨o', .inl ?_⟩
      simp only [qPreallocate, bind_apply, get_apply, hl.size, assert_apply, gt_iff_lt, hs0,
        if_true, hst, Nat.cast_lt, hgrow]
    · change qGrow qAddtail _ _ = _ at hgrow
      refine ⟨o', .inr ⟨q', ?_, ⟨s', 0, _, hq'⟩, ?_⟩⟩
      · simp only [qPreallocate, bind_apply, get_apply, hl.size, assert_apply, gt_iff_lt, hs0,
          if_true, hst, Nat.cast_lt, hgrow]
      · show q'.size < 2 ^ 30
        rw [hq'.size]
        exact_mod_cast hs'
  · refine ⟨o, .inr ⟨q, ?_, ⟨s, r, w, hl⟩, hq⟩⟩
    simp only [qPreallocate, bind_apply, get_apply, hl.size, assert_apply, gt_iff_lt, hs0,
      if_true, hgt, if_false, pure_apply]

/-- **`q_remhead`** on a queue that holds `x :: l` returns `x` and leaves `l`. -/
theorem qRemhead_spec {x : α} (h : q.Layout s r w (x :: l)) (o : KmallocOracle) :
    qRemhead (o, q) = .ok x (o, { q with nextread := (Ring.idx s r 1 : Int) }) := by
  have hs0 : (0 : Int) < s := by have := h.read_lt; omega
  simp only [qRemhead, bind_apply, get_apply, h.size, assert_apply, gt_iff_lt, hs0, if_true,
    qEmpty, h.nextwrite, h.nextread, beq_eq_false_iff_ne, ne_eq, Nat.cast_inj,
    h.write_ne_of_cons, not_false_eq_true, slotGet_of_getD h.getD_read, tmod_next h.read_lt,
    set_apply, pure_apply]

/-- **`q_peek`** returns the head, `NULL` on an empty queue, and changes nothing. -/
theorem qPeek_spec (h : q.Layout s r w l) (o : KmallocOracle) :
    qPeek (o, q) = .ok l.head? (o, q) := by
  have hs0 : 0 < s := by have := h.read_lt; omega
  cases l with
  | nil =>
    have hwr : w = r := by
      have hd := h.length_eq
      rwa [List.length_nil, eq_comm, Ring.dist_eq_zero_iff h.read_lt] at hd
    simp [qPeek, bind_apply, h.size, hs0, qEmpty, h.nextwrite, h.nextread, hwr]
  | cons x l =>
    simp [qPeek, bind_apply, h.size, hs0, qEmpty, h.nextwrite, h.nextread, h.write_ne_of_cons,
      slotGet_of_getD h.getD_read]

/-- The loop of `q_len` from the `k`-th element on counts the rest. -/
theorem qLenLoop_spec (h : q.Layout s r w l) (st : σ) (fuel : ℕ) :
    ∀ k : ℕ, k ≤ l.length → l.length - k < fuel →
      qLenLoop q fuel (Ring.idx s r k : Int) (k : Int) st = .ok (l.length : Int) st := by
  induction fuel with
  | zero => intro k _ hfuel; omega
  | succ fuel ih =>
    intro k hk hfuel
    have hlt := h.length_lt
    rcases Nat.lt_or_ge k l.length with hkl | hkl
    · -- `tmp` is not yet at `nextwrite`: one more element
      rw [qLenLoop, if_pos (by rw [h.nextwrite]; exact_mod_cast h.idx_ne_write hkl), h.size,
        tmod_next (Ring.idx_lt h.read_lt (show k ≤ s by omega)),
        Ring.idx_idx_one h.read_lt (show k < s by omega), ← Nat.cast_add_one]
      exact ih (k + 1) hkl (by omega)
    · have hk' : k = l.length := le_antisymm hk hkl
      subst hk'
      rw [qLenLoop, if_neg (by rw [h.nextwrite, h.idx_length]; exact not_not.mpr rfl)]
      rfl

/-- **`q_len`** returns the length and changes nothing. -/
theorem qLen_spec (h : q.Layout s r w l) (o : KmallocOracle) :
    qLen (o, q) = .ok (l.length : Int) (o, q) := by
  have hloop := qLenLoop_spec h (o, q) (s + 1) 0 (Nat.zero_le _) (by have := h.length_lt; omega)
  rw [Ring.idx_zero h.read_lt, Nat.cast_zero] at hloop
  simp only [qLen, bind_apply, get_apply, h.size, h.nextread, Int.toNat_natCast, hloop]

/-- **`q_create(n)`** for `0 < n < 2^30` returns `NULL`, or a fresh queue that holds the empty
list. -/
theorem qCreate_spec {n : ℕ} (h0 : 0 < n) (hn : n < 2 ^ 30) (o : KmallocOracle) :
    ∃ o', qCreate (α := α) n o = .ok none o' ∨
      (qCreate n o = .ok (some (⟨n, 0, 0, ptrBlock n⟩ : Queue α)) o' ∧
        Queue.Abs (o', (⟨n, 0, 0, ptrBlock n⟩ : Queue α)) []) := by
  obtain ⟨b₁, o₁, h₁⟩ := kmallocFails_apply (ε := Int) o
  obtain ⟨b₂, o₂, h₂⟩ := kmallocFails_apply (ε := Int) o₁
  cases b₁
  · cases b₂
    · -- both allocations succeed
      refine ⟨o₂, .inr ⟨by simp [qCreate, bind_apply, h₁, h₂], ⟨n, 0, 0, Queue.layout_fresh h0 hn⟩,
        ?_⟩⟩
      show (n : Int) < 2 ^ 30
      exact_mod_cast hn
    · exact ⟨o₂, .inl (by simp [qCreate, bind_apply, h₁, h₂])⟩
  · exact ⟨o₁, .inl (by simp [qCreate, bind_apply, h₁])⟩

/-- What `q_create` returns is a fresh queue of the size asked for. -/
theorem qCreate_eq_some {size : Int} {o o₁ : KmallocOracle} {q : Queue α}
    (h : qCreate size o = .ok (some q) o₁) : q = ⟨size, 0, 0, ptrBlock size⟩ := by
  obtain ⟨b₁, o₂, h₁⟩ := kmallocFails_apply (ε := Int) o
  obtain ⟨b₂, o₃, h₂⟩ := kmallocFails_apply (ε := Int) o₂
  cases b₁ <;> cases b₂ <;> simp [qCreate, bind_apply, h₁, h₂] at h
  exact h.1.symm

end Spec

/-! ### The queue refines a FIFO list -/

/-- A call of a public operation of `queue.c` on one queue. -/
inductive QueueCall (α : Type) where
  | addtail (ptr : α)
  | remhead
  | preallocate (size : Int)
  | peek
  | len

/-- What a call returns besides an error code: nothing, a pointer (`none` is `NULL`), or a
count. -/
inductive QueueRet (α : Type) where
  | done
  | ptr (p : Option α)
  | count (n : Int)

/-- The call on the queue. -/
def queueCall : QueueCall α → Exec Int (KmallocOracle × Queue α) (QueueRet α)
  | .addtail ptr => do qAddtail ptr; pure .done
  | .remhead => do let ret ← qRemhead; pure (.ptr (some ret))
  | .preallocate size => do qPreallocate size; pure .done
  | .peek => do let ret ← qPeek; pure (.ptr ret)
  | .len => do let n ← qLen; pure (.count n)

namespace Fifo

/-- When a call may be made: `q_remhead` on a non-empty queue, as its `KASSERT` asks, and the
bounds that keep the ring below `2^30` slots. -/
def pre : QueueCall α → List α → Prop
  | .addtail _, l => l.length + 1 < 2 ^ 29
  | .remhead, l => l ≠ []
  | .preallocate size, _ => size ≤ 2 ^ 29
  | .peek, _ => True
  | .len, _ => True

/-- The outcomes of the FIFO operation of each call: what it returns, and the list after it. -/
def post : QueueCall α → List α → Except Int (QueueRet α) → List α → Prop
  | .addtail x, l, r, l' => r = .ok .done ∧ l' = l ++ [x] ∨ r = .error ENOMEM ∧ l' = l
  | .remhead, l, r, l' => r = .ok (.ptr l.head?) ∧ l' = l.tail
  | .preallocate _, l, r, l' => (r = .ok .done ∨ r = .error ENOMEM) ∧ l' = l
  | .peek, l, r, l' => r = .ok (.ptr l.head?) ∧ l' = l
  | .len, l, r, l' => r = .ok (.count l.length) ∧ l' = l

end Fifo

namespace Queue

theorem implements_addtail (x : α) :
    Implements Abs (Fifo.pre (.addtail x)) (Fifo.post (.addtail x)) (queueCall (.addtail x)) := by
  rintro ⟨o, q⟩ l h hpre
  obtain ⟨o', herr | ⟨q', hok, habs⟩⟩ := qAddtail_spec h hpre x
  · exact ⟨.error ENOMEM, (o', q), l, attempt_of_err (by simp only [queueCall, bind_apply, herr]),
      .inr ⟨rfl, rfl⟩, h⟩
  · exact ⟨.ok .done, (o', q'), l ++ [x],
      attempt_of_ok (by simp only [queueCall, bind_apply, hok, pure_apply]), .inl ⟨rfl, rfl⟩, habs⟩

theorem implements_remhead :
    Implements Abs (Fifo.pre (.remhead : QueueCall α)) (Fifo.post .remhead) (queueCall .remhead) := by
  rintro ⟨o, q⟩ l h hne
  obtain ⟨⟨s, r, w, hl⟩, hsize⟩ : q.Represents l ∧ q.size < 2 ^ 30 := h
  obtain ⟨x, l, rfl⟩ := List.exists_cons_of_ne_nil hne
  refine ⟨.ok (.ptr (some x)), (o, { q with nextread := (Ring.idx s r 1 : Int) }), l,
    attempt_of_ok ?_, ⟨rfl, rfl⟩, ⟨s, _, w, hl.pop⟩, hsize⟩
  simp only [queueCall, bind_apply, qRemhead_spec hl o, pure_apply]

theorem implements_preallocate (size : Int) :
    Implements Abs (Fifo.pre (.preallocate size : QueueCall α)) (Fifo.post (.preallocate size))
      (queueCall (.preallocate size)) := by
  rintro ⟨o, q⟩ l h hpre
  obtain ⟨o', herr | ⟨q', hok, habs⟩⟩ := qPreallocate_spec h hpre
  · exact ⟨.error ENOMEM, (o', q), l, attempt_of_err (by simp only [queueCall, bind_apply, herr]),
      ⟨.inr rfl, rfl⟩, h⟩
  · exact ⟨.ok .done, (o', q'), l,
      attempt_of_ok (by simp only [queueCall, bind_apply, hok, pure_apply]), ⟨.inl rfl, rfl⟩, habs⟩

theorem implements_peek :
    Implements Abs (Fifo.pre (.peek : QueueCall α)) (Fifo.post .peek) (queueCall .peek) := by
  rintro ⟨o, q⟩ l h -
  have hrep : q.Represents l := h.1
  obtain ⟨s, r, w, hl⟩ := hrep
  refine ⟨.ok (.ptr l.head?), (o, q), l, attempt_of_ok ?_, ⟨rfl, rfl⟩, h⟩
  simp only [queueCall, bind_apply, qPeek_spec hl o, pure_apply]

theorem implements_len :
    Implements Abs (Fifo.pre (.len : QueueCall α)) (Fifo.post .len) (queueCall .len) := by
  rintro ⟨o, q⟩ l h -
  have hrep : q.Represents l := h.1
  obtain ⟨s, r, w, hl⟩ := hrep
  refine ⟨.ok (.count l.length), (o, q), l, attempt_of_ok ?_, ⟨rfl, rfl⟩, h⟩
  simp only [queueCall, bind_apply, qLen_spec hl o, pure_apply]

/-- **Each call is its FIFO operation.** -/
theorem implements_call (c : QueueCall α) :
    Implements Abs (Fifo.pre c) (Fifo.post c) (queueCall c) := by
  cases c with
  | addtail x => exact implements_addtail x
  | remhead => exact implements_remhead
  | preallocate size => exact implements_preallocate size
  | peek => exact implements_peek
  | len => exact implements_len

end Queue

/-- **The queue refines a FIFO list**: from a queue that `q_create(n)` returns, for
`0 < n < 2^30`, every sequence of calls runs as the FIFO operations allow, up to the first call
whose bound fails. -/
theorem queue_refines_fifo {n : ℕ} (h0 : 0 < n) (hn : n < 2 ^ 30) (o : KmallocOracle)
    (cs : List (QueueCall α)) :
    ∃ o₁, qCreate (α := α) n o = .ok none o₁ ∨
      (qCreate n o = .ok (some (⟨n, 0, 0, ptrBlock n⟩ : Queue α)) o₁ ∧
        ((∃ rs st' l', runCalls queueCall cs (o₁, ⟨n, 0, 0, ptrBlock n⟩) = .ok rs st' ∧
            AbsRun Fifo.pre Fifo.post [] cs rs l' ∧ Queue.Abs st' l') ∨
          ∃ cs₁ c cs₂ rs₁ st₁ l₁, cs = cs₁ ++ c :: cs₂ ∧
            runCalls queueCall cs₁ (o₁, ⟨n, 0, 0, ptrBlock n⟩) = .ok rs₁ st₁ ∧
            AbsRun Fifo.pre Fifo.post [] cs₁ rs₁ l₁ ∧ Queue.Abs st₁ l₁ ∧ ¬Fifo.pre c l₁)) := by
  obtain ⟨o₁, hnone | ⟨hsome, habs⟩⟩ := qCreate_spec (α := α) h0 hn o
  · exact ⟨o₁, .inl hnone⟩
  · exact ⟨o₁, .inr ⟨hsome, Implements.runCalls Queue.implements_call habs cs⟩⟩

/-! ### How much room `q_preallocate` leaves -/

/-- `q_addtail`s that fit in the ring, one after the other, append their elements, return 0 and
never ask `kmalloc`. -/
theorem runCalls_addtail_of_room {s r : ℕ} (o : KmallocOracle) (xs : List α) :
    ∀ (q : Queue α) (w : ℕ) (l : List α), q.Layout s r w l → l.length + xs.length < s →
      ∃ q' w', runCalls queueCall (xs.map .addtail) (o, q) =
        .ok (xs.map fun _ => .ok .done) (o, q') ∧ q'.Layout s r w' (l ++ xs) := by
  induction xs with
  | nil =>
    intro q w l h _
    exact ⟨q, w, rfl, by simpa using h⟩
  | cons x xs ih =>
    intro q w l h hroom
    have hroom' : l.length + 1 < s := by simp at hroom; omega
    have hadd := qAddtailN_of_room 1 h hroom' x o
    obtain ⟨q', w', hrun, hq'⟩ := ih _ _ _ (h.push hroom' x) (by simp at hroom ⊢; omega)
    refine ⟨q', w', ?_, by simpa using hq'⟩
    apply runCalls_cons_of_ok (attempt_of_ok ?_) hrun
    simp only [queueCall, bind_apply, qAddtail, hadd, pure_apply]

/-- **`q_preallocate(q, n)` leaves room for `n - 1` elements, not `n`**: on the queue that
`q_create(n)` returns, it returns 0 and changes nothing; `n - 1` `q_addtail`s then fill the
ring, and the `n`-th calls `q_grow`, so that with a `kmalloc` that fails it returns `ENOMEM`. -/
theorem qPreallocate_short_by_one {n : ℕ} (h0 : 0 < n) (hn : n < 2 ^ 29) {o o₁ : KmallocOracle}
    {q : Queue α} (hcreate : qCreate n o = .ok (some q) o₁) (xs : List α)
    (hxs : xs.length + 1 = n) (x : α) (bs : List Bool) :
    qPreallocate n (o₁, q) = .ok () (o₁, q) ∧
      ∃ q', runCalls queueCall (xs.map .addtail) (⟨true :: bs⟩, q) =
          .ok (xs.map fun _ => .ok .done) (⟨true :: bs⟩, q') ∧
        runCalls queueCall [.addtail x] (⟨true :: bs⟩, q') = .ok [.error ENOMEM] (⟨bs⟩, q') := by
  obtain rfl := qCreate_eq_some hcreate
  have hfresh := Queue.layout_fresh (α := α) h0 (by omega)
  have hs0 : (0 : Int) < n := by exact_mod_cast h0
  constructor
  · -- `size > q->size` is false: nothing grows
    simp only [qPreallocate, bind_apply, get_apply, assert_apply, gt_iff_lt, hs0, if_true,
      lt_irrefl, if_false, pure_apply]
  · obtain ⟨q', w', hrun, hq'⟩ := runCalls_addtail_of_room ⟨true :: bs⟩ xs _ 0 [] hfresh
      (by simp; omega)
    refine ⟨q', hrun, ?_⟩
    rw [List.nil_append] at hq'
    -- the ring of `n` slots holds `n - 1` elements: it is full
    have hidx : Ring.idx n w' 1 = 0 := by
      rw [Ring.idx_one_eq_iff hq'.read_lt hq'.write_lt, ← hq'.length_eq]
      exact hxs
    have hgrow := qGrow_of_kmallocFails (qAddtailN 1) hq' (t := n + 1) (by omega) (by omega) bs
    rw [Nat.cast_add_one] at hgrow
    have hadd : qAddtail x (⟨true :: bs⟩, q') = .error (.err ENOMEM) (⟨bs⟩, q') := by
      rw [qAddtail, qAddtailN.eq_2]
      simp only [bind_apply, get_apply, hq'.size, hq'.nextwrite, hq'.nextread, assert_apply,
        gt_iff_lt, hs0, if_true, tmod_next hq'.write_lt, hidx, hgrow]
    simp only [runCalls, bind_apply, attempt, queueCall, hadd]
    rfl

theorem qPreallocate_short_by_one_two :
    qPreallocate (2 : Int) (⟨[]⟩, (⟨2, 0, 0, ptrBlock 2⟩ : Queue ℕ)) =
        .ok () (⟨[]⟩, ⟨2, 0, 0, ptrBlock 2⟩) ∧
      ∃ q', runCalls queueCall [.addtail 7] (⟨[true]⟩, (⟨2, 0, 0, ptrBlock 2⟩ : Queue ℕ)) =
          .ok [.ok .done] (⟨[true]⟩, q') ∧
        runCalls queueCall [.addtail 8] (⟨[true]⟩, q') = .ok [.error ENOMEM] (⟨[]⟩, q') := by
  have hcreate : qCreate (α := ℕ) 2 ⟨[]⟩ = .ok (some ⟨2, 0, 0, ptrBlock 2⟩) ⟨[]⟩ := rfl
  exact qPreallocate_short_by_one (n := 2) (by decide) (by decide) hcreate [7] rfl 8 []

/-! ### Past `2^30` slots -/

/-- **`q_create(0x40000000)` then `q_addtail` writes outside the block**: `0x40000000 *
sizeof(void *)` wraps to 0 in `size_t`, so whenever `q_create` returns a queue, it has `2^30`
slots on paper and a block of none, and the first `q_addtail` writes `data[0]` outside it. -/
theorem qAddtail_create_overflows {o o₁ : KmallocOracle} {q : Queue α}
    (hcreate : qCreate (2 ^ 30) o = .ok (some q) o₁) (x : α) (o₂ : KmallocOracle) :
    q.size = 2 ^ 30 ∧ q.data = [] ∧ qAddtail x (o₂, q) = .error .halt (o₂, q) := by
  obtain rfl := qCreate_eq_some hcreate
  have hblock : ptrBlock (α := α) (2 ^ 30) = [] := by
    have hbytes : Word.ofInt 32 ((2 : Int) ^ 30 * SIZEOF_PTR) = 0 := by decide
    rw [ptrBlock, hbytes, Nat.zero_div, List.replicate_zero]
  refine ⟨rfl, hblock, ?_⟩
  -- the ring is not full, so `q_addtail` goes straight to the write of `data[0]`
  have hnext : ((0 : Int) + 1).tmod (2 ^ 30) = 1 := by decide
  simp only [qAddtail, qAddtailN, bind_apply, get_apply, assert_apply, gt_iff_lt, hnext,
    hblock, slotSet]
  simp [bind_apply]

theorem qAddtail_create_overflows_fresh :
    qCreate (α := ℕ) (2 ^ 30) ⟨[]⟩ = .ok (some ⟨2 ^ 30, 0, 0, ptrBlock (2 ^ 30)⟩) ⟨[]⟩ ∧
      (⟨2 ^ 30, 0, 0, ptrBlock (2 ^ 30)⟩ : Queue ℕ).size = 2 ^ 30 ∧
      (⟨2 ^ 30, 0, 0, ptrBlock (2 ^ 30)⟩ : Queue ℕ).data = [] ∧
      qAddtail 0 (⟨[]⟩, ⟨2 ^ 30, 0, 0, ptrBlock (2 ^ 30)⟩) =
        .error .halt (⟨[]⟩, ⟨2 ^ 30, 0, 0, ptrBlock (2 ^ 30)⟩) := by
  have hcreate : qCreate (α := ℕ) (2 ^ 30) ⟨[]⟩ =
      .ok (some ⟨2 ^ 30, 0, 0, ptrBlock (2 ^ 30)⟩) ⟨[]⟩ := rfl
  exact ⟨hcreate, qAddtail_create_overflows hcreate 0 ⟨[]⟩⟩

/-- **`q_preallocate` past `2^30` from a power-of-two size fails the `KASSERT`**: `nsize`
doubles up to `2^31`, which wraps negative. -/
theorem qPreallocate_doubling_overflows {q : Queue α} {k : ℕ} (hk : k ≤ 30) (hq : q.size = 2 ^ k)
    {size : Int} (hsize : 2 ^ 30 < size) (o : KmallocOracle) :
    qPreallocate size (o, q) = .error .halt (o, q) := by
  have hpos : (0 : Int) < 2 ^ k := by positivity
  have hlt : (2 : Int) ^ k < size := lt_of_le_of_lt (pow_le_pow_right₀ (by norm_num) hk) hsize
  have hgrow := qGrowSize_pow_wraps hsize (o, q) 32 k hk (by omega)
  simp only [qPreallocate, bind_apply, get_apply, hq, assert_apply, gt_iff_lt, hpos, if_true, hlt,
    qGrow, hgrow]

end Os161

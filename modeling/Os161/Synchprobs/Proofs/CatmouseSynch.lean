import Os161.Synchprobs.CatmouseSynch
import Os161.Klib.Proofs.Queue

/-!
# `bowl_locks` is indexed one past its end

The block `catmouse_sync_init(NumBowls)` allocates has `NumBowls` slots (`NumBowls % 2^30`, as
`kmalloc` is asked for `4 * NumBowls` bytes in 32 bits), indexed `0..NumBowls-1`. Its loop
stores a lock in every slot, one new lock each (`forRounds_storeLock`), and then, at
`i = NumBowls`, stores past the block; `catmouse_sync_cleanup` destroys the lock of every slot
and then reads past the block; and the bowl functions, at the legal bowl `NumBowls`, read past
it (`catmouse_bowl_locks_overflow`).
-/

namespace Os161

open Exec BowlLocks

namespace BowlLocks

/-- Rounds that return, followed by more. -/
theorem forRounds_add {body : ℕ → Exec Int BowlLocks Unit} {a i : ℕ} {s s₁ : BowlLocks}
    (h : forRounds body a i s = .ok () s₁) (b : ℕ) :
    forRounds body (a + b) i s = forRounds body b (i + a) s₁ := by
  induction a generalizing i s with
  | zero =>
    cases h
    rw [Nat.zero_add, Nat.add_zero]
  | succ a ih =>
    rw [forRounds] at h
    obtain ⟨_, s₂, hbody, hrest⟩ := bind_eq_ok.1 h
    rw [Nat.add_right_comm, forRounds, bind_of_ok hbody, ih hrest, Nat.add_right_comm,
      Nat.add_assoc]

/-- A round that halts ends the loop there. -/
theorem forRounds_halt {body : ℕ → Exec Int BowlLocks Unit} {m i : ℕ} {s s' : BowlLocks}
    (h : body i s = .error .halt s') : forRounds body (m + 1) i s = .error .halt s' := by
  simp only [forRounds, bind_apply, h]

/-! ### Storing the locks -/

/-- The block of `L` slots whose first `i` hold the locks `base, base + 1, ...`. -/
def filledBlock (base i L : ℕ) : List (Option ℕ) :=
  (List.range i).map (fun j => some (base + j)) ++ List.replicate (L - i) none

theorem length_filledBlock {base i L : ℕ} (h : i ≤ L) : (filledBlock base i L).length = L := by
  simp [filledBlock]
  omega

/-- Storing lock `base + i` in slot `i` fills one slot more. -/
theorem filledBlock_set {base i L : ℕ} (h : i < L) :
    (filledBlock base i L).set i (some (base + i)) = filledBlock base (i + 1) L := by
  obtain ⟨k, hk⟩ : ∃ k, L - i = k + 1 := ⟨L - i - 1, by omega⟩
  have hk' : L - (i + 1) = k := by omega
  rw [filledBlock, hk, List.set_append_right _ _ (by simp), List.length_map, List.length_range,
    Nat.sub_self, List.replicate_succ, List.set_cons_zero, filledBlock, hk', List.range_succ,
    List.map_append, List.map_singleton, List.append_assoc, List.singleton_append]

/-- `bowl_locks[i] = lock_create(..)` in a slot of the block. -/
theorem storeLock_of_lt {s : BowlLocks} {b : List (Option ℕ)} (hb : s.block = some b) {i : ℕ}
    (hi : i < b.length) :
    storeLock i s = .ok () { s with block := some (b.set i (some s.locks)), locks := s.locks + 1 } := by
  simp only [storeLock, bind_apply, get_apply, hb, slotSet_of_lt hi, set_apply]

/-- `bowl_locks[i] = lock_create(..)` past the block. -/
theorem storeLock_of_le {s : BowlLocks} {b : List (Option ℕ)} (hb : s.block = some b) {i : ℕ}
    (hi : b.length ≤ i) : storeLock i s = .error .halt s := by
  have hout : ¬((0 : Int) ≤ i ∧ (i : Int) < b.length) := by omega
  simp only [storeLock, bind_apply, get_apply, hb, slotSet, if_neg hout, halt, throw,
    throwThe, MonadExceptOf.throw, EStateM.throw]

/-- **The rounds of `catmouse_sync_init` inside the block** store one new lock in each slot. -/
theorem forRounds_storeLock {base L : ℕ} :
    ∀ m i (s : BowlLocks), i + m ≤ L → s.block = some (filledBlock base i L) →
      s.locks = base + i →
      forRounds storeLock m i s =
        .ok () { s with block := some (filledBlock base (i + m) L), locks := base + (i + m) } := by
  intro m
  induction m with
  | zero =>
    intro i s _ hb hl
    cases s
    cases hb
    cases hl
    rfl
  | succ m ih =>
    intro i s hm hb hl
    have hlen : i < (filledBlock base i L).length := by
      rw [length_filledBlock (by omega)]
      omega
    simp only [forRounds, bind_apply, storeLock_of_lt hb hlen]
    rw [hl, filledBlock_set (by omega), ih (i + 1) _ (by omega) rfl (by simp only; omega)]
    simp only [Nat.add_assoc, Nat.add_comm 1 m]

/-! ### Reading the locks -/

/-- `bowl_locks[i]` in a block whose slots all hold a lock. -/
theorem loadLock_of_lt {s : BowlLocks} {locks : List ℕ} (hb : s.block = some (locks.map some))
    {i : ℕ} (hi : i < locks.length) : loadLock i s = .ok locks[i] s := by
  have hget : (locks.map some).getD i none = some locks[i] := by simp [hi]
  simp only [loadLock, bind_apply, get_apply, hb, slotGet_of_getD hget]

/-- `bowl_locks[i]` past the block. -/
theorem loadLock_of_le {s : BowlLocks} {b : List (Option ℕ)} (hb : s.block = some b) {i : ℕ}
    (hi : b.length ≤ i) : loadLock i s = .error .halt s := by
  have hnone : b[i]? = none := List.getElem?_eq_none hi
  simp only [loadLock, bind_apply, get_apply, hb, slotGet, Nat.cast_nonneg, if_true,
    Int.toNat_natCast, hnone, halt, throw, throwThe, MonadExceptOf.throw, EStateM.throw]

/-- `lock_destroy(bowl_locks[i])` in the block leaves the block. -/
theorem destroyLock_of_lt {s : BowlLocks} {locks : List ℕ} (hb : s.block = some (locks.map some))
    {i : ℕ} (hi : i < locks.length) :
    ∃ s', destroyLock i s = .ok () s' ∧ s'.block = some (locks.map some) := by
  refine ⟨{ s with destroyed := locks[i] :: s.destroyed }, ?_, hb⟩
  simp only [destroyLock, bind_apply, loadLock_of_lt hb hi, modify_apply]

/-- The rounds of `catmouse_sync_cleanup` inside the block return. -/
theorem forRounds_destroyLock {locks : List ℕ} :
    ∀ m i (s : BowlLocks), i + m ≤ locks.length → s.block = some (locks.map some) →
      ∃ s', forRounds destroyLock m i s = .ok () s' ∧ s'.block = some (locks.map some) := by
  intro m
  induction m with
  | zero => exact fun i s _ hb => ⟨s, rfl, hb⟩
  | succ m ih =>
    intro i s hm hb
    obtain ⟨s₁, h₁, hb₁⟩ := destroyLock_of_lt hb (show i < locks.length by omega)
    obtain ⟨s', h', hb'⟩ := ih (i + 1) s₁ (by omega) hb₁
    exact ⟨s', by simp only [forRounds, bind_apply, h₁, h'], hb'⟩

/-- `lock_destroy(bowl_locks[i])` past the block. -/
theorem destroyLock_of_le {s : BowlLocks} {b : List (Option ℕ)} (hb : s.block = some b) {i : ℕ}
    (hi : b.length ≤ i) : destroyLock i s = .error .halt s := by
  simp only [destroyLock, bind_apply, loadLock_of_le hb hi]

/-! ### One round too many -/

/-- **The rounds of `catmouse_sync_init`, more of them than slots**, from slot 0 of a block of
`L` empty slots: each slot gets a new lock, and then the store past the block halts. -/
theorem forRounds_storeLock_past {L m : ℕ} (hm : L < m) {s : BowlLocks}
    (hb : s.block = some (List.replicate L none)) :
    forRounds storeLock m 0 s = .error .halt
      { s with block := some ((List.range L).map fun i => some (s.locks + i)),
               locks := s.locks + L } := by
  have hempty : s.block = some (filledBlock s.locks 0 L) := by
    rw [hb]
    simp [filledBlock]
  have hfull : filledBlock s.locks L L = (List.range L).map fun i => some (s.locks + i) := by
    simp [filledBlock]
  -- the first `L` rounds fill the block
  have hfill : forRounds storeLock L 0 s = .ok ()
      { s with block := some (filledBlock s.locks (0 + L) L), locks := s.locks + (0 + L) } :=
    forRounds_storeLock L 0 s (by omega) hempty (Nat.add_zero _).symm
  rw [Nat.zero_add, hfull] at hfill
  obtain ⟨k, rfl⟩ : ∃ k, m = L + (k + 1) := ⟨m - L - 1, by omega⟩
  rw [forRounds_add hfill, Nat.zero_add, forRounds_halt (storeLock_of_le rfl (by simp))]

/-- The rounds of `catmouse_sync_cleanup`, more of them than slots, on a block whose slots all
hold a lock: each lock is destroyed, and then the read past the block halts. -/
theorem forRounds_destroyLock_past {locks : List ℕ} {m : ℕ} (hm : locks.length < m)
    {s : BowlLocks} (hb : s.block = some (locks.map some)) :
    ∃ s', forRounds destroyLock m 0 s = .error .halt s' := by
  obtain ⟨s₁, h₁, hb₁⟩ := forRounds_destroyLock locks.length 0 s (by omega) hb
  obtain ⟨k, rfl⟩ : ∃ k, m = locks.length + (k + 1) := ⟨m - locks.length - 1, by omega⟩
  exact ⟨s₁, by rw [forRounds_add h₁, Nat.zero_add, forRounds_halt (destroyLock_of_le hb₁ (by simp))]⟩

end BowlLocks

/-- The `kmalloc` of `catmouse_sync_init`, when it succeeds. -/
theorem kmallocFails_of_head {o : KmallocOracle} (hk : o.kmFails.head? ≠ some true) :
    ∃ o', (kmallocFails : Exec Int KmallocOracle Bool) o = .ok false o' := by
  rcases hks : o.kmFails with _ | ⟨b, bs⟩
  · exact ⟨o, by simp [kmallocFails, hks]⟩
  · have hb : b = false := by simpa [hks] using hk
    exact ⟨⟨bs⟩, by simp [kmallocFails, hks, hb]⟩

/-- **`bowl_locks` is indexed one past its end.** For every `NumBowls ≥ 1` of `int`, with a
`kmalloc` that succeeds, `catmouse_sync_init(NumBowls)` fills every slot of the block it
allocates with a new lock and then stores past the block, at `i = NumBowls % 2^30` (`NumBowls`
itself below `2^30`). And in a block of `NumBowls` slots, each holding a lock, the bowl
functions read past the block at the legal bowl `NumBowls`, and `catmouse_sync_cleanup` reads
past it after destroying every lock in it. -/
theorem catmouse_bowl_locks_overflow {n : ℕ} (hn : 1 ≤ n) (hn' : n < 2 ^ 31) (s : BowlLocks)
    (hk : s.kmalloc.kmFails.head? ≠ some true) :
    (∃ s', catmouseSyncInit n s = .error .halt s' ∧
        s'.block = some ((List.range (n % 2 ^ 30)).map fun i => some (s.locks + i))) ∧
      ∀ (t : BowlLocks) (locks : List ℕ), locks.length = n → t.block = some (locks.map some) →
        bowlLock n t = .error .halt t ∧ ∃ t', catmouseSyncCleanup n t = .error .halt t' := by
  have hne : (n : Int) ≠ 0 := by omega
  have hrounds : ((n : Int) + 1).toNat = n + 1 := by omega
  refine ⟨?_, ?_⟩
  · -- the block of `n % 2^30` slots, then one round more than it has slots
    obtain ⟨o', hkm⟩ := kmallocFails_of_head hk
    have hblock : ({ s with kmalloc := o', block := some (ptrBlock n) } : BowlLocks).block =
        some (List.replicate (n % 2 ^ 30) none) := by
      rw [ptrBlock_natCast]
    refine ⟨{ s with kmalloc := o',
                     block := some ((List.range (n % 2 ^ 30)).map fun i => some (s.locks + i)),
                     locks := s.locks + n % 2 ^ 30 }, ?_, rfl⟩
    simp only [catmouseSyncInit, bind_apply, if_pos hne, focus, hkm, modify_apply, if_false,
      Bool.false_eq_true, hrounds]
    exact forRounds_storeLock_past (by omega) hblock
  · intro t locks hlen hb
    have hsome : t.block.isSome := by simp [hb]
    have hpast : (locks.map some).length ≤ n := by simp [hlen]
    refine ⟨?_, ?_⟩
    · simp only [bowlLock, bind_apply, get_apply, assert, if_pos hsome, pure_apply,
        loadLock_of_le hb hpast]
    · obtain ⟨t', ht'⟩ := forRounds_destroyLock_past (show locks.length < n + 1 by omega) hb
      refine ⟨t', ?_⟩
      simp only [catmouseSyncCleanup, bind_apply, get_apply, assert, if_pos hsome, pure_apply,
        hrounds, ht']

/-- With two bowls, `catmouse_sync_init(2)` stores locks 0 and 1 in the two slots of the block
and then lock 2 in `bowl_locks[2]`, past it; a cat or a mouse at bowl 2 reads `bowl_locks[2]`. -/
theorem catmouse_bowl_locks_overflow_two :
    (∃ s', catmouseSyncInit ((2 : ℕ) : Int) ⟨⟨[]⟩, none, 0, []⟩ = .error .halt s' ∧
        s'.block = some ((List.range (2 % 2 ^ 30)).map fun i => some (0 + i))) ∧
      ∀ (t : BowlLocks) (locks : List ℕ), locks.length = 2 → t.block = some (locks.map some) →
        bowlLock 2 t = .error .halt t ∧ ∃ t', catmouseSyncCleanup ((2 : ℕ) : Int) t = .error .halt t' :=
  catmouse_bowl_locks_overflow (by decide) (by decide) ⟨⟨[]⟩, none, 0, []⟩ (by decide)

end Os161

import Os161.Klib.Proofs.Copyinout

/-!
# `uiomove` moves a stream of bytes (`lib/uio.c`)

The iovecs of a uio from the current one on cover a stream of bytes (`Uio.stream`), of length
`Uio.total`. Moving `t` bytes through them from `ptr + p` is `moveIovecs`: each iovec takes its
part of the bytes and starts after it, and is moved past once the bytes go on after it. When
the copies do not fault (`Uio.Fits`), `uio_resid` is at most the total length and either
`n <= uio_resid` or `uio_resid` is that total, each round of `uiomove(ptr, n, uio)` moves a part
of the iovec no larger than what is left of `uio_resid`, and the loop ends with
`t = min(n, uio_resid)` bytes moved (`uiomove_eq_advance`). The stream then starts `t` bytes
further on, `uio_resid` is `t` less and `uio_offset` `t` more; a read put `ptr[p .. p+t-1]` at
the start of the windows and a write took them from there (`advance_read`, `advance_write`).
`uiomovezeros` is `uiomove` of that many zeros (`uiomovezeros_eq`).

Without the condition the loop does not stop at `uio_resid`: a round moves `min(iov_len, n)`
bytes, and with `uio_resid < iov_len` and `uio_resid < n` that passes `uio_resid`, which wraps
(`uiomove_resid_wraps`).
-/

namespace Os161

open Bytes Exec

namespace Iovec

/-- What the iovec's window holds in the memory `mem`. -/
def window (iov : Iovec) (mem : Buf) : List UInt8 := slice mem iov.iovBase iov.iovLen

/-- The bytes the iovec covers. -/
def bytes (iov : Iovec) : List UInt8 := iov.window iov.iovMem

/-- The copies to and from the iovec do not fault: a kernel iovec, or a user one that lies below
`USERSPACETOP`. -/
def Fits (seg : UioSeg) (iov : Iovec) : Prop :=
  seg = .sysspace ∨ iov.iovBase + iov.iovLen ≤ USERSPACETOP

/-- `size` bytes moved between `ptr + p` and the start of the iovec, which then starts after
them: the kernel buffer and the iovec after the copy. -/
def move (rw : UioRw) (ptr : Buf) (p size : Nat) (iov : Iovec) : Buf × Iovec :=
  match rw with
  | .read =>
    (ptr, ⟨copy iov.iovMem iov.iovBase ptr p size, iov.iovBase + size, iov.iovLen - size⟩)
  | .write =>
    (copy ptr p iov.iovMem iov.iovBase size, ⟨iov.iovMem, iov.iovBase + size, iov.iovLen - size⟩)

end Iovec

/-- Moving `t` bytes through the iovecs `iovs` from `ptr + p`: the kernel buffer, the iovecs
moved past (the last first) and the iovecs from the new current one. An iovec is moved past once
the bytes go on after it. -/
def moveIovecs (rw : UioRw) (ptr : Buf) (p t : Nat) : List Iovec → Buf × List Iovec × List Iovec
  | [] => (ptr, [], [])
  | iov :: rest =>
    if t ≤ iov.iovLen then ((iov.move rw ptr p t).1, [], (iov.move rw ptr p t).2 :: rest)
    else
      let r := moveIovecs rw (iov.move rw ptr p iov.iovLen).1 (p + iov.iovLen)
        (t - iov.iovLen) rest
      (r.1, r.2.1 ++ [(iov.move rw ptr p iov.iovLen).2], r.2.2)

/-- The total length of the iovecs `iovs`. -/
def iovecsTotal (iovs : List Iovec) : Nat := (iovs.map Iovec.iovLen).sum

/-- The windows of the iovecs `orig`, read in the memories of the iovecs `final`. -/
def readBack (orig final : List Iovec) : List UInt8 :=
  (List.zipWith (fun o f => o.window f.iovMem) orig final).flatten

namespace Uio

/-- The total length of the iovecs from the current one on. -/
def total (u : Uio) : Nat := iovecsTotal u.uioIov

/-- The bytes the iovecs from the current one on cover, in order. -/
def stream (u : Uio) : List UInt8 := u.uioIov.flatMap Iovec.bytes

/-- None of the copies `uiomove` makes faults. -/
def Fits (u : Uio) : Prop := ∀ iov ∈ u.uioIov, iov.Fits u.uioSegflg

/-- The uio after `t` bytes moved through it from `ptr + p`. -/
def advance (u : Uio) (ptr : Buf) (p t : Nat) : Uio :=
  { u with
    uioIov := (moveIovecs u.uioRw ptr p t u.uioIov).2.2
    uioPast := (moveIovecs u.uioRw ptr p t u.uioIov).2.1 ++ u.uioPast
    uioResid := u.uioResid - t
    uioOffset := u.uioOffset + t }

end Uio

/-! ### One iovec -/

namespace Iovec

variable {rw : UioRw} {ptr : Buf} {p : Nat} {iov : Iovec}

@[simp] theorem move_zero : iov.move rw ptr p 0 = (ptr, iov) := by
  cases rw <;> simp [move]

/-- Two moves of adjacent runs are one move. -/
theorem move_move (a b : Nat) :
    (iov.move rw ptr p a).2.move rw (iov.move rw ptr p a).1 (p + a) b = iov.move rw ptr p (a + b) := by
  cases rw <;> simp [move, copy_append, Nat.add_assoc, Nat.sub_sub]

/-- The iovec after a move covers what was left of its window. -/
theorem bytes_move (size : Nat) :
    (iov.move rw ptr p size).2.bytes = iov.bytes.drop size := by
  cases rw
  · simp only [move, bytes, window, slice_drop]
    exact slice_copy_of_disjoint _ _ (.inr (by omega))
  · simp [move, bytes, window, slice_drop]

/-- A read puts the run of the kernel buffer at the start of the window. -/
theorem window_move_read {size : Nat} (h : size ≤ iov.iovLen) :
    iov.window (iov.move .read ptr p size).2.iovMem = slice ptr p size ++ iov.bytes.drop size := by
  obtain ⟨k, hk⟩ : ∃ k, iov.iovLen = size + k := ⟨iov.iovLen - size, by omega⟩
  simp only [window, move, bytes, hk, slice_add, slice_copy]
  rw [slice_copy_of_disjoint _ _ (.inr (by omega)), List.drop_left' (length_slice _ _ _)]

/-- A write takes the start of the window into the kernel buffer. -/
theorem slice_move_write (size : Nat) :
    slice (iov.move .write ptr p size).1 p size = slice iov.iovMem iov.iovBase size :=
  slice_copy _ _ _ _ _

theorem move_write_of_not_mem {size a : Nat} (ha : a < p ∨ p + size ≤ a) :
    (iov.move .write ptr p size).1 a = ptr a :=
  copy_of_not_mem ha

end Iovec

/-- Without a fault, the copy of a round of `uiomove` is a move. -/
theorem uioTransfer_of_fits {seg : UioSeg} {rw : UioRw} {ptr : Buf} {p size : Nat} {iov : Iovec}
    (hfit : iov.Fits seg) (h0 : 0 < size) (hle : size ≤ iov.iovLen) :
    uioTransfer seg rw ptr p size iov = .ok (iov.move rw ptr p size) := by
  cases seg
  case sysspace => cases rw <;> rfl
  all_goals
    have htop := hfit.resolve_left (by decide)
    unfold USERSPACETOP at htop
    have hp : iov.iovBase < 2 ^ 32 := by omega
    have hs : size < 2 ^ 32 := by omega
    have hin : iov.iovBase + size ≤ USERSPACETOP := by unfold USERSPACETOP; omega
    cases rw <;>
      simp [uioTransfer, Iovec.move, copyout_of_pos _ _ _ hp hs h0, copyin_of_pos _ _ _ hp hs h0,
        hin, Except.map]

/-! ### The iovecs after a move -/

section MoveIovecs

variable {rw : UioRw} {ptr : Buf} {p : Nat}

@[simp] theorem iovecsTotal_nil : iovecsTotal [] = 0 := rfl

@[simp] theorem iovecsTotal_cons (iov : Iovec) (rest : List Iovec) :
    iovecsTotal (iov :: rest) = iov.iovLen + iovecsTotal rest := by
  simp [iovecsTotal]

@[simp] theorem moveIovecs_nil (t : Nat) : moveIovecs rw ptr p t [] = (ptr, [], []) := rfl

theorem moveIovecs_of_le {iov : Iovec} {rest : List Iovec} {t : Nat} (h : t ≤ iov.iovLen) :
    moveIovecs rw ptr p t (iov :: rest) =
      ((iov.move rw ptr p t).1, [], (iov.move rw ptr p t).2 :: rest) := by
  simp [moveIovecs, h]

theorem moveIovecs_of_lt {iov : Iovec} {rest : List Iovec} {t : Nat} (h : iov.iovLen < t) :
    moveIovecs rw ptr p t (iov :: rest) =
      ((moveIovecs rw (iov.move rw ptr p iov.iovLen).1 (p + iov.iovLen) (t - iov.iovLen) rest).1,
        (moveIovecs rw (iov.move rw ptr p iov.iovLen).1 (p + iov.iovLen) (t - iov.iovLen) rest).2.1 ++
          [(iov.move rw ptr p iov.iovLen).2],
        (moveIovecs rw (iov.move rw ptr p iov.iovLen).1 (p + iov.iovLen) (t - iov.iovLen) rest).2.2) := by
  simp [moveIovecs, Nat.not_le.mpr h]

@[simp] theorem moveIovecs_zero (iovs : List Iovec) : moveIovecs rw ptr p 0 iovs = (ptr, [], iovs) := by
  cases iovs with
  | nil => rfl
  | cons iov rest => simp [moveIovecs_of_le (Nat.zero_le _)]

theorem length_bytes (iov : Iovec) : iov.bytes.length = iov.iovLen := by
  simp [Iovec.bytes, Iovec.window]

theorem length_flatMap_bytes (iovs : List Iovec) :
    (iovs.flatMap Iovec.bytes).length = iovecsTotal iovs := by
  induction iovs with
  | nil => rfl
  | cons iov rest ih => simp [length_bytes, ← ih]

/-- **The iovecs after a move cover the rest of the stream.** -/
theorem moveIovecs_stream (iovs : List Iovec) :
    ∀ (ptr : Buf) (p t : Nat), t ≤ iovecsTotal iovs →
      (moveIovecs rw ptr p t iovs).2.2.flatMap Iovec.bytes = (iovs.flatMap Iovec.bytes).drop t := by
  induction iovs with
  | nil => intro ptr p t _; simp
  | cons iov rest ih =>
    intro ptr p t ht
    rw [iovecsTotal_cons] at ht
    have hlen := length_bytes iov
    by_cases hle : t ≤ iov.iovLen
    · rw [moveIovecs_of_le hle, List.flatMap_cons, List.flatMap_cons, Iovec.bytes_move,
        List.drop_append_of_le_length (by omega)]
    · rw [moveIovecs_of_lt (by omega), List.flatMap_cons, List.drop_append, hlen,
        List.drop_eq_nil_of_le (by omega), List.nil_append]
      exact ih _ _ (t - iov.iovLen) (by omega)

/-- Every iovec is still there: the ones moved past, then the current one and the rest. -/
theorem length_moveIovecs (iovs : List Iovec) :
    ∀ (ptr : Buf) (p t : Nat),
      (moveIovecs rw ptr p t iovs).2.1.length + (moveIovecs rw ptr p t iovs).2.2.length =
        iovs.length := by
  induction iovs with
  | nil => intro ptr p t; rfl
  | cons iov rest ih =>
    intro ptr p t
    by_cases hle : t ≤ iov.iovLen
    · simp [moveIovecs_of_le hle]
    · have := ih (iov.move rw ptr p iov.iovLen).1 (p + iov.iovLen) (t - iov.iovLen)
      simp only [moveIovecs_of_lt (Nat.lt_of_not_le hle), List.length_append, List.length_cons,
        List.length_nil]
      omega

theorem readBack_self (iovs : List Iovec) : readBack iovs iovs = iovs.flatMap Iovec.bytes := by
  induction iovs with
  | nil => rfl
  | cons iov rest ih =>
    simp only [readBack, List.zipWith_cons_cons, List.flatten_cons, List.flatMap_cons] at ih ⊢
    rw [ih]
    rfl

/-- **A read of `t` bytes puts `ptr[p .. p+t-1]` at the start of the windows**, and leaves the
rest of the stream. -/
theorem moveIovecs_read (iovs : List Iovec) :
    ∀ (ptr : Buf) (p t : Nat), t ≤ iovecsTotal iovs →
      (moveIovecs .read ptr p t iovs).1 = ptr ∧
      readBack iovs ((moveIovecs .read ptr p t iovs).2.1.reverse ++
          (moveIovecs .read ptr p t iovs).2.2) =
        slice ptr p t ++ (iovs.flatMap Iovec.bytes).drop t := by
  induction iovs with
  | nil =>
    intro ptr p t ht
    obtain rfl : t = 0 := by simpa using ht
    simp [readBack]
  | cons iov rest ih =>
    intro ptr p t ht
    rw [iovecsTotal_cons] at ht
    have hlen := length_bytes iov
    by_cases hle : t ≤ iov.iovLen
    · rw [moveIovecs_of_le hle]
      refine ⟨rfl, ?_⟩
      simp only [List.reverse_nil, List.nil_append, readBack, List.zipWith_cons_cons,
        List.flatten_cons, List.flatMap_cons]
      rw [Iovec.window_move_read hle, List.drop_append_of_le_length (by omega), List.append_assoc]
      congr 2
      exact readBack_self rest
    · have hlt : iov.iovLen < t := Nat.lt_of_not_le hle
      -- a read leaves the kernel buffer as it is
      have hptr : (iov.move .read ptr p iov.iovLen).1 = ptr := rfl
      obtain ⟨hptr', hback⟩ := ih (iov.move .read ptr p iov.iovLen).1 (p + iov.iovLen)
        (t - iov.iovLen) (by omega)
      rw [hptr] at hptr' hback
      rw [moveIovecs_of_lt hlt, hptr]
      refine ⟨hptr', ?_⟩
      simp only [List.reverse_append, List.reverse_cons, List.reverse_nil, List.nil_append,
        List.cons_append, readBack, List.zipWith_cons_cons, List.flatten_cons,
        List.flatMap_cons] at hback ⊢
      have hdrop : iov.bytes.drop iov.iovLen = [] := List.drop_eq_nil_of_le (by omega)
      have hdrop' : (iov.bytes ++ rest.flatMap Iovec.bytes).drop t =
          (rest.flatMap Iovec.bytes).drop (t - iov.iovLen) := by
        rw [List.drop_append, List.drop_eq_nil_of_le (by omega), hlen, List.nil_append]
      rw [hback, Iovec.window_move_read (le_refl _), hdrop, List.append_nil, hdrop',
        ← List.append_assoc, ← slice_add, Nat.add_sub_cancel' hlt.le]

/-- **A write of `t` bytes takes the start of the stream into `ptr[p .. p+t-1]`**, leaves the
rest of the kernel buffer and every iovec's memory. -/
theorem moveIovecs_write (iovs : List Iovec) :
    ∀ (ptr : Buf) (p t : Nat), t ≤ iovecsTotal iovs →
      slice (moveIovecs .write ptr p t iovs).1 p t = (iovs.flatMap Iovec.bytes).take t ∧
      (∀ a, a < p ∨ p + t ≤ a → (moveIovecs .write ptr p t iovs).1 a = ptr a) ∧
      ((moveIovecs .write ptr p t iovs).2.1.reverse ++ (moveIovecs .write ptr p t iovs).2.2).map
        Iovec.iovMem = iovs.map Iovec.iovMem := by
  induction iovs with
  | nil =>
    intro ptr p t ht
    obtain rfl : t = 0 := by simpa using ht
    simp
  | cons iov rest ih =>
    intro ptr p t ht
    rw [iovecsTotal_cons] at ht
    have hlen := length_bytes iov
    by_cases hle : t ≤ iov.iovLen
    · rw [moveIovecs_of_le hle]
      refine ⟨?_, fun a ha => Iovec.move_write_of_not_mem ha, by simp [Iovec.move]⟩
      rw [Iovec.slice_move_write, List.flatMap_cons, List.take_append_of_le_length (by omega)]
      exact (slice_take _ _ hle).symm
    · have hlt : iov.iovLen < t := Nat.lt_of_not_le hle
      rw [moveIovecs_of_lt hlt]
      set ptr₁ := (iov.move .write ptr p iov.iovLen).1
      obtain ⟨hslice, hframe, hmem⟩ := ih ptr₁ (p + iov.iovLen) (t - iov.iovLen) (by omega)
      set ptr₂ := (moveIovecs .write ptr₁ (p + iov.iovLen) (t - iov.iovLen) rest).1
      refine ⟨?_, fun a ha => ?_, ?_⟩
      · -- the first `iov_len` bytes came from this iovec, the others from the rest
        have hfirst : slice ptr₂ p iov.iovLen = iov.bytes :=
          (slice_congr fun i _ hi => hframe i (.inl hi)).trans (Iovec.slice_move_write _)
        have hsplit : slice ptr₂ p t = slice ptr₂ p iov.iovLen ++
            slice ptr₂ (p + iov.iovLen) (t - iov.iovLen) := by
          rw [← slice_add, Nat.add_sub_cancel' hlt.le]
        have htake : (iov.bytes ++ rest.flatMap Iovec.bytes).take t =
            iov.bytes ++ (rest.flatMap Iovec.bytes).take (t - iov.iovLen) := by
          rw [List.take_append, List.take_of_length_le (by omega), hlen]
        rw [hsplit, hfirst, hslice, List.flatMap_cons, htake]
      · rw [hframe a (by omega)]
        exact Iovec.move_write_of_not_mem (by omega)
      · simp only [List.reverse_append, List.reverse_cons, List.reverse_nil, List.nil_append,
          List.cons_append, List.map_cons] at hmem ⊢
        rw [hmem]
        simp [Iovec.move]

/-- **Moving `a` bytes and then `b` is moving `a + b`.** -/
theorem moveIovecs_add (iovs : List Iovec) :
    ∀ (ptr : Buf) (p a b : Nat),
      moveIovecs rw ptr p (a + b) iovs =
        ((moveIovecs rw (moveIovecs rw ptr p a iovs).1 (p + a) b (moveIovecs rw ptr p a iovs).2.2).1,
          (moveIovecs rw (moveIovecs rw ptr p a iovs).1 (p + a) b
            (moveIovecs rw ptr p a iovs).2.2).2.1 ++ (moveIovecs rw ptr p a iovs).2.1,
          (moveIovecs rw (moveIovecs rw ptr p a iovs).1 (p + a) b
            (moveIovecs rw ptr p a iovs).2.2).2.2) := by
  induction iovs with
  | nil => intro ptr p a b; simp
  | cons iov rest ih =>
    intro ptr p a b
    by_cases hab : a + b ≤ iov.iovLen
    · -- both moves stay in this iovec
      have hb : b ≤ (iov.move rw ptr p a).2.iovLen := by cases rw <;> simp [Iovec.move] <;> omega
      rw [moveIovecs_of_le hab, moveIovecs_of_le (by omega : a ≤ iov.iovLen), moveIovecs_of_le hb,
        Iovec.move_move]
      simp
    by_cases ha : a ≤ iov.iovLen
    · -- the second move goes on from what is left of this iovec
      have hrest : (iov.move rw ptr p a).2.iovLen = iov.iovLen - a := by cases rw <;> rfl
      have hb : (iov.move rw ptr p a).2.iovLen < b := by omega
      rw [moveIovecs_of_lt (by omega : iov.iovLen < a + b), moveIovecs_of_le ha]
      simp only [List.append_nil]
      rw [moveIovecs_of_lt hb, hrest, Iovec.move_move, Nat.add_sub_cancel' ha,
        Nat.add_assoc, Nat.add_sub_cancel' ha, show b - (iov.iovLen - a) = a + b - iov.iovLen by omega]
    · -- the first move goes past this iovec
      have hlt : iov.iovLen < a := Nat.lt_of_not_le ha
      rw [moveIovecs_of_lt (by omega : iov.iovLen < a + b), moveIovecs_of_lt hlt,
        show a + b - iov.iovLen = (a - iov.iovLen) + b by omega, ih,
        show p + iov.iovLen + (a - iov.iovLen) = p + a by omega]
      simp

/-- A read of zeros does not depend on where in the zeros it starts. -/
theorem moveIovecs_zeros (iovs : List Iovec) :
    ∀ (p t : Nat), moveIovecs .read zeros p t iovs = moveIovecs .read zeros 0 t iovs := by
  have hcopy : ∀ (mem : Buf) (b p n : Nat), copy mem b zeros p n = copy mem b zeros 0 n := by
    intro mem b p n
    funext i
    simp [copy_apply]
  induction iovs with
  | nil => intro p t; rfl
  | cons iov rest ih =>
    intro p t
    by_cases hle : t ≤ iov.iovLen
    · simp [moveIovecs_of_le hle, Iovec.move, hcopy]
    · -- a read leaves the kernel buffer as it is
      have hptr : ∀ q, (iov.move .read zeros q iov.iovLen).1 = zeros := fun _ => rfl
      simp only [moveIovecs_of_lt (Nat.lt_of_not_le hle), hptr]
      rw [ih (p + iov.iovLen), ih (0 + iov.iovLen)]
      simp [Iovec.move, hcopy]

/-- The iovecs after a move still fit. -/
theorem moveIovecs_fits {seg : UioSeg} (iovs : List Iovec) :
    ∀ (ptr : Buf) (p t : Nat), (∀ iov ∈ iovs, iov.Fits seg) →
      ∀ iov ∈ (moveIovecs rw ptr p t iovs).2.2, iov.Fits seg := by
  -- a move keeps the end of the window
  have hmove : ∀ {iov : Iovec} {ptr : Buf} {p size : Nat}, size ≤ iov.iovLen → iov.Fits seg →
      (iov.move rw ptr p size).2.Fits seg := by
    intro iov ptr p size hle hfit
    rcases hfit with h | h
    · exact .inl h
    · right
      cases rw <;> simp only [Iovec.move] <;> omega
  induction iovs with
  | nil => intro ptr p t _; simp
  | cons iov rest ih =>
    intro ptr p t hfit
    by_cases hle : t ≤ iov.iovLen
    · rw [moveIovecs_of_le hle]
      intro x hx
      rcases List.mem_cons.mp hx with rfl | hx
      · exact hmove hle (hfit _ List.mem_cons_self)
      · exact hfit x (List.mem_cons_of_mem _ hx)
    · rw [moveIovecs_of_lt (Nat.lt_of_not_le hle)]
      exact ih _ _ _ fun x hx => hfit x (List.mem_cons_of_mem _ hx)

end MoveIovecs

/-! ### The rounds of `uiomove` -/

section Rounds

variable {ptr : Buf} {p n : Nat} {u : Uio}

/-- The loop returns at once when nothing is left to move. -/
theorem uiomoveLoop_of_done (h : n = 0 ∨ u.uioResid = 0) (k : Nat) :
    uiomoveLoop ptr p n k u = .ok ptr u := by
  cases k <;> simp [uiomoveLoop, bind_apply, h]

/-- A round at an empty iovec moves past it. -/
theorem uiomoveLoop_skip {iov : Iovec} {rest : List Iovec} (hiov : u.uioIov = iov :: rest)
    (h0 : iov.iovLen = 0) (hn : n ≠ 0) (hr : u.uioResid ≠ 0) (hrest : rest ≠ []) (k : Nat) :
    uiomoveLoop ptr p n (k + 1) u =
      uiomoveLoop ptr p n k { u with uioIov := rest, uioPast := iov :: u.uioPast } := by
  simp [uiomoveLoop, bind_apply, hiov, h0, hn, hr, hrest]

/-- A round that moves `size = min(iov_len, n)` bytes, after which nothing is left to move. -/
theorem uiomoveLoop_move_last {iov iov' : Iovec} {rest : List Iovec} {ptr' : Buf} {size : Nat}
    (hiov : u.uioIov = iov :: rest) (hn : n ≠ 0) (hr : u.uioResid ≠ 0)
    (hsize : min iov.iovLen n = size) (hs : size ≠ 0)
    (ht : uioTransfer u.uioSegflg u.uioRw ptr p size iov = .ok (ptr', iov'))
    (hlast : n - size = 0 ∨ Word.sub 32 u.uioResid size = 0) (k : Nat) :
    uiomoveLoop ptr p n (k + 1) u =
      .ok ptr' { u with
        uioIov := iov' :: rest
        uioResid := Word.sub 32 u.uioResid size
        uioOffset := u.uioOffset + (size : Nat) } := by
  subst hsize
  simp only [uiomoveLoop, bind_apply, get_apply, hiov, hn, hr, hs, ht, false_or, if_false]
  simp [hlast]

/-- A round that moves all of the current iovec, `size = iov_len < n`, and goes on with the
next one. -/
theorem uiomoveLoop_move_next {iov iov' : Iovec} {rest : List Iovec} {ptr' : Buf} {size : Nat}
    (hiov : u.uioIov = iov :: rest) (hn : n ≠ 0) (hr : u.uioResid ≠ 0)
    (hsize : min iov.iovLen n = size) (hs : size ≠ 0)
    (ht : uioTransfer u.uioSegflg u.uioRw ptr p size iov = .ok (ptr', iov'))
    (hn' : n - size ≠ 0) (hr' : Word.sub 32 u.uioResid size ≠ 0) (hrest : rest ≠ []) (k : Nat) :
    uiomoveLoop ptr p n (k + 1) u =
      uiomoveLoop ptr' (p + size) (n - size) k { u with
        uioIov := rest
        uioPast := iov' :: u.uioPast
        uioResid := Word.sub 32 u.uioResid size
        uioOffset := u.uioOffset + (size : Nat) } := by
  subst hsize
  simp only [uiomoveLoop, bind_apply, get_apply, hiov, hn, hr, hs, ht, false_or, if_false]
  simp [bind_apply, hn', hr', hrest]

end Rounds

/-! ### The loop -/

/-- **`uiomove`'s loop moves `min(n, uio_resid)` bytes**, when no copy faults, `uio_resid` is at
most the total length of the iovecs, and `n <= uio_resid` or `uio_resid` is that total. The
induction is on the iovecs, one round of the loop for each; in every round the part moved is at
most what is left of `uio_resid`, so `uio_resid` does not wrap. -/
theorem uiomoveLoop_eq_advance (iovs : List Iovec) :
    ∀ (ptr : Buf) (p n : Nat) (u : Uio), u.uioIov = iovs → u.Fits → u.uioResid < 2 ^ 32 →
      u.uioResid ≤ u.total → (n ≤ u.uioResid ∨ u.uioResid = u.total) →
      uiomoveLoop ptr p n iovs.length u =
        .ok (moveIovecs u.uioRw ptr p (min n u.uioResid) iovs).1
          (u.advance ptr p (min n u.uioResid)) := by
  induction iovs with
  | nil =>
    intro ptr p n u hiov _ _ hresid _
    have h0 : u.uioResid = 0 := by simp [Uio.total, hiov] at hresid; omega
    rw [uiomoveLoop_of_done (.inr h0), h0, Nat.min_zero]
    cases u
    simp_all [Uio.advance]
  | cons iov rest ih =>
    intro ptr p n u hiov hfit hword hresid hcap
    have htotal : u.total = iov.iovLen + iovecsTotal rest := by simp [Uio.total, hiov]
    by_cases hdone : n = 0 ∨ u.uioResid = 0
    · have ht0 : min n u.uioResid = 0 := by omega
      rw [uiomoveLoop_of_done hdone, ht0]
      cases u
      simp_all [Uio.advance]
    have hn : n ≠ 0 := by omega
    have hr : u.uioResid ≠ 0 := by omega
    have hfit₁ : iov.Fits u.uioSegflg := hfit iov (by simp [hiov])
    have hfit_rest : ∀ x ∈ rest, x.Fits u.uioSegflg := fun x hx => hfit x (by simp [hiov, hx])
    by_cases h0 : iov.iovLen = 0
    · -- an empty iovec: moved past without a copy
      have hrest : rest ≠ [] := by
        rintro rfl
        simp at htotal
        omega
      have hnext := ih ptr p n { u with uioIov := rest, uioPast := iov :: u.uioPast } rfl
        hfit_rest hword (by simp only [Uio.total]; omega) (by simp only [Uio.total]; omega)
      rw [List.length_cons, uiomoveLoop_skip hiov h0 hn hr hrest, hnext]
      have hlt : iov.iovLen < min n u.uioResid := by omega
      simp [Uio.advance, moveIovecs_of_lt hlt, hiov, h0]
    -- the round moves `size = min(iov_len, n)` bytes, no more than `uio_resid`
    obtain ⟨size, hsize⟩ : ∃ size, min iov.iovLen n = size := ⟨_, rfl⟩
    have hsize_resid : size ≤ u.uioResid := by omega
    have hs : size ≠ 0 := by omega
    have ht : uioTransfer u.uioSegflg u.uioRw ptr p size iov =
        .ok ((iov.move u.uioRw ptr p size).1, (iov.move u.uioRw ptr p size).2) :=
      uioTransfer_of_fits hfit₁ (Nat.pos_of_ne_zero hs) (by omega)
    have hsub : Word.sub 32 u.uioResid size = u.uioResid - size := Word.sub_of_le hsize_resid hword
    by_cases hle : min n u.uioResid ≤ iov.iovLen
    · -- the last round: it moves `min(n, uio_resid)` bytes
      have hst : min n u.uioResid = size := by omega
      rw [List.length_cons, uiomoveLoop_move_last hiov hn hr hsize hs ht (by omega), hst]
      simp only [Uio.advance, hiov, moveIovecs_of_le (hst ▸ hle), hsub, List.nil_append]
    · -- the round moves the whole iovec and the loop goes on
      have hlt : iov.iovLen < min n u.uioResid := Nat.lt_of_not_le hle
      have hsl : size = iov.iovLen := by omega
      have hrest : rest ≠ [] := by
        rintro rfl
        simp at htotal
        omega
      have hnext := ih (iov.move u.uioRw ptr p size).1 (p + size) (n - size)
        { u with
          uioIov := rest
          uioPast := (iov.move u.uioRw ptr p size).2 :: u.uioPast
          uioResid := Word.sub 32 u.uioResid size
          uioOffset := u.uioOffset + (size : Nat) } rfl
        hfit_rest (by simp only [hsub]; omega) (by simp only [Uio.total, hsub]; omega)
        (by simp only [Uio.total, hsub]; omega)
      rw [List.length_cons, uiomoveLoop_move_next hiov hn hr hsize hs ht (by omega) (by omega) hrest,
        hnext]
      have hmin : min (n - size) (u.uioResid - size) = min n u.uioResid - iov.iovLen := by omega
      simp only [Uio.advance, hiov, moveIovecs_of_lt hlt, hsub, hmin, ← hsl, List.append_assoc,
        List.singleton_append, EStateM.Result.ok.injEq, Uio.mk.injEq, true_and, and_true]
      constructor
      · omega
      · omega

/-- **`uiomove(ptr + p, n, uio)` moves `t = min(n, uio_resid)` bytes** and leaves the uio
advanced by them. -/
theorem uiomove_eq_advance {ptr : Buf} {p n : Nat} {u : Uio} (hfit : u.Fits)
    (hword : u.uioResid < 2 ^ 32) (hresid : u.uioResid ≤ u.total)
    (hcap : n ≤ u.uioResid ∨ u.uioResid = u.total) :
    uiomove ptr p n u =
      .ok (moveIovecs u.uioRw ptr p (min n u.uioResid) u.uioIov).1
        (u.advance ptr p (min n u.uioResid)) := by
  simp only [uiomove, bind_apply, get_apply]
  exact uiomoveLoop_eq_advance u.uioIov ptr p n u rfl hfit hword hresid hcap

/-! ### The uio after a move -/

namespace Uio

variable {u : Uio} {ptr : Buf} {p : Nat}

theorem length_stream (u : Uio) : u.stream.length = u.total :=
  length_flatMap_bytes u.uioIov

@[simp] theorem advance_zero : u.advance ptr p 0 = u := by
  cases u
  simp [advance]

@[simp] theorem advance_uioResid (t : Nat) : (u.advance ptr p t).uioResid = u.uioResid - t := rfl

@[simp] theorem advance_uioRw (t : Nat) : (u.advance ptr p t).uioRw = u.uioRw := rfl

@[simp] theorem advance_uioSegflg (t : Nat) : (u.advance ptr p t).uioSegflg = u.uioSegflg := rfl

theorem advance_stream {t : Nat} (h : t ≤ u.total) : (u.advance ptr p t).stream = u.stream.drop t :=
  moveIovecs_stream u.uioIov ptr p t h

theorem advance_total (ptr : Buf) (p : Nat) {t : Nat} (h : t ≤ u.total) :
    (u.advance ptr p t).total = u.total - t := by
  rw [← length_stream, advance_stream h, List.length_drop, length_stream]

theorem advance_fits (hfit : u.Fits) (t : Nat) : (u.advance ptr p t).Fits :=
  moveIovecs_fits u.uioIov ptr p t hfit

/-- The iovecs after a move: those moved past before, those the move went past, then the current
one and the rest. -/
theorem advance_iovecs (ptr : Buf) (p t : Nat) :
    (u.advance ptr p t).iovecs = u.uioPast.reverse ++
      ((moveIovecs u.uioRw ptr p t u.uioIov).2.1.reverse ++ (moveIovecs u.uioRw ptr p t u.uioIov).2.2) := by
  simp [iovecs, advance]

/-- **Two moves are one**: the second from where the first left the kernel buffer. -/
theorem advance_advance (u : Uio) (ptr : Buf) (p a b : Nat) :
    (u.advance ptr p a).advance (moveIovecs u.uioRw ptr p a u.uioIov).1 (p + a) b =
      u.advance ptr p (a + b) := by
  cases u
  simp only [advance, moveIovecs_add, List.append_assoc, Nat.sub_sub, Nat.cast_add, Int.add_assoc]

end Uio

/-! ### `uiomove` and `uiomovezeros` -/

/-- The loop of `uiomovezeros`: each round a `uiomove` of at most 16 zeros, which together move
`min(n, uio_resid)`. The induction is on the rounds. -/
theorem uiomovezerosLoop_eq (k : Nat) :
    ∀ (n : Nat) (u : Uio), n ≤ 16 * k → u.uioRw = .read → u.Fits → u.uioResid < 2 ^ 32 →
      u.uioResid ≤ u.total → (n ≤ u.uioResid ∨ u.uioResid = u.total) →
      uiomovezerosLoop k n u = .ok () (u.advance zeros 0 (min n u.uioResid)) := by
  induction k with
  | zero =>
    intro n u hn _ _ _ _ _
    obtain rfl : n = 0 := by omega
    simp [uiomovezerosLoop]
  | succ k ih =>
    intro n u hn hread hfit hword hresid hcap
    -- the round's `uiomove` of `amt` zeros moves `t₁` bytes
    obtain ⟨amt, hamt⟩ : ∃ amt, min 16 n = amt := ⟨_, rfl⟩
    obtain ⟨t₁, ht₁⟩ : ∃ t₁, min amt u.uioResid = t₁ := ⟨_, rfl⟩
    have ht₁_total : t₁ ≤ iovecsTotal u.uioIov := by
      change t₁ ≤ u.total
      omega
    have hptr := (moveIovecs_read u.uioIov zeros 0 t₁ ht₁_total).1
    have hmove : uiomove zeros 0 amt u = .ok zeros (u.advance zeros 0 t₁) := by
      rw [uiomove_eq_advance hfit hword hresid (by omega), hread, ht₁, hptr]
    have htotal₁ := Uio.advance_total zeros 0 (show t₁ ≤ u.total by omega)
    have hrest := ih (n - amt) (u.advance zeros 0 t₁) (by omega) hread (Uio.advance_fits hfit t₁)
      (by rw [Uio.advance_uioResid]; omega) (by rw [Uio.advance_uioResid, htotal₁]; omega)
      (by rw [Uio.advance_uioResid, htotal₁]; omega)
    simp only [uiomovezerosLoop, bind_apply, hamt, hmove, hrest, Uio.advance_uioResid]
    -- the rest of the rounds continue the move of the first
    have hnext := Uio.advance_advance u zeros 0 t₁
      (min (n - amt) (u.uioResid - t₁))
    rw [hread, hptr, Nat.zero_add] at hnext
    have hsum : t₁ + min (n - amt) (u.uioResid - t₁) = min n u.uioResid := by omega
    simp only [Uio.advance, hread] at hnext ⊢
    rw [moveIovecs_zeros _ t₁] at hnext
    rw [hnext, hsum]

/-- **`uiomovezeros(n, uio)` is `uiomove` of `n` zeros.** -/
theorem uiomovezeros_eq {n : Nat} {u : Uio} (hread : u.uioRw = .read) (hfit : u.Fits)
    (hword : u.uioResid < 2 ^ 32) (hresid : u.uioResid ≤ u.total)
    (hcap : n ≤ u.uioResid ∨ u.uioResid = u.total) :
    uiomovezeros n u = (uiomove zeros 0 n >>= fun _ => pure ()) u := by
  have hloop := uiomovezerosLoop_eq ((n + 15) / 16) n u (by omega) hread hfit hword hresid hcap
  simp only [uiomovezeros, bind_apply, get_apply, assert_apply, hread, if_true, pure_apply, hloop,
    uiomove_eq_advance hfit hword hresid hcap]

/-- **`uiomove(ptr + p, n, uio)` moves `t = min(n, uio_resid)` bytes in order** between the
kernel buffer and the iovecs from the current one on, when no copy faults and `n <= uio_resid`
or `uio_resid` is the total length of the iovecs: `uio_resid` goes down by `t` without wrapping,
`uio_offset` up by `t`, the stream of the iovecs starts `t` bytes further on, the iovecs moved
past before stay as they were, and `uio_segflg` and `uio_rw` are unchanged. A read puts
`ptr[p .. p+t-1]` at the start of the windows and leaves the rest; a write takes the start of the
stream into `ptr[p .. p+t-1]` and leaves the rest of the kernel buffer and the iovecs' memory.
`uiomovezeros(n, uio)` of a read is `uiomove` of `n` zeros. -/
theorem uiomove_moves_min (ptr : Buf) (p n : Nat) {u : Uio} (hfit : u.Fits)
    (hword : u.uioResid < 2 ^ 32) (hresid : u.uioResid ≤ u.total)
    (hcap : n ≤ u.uioResid ∨ u.uioResid = u.total) :
    ∃ ptr' u', uiomove ptr p n u = .ok ptr' u' ∧
      u'.uioResid = u.uioResid - min n u.uioResid ∧
      u'.uioOffset = u.uioOffset + (min n u.uioResid : Nat) ∧
      u'.uioSegflg = u.uioSegflg ∧ u'.uioRw = u.uioRw ∧
      u'.stream = u.stream.drop (min n u.uioResid) ∧
      u'.iovecs.take u.uioPast.length = u.uioPast.reverse ∧
      (u.uioRw = .read → ptr' = ptr ∧
        readBack u.uioIov (u'.iovecs.drop u.uioPast.length) =
          slice ptr p (min n u.uioResid) ++ u.stream.drop (min n u.uioResid)) ∧
      (u.uioRw = .write →
        slice ptr' p (min n u.uioResid) = u.stream.take (min n u.uioResid) ∧
        (∀ a, a < p ∨ p + min n u.uioResid ≤ a → ptr' a = ptr a) ∧
        u'.iovecs.map Iovec.iovMem = u.iovecs.map Iovec.iovMem) ∧
      (u.uioRw = .read → uiomovezeros n u = (uiomove zeros 0 n >>= fun _ => pure ()) u) := by
  set t := min n u.uioResid with ht
  have htot : t ≤ iovecsTotal u.uioIov := by
    change t ≤ u.total
    omega
  have hiovecs := Uio.advance_iovecs (u := u) ptr p t
  have hlen : u.uioPast.reverse.length = u.uioPast.length := List.length_reverse
  refine ⟨_, _, uiomove_eq_advance hfit hword hresid hcap, rfl, rfl, rfl, rfl,
    Uio.advance_stream htot, ?_, fun hread => ?_, fun hwrite => ?_,
    fun hread => uiomovezeros_eq hread hfit hword hresid hcap⟩
  · rw [hiovecs, List.take_left' hlen]
  · obtain ⟨hptr, hback⟩ := moveIovecs_read u.uioIov ptr p t htot
    rw [hread]
    exact ⟨hptr, by rw [hiovecs, hread, List.drop_left' hlen, hback]; rfl⟩
  · obtain ⟨hslice, hframe, hmem⟩ := moveIovecs_write u.uioIov ptr p t htot
    rw [hwrite]
    refine ⟨hslice, hframe, ?_⟩
    rw [hiovecs, hwrite, List.map_append, hmem, Uio.iovecs, List.map_append]

/-- `uiomove` of a whole kernel buffer of 4 bytes into a uio made by `uio_kinit`. -/
theorem uiomove_moves_min_kinit :
    ∃ ptr' u', uiomove zeros 0 4 (uioKinit zeros 4 0 .read) = .ok ptr' u' ∧ u'.uioResid = 0 := by
  obtain ⟨ptr', u', h, hresid, -⟩ := uiomove_moves_min zeros 0 4
    (u := uioKinit zeros 4 0 .read) (by simp [Uio.Fits, uioKinit, Iovec.Fits]) (by decide)
    (by decide) (.inl le_rfl)
  exact ⟨ptr', u', h, by simpa [uioKinit] using hresid⟩

/-- **`uio_resid` wraps when `n` and the iovec pass it**: one kernel iovec of 10 bytes with
`uio_resid = 5`, and `uiomove` of 10 bytes moves all 10 and leaves `uio_resid = 2 ^ 32 - 5`. -/
theorem uiomove_resid_wraps :
    ∃ u', uiomove zeros 0 10 ⟨[⟨zeros, 0, 10⟩], [], 0, 5, .sysspace, .read⟩ = .ok zeros u' ∧
      u'.uioResid = 2 ^ 32 - 5 ∧ u'.uioOffset = 10 := by
  refine ⟨⟨[⟨copy zeros 0 zeros 0 10, 10, 0⟩], [], 10, 2 ^ 32 - 5, .sysspace, .read⟩, ?_, rfl, rfl⟩
  simp only [uiomove, bind_apply, get_apply, List.length_cons, List.length_nil]
  refine (uiomoveLoop_move_last (k := 0) rfl (by decide) (by decide) rfl (by decide) rfl
    (.inl (by decide))).trans ?_
  rfl

end Os161

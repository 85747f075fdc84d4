import Os161.Klib.Uio

/-!
# The range checks of `vm/copyinout.c`

`copycheck` computes the last byte of the region, `top = bot + len - 1`, in 32 bits. For a
region of at least one byte that is the last byte itself, or that less `2 ^ 32` once the region
runs past the end of the address space, so `copyin` and `copyout` copy exactly when the region
lies below `USERSPACETOP` (`copyin_of_pos`, `copyout_of_pos`). For `len = 0` the subtraction
wraps: `top` is `bot - 1`, below `bot`, or `2 ^ 32 - 1` for `bot = 0`, and both report `EFAULT`
for every address (`copyin_zero`), although an empty region lies in user space at any user
address.

`copystr` copies up to and with the first NUL and stops at `min(maxlen, stoplen)`;
`copystr_ok` and `copystr_err` say what it returns in the two cases, and `copyoutstr_ok` is the
case `runprogram` relies on.
-/

namespace Os161

open Bytes

/-! ### `copycheck` -/

/-- The last byte of a region of `len > 0` bytes at `p`, in 32 bits. -/
theorem copycheck_top {p len : Nat} (hp : p < 2 ^ 32) (hlen : len < 2 ^ 32) (h0 : 0 < len) :
    Word.ofInt 32 ((p : Int) + len - 1) =
      if p + len ≤ 2 ^ 32 then p + len - 1 else p + len - 1 - 2 ^ 32 := by
  unfold Word.ofInt
  split_ifs <;> omega

theorem copycheck_of_pos {p len : Nat} (hp : p < 2 ^ 32) (hlen : len < 2 ^ 32) (h0 : 0 < len) :
    copycheck p len =
      if p + len ≤ USERSPACETOP then .ok len
      else if p < USERSPACETOP ∧ p + len ≤ 2 ^ 32 then .ok (USERSPACETOP - p)
      else .error EFAULT := by
  dsimp only [copycheck]
  rw [copycheck_top hp hlen h0]
  unfold USERSPACETOP
  -- each branch of the source against each case of the region
  split_ifs <;> first | rfl | omega

/-- With `len = 0`, `top` wraps below `bot`, except at address 0 where it is the last byte of
the address space. -/
theorem copycheck_zero {p : Nat} (hp : p < 2 ^ 32) :
    copycheck p 0 = if p = 0 then .ok USERSPACETOP else .error EFAULT := by
  by_cases h0 : p = 0
  · subst h0
    rfl
  · have htop : Word.ofInt 32 ((p : Int) + (0 : Nat) - 1) = p - 1 := by
      unfold Word.ofInt
      omega
    dsimp only [copycheck]
    rw [htop, if_pos (by omega), if_neg h0]

/-! ### `copyin` and `copyout` -/

section Checked

variable {β : Type} (x : β) {p len : Nat}

/-- The shape `copyin` and `copyout` share: the copy `x` happens only if `copycheck` lets the
whole region through. -/
def checked (p len : Nat) : Except Int β :=
  match copycheck p len with
  | .error e => .error e
  | .ok stoplen => if stoplen ≠ len then .error EFAULT else .ok x

theorem checked_of_pos (hp : p < 2 ^ 32) (hlen : len < 2 ^ 32) (h0 : 0 < len) :
    checked x p len = if p + len ≤ USERSPACETOP then .ok x else .error EFAULT := by
  unfold checked
  rw [copycheck_of_pos hp hlen h0]
  by_cases hin : p + len ≤ USERSPACETOP
  · rw [if_pos hin, if_pos hin]
    exact if_neg (not_not.mpr rfl)
  · rw [if_neg hin, if_neg hin]
    split_ifs with hstr
    · -- the region straddles `USERSPACETOP`: `stoplen` is shorter than `len`
      exact if_pos (by omega)
    · rfl

theorem checked_zero (hp : p < 2 ^ 32) : checked x p 0 = .error EFAULT := by
  unfold checked
  rw [copycheck_zero hp]
  split_ifs
  · exact if_pos (by decide)
  · rfl

end Checked

theorem copyin_eq_checked (user : Buf) (p : Nat) (dest : Buf) (d len : Nat) :
    copyin user p dest d len = checked (copy dest d user p len) p len := rfl

theorem copyout_eq_checked (src : Buf) (s : Nat) (user : Buf) (p len : Nat) :
    copyout src s user p len = checked (copy user p src s len) p len := rfl

/-- **`copyin` of at least one byte copies exactly when the region is user space.** -/
theorem copyin_of_pos (user : Buf) (dest : Buf) (d : Nat) {p len : Nat} (hp : p < 2 ^ 32)
    (hlen : len < 2 ^ 32) (h0 : 0 < len) :
    copyin user p dest d len =
      if p + len ≤ USERSPACETOP then .ok (copy dest d user p len) else .error EFAULT := by
  rw [copyin_eq_checked, checked_of_pos _ hp hlen h0]

theorem copyout_of_pos (src : Buf) (s : Nat) (user : Buf) {p len : Nat} (hp : p < 2 ^ 32)
    (hlen : len < 2 ^ 32) (h0 : 0 < len) :
    copyout src s user p len =
      if p + len ≤ USERSPACETOP then .ok (copy user p src s len) else .error EFAULT := by
  rw [copyout_eq_checked, checked_of_pos _ hp hlen h0]

/-- **`copyin` of no bytes fails at every address.** -/
theorem copyin_zero (user dest : Buf) (d : Nat) {p : Nat} (hp : p < 2 ^ 32) :
    copyin user p dest d 0 = .error EFAULT := by
  rw [copyin_eq_checked, checked_zero _ hp]

theorem copyout_zero (src : Buf) (s : Nat) (user : Buf) {p : Nat} (hp : p < 2 ^ 32) :
    copyout src s user p 0 = .error EFAULT := by
  rw [copyout_eq_checked, checked_zero _ hp]

/-- `copyinstr` with no room at a nonzero address reports `EFAULT`, not `ENAMETOOLONG`. -/
theorem copyinstr_zero (user dest : Buf) (d : Nat) {p : Nat} (hp0 : 0 < p) (hp : p < 2 ^ 32) :
    copyinstr user p dest d 0 = (dest, .error EFAULT) := by
  unfold copyinstr
  rw [copycheck_zero hp, if_neg (by omega)]

/-- The empty region at the user address `0x400000` is inside user space, and `copyin` of it
reports `EFAULT` whatever the memory. -/
theorem copyin_empty_range_efault :
    (0x400000 : Nat) + 0 ≤ USERSPACETOP ∧
      ∀ user dest : Buf, copyin user 0x400000 dest 0 0 = .error EFAULT :=
  ⟨by decide, fun user dest => copyin_zero user dest 0 (by decide)⟩

/-! ### `copystr` -/

section Copystr

variable {dest src : Buf} {d s maxlen stoplen : Nat}

/-- Bytes other than NUL are copied and the loop goes on. -/
theorem copystrLoop_skip (t : Nat) :
    ∀ i k, i + t ≤ maxlen → i + t ≤ stoplen → t ≤ k →
      (∀ j, i ≤ j → j < i + t → src (s + j) ≠ 0) →
      copystrLoop (copy dest d src s i) d src s maxlen stoplen i k =
        copystrLoop (copy dest d src s (i + t)) d src s maxlen stoplen (i + t) (k - t) := by
  induction t with
  | zero => intro i k _ _ _ _; rfl
  | succ t ih =>
    intro i k hm hs hk hne
    obtain ⟨k, rfl⟩ : ∃ k', k = k' + 1 := ⟨k - 1, by omega⟩
    have hc : src (s + i) ≠ 0 := hne i (le_refl i) (by omega)
    rw [copystrLoop, if_pos ⟨by omega, by omega⟩, ← copy_succ, if_neg hc,
      ih (i + 1) k (by omega) (by omega) (by omega) fun j hj hj' => hne j (by omega) (by omega)]
    rw [show i + 1 + t = i + (t + 1) by omega, show k - t = k + 1 - (t + 1) by omega]

/-- **`copystr` finds the NUL at `k`**, before `maxlen` and `stoplen`: the string with its NUL
is copied and `gotlen` is `k + 1`. -/
theorem copystr_ok {k : Nat} (hz : src (s + k) = 0) (hpre : ∀ j < k, src (s + j) ≠ 0)
    (hkm : k < maxlen) (hks : k < stoplen) :
    copystr dest d src s maxlen stoplen = (copy dest d src s (k + 1), .ok (k + 1)) := by
  have hloop : copystrLoop dest d src s maxlen stoplen 0 maxlen =
      (copy dest d src s (k + 1), some (k + 1)) := by
    have hskip : copystrLoop (copy dest d src s 0) d src s maxlen stoplen 0 maxlen =
        copystrLoop (copy dest d src s (0 + k)) d src s maxlen stoplen (0 + k) (maxlen - k) :=
      copystrLoop_skip k 0 maxlen (by omega) (by omega) (by omega) fun j _ hj => hpre j (by omega)
    rw [copy_zero, Nat.zero_add] at hskip
    obtain ⟨r, hr⟩ : ∃ r, maxlen - k = r + 1 := ⟨maxlen - k - 1, by omega⟩
    rw [hskip, hr, copystrLoop, if_pos ⟨hkm, hks⟩, if_pos hz, ← copy_succ]
  unfold copystr
  rw [hloop]

/-- **`copystr` finds no NUL before `min(maxlen, stoplen)`**: that many bytes are copied, and
the error is `EFAULT` if `stoplen` was the limit, `ENAMETOOLONG` otherwise. -/
theorem copystr_err (hpre : ∀ j < min maxlen stoplen, src (s + j) ≠ 0) :
    copystr dest d src s maxlen stoplen =
      (copy dest d src s (min maxlen stoplen),
        .error (if stoplen < maxlen then EFAULT else ENAMETOOLONG)) := by
  have hloop : copystrLoop dest d src s maxlen stoplen 0 maxlen =
      (copy dest d src s (min maxlen stoplen), none) := by
    have hskip : copystrLoop (copy dest d src s 0) d src s maxlen stoplen 0 maxlen =
        copystrLoop (copy dest d src s (0 + min maxlen stoplen)) d src s maxlen stoplen
          (0 + min maxlen stoplen) (maxlen - min maxlen stoplen) :=
      copystrLoop_skip (min maxlen stoplen) 0 maxlen (by omega) (by omega) (by omega)
        fun j _ hj => hpre j (by omega)
    rw [copy_zero, Nat.zero_add] at hskip
    rw [hskip]
    -- the loop stops at `min maxlen stoplen`, whatever rounds are left
    cases hr : maxlen - min maxlen stoplen with
    | zero => rfl
    | succ r => rw [copystrLoop, if_neg (by omega)]
  unfold copystr
  rw [hloop]

end Copystr

/-- **`copyoutstr` of a string that fits below `USERSPACETOP`**: the string and its NUL are
written at `userdest`. -/
theorem copyoutstr_ok {src : Buf} {s : Nat} (user : Buf) {userdest len k : Nat}
    (hz : src (s + k) = 0) (hpre : ∀ j < k, src (s + j) ≠ 0) (hk : k < len)
    (hfit : userdest + len ≤ USERSPACETOP) (hlen : len < 2 ^ 32) :
    copyoutstr src s user userdest len = (copy user userdest src s (k + 1), .ok (k + 1)) := by
  have hp : userdest < 2 ^ 32 := by
    unfold USERSPACETOP at hfit
    omega
  unfold copyoutstr
  rw [copycheck_of_pos hp hlen (by omega), if_pos hfit]
  exact copystr_ok hz hpre hk hk

end Os161

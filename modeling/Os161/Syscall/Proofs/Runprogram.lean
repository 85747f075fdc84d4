import Os161.Syscall.Runprogram
import Os161.Klib.Proofs.Copyinout

/-!
# The arguments decode back from the user stack

The strings of `args` take `argsLen args` bytes, each with its NUL. `runprogram` puts them
right below `USERSTACK`, the first argument lowest, so `args[i]` starts
`argsLen (args.drop i)` bytes below the top (`copyArgs_spec`), and below them, after the
padding, the `nargs + 1` words of `argv` (`copyArgv_spec`). When all of this fits in the
stack of `dumbvm`, the words at `argv` point at the strings and the strings read back as the
arguments (`runprogramArgs_layout`).
-/

namespace Os161

open Bytes

/-! ### The layout -/

/-- The bytes of the strings of `args`, each with its NUL. -/
def argsLen (args : List CStr) : Nat := (args.map fun a => a.length + 1).sum

/-- The addresses of the strings of `args` below `top`, the first argument lowest. -/
def argAddrs (top : Nat) : List CStr → List Nat
  | [] => []
  | a :: rest => (top - argsLen (a :: rest)) :: argAddrs top rest

@[simp] theorem argsLen_nil : argsLen [] = 0 := rfl

theorem argsLen_cons (a : CStr) (rest : List CStr) :
    argsLen (a :: rest) = a.length + 1 + argsLen rest := by
  simp [argsLen]

/-- The strings from `args[i]` on are `args[i]` and the strings after it. -/
theorem argsLen_drop {args : List CStr} {i : Nat} (hi : i < args.length) :
    argsLen (args.drop i) = args[i].length + 1 + argsLen (args.drop (i + 1)) := by
  rw [List.drop_eq_getElem_cons hi, argsLen_cons]

theorem argsLen_drop_le (args : List CStr) (i : Nat) : argsLen (args.drop i) ≤ argsLen args := by
  induction args generalizing i with
  | nil => simp
  | cons a rest ih =>
    cases i with
    | zero => exact le_refl _
    | succ i =>
      rw [List.drop_succ_cons, argsLen_cons]
      exact le_trans (ih i) (by omega)

theorem argsLen_drop_anti (args : List CStr) {i j : Nat} (hij : i ≤ j) :
    argsLen (args.drop j) ≤ argsLen (args.drop i) := by
  obtain ⟨k, rfl⟩ := Nat.exists_eq_add_of_le hij
  rw [← List.drop_drop]
  exact argsLen_drop_le _ k

theorem length_argAddrs (top : Nat) (args : List CStr) : (argAddrs top args).length = args.length := by
  induction args with
  | nil => rfl
  | cons a rest ih => simp [argAddrs, ih]

theorem getElem_argAddrs (top : Nat) (args : List CStr) (i : Nat)
    (hi : i < (argAddrs top args).length) :
    (argAddrs top args)[i] = top - argsLen (args.drop i) := by
  induction args generalizing i with
  | nil => simp [argAddrs] at hi
  | cons a rest ih =>
    cases i with
    | zero => rfl
    | succ i => exact ih i (by simpa [argAddrs] using hi)

theorem argAddrs_le {top : Nat} {args : List CStr} : ∀ p ∈ argAddrs top args, p ≤ top := by
  induction args with
  | nil => simp [argAddrs]
  | cons a rest ih =>
    simp only [argAddrs, List.mem_cons]
    rintro p (rfl | hp)
    · omega
    · exact ih p hp

/-! ### The kernel strings -/

theorem CStr.buf_of_lt (a : CStr) {j : Nat} (hj : j < a.length) : a.buf j = a.bytes[j] := by
  simp only [CStr.buf, List.getD_eq_getElem?_getD, List.getElem?_eq_getElem hj, Option.getD_some]

theorem CStr.buf_length (a : CStr) : a.buf a.length = 0 := by
  simp [CStr.buf, List.getD_eq_getElem?_getD, CStr.length]

theorem CStr.buf_ne_zero (a : CStr) {j : Nat} (hj : j < a.length) : a.buf j ≠ 0 := by
  rw [a.buf_of_lt hj]
  intro h
  exact a.nul_not_mem (h ▸ List.getElem_mem hj)

/-- `copyoutstr(args[i], p, strlen(args[i]) + 1)` below `USERSPACETOP` writes the string and
its NUL. -/
theorem copyoutstr_arg (a : CStr) (user : Buf) {p : Nat}
    (hfit : p + (a.length + 1) ≤ USERSPACETOP) :
    (copyoutstr a.buf 0 user p (a.length + 1)).1 = copy user p a.buf 0 (a.length + 1) := by
  have hz : a.buf (0 + a.length) = 0 := by rw [Nat.zero_add]; exact a.buf_length
  have hpre : ∀ j < a.length, a.buf (0 + j) ≠ 0 := fun j hj => by
    rw [Nat.zero_add]; exact a.buf_ne_zero hj
  have hlen : a.length + 1 < 2 ^ 32 := by
    unfold USERSPACETOP at hfit
    omega
  rw [copyoutstr_ok user hz hpre (Nat.lt_succ_self _) hfit hlen]

/-! ### The two loops -/

/-- **The strings loop**: below `top`, `args[i]` and its NUL start `argsLen (args.drop i)`
bytes down, and nothing else below `top` or above it changes. -/
theorem copyArgs_spec (top : Nat) (htop : top ≤ USERSPACETOP) :
    ∀ (args : List CStr) (total : Nat) (user : Buf), argsLen args ≤ top →
      ∃ user', copyArgs args top total user =
          (top - argsLen args, total + argsLen args, argAddrs top args, user') ∧
        (∀ x, (x < top - argsLen args ∨ top ≤ x) → user' x = user x) ∧
        ∀ i (hi : i < args.length), ∀ j ≤ args[i].length,
          user' (top - argsLen (args.drop i) + j) = args[i].buf j
  | [], total, user, _ => ⟨user, rfl, fun _ _ => rfl, fun i hi => absurd hi (by simp)⟩
  | a :: rest, total, user, hlen => by
    have hcons := argsLen_cons a rest
    have hlen' : argsLen rest ≤ top := by omega
    obtain ⟨u, hu, hout, hstr⟩ := copyArgs_spec top htop rest total user hlen'
    -- `args[0]` goes right below the strings of the rest
    have hsp : Word.sub 32 (top - argsLen rest) (a.length + 1) = top - argsLen (a :: rest) := by
      have htop' : top < 2 ^ 32 := by
        unfold USERSPACETOP at htop
        omega
      rw [Word.sub_of_le (by omega) (by omega)]
      omega
    have hcopy := copyoutstr_arg a u (p := top - argsLen (a :: rest)) (by omega)
    refine ⟨copy u (top - argsLen (a :: rest)) a.buf 0 (a.length + 1), ?_, ?_, ?_⟩
    · simp only [copyArgs, hu, hsp, hcopy, argAddrs]
      rw [show total + argsLen rest + (a.length + 1) = total + argsLen (a :: rest) by omega]
    · intro x hx
      rw [copy_of_not_mem (by omega)]
      exact hout x (by omega)
    · intro i hi j hj
      cases i with
      | zero =>
        simp only [List.drop_zero, List.getElem_cons_zero] at hj ⊢
        rw [copy_of_mem (by omega) (by omega), Nat.add_sub_cancel_left, Nat.zero_add]
      | succ i =>
        have hi' : i < rest.length := by simpa using hi
        have hle := argsLen_drop_le rest i
        simp only [List.getElem_cons_succ, List.drop_succ_cons] at hj ⊢
        -- a string of the rest lies above `args[0]`'s
        rw [copy_of_not_mem (by omega)]
        exact hstr i hi' j hj

/-- A store of a word leaves the word where it is stored, and nothing else. -/
theorem getBE_copy_setBE (user : Buf) (sp p : Nat) (hp : p < 2 ^ 32) :
    getBE (copy user sp (setBE zeros 0 4 p) 0 4) sp 4 = p := by
  have hcongr : getBE (copy user sp (setBE zeros 0 4 p) 0 4) sp 4 =
      getBE (fun i => setBE zeros 0 4 p (i - sp)) sp 4 :=
    getBE_congr fun i hi hi' => by rw [copy_of_mem hi hi', Nat.zero_add]
  rw [hcongr]
  have hshift : ∀ o n, sp ≤ o → getBE (fun i => setBE zeros 0 4 p (i - sp)) o n =
      getBE (setBE zeros 0 4 p) (o - sp) n := by
    intro o n ho
    induction n generalizing o with
    | zero => rfl
    | succ n ih => simp only [getBE_succ, ih (o + 1) (by omega), show o + 1 - sp = o - sp + 1 by omega]
  rw [hshift sp 4 (le_refl sp), Nat.sub_self, getBE_setBE]
  exact Nat.mod_eq_of_lt (by simpa using hp)

/-- **The `argv` loop**: the words of `ps` end up right below `sp`, the first lowest. -/
theorem copyArgv_spec (sp : Nat) (hsp : sp ≤ USERSPACETOP) :
    ∀ (ps : List Nat) (user : Buf), 4 * ps.length ≤ sp → (∀ p ∈ ps, p < 2 ^ 32) →
      ∃ user', copyArgv ps sp user = (sp - 4 * ps.length, user') ∧
        (∀ x, (x < sp - 4 * ps.length ∨ sp ≤ x) → user' x = user x) ∧
        ∀ i (hi : i < ps.length), getBE user' (sp - 4 * ps.length + 4 * i) 4 = ps[i]
  | [], user, _, _ => ⟨user, by simp [copyArgv], fun _ _ => rfl, fun i hi => absurd hi (by simp)⟩
  | p :: rest, user, hlen, hps => by
    simp only [List.length_cons] at hlen
    obtain ⟨u, hu, hout, hwords⟩ :=
      copyArgv_spec sp hsp rest user (by omega) fun q hq => hps q (List.mem_cons_of_mem p hq)
    have hsp' : sp < 2 ^ 32 := by
      unfold USERSPACETOP at hsp
      omega
    have hsub : Word.sub 32 (sp - 4 * rest.length) 4 = sp - 4 * (rest.length + 1) :=
      by rw [Word.sub_of_le (by omega) (by omega)]; omega
    have hcopy : copyout (setBE zeros 0 4 p) 0 u (sp - 4 * (rest.length + 1)) 4 =
        .ok (copy u (sp - 4 * (rest.length + 1)) (setBE zeros 0 4 p) 0 4) := by
      rw [copyout_of_pos _ _ _ (by omega) (by decide) (by decide), if_pos (by omega)]
    refine ⟨copy u (sp - 4 * (rest.length + 1)) (setBE zeros 0 4 p) 0 4, ?_, ?_, ?_⟩
    · simp only [copyArgv, hu, hsub, hcopy, List.length_cons]
    · intro x hx
      simp only [List.length_cons] at hx
      rw [copy_of_not_mem (by omega)]
      exact hout x (by omega)
    · intro i hi
      simp only [List.length_cons] at hi ⊢
      cases i with
      | zero => simpa using getBE_copy_setBE u _ p (hps p (List.mem_cons_self ..))
      | succ i =>
        -- the later words lie above the one just stored
        have hcongr : getBE (copy u (sp - 4 * (rest.length + 1)) (setBE zeros 0 4 p) 0 4)
            (sp - 4 * (rest.length + 1) + 4 * (i + 1)) 4 =
            getBE u (sp - 4 * rest.length + 4 * i) 4 := by
          rw [show sp - 4 * (rest.length + 1) + 4 * (i + 1) = sp - 4 * rest.length + 4 * i by
            omega]
          exact getBE_congr fun x hx _ => copy_of_not_mem (by omega)
        rw [hcongr, hwords i (by omega), List.getElem_cons_succ]

/-! ### The stack after `runprogram` -/

/-- **Program arguments round-trip through the user stack.** If the strings, the padding and
`argv` fit in the `dumbvm` stack, `runprogram` hands `enter_new_process` the argument count
and one aligned address `ap` as both `argv` and the stack pointer. The array at `ap` lies in
the stack, below the strings; its word `i` is the address of a NUL-terminated copy of
`args[i]` and its word `nargs` is `NULL`; and the strings do not overlap. -/
theorem runprogramArgs_layout (args : List CStr) (user : Buf)
    (hfit : argsLen args + (4 - argsLen args % 4) + 4 * (args.length + 1) ≤
      DUMBVM_STACKPAGES * PAGE_SIZE) :
    ∃ ap user', runprogramArgs args true USERSTACK user = .ok ((args.length, ap, ap), user') ∧
      ap % 4 = 0 ∧ USERSTACK - DUMBVM_STACKPAGES * PAGE_SIZE ≤ ap ∧
      ap + 4 * (args.length + 1) ≤ USERSTACK - argsLen args ∧
      (∀ i (hi : i < args.length),
        getBE user' (ap + 4 * i) 4 = USERSTACK - argsLen (args.drop i) ∧
        (∀ j (hj : j < args[i].length),
          user' (USERSTACK - argsLen (args.drop i) + j) = args[i].bytes[j]) ∧
        user' (USERSTACK - argsLen (args.drop i) + args[i].length) = 0) ∧
      getBE user' (ap + 4 * args.length) 4 = 0 ∧
      ∀ i j (hij : i < j) (hj : j < args.length),
        USERSTACK - argsLen (args.drop i) + (args[i].length + 1) ≤
          USERSTACK - argsLen (args.drop j) := by
  have hstack : DUMBVM_STACKPAGES * PAGE_SIZE = 49152 := rfl
  have htop : USERSTACK = 2 ^ 31 := rfl
  obtain ⟨u₁, hu₁, hout₁, hstr₁⟩ := copyArgs_spec USERSTACK (le_refl _) args 0 user (by omega)
  rw [Nat.zero_add] at hu₁
  -- the padding keeps the stack pointer a multiple of 4
  have hpad : Word.sub 32 (USERSTACK - argsLen args) (4 - argsLen args % 4) =
      USERSTACK - argsLen args - (4 - argsLen args % 4) :=
    Word.sub_of_le (by omega) (by omega)
  have hps : ∀ p ∈ argAddrs USERSTACK args ++ [0], p < 2 ^ 32 := by
    intro p hp
    rcases List.mem_append.mp hp with hp | hp
    · have := argAddrs_le p hp
      omega
    · simp only [List.mem_singleton] at hp
      omega
  obtain ⟨u₂, hu₂, hout₂, hwords₂⟩ :=
    copyArgv_spec (USERSTACK - argsLen args - (4 - argsLen args % 4))
      (by unfold USERSPACETOP; omega) (argAddrs USERSTACK args ++ [0]) u₁
      (by simp only [List.length_append, length_argAddrs, List.length_singleton]; omega) hps
  simp only [List.length_append, length_argAddrs, List.length_singleton] at hu₂ hout₂ hwords₂
  refine ⟨USERSTACK - argsLen args - (4 - argsLen args % 4) - 4 * (args.length + 1), u₂, ?_,
    by omega, by omega, by omega, ?_, ?_, ?_⟩
  · simp only [runprogramArgs, Bool.not_true, Bool.false_eq_true, if_false, hu₁, hpad, hu₂]
  · intro i hi
    have hle := argsLen_drop_le args i
    have hdrop := argsLen_drop hi
    refine ⟨?_, ?_, ?_⟩
    · rw [hwords₂ i (by omega), List.getElem_append_left (by rw [length_argAddrs]; exact hi),
        getElem_argAddrs]
    · intro j hj
      rw [hout₂ _ (by omega), hstr₁ i hi j hj.le, CStr.buf_of_lt _ hj]
    · rw [hout₂ _ (by omega), hstr₁ i hi _ (le_refl _), CStr.buf_length]
  · rw [hwords₂ args.length (by omega),
      List.getElem_append_right (by rw [length_argAddrs])]
    simp [length_argAddrs]
  · intro i j hij hj
    have hdrop := argsLen_drop (Nat.lt_trans hij hj)
    have hanti := argsLen_drop_anti args (show i + 1 ≤ j from hij)
    have hle := argsLen_drop_le args i
    omega

/-- The arguments of `p bin/sh -c`: the program name and one option. -/
def shArgs : List CStr := [⟨[98, 105, 110, 47, 115, 104], by decide⟩, ⟨[45, 99], by decide⟩]

theorem runprogramArgs_layout_shArgs :
    argsLen shArgs + (4 - argsLen shArgs % 4) + 4 * (shArgs.length + 1) ≤
        DUMBVM_STACKPAGES * PAGE_SIZE ∧
      ∃ ap user', runprogramArgs shArgs true USERSTACK zeros = .ok ((2, ap, ap), user') ∧
        ap % 4 = 0 := by
  have hfit : argsLen shArgs + (4 - argsLen shArgs % 4) + 4 * (shArgs.length + 1) ≤
      DUMBVM_STACKPAGES * PAGE_SIZE := by decide
  obtain ⟨ap, user', hrun, halign, -⟩ := runprogramArgs_layout shArgs zeros hfit
  exact ⟨hfit, ap, user', hrun, halign⟩

end Os161

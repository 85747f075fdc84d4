import Os161.Dev.Console
import Os161.Lib.Ring

/-!
# Console input is a FIFO that loses a character only when full

The history of a run (`ConHistory`) records the characters `con_input` accepted, as the bytes
it stored, and the characters `getch` returned. In every reachable state (`ConsoleInv`):

* the characters returned, followed by the contents of the ring from `cs_gotchars_tail` to
  `cs_gotchars_head`, are the characters accepted;
* the count of `cs_rsem`, plus one while the reader is between its `P` and its move of the
  tail, is the number of characters in the ring, `(head - tail) % CONSOLE_INPUT_BUFFER_SIZE`;
* the character the reader holds is the one at the tail.

`ConsoleInv.step` proves that every event keeps it, one case per event, and
`console_input_fifo` reads the claim off it: `con_input` drops a character exactly when
`CONSOLE_INPUT_BUFFER_SIZE - 1` accepted characters wait, and from an idle reader the next
`getch` returns the next accepted character.
-/

namespace Os161

open Lts

/-- The characters `con_input` accepted, as the bytes it stored, and those `getch` returned. -/
structure ConHistory where
  accepted : List ℕ
  returned : List ℕ

/-- How an event extends the history: a `con_input` that moved the head accepted its
character, and the last step of `getch_intr` returned the one the reader held. -/
def conRecord (cs : ConSoftc) (e : ConEvent) (cs' : ConSoftc) (h : ConHistory) : ConHistory :=
  match e, cs.pc with
  | .input ch, _ =>
    if cs'.gotcharsHead ≠ cs.gotcharsHead then { h with accepted := h.accepted ++ [Word.ofInt 8 ch] }
    else h
  | .getchTail, .gotChar ret => { h with returned := h.returned ++ [ret] }
  | _, _ => h

/-- The console with its history. -/
def consoleIo (buf₀ : ℕ → ℕ) : System (ConSoftc × ConHistory) ConEvent :=
  (console buf₀).withHistory ⟨[], []⟩ conRecord

/-- The characters in the ring, from the tail to the head. -/
def ConSoftc.waiting (cs : ConSoftc) : List ℕ :=
  Ring.window cs.gotchars CONSOLE_INPUT_BUFFER_SIZE cs.gotcharsTail
    (Ring.dist CONSOLE_INPUT_BUFFER_SIZE cs.gotcharsTail cs.gotcharsHead)

/-- One while the reader is between its `P` and its move of the tail. -/
def GetchPc.holding : GetchPc → ℕ
  | .idle => 0
  | _ => 1

/-- The invariant of the console and its history. -/
structure ConsoleInv (cs : ConSoftc) (h : ConHistory) : Prop where
  head_lt : cs.gotcharsHead < CONSOLE_INPUT_BUFFER_SIZE
  tail_lt : cs.gotcharsTail < CONSOLE_INPUT_BUFFER_SIZE
  /-- `cs_rsem` counts the characters in the ring that no reader has claimed. -/
  count : cs.rsem + cs.pc.holding = Ring.dist CONSOLE_INPUT_BUFFER_SIZE cs.gotcharsTail cs.gotcharsHead
  /-- The characters returned, then those in the ring, are those accepted. -/
  fifo : h.returned ++ cs.waiting = h.accepted
  /-- The character the reader holds is the one at the tail. -/
  held : ∀ ret, cs.pc = .gotChar ret → ret = cs.gotchars cs.gotcharsTail

namespace ConsoleInv

variable {cs : ConSoftc} {h : ConHistory}

/-- The code's `(i + 1) % CONSOLE_INPUT_BUFFER_SIZE` on an index of the ring is the next slot. -/
theorem next_mod {i : ℕ} (hi : i < CONSOLE_INPUT_BUFFER_SIZE) :
    (i + 1) % CONSOLE_INPUT_BUFFER_SIZE = Ring.idx CONSOLE_INPUT_BUFFER_SIZE i 1 :=
  (Ring.idx_eq_mod hi (by decide)).symm

/-- Moving an index of the ring on changes it. -/
theorem next_ne {i : ℕ} (hi : i < CONSOLE_INPUT_BUFFER_SIZE) :
    Ring.idx CONSOLE_INPUT_BUFFER_SIZE i 1 ≠ i := by
  have hne := Ring.idx_ne (r := i) zero_lt_one (show 1 < CONSOLE_INPUT_BUFFER_SIZE by decide)
  rw [Ring.idx_zero hi] at hne
  exact hne.symm

/-- The ring is not empty while the reader holds the semaphore. -/
theorem tail_ne_head (hinv : ConsoleInv cs h) (hpc : cs.pc ≠ .idle) :
    cs.gotcharsTail ≠ cs.gotcharsHead := by
  intro heq
  have hc := hinv.count
  have hhold : cs.pc.holding = 1 := by
    cases hp : cs.pc with
    | idle => exact absurd hp hpc
    | gotSem => rfl
    | gotChar _ => rfl
  simp only [hhold, heq, Ring.dist_self] at hc
  omega

/-- **`con_input`**: a character that finds the ring full is dropped and changes nothing;
otherwise it goes at the head, which moves on, and the count goes up. -/
theorem input (hinv : ConsoleInv cs h) (ch : Int) :
    ConsoleInv (conInput cs ch) (conRecord cs (.input ch) (conInput cs ch) h) := by
  have hhead := hinv.head_lt
  have htail := hinv.tail_lt
  have hdist := Ring.dist_lt htail hhead
  by_cases hfull : (cs.gotcharsHead + 1) % CONSOLE_INPUT_BUFFER_SIZE = cs.gotcharsTail
  · -- overflow: the state and the history stay
    have hdrop : conInput cs ch = cs := by simp [conInput, hfull]
    rw [hdrop]
    simpa [conRecord] using hinv
  · rw [next_mod hhead] at hfull
    have hroom : Ring.dist CONSOLE_INPUT_BUFFER_SIZE cs.gotcharsTail cs.gotcharsHead + 1 <
        CONSOLE_INPUT_BUFFER_SIZE := by
      rw [Ring.idx_one_eq_iff htail hhead] at hfull
      omega
    have hmoved := next_ne hhead
    have hstep : conInput cs ch =
        { cs with gotchars := Function.update cs.gotchars cs.gotcharsHead (Word.ofInt 8 ch),
                  gotcharsHead := Ring.idx CONSOLE_INPUT_BUFFER_SIZE cs.gotcharsHead 1,
                  rsem := cs.rsem + 1 } := by
      simp [conInput, next_mod hhead, hfull]
    rw [hstep]
    constructor
    · exact Ring.idx_lt hhead (by decide)
    · exact htail
    · show cs.rsem + 1 + cs.pc.holding = _
      rw [Ring.dist_push htail hhead hroom, ← hinv.count]
      omega
    · -- the new character is the last of the ring and the last accepted
      simp only [conRecord, ne_eq, hmoved, not_false_eq_true, if_true]
      show h.returned ++ Ring.window _ _ _ (Ring.dist _ _ _) = h.accepted ++ [Word.ofInt 8 ch]
      rw [Ring.dist_push htail hhead hroom, ← hinv.fifo, List.append_assoc]
      congr 1
      apply Ring.window_push
      · intro k hk
        have hne : Ring.idx CONSOLE_INPUT_BUFFER_SIZE cs.gotcharsTail k ≠ cs.gotcharsHead := by
          rw [← Ring.idx_dist htail hhead]
          exact Ring.idx_ne hk hdist
        exact Function.update_of_ne hne _ _
      · rw [Ring.idx_dist htail hhead]
        exact Function.update_self _ _ _
    · intro ret hret
      have hne := hinv.tail_ne_head (by rw [hret]; simp)
      rw [hinv.held ret hret]
      exact (Function.update_of_ne hne _ _).symm

/-- **Every event keeps the invariant.** -/
theorem step {cs' : ConSoftc} (hinv : ConsoleInv cs h) {e : ConEvent}
    (hn : conStep cs e = some cs') : ConsoleInv cs' (conRecord cs e cs' h) := by
  cases e with
  | input ch =>
    simp only [conStep, Option.some.injEq] at hn
    subst hn
    exact hinv.input ch
  | getchP =>
    -- the reader takes one from the count and holds the semaphore
    cases hp : cs.pc with
    | idle =>
      simp only [conStep, hp] at hn
      split_ifs at hn with hpos
      simp only [Option.some.injEq] at hn
      subst hn
      refine ⟨hinv.head_lt, hinv.tail_lt, ?_,
        by simpa [conRecord, hp, ConSoftc.waiting] using hinv.fifo, ?_⟩
      · have hc := hinv.count
        rw [hp] at hc
        simp only [GetchPc.holding] at hc ⊢
        omega
      · intro ret hret
        cases hret
    | gotSem => simp [conStep, hp] at hn
    | gotChar _ => simp [conStep, hp] at hn
  | getchRead =>
    cases hp : cs.pc with
    | gotSem =>
      simp only [conStep, hp, Option.some.injEq] at hn
      subst hn
      refine ⟨hinv.head_lt, hinv.tail_lt, ?_,
        by simpa [conRecord, hp, ConSoftc.waiting] using hinv.fifo, ?_⟩
      · have hc := hinv.count
        rw [hp] at hc
        exact hc
      · intro ret hret
        cases hret
        rfl
    | idle => simp [conStep, hp] at hn
    | gotChar _ => simp [conStep, hp] at hn
  | getchTail =>
    cases hp : cs.pc with
    | gotChar ret =>
      have hhead := hinv.head_lt
      have htail := hinv.tail_lt
      simp only [conStep, hp, Option.some.injEq, next_mod htail] at hn
      subst hn
      have hne := hinv.tail_ne_head (by rw [hp]; simp)
      have hpop := Ring.dist_pop htail hhead (Ne.symm hne)
      have hdist := Ring.dist_lt htail hhead
      refine ⟨hhead, Ring.idx_lt htail (by decide), ?_, ?_, ?_⟩
      · -- the reader lets go of the semaphore and one character leaves the ring
        have hc := hinv.count
        rw [hp] at hc
        show cs.rsem + 0 = Ring.dist CONSOLE_INPUT_BUFFER_SIZE
          (Ring.idx CONSOLE_INPUT_BUFFER_SIZE cs.gotcharsTail 1) cs.gotcharsHead
        simp only [GetchPc.holding] at hc
        omega
      · -- the character returned was the first of the ring
        simp only [conRecord, hp]
        show h.returned ++ [ret] ++ Ring.window cs.gotchars CONSOLE_INPUT_BUFFER_SIZE
          (Ring.idx CONSOLE_INPUT_BUFFER_SIZE cs.gotcharsTail 1) (Ring.dist CONSOLE_INPUT_BUFFER_SIZE
            (Ring.idx CONSOLE_INPUT_BUFFER_SIZE cs.gotcharsTail 1) cs.gotcharsHead) = h.accepted
        rw [← hinv.fifo, List.append_assoc, hinv.held ret hp]
        congr 1
        unfold ConSoftc.waiting
        rw [← hpop, Ring.window_pop _ htail (by omega)]
        rfl
      · intro ret' hret'
        cases hret'
    | idle => simp [conStep, hp] at hn
    | gotSem => simp [conStep, hp] at hn

end ConsoleInv

/-- **The invariant holds in every reachable state.** -/
theorem consoleInv_inductive (buf₀ : ℕ → ℕ) :
    (consoleIo buf₀).Inductive fun x => ConsoleInv x.1 x.2 := by
  refine ⟨?_, fun x e y hinv hn => ?_⟩
  · have hsize : 0 < CONSOLE_INPUT_BUFFER_SIZE := by decide
    refine ⟨hsize, hsize, rfl, by simp [consoleIo, System.withHistory, console,
      ConSoftc.waiting, Ring.window], ?_⟩
    intro ret hret
    cases hret
  · obtain ⟨hn, hy⟩ := System.withHistory_next_eq_some hn
    rw [hy]
    exact hinv.step hn

/-- **Console input is a lossless-unless-full FIFO.** In every reachable state of any
interleaving of `con_input` with the `getch`es of one reader: the characters `getch` returned,
followed by those in the ring, are exactly the characters `con_input` accepted, in order;
`con_input` drops a character (and changes nothing) exactly when
`CONSOLE_INPUT_BUFFER_SIZE - 1` accepted characters wait; the count of `cs_rsem`, plus one
while the reader is between its `P` and its move of the tail, is
`(head - tail) % CONSOLE_INPUT_BUFFER_SIZE`; and an idle reader's next `getch` returns the next
accepted character, if there is one. -/
theorem console_input_fifo (buf₀ : ℕ → ℕ) {x : ConSoftc × ConHistory}
    (hx : (consoleIo buf₀).Reachable x) :
    x.2.returned ++ x.1.waiting = x.2.accepted ∧
      (∀ ch, conInput x.1 ch = x.1 ↔
        x.2.accepted.length - x.2.returned.length = CONSOLE_INPUT_BUFFER_SIZE - 1) ∧
      x.1.rsem + x.1.pc.holding =
        (x.1.gotcharsHead + CONSOLE_INPUT_BUFFER_SIZE - x.1.gotcharsTail) %
          CONSOLE_INPUT_BUFFER_SIZE ∧
      (x.1.pc = .idle → x.2.returned.length < x.2.accepted.length →
        ∃ y c, (consoleIo buf₀).run x [.getchP, .getchRead, .getchTail] = some y ∧
          y.2.returned = x.2.returned ++ [c] ∧ x.2.returned ++ [c] <+: x.2.accepted) := by
  obtain ⟨cs, h⟩ := x
  have hinv : ConsoleInv cs h := (consoleInv_inductive buf₀).reachable hx
  dsimp only
  have hhead := hinv.head_lt
  have htail := hinv.tail_lt
  -- the number of characters waiting is the distance from the tail to the head
  have hwait : h.accepted.length - h.returned.length =
      Ring.dist CONSOLE_INPUT_BUFFER_SIZE cs.gotcharsTail cs.gotcharsHead := by
    rw [← hinv.fifo, List.length_append, ConSoftc.waiting, Ring.length_window]
    omega
  refine ⟨hinv.fifo, ?_, ?_, ?_⟩
  · intro ch
    rw [hwait]
    constructor
    · intro hdrop
      by_contra hroom
      have hfull : ¬(cs.gotcharsHead + 1) % CONSOLE_INPUT_BUFFER_SIZE = cs.gotcharsTail := by
        rw [ConsoleInv.next_mod hhead, Ring.idx_one_eq_iff htail hhead]
        have := Ring.dist_lt htail hhead
        omega
      -- otherwise the head moves on
      have hheads := congrArg ConSoftc.gotcharsHead hdrop
      simp only [conInput, hfull, if_false] at hheads
      rw [ConsoleInv.next_mod hhead] at hheads
      exact ConsoleInv.next_ne hhead hheads
    · intro hfull
      have hfull' : (cs.gotcharsHead + 1) % CONSOLE_INPUT_BUFFER_SIZE = cs.gotcharsTail := by
        rw [ConsoleInv.next_mod hhead, Ring.idx_one_eq_iff htail hhead]
        have hs : CONSOLE_INPUT_BUFFER_SIZE = 32 := rfl
        omega
      simp [conInput, hfull']
  · rw [hinv.count]
    unfold Ring.dist
    split <;> (unfold CONSOLE_INPUT_BUFFER_SIZE at *; omega)
  · intro hidle hlt
    -- the semaphore counts the waiting characters, so `P` goes through
    have hpos : cs.rsem > 0 := by
      have hc := hinv.count
      rw [hidle] at hc
      simp only [GetchPc.holding] at hc
      omega
    obtain ⟨c, rest, hc⟩ : ∃ c rest, cs.waiting = c :: rest := by
      cases hw : cs.waiting with
      | nil =>
        have hall := hinv.fifo
        rw [hw, List.append_nil] at hall
        rw [hall] at hlt
        exact absurd hlt (lt_irrefl _)
      | cons c rest => exact ⟨c, rest, rfl⟩
    -- the first character of the ring is the one at the tail
    have hfirst : cs.gotchars cs.gotcharsTail = c := by
      have hget := Ring.getElem?_window cs.gotchars (s := CONSOLE_INPUT_BUFFER_SIZE)
        (r := cs.gotcharsTail) (k := 0)
        (c := Ring.dist CONSOLE_INPUT_BUFFER_SIZE cs.gotcharsTail cs.gotcharsHead)
        (by rw [← hwait]; omega)
      rw [Ring.idx_zero htail] at hget
      unfold ConSoftc.waiting at hc
      rw [hc] at hget
      simpa using hget.symm
    refine ⟨(⟨cs.gotchars, cs.gotcharsHead, (cs.gotcharsTail + 1) % CONSOLE_INPUT_BUFFER_SIZE,
      cs.rsem - 1, .idle⟩, ⟨h.accepted, h.returned ++ [c]⟩), c, ?_, rfl, ?_⟩
    · simp [consoleIo, System.withHistory, console, conStep, hidle, hpos, conRecord, hfirst]
    · refine ⟨rest, ?_⟩
      rw [← hinv.fifo, hc]
      simp

/-- After the character `a` comes in, the reader's next `getch` returns it. -/
theorem console_input_fifo_getch_a :
    ∃ y c, (consoleIo fun _ => 0).run
        (conInput ⟨fun _ => 0, 0, 0, 0, .idle⟩ 97, ⟨[97], []⟩) [.getchP, .getchRead, .getchTail] =
          some y ∧ y.2.returned = [c] ∧ [c] <+: [97] := by
  have hx : (consoleIo fun _ => 0).Reachable
      (conInput ⟨fun _ => 0, 0, 0, 0, .idle⟩ 97, ⟨[97], []⟩) :=
    .step (.input 97) .init rfl
  exact (console_input_fifo _ hx).2.2.2 rfl (by decide)

end Os161

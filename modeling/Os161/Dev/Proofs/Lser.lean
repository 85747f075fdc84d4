import Os161.Dev.Lser

/-!
# The console's output side never stalls

The console has one write token (`WToken`): it is in the count of `cs_wsem`, with a thread
between its `P(cs->cs_wsem)` and its `lser_write`, with the character in flight (`ls_wbusy`),
or with an `lser_irq` between its release of `ls_lock` and its `V`. In every reachable state
(`LserInv`) the token is in exactly one of these places, and the device's state agrees with
`ls_wbusy`: a character is in flight or its ready condition is up exactly while `ls_wbusy` is
set, never both at once.

`LserInv.step` proves that every event keeps it, from one spec lemma per function of the
driver. Read off it:

* `lser_write_never_blocked`: `lser_write` never panics and never writes to a busy device,
  and `lser_writepolled` always finishes;
* `cs_wsem_one_token`: the token is in one place, so `cs_wsem` is at most 1, one thread at a
  time is past its `P`, and each character of `putch_intr` gets one `V`;
* `lser_output_drains`: the device, `lser_irq` and the threads already past their `P` bring
  the console back to `cs_wsem` = 1 by themselves, so a thread that waits in `P` gets through.
-/

namespace Os161

open Lts LserState

/-- Where the one write token of the console is. -/
inductive WToken where
  /-- In the count of `cs_wsem`. -/
  | sem
  /-- With thread `t`, between its `P(cs->cs_wsem)` and its `lser_write`. -/
  | thread (t : ℕ)
  /-- With the character in flight: `ls_wbusy` is set. -/
  | device
  /-- With an `lser_irq` between its release of `ls_lock` and its call of `ls_start`. -/
  | irq
  deriving DecidableEq

namespace WToken

/-- The count of `cs_wsem`. -/
def count : WToken → ℕ
  | sem => 1
  | _ => 0

/-- `ls_wbusy`. -/
def busy : WToken → Bool
  | device => true
  | _ => false

/-- The `lser_irq`s before their `V`. -/
def pending : WToken → ℕ
  | irq => 1
  | _ => 0

theorem count_pos_iff {k : WToken} : 0 < k.count ↔ k = sem := by
  cases k <;> simp [count]

theorem busy_iff {k : WToken} : k.busy = true ↔ k = device := by
  cases k <;> simp [busy]

theorem pending_pos_iff {k : WToken} : 0 < k.pending ↔ k = irq := by
  cases k <;> simp [pending]

end WToken

namespace LserState

/-- The write token is at `k`. -/
structure TokenAt (s : LserState) (k : WToken) : Prop where
  wsem : s.wsem = k.count
  putch : ∀ t, (s.putch t).isSome ↔ k = .thread t
  wbusy : s.wbusy = k.busy
  starting : s.starting = k.pending

variable {s : LserState} {k : WToken}

/-- A state that differs only in the device and the wire holds the token where `s` does. -/
theorem TokenAt.congr (h : s.TokenAt k) {s' : LserState} (hw : s'.wsem = s.wsem)
    (hp : s'.putch = s.putch) (hb : s'.wbusy = s.wbusy) (hs : s'.starting = s.starting) :
    s'.TokenAt k :=
  ⟨hw.trans h.wsem, fun t => hp ▸ h.putch t, hb.trans h.wbusy, hs.trans h.starting⟩

/-- `P(cs->cs_wsem)` by thread `t` takes the token from the semaphore. -/
theorem TokenAt.take (h : s.TokenAt .sem) (t : ℕ) (ch : Int) :
    TokenAt { s with wsem := s.wsem - 1, putch := Function.update s.putch t (some ch) }
      (.thread t) where
  wsem := by simp [h.wsem, WToken.count]
  putch u := by
    by_cases hu : u = t
    · subst hu
      simp
    · simp [Function.update_of_ne hu, h.putch u, Ne.symm hu]
  wbusy := h.wbusy
  starting := h.starting

/-- `lser_write` by the thread with the token hands it to the character in flight. -/
theorem TokenAt.send {t : ℕ} (h : s.TokenAt (.thread t)) (c : Option ℕ) :
    TokenAt { s with putch := Function.update s.putch t none, wbusy := true, sending := c }
      .device where
  wsem := h.wsem
  putch u := by
    by_cases hu : u = t
    · subst hu
      simp
    · simp [Function.update_of_ne hu, h.putch u, Ne.symm hu]
  wbusy := rfl
  starting := h.starting

/-- `lser_irq` that sees the completion takes the token from the device. -/
theorem TokenAt.complete (h : s.TokenAt .device) :
    TokenAt { s with wbusy := false, wirqActive := false, starting := s.starting + 1 } .irq where
  wsem := h.wsem
  putch t := by simp [h.putch t]
  wbusy := rfl
  starting := by simp [h.starting, WToken.pending]

/-- `con_start` gives the token back to the semaphore. -/
theorem TokenAt.start (h : s.TokenAt .irq) :
    TokenAt { s with starting := s.starting - 1, wsem := s.wsem + 1 } .sem where
  wsem := by simp [h.wsem, WToken.count]
  putch t := by simp [h.putch t]
  wbusy := h.wbusy
  starting := by simp [h.starting, WToken.pending]

/-! ### One spec lemma per function of the driver -/

theorem writeChar_of_none (h : s.sending = none) (ch : Int) :
    s.writeChar ch = some { s with sending := some (Word.ofInt 32 ch) } := by
  simp [writeChar, h]

theorem finish_of_some {c : ℕ} (h : s.sending = some c) :
    s.finish = some { s with sending := none, wire := s.wire ++ [c], wirqActive := true } := by
  simp [finish, h]

theorem lserWrite_of_idle (hb : s.wbusy = false) (hs : s.sending = none) (ch : Int) :
    lserWrite ch s = some { s with wbusy := true, sending := some (Word.ofInt 32 ch) } := by
  simp [lserWrite, hb, writeChar, hs]

/-- `lser_writepolled` with nothing in flight sends its character and clears the ready
condition again. -/
theorem lserWritepolled_of_idle (hb : s.wbusy = false) (hs : s.sending = none)
    (ha : s.wirqActive = false) (ch : Int) :
    lserWritepolled ch s = some { s with
      sending := none
      wire := s.wire ++ [Word.ofInt 32 ch]
      wirqActive := false } := by
  simp [lserWritepolled, hb, writeChar, hs, pollUntilWrite, ha, finish]

/-- `lser_writepolled` with a character in flight or its ready condition up lets that
character out first, and leaves the ready condition up for `lser_irq`. -/
theorem lserWritepolled_of_busy (hb : s.wbusy = true) (hnb : ¬(s.sending.isSome ∧ s.wirqActive))
    (hp : s.sending.isSome ∨ s.wirqActive) (ch : Int) :
    lserWritepolled ch s = some { s with
      sending := none
      wire := s.wire ++ s.sending.toList ++ [Word.ofInt 32 ch]
      wirqActive := true } := by
  cases hs : s.sending with
  | none =>
    have ha : s.wirqActive = true := by simpa [hs] using hp
    simp [lserWritepolled, hb, pollUntilWrite, ha, writeChar, hs, finish]
  | some c =>
    have ha : s.wirqActive = false := by simpa [hs] using hnb
    simp [lserWritepolled, hb, pollUntilWrite, ha, writeChar, hs, finish]

end LserState

/-- The events that need no new call of `putch`: the device finishing, `lser_irq`,
`con_start`, and the `lser_write` of a thread already past its `P`. -/
def LserEvent.Drains : LserEvent → Prop
  | .putchP _ _ => False
  | .putchPolled _ => False
  | _ => True

/-- Nothing pending: the token is in `cs_wsem`, and the device is idle with its ready
condition down. -/
def LserState.Quiet (s : LserState) : Prop :=
  s.TokenAt .sem ∧ s.sending = none ∧ s.wirqActive = false

/-! ### The invariant -/

/-- The invariant of the console's output side. -/
structure LserInv (s : LserState) : Prop where
  token : ∃ k, s.TokenAt k
  /-- A character is in flight only with `ls_wbusy` set. -/
  sending_busy : s.sending.isSome → s.wbusy
  /-- The ready condition is up only with `ls_wbusy` set, until `lser_irq` clears both. -/
  active_busy : s.wirqActive → s.wbusy
  /-- The device raises the ready condition once it has finished its character. -/
  not_both : ¬(s.sending.isSome ∧ s.wirqActive)
  /-- With `ls_wbusy` set, a character is in flight or its ready condition is up. -/
  busy_pending : s.wbusy → s.sending.isSome ∨ s.wirqActive

namespace LserInv

variable {s s' : LserState}

theorem init : LserInv serialConsole.init where
  token := ⟨.sem, ⟨rfl, fun t => by simp [serialConsole], rfl, rfl⟩⟩
  sending_busy := by simp [serialConsole]
  active_busy := by simp [serialConsole]
  not_both := by simp [serialConsole]
  busy_pending := by simp [serialConsole]

/-- With `ls_wbusy` clear, nothing is in flight and the ready condition is down. -/
theorem idle_of_not_busy (hinv : LserInv s) (hb : s.wbusy = false) :
    s.sending = none ∧ s.wirqActive = false := by
  constructor
  · rw [← Option.not_isSome_iff_eq_none]
    intro hs
    simpa [hb] using hinv.sending_busy hs
  · rw [← Bool.not_eq_true]
    intro ha
    simpa [hb] using hinv.active_busy ha

/-- The device's part of the invariant for a state whose device is idle. -/
theorem of_idle (hk : ∃ k, s'.TokenAt k) (hb : s'.wbusy = false) (hs : s'.sending = none)
    (ha : s'.wirqActive = false) : LserInv s' :=
  ⟨hk, by simp [hs], by simp [ha], by simp [hs], by simp [hb]⟩

/-- **`P(cs->cs_wsem)`.** -/
theorem putchP (hinv : LserInv s) {t : ℕ} {ch : Int}
    (hn : lserStep s (.putchP t ch) = some s') : LserInv s' := by
  simp only [lserStep] at hn
  split_ifs at hn with hc
  cases hn
  obtain ⟨k, hk⟩ := hinv.token
  have hsem : k = .sem := WToken.count_pos_iff.1 (hk.wsem ▸ hc.2)
  subst hsem
  exact ⟨⟨_, hk.take t ch⟩, hinv.sending_busy, hinv.active_busy, hinv.not_both,
    hinv.busy_pending⟩

/-- **`lser_write`** by a thread past its `P`: `ls_wbusy` is clear and the device idle. -/
theorem putchSend (hinv : LserInv s) {t : ℕ} (hn : lserStep s (.putchSend t) = some s') :
    LserInv s' := by
  cases hp : s.putch t with
  | none => simp [lserStep, hp] at hn
  | some ch =>
    obtain ⟨k, hk⟩ := hinv.token
    have ht : k = .thread t := (hk.putch t).mp (by simp [hp])
    subst ht
    have hb : s.wbusy = false := hk.wbusy
    obtain ⟨hs, ha⟩ := hinv.idle_of_not_busy hb
    simp only [lserStep, hp] at hn
    rw [lserWrite_of_idle (s := { s with putch := Function.update s.putch t none }) hb hs] at hn
    cases hn
    exact ⟨⟨_, hk.send _⟩, by simp, by simp [ha], by simp [ha], by simp⟩

/-- **`lser_writepolled`** leaves the token where it is. -/
theorem putchPolled (hinv : LserInv s) {ch : Int} (hn : lserStep s (.putchPolled ch) = some s') :
    LserInv s' := by
  obtain ⟨k, hk⟩ := hinv.token
  simp only [lserStep] at hn
  cases hb : s.wbusy with
  | false =>
    obtain ⟨hs, ha⟩ := hinv.idle_of_not_busy hb
    rw [lserWritepolled_of_idle hb hs ha] at hn
    cases hn
    exact of_idle ⟨k, hk.congr rfl rfl rfl rfl⟩ hb rfl rfl
  | true =>
    rw [lserWritepolled_of_busy hb hinv.not_both (hinv.busy_pending hb)] at hn
    cases hn
    -- the ready condition stays up for `lser_irq`, with `ls_wbusy` still set
    exact ⟨⟨k, hk.congr rfl rfl rfl rfl⟩, by simp, by simp [hb], by simp, by simp⟩

/-- **The device finishes its character.** -/
theorem finish (hinv : LserInv s) (hn : lserStep s .finish = some s') : LserInv s' := by
  obtain ⟨k, hk⟩ := hinv.token
  cases hs : s.sending with
  | none => simp [lserStep, LserState.finish, hs] at hn
  | some c =>
    simp only [lserStep, finish_of_some hs] at hn
    cases hn
    have hb : s.wbusy = true := hinv.sending_busy (by simp [hs])
    exact ⟨⟨k, hk.congr rfl rfl rfl rfl⟩, by simp, by simp [hb], by simp, by simp⟩

/-- **`lser_irq`**: on a completion it takes the token from the device. -/
theorem irq (hinv : LserInv s) (hn : lserStep s .irq = some s') : LserInv s' := by
  simp only [lserStep, lserIrq, Option.some.injEq] at hn
  subst hn
  by_cases ha : s.wirqActive = true
  · obtain ⟨k, hk⟩ := hinv.token
    have hdev : k = .device := WToken.busy_iff.1 (hk.wbusy ▸ hinv.active_busy ha)
    subst hdev
    have hs : s.sending = none := by
      rw [← Option.not_isSome_iff_eq_none]
      exact fun hs => hinv.not_both ⟨hs, ha⟩
    simp only [ha, if_true]
    exact of_idle ⟨_, hk.complete⟩ rfl hs rfl
  · simp only [ha, Bool.false_eq_true, if_false]
    exact hinv

/-- **`con_start`** gives the token back to `cs_wsem`. -/
theorem conStart (hinv : LserInv s) (hn : lserStep s .conStart = some s') : LserInv s' := by
  simp only [lserStep] at hn
  split_ifs at hn with hpos
  cases hn
  obtain ⟨k, hk⟩ := hinv.token
  have hirq : k = .irq := WToken.pending_pos_iff.1 (hk.starting ▸ hpos)
  subst hirq
  exact ⟨⟨_, hk.start⟩, hinv.sending_busy, hinv.active_busy, hinv.not_both, hinv.busy_pending⟩

/-- **Every event keeps the invariant.** -/
theorem step (hinv : LserInv s) {e : LserEvent} (hn : lserStep s e = some s') : LserInv s' := by
  cases e with
  | putchP t ch => exact hinv.putchP hn
  | putchSend t => exact hinv.putchSend hn
  | putchPolled ch => exact hinv.putchPolled hn
  | finish => exact hinv.finish hn
  | irq => exact hinv.irq hn
  | conStart => exact hinv.conStart hn

theorem isInductive : serialConsole.Inductive LserInv :=
  ⟨init, fun _ _ _ hinv hn => hinv.step hn⟩

/-! ### Draining the output -/

/-- `con_start` after an `lser_irq` that saw a completion leaves nothing pending. -/
theorem drains_of_irq (hinv : LserInv s) (hk : s.TokenAt .irq) :
    serialConsole.Leads LserEvent.Drains LserState.Quiet s := by
  obtain ⟨hs, ha⟩ := hinv.idle_of_not_busy hk.wbusy
  have hst : lserStep s .conStart =
      some { s with starting := s.starting - 1, wsem := s.wsem + 1 } := by
    simp [lserStep, hk.starting, WToken.pending]
  exact System.Leads.step (e := .conStart) trivial hst (System.Leads.of_holds ⟨hk.start, hs, ha⟩)

/-- With the ready condition up, `lser_irq` and `con_start` drain the output. -/
theorem drains_of_ready (hinv : LserInv s) (hk : s.TokenAt .device) (ha : s.wirqActive = true) :
    serialConsole.Leads LserEvent.Drains LserState.Quiet s := by
  have hst : lserStep s .irq =
      some { s with wbusy := false, wirqActive := false, starting := s.starting + 1 } := by
    simp [lserStep, lserIrq, ha]
  exact System.Leads.step (e := .irq) trivial hst (drains_of_irq (hinv.step hst) hk.complete)

/-- With a character in flight, the device finishes it, and the output drains. -/
theorem drains_of_device (hinv : LserInv s) (hk : s.TokenAt .device) :
    serialConsole.Leads LserEvent.Drains LserState.Quiet s := by
  cases ha : s.wirqActive with
  | true => exact drains_of_ready hinv hk ha
  | false =>
    obtain ⟨c, hc⟩ : ∃ c, s.sending = some c := by
      have hp := hinv.busy_pending hk.wbusy
      simpa [ha, Option.isSome_iff_exists] using hp
    have hst : lserStep s .finish =
        some { s with sending := none, wire := s.wire ++ [c], wirqActive := true } :=
      finish_of_some hc
    exact System.Leads.step (e := .finish) trivial hst
      (drains_of_ready (hinv.step hst) (hk.congr rfl rfl rfl rfl) rfl)

/-- A thread past its `P` writes its character, and the output drains. -/
theorem drains_of_thread (hinv : LserInv s) {t : ℕ} (hk : s.TokenAt (.thread t)) :
    serialConsole.Leads LserEvent.Drains LserState.Quiet s := by
  obtain ⟨ch, hp⟩ := Option.isSome_iff_exists.mp ((hk.putch t).mpr rfl)
  obtain ⟨hs, -⟩ := hinv.idle_of_not_busy hk.wbusy
  have hst : lserStep s (.putchSend t) = some { s with
      putch := Function.update s.putch t none
      wbusy := true
      sending := some (Word.ofInt 32 ch) } := by
    simp only [lserStep, hp]
    exact lserWrite_of_idle (s := { s with putch := Function.update s.putch t none }) hk.wbusy hs ch
  exact System.Leads.step (e := .putchSend t) trivial hst (drains_of_device (hinv.step hst) (hk.send _))

end LserInv

/-- The invariant holds in every reachable state. -/
theorem lserInv_reachable {s : LserState} (hs : serialConsole.Reachable s) : LserInv s :=
  Lts.System.Inductive.reachable LserInv.isInductive hs

/-! ### The console's output side -/

/-- **`lser_write` never panics, and no character is written to a busy device.** In every
state the console's output side reaches, in any interleaving of any number of threads in
`putch_intr` with polled writes, device completions and interrupts: a thread past its
`P(cs->cs_wsem)` finds `ls_wbusy` clear and the device idle when it calls `lser_write`, so its
step goes through; and `lser_writepolled` always goes through: its polls end and it writes its
character only to an idle device. -/
theorem lser_write_never_blocked {s : LserState} (hs : serialConsole.Reachable s) :
    (∀ t, (s.putch t).isSome → (serialConsole.next s (.putchSend t)).isSome) ∧
      ∀ ch, (serialConsole.next s (.putchPolled ch)).isSome := by
  have hinv := lserInv_reachable hs
  obtain ⟨k, hk⟩ := hinv.token
  refine ⟨fun t ht => ?_, fun ch => ?_⟩
  · -- the thread holds the token, so `ls_wbusy` is clear and the device idle
    obtain ⟨ch, hp⟩ := Option.isSome_iff_exists.mp ht
    have hkt : k = .thread t := (hk.putch t).mp ht
    subst hkt
    obtain ⟨hsend, -⟩ := hinv.idle_of_not_busy hk.wbusy
    simp only [serialConsole, lserStep, hp,
      lserWrite_of_idle (s := { s with putch := Function.update s.putch t none }) hk.wbusy hsend,
      Option.isSome_some]
  · cases hb : s.wbusy with
    | false =>
      obtain ⟨hsend, ha⟩ := hinv.idle_of_not_busy hb
      simp [serialConsole, lserStep, lserWritepolled_of_idle hb hsend ha]
    | true =>
      simp [serialConsole, lserStep,
        lserWritepolled_of_busy hb hinv.not_both (hinv.busy_pending hb)]

/-- Thread 0 has handed `'a'` to the device; a polled write of `'b'` goes through. -/
theorem lser_write_never_blocked_busy : ∃ s, serialConsole.Reachable s ∧ s.wbusy = true ∧
    (serialConsole.next s (.putchPolled 98)).isSome := by
  obtain ⟨s, hs, hp⟩ := serialConsole.reachable_of_run [.putchP 0 97, .putchSend 0]
    (fun s => s.wbusy) (by decide)
  exact ⟨s, hs, hp, (lser_write_never_blocked hs).2 98⟩

/-- **`cs_wsem` holds one write token.** In every reachable state the token is in exactly one
place (`TokenAt`): the count of `cs_wsem`, one thread between its `P` and its `lser_write`,
`ls_wbusy`, or one `lser_irq` between its release of `ls_lock` and its `V`. So `cs_wsem` never
counts past 1, at most one thread at a time is past its `P`, and at most one `V` is pending:
each character that `putch_intr` sends is answered by one `V`, none lost and none extra. -/
theorem cs_wsem_one_token {s : LserState} (hs : serialConsole.Reachable s) :
    (∃ k, s.TokenAt k) ∧ s.wsem ≤ 1 ∧
      (∀ t u, (s.putch t).isSome → (s.putch u).isSome → t = u) ∧ s.starting ≤ 1 := by
  obtain ⟨k, hk⟩ := (lserInv_reachable hs).token
  refine ⟨⟨k, hk⟩, ?_, fun t u ht hu => ?_, ?_⟩
  · rw [hk.wsem]
    cases k <;> simp [WToken.count]
  · have hkt := (hk.putch t).mp ht
    have hku := (hk.putch u).mp hu
    rw [hkt] at hku
    exact WToken.thread.inj hku
  · rw [hk.starting]
    cases k <;> simp [WToken.pending]

/-- Thread 0 has handed `'a'` to the device and thread 1 waits in `P`. -/
theorem cs_wsem_one_token_waiting : ∃ s, serialConsole.Reachable s ∧ s.wsem = 0 ∧
    (serialConsole.next s (.putchP 1 98)) = none ∧ s.wsem ≤ 1 ∧ s.starting ≤ 1 := by
  obtain ⟨s, hs, hp⟩ := serialConsole.reachable_of_run [.putchP 0 97, .putchSend 0]
    (fun s => s.wsem == 0) (by decide)
  have hw : s.wsem = 0 := beq_iff_eq.mp hp
  obtain ⟨-, hle, -, hst⟩ := cs_wsem_one_token hs
  exact ⟨s, hs, hw, by simp [serialConsole, lserStep, hw], hle, hst⟩

/-- **The output drains by itself.** From every reachable state, the device, `lser_irq`,
`con_start` and the `lser_write`s of the threads already past their `P` bring the console, with
no new call of `putch`, to a state with `cs_wsem` = 1, no thread past its `P`, `ls_wbusy` clear,
no `V` pending, and the device idle with its ready condition down: a thread that waits in
`P(cs->cs_wsem)` is never stuck there. -/
theorem lser_output_drains {s : LserState} (hs : serialConsole.Reachable s) :
    serialConsole.Leads LserEvent.Drains LserState.Quiet s := by
  have hinv := lserInv_reachable hs
  obtain ⟨k, hk⟩ := hinv.token
  cases k with
  | sem =>
    obtain ⟨hsend, ha⟩ := hinv.idle_of_not_busy hk.wbusy
    exact System.Leads.of_holds ⟨hk, hsend, ha⟩
  | thread t => exact hinv.drains_of_thread hk
  | device => exact hinv.drains_of_device hk
  | irq => exact hinv.drains_of_irq hk

/-- A polled write of `'b'` while `'a'` was in flight left its ready condition up for
`lser_irq`; the output still drains. -/
theorem lser_output_drains_polled : ∃ s, serialConsole.Reachable s ∧ s.wirqActive = true ∧
    serialConsole.Leads LserEvent.Drains LserState.Quiet s := by
  obtain ⟨s, hs, hp⟩ := serialConsole.reachable_of_run
    [.putchP 0 97, .putchSend 0, .putchPolled 98] (fun s => s.wirqActive) (by decide)
  exact ⟨s, hs, hp, lser_output_drains hs⟩

end Os161

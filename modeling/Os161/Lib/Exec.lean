import Mathlib

/-!
# Computations that change a state and may stop early

The model of C code that returns error codes: a computation over a state either returns a
value, or stops early, with an error code that its caller may handle or with a halt that
nothing handles (a panic, a failed assertion, undefined behaviour). It is `EStateM` of core
Lean with the errors `Stop ε`; a stop keeps the state reached so far, as C keeps every store
made before an error return.

* `fail`, `halt`, `assert`: the three ways to stop; `attempt` turns an error code into a value
  so that the caller can run its clean-up, and lets a halt through.
* `bind_eq_ok`, `bind_eq_error`: the inversion of a sequence that the spec lemmas of the model
  start from; `bind_of_ok`, `bind_of_error` run a sequence forwards.
* `Keeps`: a predicate on states that a computation keeps however it ends, with its rules for
  sequences, so that invariants are proved one function at a time.
* `KeepsOnErr`, `NoErr`: the same on the error returns only, for functions whose last steps
  cannot fail but break the predicate.
* `Returns`: a postcondition of the runs that return, with a rule per kind of statement.
-/

namespace Exec

/-- Why a computation stopped early. -/
inductive Stop (ε : Type) where
  /-- An error code, returned to the caller. -/
  | err (e : ε)
  /-- A stop nothing handles. -/
  | halt
  deriving DecidableEq, Repr

end Exec

/-- A computation over states `σ` that returns an `α` or stops with an `Exec.Stop ε`. -/
abbrev Exec (ε σ α : Type) := EStateM (Exec.Stop ε) σ α

namespace Exec

open EStateM (Result)

variable {ε σ α β : Type}

/-- Return the error code `e`. -/
def fail (e : ε) : Exec ε σ α := throw (.err e)

/-- Stop for good. -/
def halt : Exec ε σ α := throw .halt

/-- `KASSERT(c)`. -/
def assert (c : Prop) [Decidable c] : Exec ε σ Unit := if c then pure () else halt

/-- Run `x` and hand its error code, if it fails with one, to the caller as a value. -/
def attempt (x : Exec ε σ α) : Exec ε σ (Except ε α) := fun s =>
  match x s with
  | .ok a s' => .ok (.ok a) s'
  | .error (.err e) s' => .ok (.error e) s'
  | .error .halt s' => .error .halt s'

/-- An `Except` value as a computation. -/
def ofExcept : Except ε α → Exec ε σ α
  | .ok a => pure a
  | .error c => fail c

/-- Run `x` on the part `get s` of the state and write its final value back with `put`: a
function that is handed a pointer to part of its caller's state. -/
def focus {τ : Type} (get : σ → τ) (put : τ → σ → σ) (x : Exec ε τ α) : Exec ε σ α := fun s =>
  match x (get s) with
  | .ok a t => .ok a (put t s)
  | .error e t => .error e (put t s)

/-- Run `x` with `t` as an extra part of the state, and return the final value of that part
with the result: a function that is handed a pointer to a local variable of its caller. -/
def extend {τ : Type} (t : τ) (x : Exec ε (σ × τ) α) : Exec ε σ (α × τ) := fun s =>
  match x (s, t) with
  | .ok a (s', t') => .ok (a, t') s'
  | .error e (s', _) => .error e s'

/-- The state a computation ends in, however it ends. -/
def final : Result (Stop ε) σ α → σ
  | .ok _ s => s
  | .error _ s => s

/-- The state a call ends in when it returns, with a value or an error code, and `none` when
it halts: a system whose steps are calls takes a step exactly when the call returns. -/
def returned : Result (Stop ε) σ α → Option σ
  | .ok _ s => some s
  | .error (.err _) s => some s
  | .error .halt _ => none

/-! ### Running a computation -/

variable {x : Exec ε σ α} {f : α → Exec ε σ β} {s s' s'' : σ} {a : α} {b : β} {e : Stop ε}

@[simp] theorem pure_apply : (pure a : Exec ε σ α) s = .ok a s := rfl
@[simp] theorem fail_apply (c : ε) : (fail c : Exec ε σ α) s = .error (.err c) s := rfl
@[simp] theorem halt_apply : (halt : Exec ε σ α) s = .error .halt s := rfl
@[simp] theorem get_apply : (get : Exec ε σ σ) s = .ok s s := rfl
@[simp] theorem set_apply (t : σ) : (set t : Exec ε σ PUnit) s = .ok ⟨⟩ t := rfl
@[simp] theorem modify_apply (g : σ → σ) : (modify g : Exec ε σ PUnit) s = .ok ⟨⟩ (g s) := rfl
@[simp] theorem modifyGet_apply (g : σ → α × σ) :
    (modifyGet g : Exec ε σ α) s = .ok (g s).1 (g s).2 := rfl

@[simp] theorem ofExcept_ok : (ofExcept (.ok a) : Exec ε σ α) = pure a := rfl
@[simp] theorem ofExcept_error (c : ε) : (ofExcept (.error c) : Exec ε σ α) = fail c := rfl

@[simp] theorem assert_apply (c : Prop) [Decidable c] :
    (assert c : Exec ε σ Unit) s = if c then .ok () s else .error .halt s := by
  unfold assert
  split <;> rfl

@[simp] theorem returned_ok : returned (.ok a s : Result (Stop ε) σ α) = some s := rfl
@[simp] theorem returned_err (c : ε) :
    returned (.error (.err c) s : Result (Stop ε) σ α) = some s := rfl
@[simp] theorem returned_halt : returned (.error .halt s : Result (Stop ε) σ α) = none := rfl

theorem bind_apply : (x >>= f) s = match x s with
    | .ok a s' => f a s'
    | .error e s' => .error e s' := by
  show EStateM.bind x f s = _
  unfold EStateM.bind
  cases x s <;> rfl

@[simp] theorem map_apply (g : α → β) : (g <$> x) s = match x s with
    | .ok a s' => .ok (g a) s'
    | .error e s' => .error e s' := by
  show EStateM.map g x s = _
  unfold EStateM.map
  cases x s <;> rfl

theorem bind_of_ok (h : x s = .ok a s') : (x >>= f) s = f a s' := by
  rw [bind_apply, h]

theorem bind_of_error (h : x s = .error e s') : (x >>= f) s = .error e s' := by
  rw [bind_apply, h]

/-- Nothing after an error return runs. -/
@[simp] theorem fail_bind (c : ε) : (fail c >>= f : Exec ε σ β) = fail c := rfl

@[simp] theorem halt_bind : (halt >>= f : Exec ε σ β) = halt := rfl

/-- **Inversion of a sequence that returns.** -/
theorem bind_eq_ok : (x >>= f) s = .ok b s'' ↔ ∃ a s', x s = .ok a s' ∧ f a s' = .ok b s'' := by
  rw [bind_apply]
  constructor
  · intro h
    split at h
    · exact ⟨_, _, ‹_›, h⟩
    · cases h
  · rintro ⟨a, s', hx, hf⟩
    rw [hx]
    exact hf

/-- **Inversion of a sequence that stops**: the first part stopped, or it returned and the
rest stopped. -/
theorem bind_eq_error : (x >>= f) s = .error e s'' ↔
    x s = .error e s'' ∨ ∃ a s', x s = .ok a s' ∧ f a s' = .error e s'' := by
  rw [bind_apply]
  constructor
  · intro h
    split at h
    · exact .inr ⟨_, _, ‹_›, h⟩
    · rename_i hx
      cases h
      exact .inl hx
  · rintro (hx | ⟨a, s', hx, hf⟩)
    · rw [hx]
    · rw [hx]
      exact hf

theorem attempt_of_ok (h : x s = .ok a s') : attempt x s = .ok (.ok a) s' := by
  simp only [attempt, h]

theorem attempt_of_err {c : ε} (h : x s = .error (.err c) s') :
    attempt x s = .ok (.error c) s' := by
  simp only [attempt, h]

theorem attempt_of_halt (h : x s = .error .halt s') : attempt x s = .error .halt s' := by
  simp only [attempt, h]

@[simp] theorem attempt_fail (c : ε) : attempt (fail c : Exec ε σ α) = pure (.error c) := rfl

/-- **Inversion of `attempt`**: it returns what `x` returned or the code `x` failed with, and
stops only where `x` halted. -/
theorem attempt_eq_ok {r : Except ε α} : attempt x s = .ok r s' ↔
    (∃ a, r = .ok a ∧ x s = .ok a s') ∨ (∃ c, r = .error c ∧ x s = .error (.err c) s') := by
  unfold attempt
  rcases x s with ⟨a, t⟩ | ⟨c | _, t⟩
  · simp only [Result.ok.injEq, reduceCtorEq, and_false, exists_false, or_false]
    constructor
    · rintro ⟨rfl, rfl⟩
      exact ⟨a, rfl, rfl, rfl⟩
    · rintro ⟨a, rfl, rfl, rfl⟩
      exact ⟨rfl, rfl⟩
  · simp only [Result.ok.injEq, Result.error.injEq, Stop.err.injEq, reduceCtorEq, and_false,
      exists_false, false_or]
    constructor
    · rintro ⟨rfl, rfl⟩
      exact ⟨c, rfl, rfl, rfl⟩
    · rintro ⟨c, rfl, rfl, rfl⟩
      exact ⟨rfl, rfl⟩
  · simp

theorem attempt_eq_error : attempt x s = .error e s' ↔ e = .halt ∧ x s = .error .halt s' := by
  unfold attempt
  rcases x s with ⟨a, t⟩ | ⟨c | _, t⟩ <;> simp [eq_comm]

/-- **Inversion of `focus`**: the part returned, and was written back. -/
theorem focus_eq_ok {τ : Type} {get : σ → τ} {put : τ → σ → σ} {y : Exec ε τ α} :
    focus get put y s = .ok a s' ↔ ∃ t, y (get s) = .ok a t ∧ s' = put t s := by
  unfold focus
  rcases y (get s) with ⟨b, t⟩ | ⟨c, t⟩
  · simp only [Result.ok.injEq]
    constructor
    · rintro ⟨rfl, rfl⟩
      exact ⟨t, ⟨rfl, rfl⟩, rfl⟩
    · rintro ⟨t', ⟨rfl, rfl⟩, rfl⟩
      exact ⟨rfl, rfl⟩
  · simp

/-! ### Testing a result

A run on a concrete input is checked by evaluating a test of its result; these read the test
back as a statement about the run. -/

/-- The run returned, and `p` holds of its value and final state. -/
def returnsWith (p : α → σ → Bool) : Result (Stop ε) σ α → Bool
  | .ok a s => p a s
  | .error _ _ => false

/-- The run failed with an error code, and `p` holds of it and the final state. -/
def failsWith (p : ε → σ → Bool) : Result (Stop ε) σ α → Bool
  | .error (.err c) s => p c s
  | _ => false

theorem returnsWith_eq_true {p : α → σ → Bool} {r : Result (Stop ε) σ α} :
    returnsWith p r = true ↔ ∃ a s, r = .ok a s ∧ p a s = true := by
  cases r with
  | ok a s =>
    simp only [returnsWith, Result.ok.injEq]
    exact ⟨fun h => ⟨a, s, ⟨rfl, rfl⟩, h⟩, fun ⟨_, _, ⟨ha, hs⟩, h⟩ => ha ▸ hs ▸ h⟩
  | error => simp [returnsWith]

theorem failsWith_eq_true {p : ε → σ → Bool} {r : Result (Stop ε) σ α} :
    failsWith p r = true ↔ ∃ c s, r = .error (.err c) s ∧ p c s = true := by
  rcases r with _ | ⟨c | _, s⟩
  · simp [failsWith]
  · simp only [failsWith, Result.error.injEq, Stop.err.injEq]
    exact ⟨fun h => ⟨c, s, ⟨rfl, rfl⟩, h⟩, fun ⟨_, _, ⟨hc, hs⟩, h⟩ => hc ▸ hs ▸ h⟩
  · simp [failsWith]

/-! ### Invariants -/

/-- `x` keeps `P`: from a state where `P` holds, `x` ends in one where `P` holds, whether it
returns or stops. -/
def Keeps (P : σ → Prop) (x : Exec ε σ α) : Prop := ∀ s, P s → P (final (x s))

variable {P : σ → Prop}

/-- A run that returns ends in a state with `P`. -/
theorem Keeps.of_ok (h : x s = .ok a s') (hx : Keeps P x) (hs : P s) : P s' := by
  have := hx s hs
  rwa [h] at this

/-- A run that stops ends in a state with `P`. -/
theorem Keeps.of_error (h : x s = .error e s') (hx : Keeps P x) (hs : P s) : P s' := by
  have := hx s hs
  rwa [h] at this

theorem Keeps.pure (a : α) : Keeps P (Pure.pure a : Exec ε σ α) := fun _ h => h

theorem Keeps.fail (c : ε) : Keeps P (Exec.fail c : Exec ε σ α) := fun _ h => h

theorem Keeps.halt : Keeps P (Exec.halt : Exec ε σ α) := fun _ h => h

/-- **Sequence rule.** -/
theorem Keeps.bind (hx : Keeps P x) (hf : ∀ a, Keeps P (f a)) : Keeps P (x >>= f) := by
  intro s hs
  rw [bind_apply]
  have h := hx s hs
  split
  · rename_i a s' hxs
    rw [hxs] at h
    exact hf a s' h
  · rename_i e s' hxs
    rw [hxs] at h
    exact h

theorem Keeps.attempt (hx : Keeps P x) : Keeps P (Exec.attempt x) := by
  intro s hs
  have h := hx s hs
  unfold Exec.attempt
  split <;> rename_i hxs <;> rw [hxs] at h <;> exact h

theorem Keeps.get : Keeps P (MonadState.get : Exec ε σ σ) := fun _ h => h

/-- A computation that starts by reading the state keeps `P` if it does from the state it read. -/
theorem Keeps.get_bind {g : σ → Exec ε σ β} (h : ∀ s, P s → P (final (g s s))) :
    Keeps P (MonadState.get >>= g) := by
  intro s hs
  rw [bind_apply]
  exact h s hs

/-- A `set` of a state with `P`, then a computation that keeps `P`. -/
theorem Keeps.final_set_bind {t : σ} {k : PUnit → Exec ε σ β} (ht : P t) (hk : Keeps P (k ⟨⟩))
    (s : σ) : P (final ((set t >>= k) s)) := by
  rw [bind_of_ok (set_apply t)]
  exact hk t ht

theorem Keeps.modify {g : σ → σ} (h : ∀ s, P s → P (g s)) : Keeps P (modify g : Exec ε σ PUnit) :=
  fun s hs => h s hs

theorem Keeps.assert (c : Prop) [Decidable c] : Keeps P (Exec.assert c : Exec ε σ Unit) := by
  intro s hs
  simp only [assert_apply]
  split <;> exact hs

theorem Keeps.ofExcept (r : Except ε α) : Keeps P (Exec.ofExcept r : Exec ε σ α) := by
  cases r
  · exact Keeps.fail _
  · exact Keeps.pure _

/-- **Rule for `focus`**: the part `x` runs on keeps `Q`, and writing back a part with `Q`
keeps `P`. -/
theorem Keeps.focus {τ : Type} {get : σ → τ} {put : τ → σ → σ} {x : Exec ε τ α} {Q : τ → Prop}
    (hx : Keeps Q x) (hget : ∀ s, P s → Q (get s)) (hput : ∀ s t, P s → Q t → P (put t s)) :
    Keeps P (Exec.focus get put x) := by
  intro s hs
  have h := hx (get s) (hget s hs)
  unfold Exec.focus
  split <;> rename_i hxs <;> rw [hxs] at h <;> exact hput s _ hs h

/-- `focus` keeps what writing back any part keeps. -/
theorem Keeps.focus_put {τ : Type} {get : σ → τ} {put : τ → σ → σ} {x : Exec ε τ α}
    (hput : ∀ s t, P s → P (put t s)) : Keeps P (Exec.focus get put x) :=
  Keeps.focus (Q := fun _ => True) (fun _ _ => trivial) (fun _ _ => trivial)
    fun s t hs _ => hput s t hs

/-- **Rule for `extend`**: the computation keeps `P` of the caller's part. -/
theorem Keeps.extend {τ : Type} {t : τ} {x : Exec ε (σ × τ) α} (hx : Keeps (fun p => P p.1) x) :
    Keeps P (Exec.extend t x) := by
  intro s hs
  have h := hx (s, t) hs
  unfold Exec.extend
  split <;> rename_i hxs <;> rw [hxs] at h <;> exact h

theorem Keeps.ite {c : Prop} [Decidable c] {y : Exec ε σ α} (hx : Keeps P x) (hy : Keeps P y) :
    Keeps P (if c then x else y) := by
  split
  · exact hx
  · exact hy

/-! ### Error returns

What holds where a computation returns an error code, when it need not hold where it returns:
a function whose clean-up runs at its end and cannot fail has the state of the failed step on
its error return. -/

/-- `x` never returns an error code: it returns a value or halts. -/
def NoErr (x : Exec ε σ α) : Prop := ∀ s c s', x s ≠ .error (.err c) s'

/-- From a state with `P`, every error return of `x` ends in a state with `P`. -/
def KeepsOnErr (P : σ → Prop) (x : Exec ε σ α) : Prop :=
  ∀ s c s', P s → x s = .error (.err c) s' → P s'

theorem NoErr.pure (a : α) : NoErr (Pure.pure a : Exec ε σ α) := by
  intro s c s' h
  cases h

theorem NoErr.halt : NoErr (Exec.halt : Exec ε σ α) := by
  intro s c s' h
  cases h

theorem NoErr.get : NoErr (MonadState.get : Exec ε σ σ) := by
  intro s c s' h
  cases h

theorem NoErr.set (t : σ) : NoErr (MonadState.set t : Exec ε σ PUnit) := by
  intro s c s' h
  cases h

theorem NoErr.modify (g : σ → σ) : NoErr (modify g : Exec ε σ PUnit) := by
  intro s c s' h
  cases h

theorem NoErr.assert (c : Prop) [Decidable c] : NoErr (Exec.assert c : Exec ε σ Unit) := by
  intro s e s' h
  rw [assert_apply] at h
  split at h <;> cases h

theorem NoErr.bind (hx : NoErr x) (hf : ∀ a, NoErr (f a)) : NoErr (x >>= f) := by
  intro s c s' h
  rcases bind_eq_error.1 h with h | ⟨a, t, -, h⟩
  · exact hx s c s' h
  · exact hf a t c s' h

theorem NoErr.ite {c : Prop} [Decidable c] {y : Exec ε σ α} (hx : NoErr x) (hy : NoErr y) :
    NoErr (if c then x else y) := by
  split
  · exact hx
  · exact hy

theorem NoErr.focus {τ : Type} {get : σ → τ} {put : τ → σ → σ} {y : Exec ε τ α}
    (hy : NoErr y) : NoErr (Exec.focus get put y) := by
  intro s c s' h
  unfold Exec.focus at h
  split at h
  · cases h
  · rename_i e t hy'
    cases h
    exact hy _ c t hy'

/-- A computation that keeps `P` however it ends keeps it on its error returns. -/
theorem Keeps.keepsOnErr (hx : Keeps P x) : KeepsOnErr P x :=
  fun _ _ _ hs h => hx.of_error h hs

theorem NoErr.keepsOnErr (hx : NoErr x) : KeepsOnErr P x :=
  fun s c s' _ h => absurd h (hx s c s')

/-- **Sequence rule for error returns**: a first step that keeps `P`, then one whose error
returns keep it. -/
theorem KeepsOnErr.bind (hx : Keeps P x) (hf : ∀ a, KeepsOnErr P (f a)) :
    KeepsOnErr P (x >>= f) := by
  intro s c s' hs h
  rcases bind_eq_error.1 h with h | ⟨a, t, hxt, h⟩
  · exact hx.of_error h hs
  · exact hf a t c s' (hx.of_ok hxt hs) h

theorem KeepsOnErr.ite {c : Prop} [Decidable c] {y : Exec ε σ α} (hx : KeepsOnErr P x)
    (hy : KeepsOnErr P y) : KeepsOnErr P (if c then x else y) := by
  split
  · exact hx
  · exact hy

/-! ### Returns

The postcondition of the runs that return a value, and its rules: a lemma about the success
path of a function is proved by walking its body with them, one rule per statement. -/

/-- Every run of `x` from `s` that returns ends with a value and a state that satisfy `Q`. -/
def Returns (x : Exec ε σ α) (s : σ) (Q : α → σ → Prop) : Prop :=
  ∀ a s', x s = .ok a s' → Q a s'

variable {Q : α → σ → Prop} {R : β → σ → Prop}

theorem Returns.pure (h : Q a s) : Returns (Pure.pure a : Exec ε σ α) s Q := by
  intro a' s' h'
  cases h'
  exact h

theorem Returns.fail (c : ε) : Returns (Exec.fail c : Exec ε σ α) s Q := by
  intro a s' h
  cases h

theorem Returns.halt : Returns (Exec.halt : Exec ε σ α) s Q := by
  intro a s' h
  cases h

theorem Returns.set {t : σ} {Q : PUnit → σ → Prop} (h : Q ⟨⟩ t) :
    Returns (set t : Exec ε σ PUnit) s Q := by
  intro a s' h'
  cases h'
  exact h

theorem Returns.modify {g : σ → σ} {Q : PUnit → σ → Prop} (h : Q ⟨⟩ (g s)) :
    Returns (modify g : Exec ε σ PUnit) s Q := by
  intro a s' h'
  cases h'
  exact h

/-- **Sequence rule.** -/
theorem Returns.bind {P : α → σ → Prop} (hx : Returns x s P)
    (hf : ∀ a t, P a t → Returns (f a) t R) : Returns (x >>= f) s R := by
  intro b s'' h
  obtain ⟨a, t, hxt, hft⟩ := bind_eq_ok.1 h
  exact hf a t (hx a t hxt) b s'' hft

theorem Returns.get_bind {g : σ → Exec ε σ β} (h : Returns (g s) s R) :
    Returns (MonadState.get >>= g) s R :=
  Returns.bind (P := fun t s' => t = s ∧ s' = s) (fun _ _ h' => by cases h'; exact ⟨rfl, rfl⟩)
    fun _ _ ⟨ha, ht⟩ => ha ▸ ht ▸ h

theorem Returns.assert_bind {c : Prop} [Decidable c] {k : Unit → Exec ε σ β}
    (h : c → Returns (k ()) s R) : Returns (assert c >>= k) s R := by
  intro b s' h'
  rw [bind_apply, assert_apply] at h'
  by_cases hc : c
  · rw [if_pos hc] at h'
    exact h hc b s' h'
  · rw [if_neg hc] at h'
    cases h'

theorem Returns.ofExcept_bind {r : Except ε α} {k : α → Exec ε σ β}
    (h : ∀ a, r = .ok a → Returns (k a) s R) : Returns (ofExcept r >>= k) s R := by
  cases r with
  | error c => exact Returns.fail c
  | ok a => exact h a rfl

theorem Returns.ite {c : Prop} [Decidable c] {y : Exec ε σ α} (hx : c → Returns x s Q)
    (hy : ¬c → Returns y s Q) : Returns (if c then x else y) s Q := by
  split
  · exact hx ‹c›
  · exact hy ‹¬c›

/-- What a computation keeps holds where it returns. -/
theorem Keeps.returns {P : σ → Prop} (hx : Keeps P x) (hs : P s) : Returns x s fun _ s' => P s' :=
  fun _ _ h => hx.of_ok h hs

/-- Weaken the postcondition. -/
theorem Returns.mono {Q' : α → σ → Prop} (hx : Returns x s Q) (h : ∀ a s', Q a s' → Q' a s') :
    Returns x s Q' :=
  fun a s' hxs => h a s' (hx a s' hxs)

/-- **The state a call returns in**, with a value or an error code, where its error returns
leave the state as it was: what holds before and after every return that gives a value. -/
theorem Returns.returned {P : σ → Prop} (hk : KeepsOnErr (· = s) x) (hr : Returns x s Q)
    (hs : P s) (hQ : ∀ a t, Q a t → P t) (hx : returned (x s) = some s') : P s' := by
  cases hxs : x s with
  | ok a t =>
    rw [hxs, returned_ok, Option.some.injEq] at hx
    exact hx ▸ hQ a t (hr a t hxs)
  | error c t =>
    cases c with
    | err c =>
      rw [hxs, returned_err, Option.some.injEq] at hx
      exact hx ▸ (hk s c t rfl hxs ▸ hs)
    | halt =>
      rw [hxs, returned_halt] at hx
      cases hx

/-- A first step whose result is known hands it to the rest. -/
theorem Returns.bind_of_ok (hx : x s = .ok a s') (h : Returns (f a) s' R) :
    Returns (x >>= f) s R :=
  fun b s'' hb => h b s'' (by rwa [Exec.bind_of_ok hx] at hb)

end Exec

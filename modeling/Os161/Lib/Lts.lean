import Mathlib

/-!
# Labelled transition systems with a deterministic, partial step

A system has one initial state and a step `next s e` that either performs the event `e` from
`s` or is not enabled there (`none`). Every source of nondeterminism (which thread runs, what
an oracle returns, which argument a caller passes) is part of the event, so the step itself is
a function and a schedule is a list of events (`run`).

* `Reachable`: the states some schedule leads to, and `reachable_iff_run` that these are the
  ends of the runs from the initial state.
* `Inductive`: a predicate that holds initially and that every enabled step keeps;
  `Inductive.reachable` is the induction rule that the invariant proofs use, and
  `Inductive.and` lets them prove the conjuncts of an invariant one at a time.
* `reachable_of_run`: a concrete schedule replayed by the kernel exhibits a reachable state;
  the counterexamples use it.
* `Leads`: from a state, the events of a given kind alone reach a state of a given kind;
  `Leads.step` builds such a schedule backwards, one enabled step at a time.
* `withHistory`: the system with a history variable, a ghost value that each step updates and
  that restricts no step; `Inductive.withHistory` carries the invariants of the system over, and
  `Reachable.withHistory` its reachable states.
-/

namespace Lts

/-- A transition system over states `σ` and events `ε`: one initial state and a partial,
deterministic step. -/
structure System (σ ε : Type) where
  /-- The initial state. -/
  init : σ
  /-- The state after event `e`, or `none` when `e` is not enabled. -/
  next : σ → ε → Option σ

namespace System

variable {σ ε : Type} (S : System σ ε)

/-- Replay a schedule: the events in order, failing at the first one that is not enabled. -/
def run : σ → List ε → Option σ
  | s, [] => some s
  | s, e :: es => (S.next s e).bind fun s' => run s' es

@[simp] theorem run_nil (s : σ) : S.run s [] = some s := rfl

@[simp] theorem run_cons (s : σ) (e : ε) (es : List ε) :
    S.run s (e :: es) = (S.next s e).bind fun s' => S.run s' es := rfl

/-- Running two schedules one after the other is running their concatenation. -/
theorem run_append (s : σ) (es fs : List ε) :
    S.run s (es ++ fs) = (S.run s es).bind fun s' => S.run s' fs := by
  induction es generalizing s with
  | nil => rfl
  | cons e es ih =>
    simp only [List.cons_append, run_cons]
    cases S.next s e with
    | none => rfl
    | some s' => exact ih s'

/-- The reachable states: the initial one, and every state one enabled step away from a
reachable one. -/
inductive Reachable : σ → Prop
  | init : Reachable S.init
  | step {s s' : σ} (e : ε) : Reachable s → S.next s e = some s' → Reachable s'

variable {S}

/-- A run from a reachable state ends in a reachable state. -/
theorem Reachable.run {s s' : σ} {es : List ε} (hs : S.Reachable s)
    (hr : S.run s es = some s') : S.Reachable s' := by
  induction es generalizing s with
  | nil =>
    simp only [run_nil, Option.some.injEq] at hr
    exact hr ▸ hs
  | cons e es ih =>
    simp only [run_cons, Option.bind_eq_some_iff] at hr
    obtain ⟨s₁, h₁, h₂⟩ := hr
    exact ih (Reachable.step e hs h₁) h₂

/-- **The reachable states are the ends of the schedules** that start in the initial state. -/
theorem reachable_iff_run {s : σ} : S.Reachable s ↔ ∃ es, S.run S.init es = some s := by
  constructor
  · intro hs
    induction hs with
    | init => exact ⟨[], rfl⟩
    | step e _ hst ih =>
      obtain ⟨es, hes⟩ := ih
      refine ⟨es ++ [e], ?_⟩
      simp [run_append, hes, hst]
  · rintro ⟨es, hes⟩
    exact Reachable.init.run hes

variable (S) in
/-- A schedule from the initial state whose end satisfies `p` shows a reachable state
satisfying `p`. The kernel evaluates the run, so a counterexample is `by decide`. -/
theorem reachable_of_run (es : List ε) (p : σ → Bool)
    (h : (S.run S.init es).map p = some true) : ∃ s, S.Reachable s ∧ p s = true := by
  cases hr : S.run S.init es with
  | none => simp [hr] at h
  | some s =>
    simp only [hr, Option.map_some, Option.some.injEq] at h
    exact ⟨s, Reachable.init.run hr, h⟩

variable (S)

/-- An inductive invariant: it holds initially and every enabled step keeps it. -/
def Inductive (P : σ → Prop) : Prop :=
  P S.init ∧ ∀ s e s', P s → S.next s e = some s' → P s'

variable {S}

/-- **The induction rule**: an inductive invariant holds in every reachable state. -/
theorem Inductive.reachable {P : σ → Prop} (h : S.Inductive P) {s : σ} (hs : S.Reachable s) :
    P s := by
  induction hs with
  | init => exact h.1
  | step e _ hst ih => exact h.2 _ e _ ih hst

/-- An invariant that holds in every reachable state is kept along every run from one. -/
theorem Inductive.run {P : σ → Prop} (h : S.Inductive P) {s s' : σ} {es : List ε}
    (hs : S.Reachable s) (hr : S.run s es = some s') : P s' :=
  h.reachable (hs.run hr)

/-- A second invariant whose preservation may assume the first. -/
theorem Inductive.and {P Q : σ → Prop} (hP : S.Inductive P)
    (hQ : Q S.init ∧ ∀ s e s', P s → Q s → S.next s e = some s' → Q s') :
    S.Inductive fun s => P s ∧ Q s :=
  ⟨⟨hP.1, hQ.1⟩, fun s e s' hs hst => ⟨hP.2 s e s' hs.1 hst, hQ.2 s e s' hs.1 hs.2 hst⟩⟩

/-! ### Recovery -/

variable (S) in
/-- From `s`, a schedule of events that all satisfy `ok` leads to a state that satisfies `Q`:
the events `ok` allows can by themselves bring the system to `Q`. -/
def Leads (ok : ε → Prop) (Q : σ → Prop) (s : σ) : Prop :=
  ∃ es s', (∀ e ∈ es, ok e) ∧ S.run s es = some s' ∧ Q s'

theorem Leads.of_holds {ok : ε → Prop} {Q : σ → Prop} {s : σ} (h : Q s) : S.Leads ok Q s :=
  ⟨[], s, fun _ he => absurd he List.not_mem_nil, rfl, h⟩

/-- **One allowed step back**: a state one allowed step before one that leads to `Q` leads
to `Q`. -/
theorem Leads.step {ok : ε → Prop} {Q : σ → Prop} {s s' : σ} {e : ε} (he : ok e)
    (hst : S.next s e = some s') (h : S.Leads ok Q s') : S.Leads ok Q s := by
  obtain ⟨es, s'', hes, hr, hq⟩ := h
  refine ⟨e :: es, s'', ?_, by simp [hst, hr], hq⟩
  intro e' he'
  rcases List.mem_cons.mp he' with rfl | he'
  · exact he
  · exact hes e' he'

/-! ### History variables -/

section History

variable {γ : Type}

variable (S) in
/-- The system with a history variable: a value the system does not keep, which each step sets
from its old value, the states before and after it and the event. It changes no step. -/
def withHistory (g₀ : γ) (h : σ → ε → σ → γ → γ) : System (σ × γ) ε where
  init := (S.init, g₀)
  next x e := (S.next x.1 e).map fun s' => (s', h x.1 e s' x.2)

theorem withHistory_next_eq_some {g₀ : γ} {h : σ → ε → σ → γ → γ} {x y : σ × γ} {e : ε}
    (hn : (S.withHistory g₀ h).next x e = some y) :
    S.next x.1 e = some y.1 ∧ y.2 = h x.1 e y.1 x.2 := by
  obtain ⟨s', hs', rfl⟩ := Option.map_eq_some_iff.mp hn
  exact ⟨hs', rfl⟩

/-- Every reachable state of the system is the state part of a reachable state of the system
with a history variable. -/
theorem Reachable.withHistory {s : σ} (hs : S.Reachable s) (g₀ : γ) (h : σ → ε → σ → γ → γ) :
    ∃ g, (S.withHistory g₀ h).Reachable (s, g) := by
  induction hs with
  | init => exact ⟨g₀, .init⟩
  | @step s s' e _ hst ih =>
    obtain ⟨g, hg⟩ := ih
    have hn : (S.withHistory g₀ h).next (s, g) e = some (s', h s e s' g) := by
      show (S.next s e).map _ = _
      rw [hst]
      rfl
    exact ⟨h s e s' g, .step e hg hn⟩

/-- An invariant of the system is one of the system with a history variable. -/
theorem Inductive.withHistory {P : σ → Prop} (hP : S.Inductive P) (g₀ : γ)
    (h : σ → ε → σ → γ → γ) : (S.withHistory g₀ h).Inductive fun x => P x.1 := by
  refine ⟨hP.1, fun x e y hx hn => ?_⟩
  exact hP.2 x.1 e y.1 hx (withHistory_next_eq_some hn).1

end History

end System

end Lts

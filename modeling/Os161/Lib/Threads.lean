import Mathlib

/-!
# Threads that run procedures as stacks of frames

A frame is a position in the code of one procedure, together with the arguments it needs.
Each thread has a stack of frames, its top first; an idle thread has the empty stack. One
atomic step of a thread runs the code at its top frame and says what comes next (`Flow`):
stay in the procedure at a new position, call another procedure and resume at a given
position, or return. The code of the procedures is a parameter (`fstep`); it reads and writes
the state shared by all threads and may be disabled (`none`), which is how blocking is
modelled.

* `Machine.step`, `Machine.call`: one step of a thread, and an idle thread calling a procedure.
* `step_eq_some`: what a step can do (the inversion the invariant proofs start from), and
  `step_stacks_ne`, `call_stacks_ne`: the frame rule, that no other thread's stack moves.
-/

namespace Threads

/-- What one atomic step of the top frame does next. -/
inductive Flow (φ : Type) where
  /-- Continue at the frame `f` (the same procedure, or a tail call). -/
  | goto (f : φ)
  /-- Call `callee`; the caller resumes at `ret`. -/
  | call (callee ret : φ)
  /-- Return to the caller. -/
  | ret
  deriving DecidableEq

namespace Flow

variable {φ ψ : Type}

/-- The new stack, from the rest of the stack below the frame that stepped. -/
def push : Flow φ → List φ → List φ
  | .goto f, rest => f :: rest
  | .call c r, rest => c :: r :: rest
  | .ret, rest => rest

/-- The same flow between frames of a larger type. -/
def map (g : φ → ψ) : Flow φ → Flow ψ
  | .goto f => .goto (g f)
  | .call c r => .call (g c) (g r)
  | .ret => .ret

@[simp] theorem push_goto (f : φ) (rest : List φ) : (goto f).push rest = f :: rest := rfl
@[simp] theorem push_call (c r : φ) (rest : List φ) : (call c r).push rest = c :: r :: rest := rfl
@[simp] theorem push_ret (rest : List φ) : (ret : Flow φ).push rest = rest := rfl

/-- A step pops its frame exactly when it returns. -/
theorem push_eq_self_iff {fl : Flow φ} {rest : List φ} : fl.push rest = rest ↔ fl = .ret := by
  cases fl with
  | goto f => simp
  | call c r =>
    have hlen : (c :: r :: rest).length ≠ rest.length := by simp only [List.length_cons]; omega
    simpa using fun h => hlen (congrArg List.length h)
  | ret => simp

@[simp] theorem map_goto (g : φ → ψ) (f : φ) : (goto f).map g = goto (g f) := rfl
@[simp] theorem map_call (g : φ → ψ) (c r : φ) : (call c r).map g = call (g c) (g r) := rfl
@[simp] theorem map_ret (g : φ → ψ) : (ret : Flow φ).map g = ret := rfl

end Flow

/-- The shared state and the stack of every thread, by thread id. -/
structure Machine (σ φ : Type) where
  shared : σ
  frames : Nat → List φ

namespace Machine

variable {σ φ : Type}

/-- One atomic step of thread `t`: the code at its top frame. Not enabled for an idle thread
or when the code blocks. -/
def step (fstep : Nat → φ → σ → Option (σ × Flow φ)) (m : Machine σ φ) (t : Nat) :
    Option (Machine σ φ) :=
  match m.frames t with
  | [] => none
  | f :: rest =>
    (fstep t f m.shared).map fun r => ⟨r.1, Function.update m.frames t (r.2.push rest)⟩

/-- An idle thread `t` calls the procedure whose entry frame is `f`. -/
def call (m : Machine σ φ) (t : Nat) (f : φ) : Option (Machine σ φ) :=
  match m.frames t with
  | [] => some ⟨m.shared, Function.update m.frames t [f]⟩
  | _ :: _ => none

variable {fstep : Nat → φ → σ → Option (σ × Flow φ)} {m m' : Machine σ φ} {t : Nat}

/-- **Inversion of a step**: the thread had a top frame, its code ran, and only its stack
changed. -/
theorem step_eq_some (h : m.step fstep t = some m') :
    ∃ f rest s' fl, m.frames t = f :: rest ∧ fstep t f m.shared = some (s', fl) ∧
      m' = ⟨s', Function.update m.frames t (fl.push rest)⟩ := by
  unfold step at h
  split at h
  · cases h
  · rename_i f rest hst
    obtain ⟨⟨s', fl⟩, hf, rfl⟩ := Option.map_eq_some_iff.mp h
    exact ⟨f, rest, s', fl, hst, hf, rfl⟩

/-- **Frame rule of a step**: no other thread's stack moves. -/
theorem step_stacks_ne (h : m.step fstep t = some m') {u : Nat} (hu : u ≠ t) :
    m'.frames u = m.frames u := by
  obtain ⟨_, _, _, _, _, _, rfl⟩ := step_eq_some h
  exact Function.update_of_ne hu _ _

theorem call_eq_some {f : φ} (h : m.call t f = some m') :
    m.frames t = [] ∧ m' = ⟨m.shared, Function.update m.frames t [f]⟩ := by
  unfold call at h
  split at h
  · exact ⟨‹_›, (Option.some.inj h).symm⟩
  · cases h

/-- **Frame rule of a call**: the shared state and every other stack stay. -/
theorem call_stacks_ne {f : φ} (h : m.call t f = some m') {u : Nat} (hu : u ≠ t) :
    m'.frames u = m.frames u := by
  obtain ⟨-, rfl⟩ := call_eq_some h
  exact Function.update_of_ne hu _ _

end Machine

end Threads

import Os161.Lib.Exec

/-!
# Data refinement of computations with error codes

An abstract data type is given by its abstract states and, for each operation, a precondition
and the outcomes it allows: the relation between the abstract state before, the result (a value
or an error code) and the abstract state after. It may leave several outcomes open, as when an
allocation may fail. A computation implements an operation through an abstraction relation when,
from a state related to an abstract state that meets the precondition, it does not halt, and
what it returns and the state it ends in are related to an outcome the operation allows
(`Implements`).

A client makes a sequence of calls and goes on after an error code (`runCalls`).
`Implements.runCalls` carries the implementation of each operation over every such sequence:
either all the calls return, with the results of an abstract run (`AbsRun`), and the state they
end in is related to the end of that run, or the calls reach, in a state related to the
abstract state there, a call whose precondition fails.
-/

namespace Exec

variable {ε σ τ α ι : Type}

/-- `x` implements the operation with precondition `pre` and outcomes `post` through the
abstraction relation `R`. -/
def Implements (R : σ → τ → Prop) (pre : τ → Prop) (post : τ → Except ε α → τ → Prop)
    (x : Exec ε σ α) : Prop :=
  ∀ s t, R s t → pre t → ∃ r s' t', attempt x s = .ok r s' ∧ post t r t' ∧ R s' t'

/-- The calls `cs` one after the other, each returning its value or error code to the caller,
which goes on with the next. -/
def runCalls (impl : ι → Exec ε σ α) : List ι → Exec ε σ (List (Except ε α))
  | [] => pure []
  | c :: cs => do
    let r ← attempt (impl c)
    let rs ← runCalls impl cs
    pure (r :: rs)

/-- The abstract runs: each call from an abstract state that meets its precondition, with an
outcome its operation allows. -/
inductive AbsRun (pre : ι → τ → Prop) (post : ι → τ → Except ε α → τ → Prop) :
    τ → List ι → List (Except ε α) → τ → Prop
  | nil (t : τ) : AbsRun pre post t [] [] t
  | cons {t t' t'' : τ} {c : ι} {r : Except ε α} {cs : List ι} {rs : List (Except ε α)} :
    pre c t → post c t r t' → AbsRun pre post t' cs rs t'' →
      AbsRun pre post t (c :: cs) (r :: rs) t''

variable {R : σ → τ → Prop} {pre : ι → τ → Prop} {post : ι → τ → Except ε α → τ → Prop}
  {impl : ι → Exec ε σ α}

theorem runCalls_cons_of_ok {c : ι} {cs : List ι} {s s₁ s' : σ} {r : Except ε α}
    {rs : List (Except ε α)} (h₁ : attempt (impl c) s = .ok r s₁)
    (h₂ : runCalls impl cs s₁ = .ok rs s') : runCalls impl (c :: cs) s = .ok (r :: rs) s' := by
  simp only [runCalls, bind_apply, h₁, h₂, pure_apply]

/-- **Every sequence of calls runs as the abstract data type allows**, up to the first call
whose precondition fails. -/
theorem Implements.runCalls (h : ∀ c, Implements R (pre c) (post c) (impl c)) {s : σ} {t : τ}
    (hR : R s t) (cs : List ι) :
    (∃ rs s' t', runCalls impl cs s = .ok rs s' ∧ AbsRun pre post t cs rs t' ∧ R s' t') ∨
      ∃ cs₁ c cs₂ rs₁ s₁ t₁, cs = cs₁ ++ c :: cs₂ ∧ runCalls impl cs₁ s = .ok rs₁ s₁ ∧
        AbsRun pre post t cs₁ rs₁ t₁ ∧ R s₁ t₁ ∧ ¬pre c t₁ := by
  induction cs generalizing s t with
  | nil => exact .inl ⟨[], s, t, rfl, .nil t, hR⟩
  | cons c cs ih =>
    by_cases hpre : pre c t
    · obtain ⟨r, s₁, t₁, hx, hpost, hR₁⟩ := h c s t hR hpre
      rcases ih hR₁ with ⟨rs, s', t', hrun, habs, hR'⟩ | ⟨cs₁, c', cs₂, rs₁, s₂, t₂, rfl, hrun,
        habs, hR₂, hnpre⟩
      · exact .inl ⟨r :: rs, s', t', runCalls_cons_of_ok hx hrun, .cons hpre hpost habs, hR'⟩
      · exact .inr ⟨c :: cs₁, c', cs₂, r :: rs₁, s₂, t₂, rfl, runCalls_cons_of_ok hx hrun,
          .cons hpre hpost habs, hR₂, hnpre⟩
    · exact .inr ⟨[], c, cs, [], s, t, rfl, rfl, .nil t, hR, hpre⟩

end Exec

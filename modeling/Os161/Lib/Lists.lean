import Mathlib

/-!
# Lists: sums and counts under `set` and `append`

The bookkeeping facts that the reference-count, queue and run-queue invariants rest on: how a
sum over a list moves when one element, or the value of a function at one point, is replaced,
and where `insertIdx` puts an element of a list given as two parts.
-/

namespace List

variable {α : Type*}

/-- **Updating a function at one point of a list without repeats moves the sum of its values by
the difference**, stated without subtraction. -/
theorem sum_map_update_add {ι β : Type*} [DecidableEq ι] [AddCommMonoid β] (f : ι → β) (c : ι)
    (b : β) {l : List ι} (hc : c ∈ l) (hnd : l.Nodup) :
    (l.map (Function.update f c b)).sum + f c = (l.map f).sum + b := by
  induction l with
  | nil => simp at hc
  | cons d l ih =>
    obtain ⟨hd, hnd⟩ := List.nodup_cons.mp hnd
    by_cases hdc : d = c
    · subst hdc
      -- `d` is not in the rest, where the update changes nothing
      have hrest : l.map (Function.update f d b) = l.map f :=
        List.map_congr_left fun x hx => Function.update_of_ne (by rintro rfl; exact hd hx) b f
      simp only [map_cons, sum_cons, Function.update_self, hrest]
      abel
    · have hc' : c ∈ l := (List.mem_cons.mp hc).resolve_left (Ne.symm hdc)
      simp only [map_cons, sum_cons, Function.update_of_ne hdc]
      rw [add_assoc, ih hc' hnd, add_assoc]

/-- **Replacing one element moves a sum by the difference.** Stated without subtraction:
the new sum plus the old summand is the old sum plus the new summand. -/
theorem sum_map_set_add (f : α → ℕ) (l : List α) (i : ℕ) (a : α) (h : i < l.length) :
    ((l.set i a).map f).sum + f l[i] = (l.map f).sum + f a := by
  induction l generalizing i with
  | nil => simp at h
  | cons x l ih =>
    cases i with
    | zero => simp only [set_cons_zero, map_cons, sum_cons, getElem_cons_zero]; omega
    | succ i =>
      have hi : i < l.length := by simpa using h
      have := ih i hi
      simp only [set_cons_succ, map_cons, sum_cons, getElem_cons_succ]
      omega

/-- Inserting at the length of the first part puts the element between the parts. -/
theorem insertIdx_length_append (l₁ l₂ : List α) (x : α) :
    (l₁ ++ l₂).insertIdx l₁.length x = l₁ ++ x :: l₂ := by
  induction l₁ with
  | nil => simp [insertIdx_zero]
  | cons a l₁ ih => simp [insertIdx_succ_cons, ih]

/-- **`find?` follows a relation between two lists** whose elements the two tests treat alike:
both find nothing, or they find related elements. -/
theorem Forall₂.find?_cases {β : Type*} {R : α → β → Prop} {p : α → Bool} {q : β → Bool}
    {l₁ : List α} {l₂ : List β} (h : Forall₂ R l₁ l₂) (hpq : ∀ a b, R a b → p a = q b) :
    (l₁.find? p = none ∧ l₂.find? q = none) ∨
      ∃ a b, R a b ∧ l₁.find? p = some a ∧ l₂.find? q = some b := by
  induction h with
  | nil => exact .inl ⟨rfl, rfl⟩
  | @cons a b l₁ l₂ hab _ ih =>
    cases hp : p a with
    | true =>
      have hq : q b = true := hpq a b hab ▸ hp
      exact .inr ⟨a, b, hab, by simp [hp], by simp [hq]⟩
    | false =>
      -- both tests pass over the heads, and the tails decide
      have hq : q b = false := hpq a b hab ▸ hp
      simpa only [find?_cons, hp, hq] using ih

end List

import Mathlib.Data.List.Nodup
import Mathlib.Logic.Function.Basic

/-!
# Singly linked lists in a heap

A linked list is a pointer to its first node and a `next` pointer in every node, `none`
standing for `NULL`. `Chain next p l` says that following `next` from `p` visits the nodes of
`l` in order and then reaches `NULL`.

* `Chain.unique`, `Chain.nodup`: the nodes a pointer leads to are determined by it, and a list
  that ends visits no node twice;
* `Chain.congr`: only the `next` pointers of its own nodes matter, so writes elsewhere leave a
  list alone;
* `Chain.push`, `Chain.bypass`: the two ways code changes a list, pushing a node in front and
  pointing a node past its successor (the pointer-to-pointer unlink).
-/

namespace Linked

variable {α : Type*} {next next' : α → Option α} {p : Option α} {l l' : List α}

/-- Following `next` from `p` visits `l` and then reaches `NULL`. -/
inductive Chain (next : α → Option α) : Option α → List α → Prop
  | nil : Chain next none []
  | cons {a : α} {l : List α} : Chain next (next a) l → Chain next (some a) (a :: l)

@[simp] theorem chain_none_iff : Chain next none l ↔ l = [] := by
  constructor
  · rintro ⟨⟩
    rfl
  · rintro rfl
    exact .nil

theorem chain_some_iff {a : α} : Chain next (some a) l ↔ ∃ l', l = a :: l' ∧ Chain next (next a) l' := by
  constructor
  · rintro ⟨⟩
    exact ⟨_, rfl, ‹_›⟩
  · rintro ⟨l', rfl, h⟩
    exact .cons h

theorem chain_cons_iff {a : α} : Chain next p (a :: l) ↔ p = some a ∧ Chain next (next a) l := by
  constructor
  · rintro ⟨⟩
    exact ⟨rfl, ‹_›⟩
  · rintro ⟨rfl, h⟩
    exact .cons h

/-- **A pointer determines its list.** -/
theorem Chain.unique (h : Chain next p l) (h' : Chain next p l') : l = l' := by
  induction h generalizing l' with
  | nil => exact (chain_none_iff.1 h').symm
  | cons _ ih =>
    obtain ⟨l'', rfl, h''⟩ := chain_some_iff.1 h'
    rw [ih h'']

/-- From a node of a list, the rest of the list, which is shorter than the list. -/
theorem Chain.of_mem {a : α} (h : Chain next p l) (ha : a ∈ l) :
    ∃ l₂, Chain next (next a) l₂ ∧ l₂.length < l.length := by
  induction h with
  | nil => simp at ha
  | @cons b l hl ih =>
    rcases List.mem_cons.mp ha with rfl | ha
    · exact ⟨l, hl, by simp⟩
    · obtain ⟨l₂, h₂, hlen⟩ := ih ha
      exact ⟨l₂, h₂, by simp; omega⟩

/-- **A list that ends visits no node twice.** -/
theorem Chain.nodup (h : Chain next p l) : l.Nodup := by
  induction h with
  | nil => exact List.nodup_nil
  | @cons a l hl ih =>
    refine List.nodup_cons.mpr ⟨fun ha => ?_, ih⟩
    -- the rest after `a` would both be `l` and be shorter than `l`
    obtain ⟨l₂, h₂, hlen⟩ := hl.of_mem ha
    rw [hl.unique h₂] at hlen
    exact Nat.lt_irrefl _ hlen

/-- **Frame rule**: a list only reads the `next` pointers of its own nodes. -/
theorem Chain.congr (h : Chain next p l) (hn : ∀ a ∈ l, next' a = next a) : Chain next' p l := by
  induction h with
  | nil => exact .nil
  | @cons a l _ ih =>
    refine .cons ?_
    rw [hn a (List.mem_cons_self ..)]
    exact ih fun b hb => hn b (List.mem_cons_of_mem _ hb)

/-- A write to the `next` pointer of a node off the list leaves the list alone. -/
theorem Chain.update_of_not_mem [DecidableEq α] {x : α} {v : Option α} (h : Chain next p l)
    (hx : x ∉ l) : Chain (Function.update next x v) p l :=
  h.congr fun a ha => Function.update_of_ne (fun (hax : a = x) => hx (hax ▸ ha)) _ _

/-- **Push in front**: a node off the list, pointed at the old first node. -/
theorem Chain.push [DecidableEq α] {a : α} (h : Chain next p l) (ha : a ∉ l) :
    Chain (Function.update next a p) (some a) (a :: l) := by
  refine .cons ?_
  rw [Function.update_self]
  exact h.update_of_not_mem ha

/-- **Bypass**: pointing node `b` past its successor `a` drops `a` from the list. -/
theorem Chain.bypass [DecidableEq α] {l₁ l₂ : List α} {a b : α}
    (h : Chain next p (l₁ ++ b :: a :: l₂)) :
    Chain (Function.update next b (next a)) p (l₁ ++ b :: l₂) := by
  have hnd := h.nodup
  induction l₁ generalizing p with
  | nil =>
    obtain ⟨rfl, hb⟩ := chain_cons_iff.1 h
    obtain ⟨-, ha⟩ := chain_cons_iff.1 hb
    refine chain_cons_iff.2 ⟨rfl, ?_⟩
    rw [Function.update_self]
    -- `b` is not among the nodes after `a`
    have hb : b ∉ l₂ := fun hb => (List.nodup_cons.mp hnd).1 (by simp [hb])
    exact ha.update_of_not_mem hb
  | cons c l₁ ih =>
    rw [List.cons_append] at h hnd ⊢
    obtain ⟨rfl, hc⟩ := chain_cons_iff.1 h
    have hcb : c ≠ b := fun hcb => (List.nodup_cons.mp hnd).1 (by simp [hcb])
    refine chain_cons_iff.2 ⟨rfl, ?_⟩
    rw [Function.update_of_ne hcb]
    exact ih hc (List.nodup_cons.mp hnd).2

/-! ### Unlinking through a pointer to a pointer -/

section Unlink

variable [DecidableEq α]

/-- Store `v` into the slot `guy` of the list with head `head`: the head itself for `none`,
the link of node `g` for `some g`. -/
def writeSlot (head : Option α) (next : α → Option α) : Option α → Option α →
    Option α × (α → Option α)
  | none, v => (v, next)
  | some g, v => (head, Function.update next g v)

/-- The slot that points at `x`, walking `l` from the slot `guy`. -/
def slotOf (x : α) : Option α → List α → Option α
  | guy, [] => guy
  | guy, g :: l => if g = x then guy else slotOf x (some g) l

/-- The slot that points at `x` is the link of the node before it, or `guy` if none is. -/
theorem slotOf_append {x : α} (guy : Option α) {l₁ : List α} (hx : x ∉ l₁) (l₂ : List α) :
    slotOf x guy (l₁ ++ x :: l₂) = l₁.getLast?.elim guy some := by
  induction l₁ generalizing guy with
  | nil => simp [slotOf]
  | cons g l₁ ih =>
    have hg : g ≠ x := fun h => hx (h ▸ List.mem_cons_self ..)
    rw [List.cons_append, slotOf, if_neg hg, ih _ fun h => hx (List.mem_cons_of_mem _ h),
      List.getLast?_cons]
    cases l₁.getLast? <;> rfl

/-- **Unlink**: storing `x`'s successor into the slot that points at `x` drops `x` from
the list. -/
theorem Chain.unlink {head : Option α} {x : α} (h : Chain next head l) (hx : x ∈ l) :
    let w := writeSlot head next (slotOf x none l) (next x)
    Chain w.2 w.1 (l.erase x) := by
  obtain ⟨l₁, l₂, rfl⟩ := List.append_of_mem hx
  -- `x` occurs once, so `l₁` is the part before it
  have hx₁ : x ∉ l₁ := fun h₁ =>
    (List.nodup_append.mp h.nodup).2.2 x h₁ x (List.mem_cons_self ..) rfl
  rw [slotOf_append none hx₁, List.erase_append_right _ hx₁, List.erase_cons_head]
  rcases List.eq_nil_or_concat l₁ with rfl | ⟨l₀, b, rfl⟩
  · obtain ⟨-, h⟩ := chain_cons_iff.1 h
    exact h
  · rw [List.concat_eq_append, List.append_assoc] at h ⊢
    simpa [writeSlot] using h.bypass

end Unlink

/-- A list of distinct nodes below `n` has at most `n` nodes. -/
theorem Chain.length_le {next : ℕ → Option ℕ} {p : Option ℕ} {l : List ℕ} {n : ℕ}
    (h : Chain next p l) (hl : ∀ a ∈ l, a < n) : l.length ≤ n := by
  simpa using List.Nodup.length_le_of_subset h.nodup fun a ha => List.mem_range.mpr (hl a ha)

end Linked

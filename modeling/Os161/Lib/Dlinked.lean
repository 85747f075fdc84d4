import Os161.Lib.Linked

/-!
# Doubly linked lists between two sentinel nodes

A doubly linked list with sentinels keeps two nodes `hd` and `tl` on the list at all times:
following `next` from `hd` visits `hd`, the elements and `tl`, and then reaches `NULL`, and
following `prev` from `tl` visits the same nodes backwards (`Dlist`). With the sentinels every
element has a node on each side, so putting a node in and taking one out are each one shape of
pointer surgery, whatever the position:

* `Dlist.link`: the two neighbours around any cut of the elements point at each other;
* `Dlist.insert`: the four writes that put a node off the list between two neighbours;
* `Dlist.remove`: the two writes that take a node out from between its neighbours;
* `Dlist.update_of_not_mem`, `Dlist.not_mem`: writes to nodes off the list leave it alone, and a
  node whose two pointers are `NULL` is off it; `Dlist.not_mem_of_remove`: a node taken out is
  off it.
-/

namespace Linked

open Function

variable {α : Type*} {next next' prev prev' : α → Option α} {p : Option α}
  {l l₁ l₂ : List α} {a b x hd tl : α}

theorem chain_nil_iff : Chain next p [] ↔ p = none := by
  constructor
  · rintro ⟨⟩
    rfl
  · rintro rfl
    exact .nil

/-- The node after `a` on a chain. -/
theorem Chain.next_of_append (h : Chain next p (l₁ ++ a :: b :: l₂)) : next a = some b := by
  induction l₁ generalizing p with
  | nil =>
    obtain ⟨-, h⟩ := chain_cons_iff.1 h
    exact (chain_cons_iff.1 h).1
  | cons c l₁ ih => exact ih (chain_cons_iff.1 h).2

/-- The last node of a chain points at `NULL`. -/
theorem Chain.next_of_last (h : Chain next p (l₁ ++ [a])) : next a = none := by
  induction l₁ generalizing p with
  | nil => exact chain_nil_iff.1 (chain_cons_iff.1 h).2
  | cons c l₁ ih => exact ih (chain_cons_iff.1 h).2

section Surgery

variable [DecidableEq α]

/-- **Insert after `a`**: pointing `a` at a node `x` off the chain, and `x` where `a` pointed,
puts `x` after `a`. -/
theorem Chain.insert (h : Chain next p (l₁ ++ a :: l₂)) (hx : x ∉ l₁ ++ a :: l₂) :
    Chain (update (update next x (next a)) a (some x)) p (l₁ ++ a :: x :: l₂) := by
  have hnd := h.nodup
  induction l₁ generalizing p with
  | nil =>
    rw [List.nil_append] at h hx hnd ⊢
    obtain ⟨rfl, ha⟩ := chain_cons_iff.1 h
    have hxa : x ≠ a := fun hxa => hx (hxa ▸ List.mem_cons_self ..)
    have hx₂ : x ∉ l₂ := fun h₂ => hx (List.mem_cons_of_mem _ h₂)
    have ha₂ : a ∉ l₂ := (List.nodup_cons.mp hnd).1
    refine .cons ?_
    rw [update_self]
    refine .cons ?_
    rw [update_of_ne hxa, update_self]
    exact (ha.update_of_not_mem hx₂).update_of_not_mem ha₂
  | cons c l₁ ih =>
    rw [List.cons_append] at h hx hnd ⊢
    obtain ⟨rfl, hc⟩ := chain_cons_iff.1 h
    -- `c` comes before `a` and is not the fresh node, so its pointer stays
    have hca : c ≠ a := fun hca => (List.nodup_cons.mp hnd).1 (by simp [hca])
    have hcx : c ≠ x := fun hcx => hx (hcx ▸ List.mem_cons_self ..)
    refine .cons ?_
    rw [update_of_ne hca, update_of_ne hcx]
    exact ih hc (fun h' => hx (List.mem_cons_of_mem _ h')) (List.nodup_cons.mp hnd).2

end Surgery

/-- A doubly linked list with the sentinels `hd` and `tl` and the elements `l`. -/
structure Dlist (next prev : α → Option α) (hd tl : α) (l : List α) : Prop where
  /-- From `hd` forwards: `hd`, the elements, `tl`, then `NULL`. -/
  fwd : Chain next (some hd) (hd :: l ++ [tl])
  /-- From `tl` backwards: `tl`, the elements reversed, `hd`, then `NULL`. -/
  bwd : Chain prev (some tl) (tl :: l.reverse ++ [hd])

/-- The empty list: the sentinels point at each other. -/
theorem Dlist.nil (hn : next hd = some tl) (hnt : next tl = none) (hp : prev tl = some hd)
    (hph : prev hd = none) : Dlist next prev hd tl [] where
  fwd := .cons (hn ▸ .cons (hnt ▸ .nil))
  bwd := .cons (hp ▸ .cons (hph ▸ .nil))

theorem Dlist.nodup (h : Dlist next prev hd tl l) : (hd :: l ++ [tl]).Nodup := h.fwd.nodup

/-- The backward chain visits the nodes of the forward one. -/
theorem mem_backward_iff {y : α} : y ∈ tl :: l.reverse ++ [hd] ↔ y ∈ hd :: l ++ [tl] := by
  simp only [List.cons_append, List.mem_cons, List.mem_append, List.mem_reverse]
  tauto

/-- The nodes of a list cut after `l₁`, with `a` the last node before the cut and `b` the first
after it, forwards and backwards, and the same with a node `x` put into the cut. -/
theorem nodes_cut (ha : (hd :: l₁).getLast? = some a) (hb : (l₂ ++ [tl]).head? = some b) :
    ∃ L₁ L₂, hd :: (l₁ ++ l₂) ++ [tl] = L₁ ++ a :: b :: L₂ ∧
      tl :: (l₁ ++ l₂).reverse ++ [hd] = L₂.reverse ++ b :: a :: L₁.reverse ∧
      ∀ x, hd :: (l₁ ++ x :: l₂) ++ [tl] = L₁ ++ a :: x :: b :: L₂ ∧
        tl :: (l₁ ++ x :: l₂).reverse ++ [hd] = L₂.reverse ++ b :: x :: a :: L₁.reverse := by
  obtain ⟨L₁, hL₁⟩ := List.getLast?_eq_some_iff.mp ha
  obtain ⟨L₂, hL₂⟩ := List.head?_eq_some_iff.mp hb
  -- both lists are `(hd :: l₁) ++ y ++ (l₂ ++ [tl])`, forwards and backwards
  have hcut : ∀ y : List α, hd :: (l₁ ++ y ++ l₂) ++ [tl] = L₁ ++ a :: (y ++ b :: L₂) := by
    intro y
    calc hd :: (l₁ ++ y ++ l₂) ++ [tl] = (hd :: l₁) ++ y ++ (l₂ ++ [tl]) := by simp
      _ = L₁ ++ a :: (y ++ b :: L₂) := by rw [hL₁, hL₂]; simp
  have hrev : ∀ y : List α, tl :: (l₁ ++ y ++ l₂).reverse ++ [hd] =
      L₂.reverse ++ b :: (y.reverse ++ a :: L₁.reverse) := by
    intro y
    have := congrArg List.reverse (hcut y)
    simpa using this
  refine ⟨L₁, L₂, by simpa using hcut [], by simpa using hrev [], fun x => ⟨?_, ?_⟩⟩
  · simpa using hcut [x]
  · simpa using hrev [x]

/-- **Around any cut of the elements**, the last node before it and the first node after it
point at each other. -/
theorem Dlist.link (h : Dlist next prev hd tl (l₁ ++ l₂)) (ha : (hd :: l₁).getLast? = some a)
    (hb : (l₂ ++ [tl]).head? = some b) : next a = some b ∧ prev b = some a := by
  obtain ⟨L₁, L₂, hf, hr, -⟩ := nodes_cut ha hb
  exact ⟨(hf ▸ h.fwd).next_of_append, (hr ▸ h.bwd).next_of_append⟩

/-- The sentinels' outer pointers are `NULL`. -/
theorem Dlist.next_tl (h : Dlist next prev hd tl l) : next tl = none :=
  Chain.next_of_last (show Chain next (some hd) ((hd :: l) ++ [tl]) from h.fwd)

theorem Dlist.prev_hd (h : Dlist next prev hd tl l) : prev hd = none :=
  Chain.next_of_last (show Chain prev (some tl) ((tl :: l.reverse) ++ [hd]) from h.bwd)

/-- **A node with both pointers `NULL` is off the list**: `hd` has a successor, and every other
node a predecessor. -/
theorem Dlist.not_mem (h : Dlist next prev hd tl l) {y : α} (hn : next y = none)
    (hp : prev y = none) : y ∉ hd :: l ++ [tl] := by
  intro hy
  obtain ⟨L₁, L₂, hsplit⟩ := List.append_of_mem (mem_backward_iff.2 hy)
  rcases L₂ with _ | ⟨c, L₂⟩
  · -- last backwards is `hd`, whose successor is the first node after it
    have hyhd : hd = y := by
      have h₂ := (List.append_inj' (show (tl :: l.reverse) ++ [hd] = L₁ ++ [y] from hsplit) rfl).2
      simpa using h₂
    subst hyhd
    have hrest := (chain_cons_iff.1 (show Chain next (some hd) (hd :: (l ++ [tl])) from h.fwd)).2
    rw [hn, chain_none_iff] at hrest
    simp at hrest
  · -- any other node has the next node backwards as its predecessor
    have hb : Chain prev (some tl) (L₁ ++ y :: c :: L₂) := hsplit ▸ h.bwd
    rw [hb.next_of_append] at hp
    cases hp

/-- A doubly linked list reads only the pointers of its own nodes. -/
theorem Dlist.congr (h : Dlist next prev hd tl l) (hn : ∀ y ∈ hd :: l ++ [tl], next' y = next y)
    (hp : ∀ y ∈ hd :: l ++ [tl], prev' y = prev y) : Dlist next' prev' hd tl l where
  fwd := h.fwd.congr hn
  bwd := h.bwd.congr fun y hy => hp y (mem_backward_iff.1 hy)

/-- A node taken out of the list is off it. -/
theorem Dlist.not_mem_of_remove (h : Dlist next prev hd tl (l₁ ++ x :: l₂)) :
    x ∉ hd :: (l₁ ++ l₂) ++ [tl] := by
  have hnd := h.nodup
  have hsplit : hd :: (l₁ ++ x :: l₂) ++ [tl] = (hd :: l₁) ++ x :: (l₂ ++ [tl]) := by simp
  rw [hsplit, List.nodup_middle] at hnd
  have hx := (List.nodup_cons.mp hnd).1
  simpa using hx

section Surgery

variable [DecidableEq α]

/-- Writes to a node off the list leave the list alone. -/
theorem Dlist.update_of_not_mem (h : Dlist next prev hd tl l) (hx : x ∉ hd :: l ++ [tl])
    (v w : Option α) : Dlist (update next x v) (update prev x w) hd tl l :=
  h.congr (fun _ hy => update_of_ne (by rintro rfl; exact hx hy) _ _)
    (fun _ hy => update_of_ne (by rintro rfl; exact hx hy) _ _)

/-- **Insert between neighbours**: a node `x` off the list, pointed at the neighbours `a` and `b`
around a cut and pointed at by them, is on the list at the cut. -/
theorem Dlist.insert (h : Dlist next prev hd tl (l₁ ++ l₂)) (ha : (hd :: l₁).getLast? = some a)
    (hb : (l₂ ++ [tl]).head? = some b) (hx : x ∉ hd :: (l₁ ++ l₂) ++ [tl]) :
    Dlist (update (update next x (some b)) a (some x)) (update (update prev x (some a)) b (some x))
      hd tl (l₁ ++ x :: l₂) := by
  obtain ⟨hab, hba⟩ := h.link ha hb
  obtain ⟨L₁, L₂, hf, hr, hfx⟩ := nodes_cut ha hb
  have hxf : x ∉ L₁ ++ a :: b :: L₂ := hf ▸ hx
  have hxr : x ∉ L₂.reverse ++ b :: a :: L₁.reverse := by
    rw [← hr]
    exact fun hy => hx (mem_backward_iff.1 hy)
  constructor
  · have hins := (hf ▸ h.fwd).insert hxf
    rw [hab] at hins
    rw [(hfx x).1]
    exact hins
  · have hins := (hr ▸ h.bwd).insert hxr
    rw [hba] at hins
    rw [(hfx x).2]
    exact hins

/-- **Remove from between neighbours**: pointing the neighbours of `x` at each other takes `x`
off the list. -/
theorem Dlist.remove (h : Dlist next prev hd tl (l₁ ++ x :: l₂))
    (ha : (hd :: l₁).getLast? = some a) (hb : (l₂ ++ [tl]).head? = some b) :
    Dlist (update next a (some b)) (update prev b (some a)) hd tl (l₁ ++ l₂) := by
  obtain ⟨L₁, L₂, hf, hr, hfx⟩ := nodes_cut ha hb
  have hf' : Chain next (some hd) (L₁ ++ a :: x :: b :: L₂) := (hfx x).1 ▸ h.fwd
  have hr' : Chain prev (some tl) (L₂.reverse ++ b :: x :: a :: L₁.reverse) := (hfx x).2 ▸ h.bwd
  -- `x`'s own pointers name its neighbours
  have hxb : next x = some b :=
    Chain.next_of_append (show Chain next (some hd) ((L₁ ++ [a]) ++ x :: b :: L₂) by simpa using hf')
  have hxa : prev x = some a := Chain.next_of_append
    (show Chain prev (some tl) ((L₂.reverse ++ [b]) ++ x :: a :: L₁.reverse) by simpa using hr')
  constructor
  · have hby := hf'.bypass
    rw [hxb] at hby
    rw [hf]
    exact hby
  · have hby := hr'.bypass
    rw [hxa] at hby
    rw [hr]
    exact hby

end Surgery

end Linked

import Os161.Thread.Threadlist
import Os161.Lib.Dlinked
import Os161.Lib.Lists
import Os161.Lib.Refine

/-!
# The thread list invariant, and the deque a thread list implements

A thread list stands for the sequence of threads on it (`Represents`): `tl_head` leads forwards
through their nodes to `tl_tail` and `tl_tail` backwards through the same nodes to `tl_head`,
with `NULL` at both ends (`Linked.Dlist`), `tl_count` is their number, and each of their nodes
holds its own thread in `tln_self`. A thread may be put on a list when its node is detached
(`Detached`), as `threadlistnode_init` and `threadlist_removenode` leave it.

Through the abstraction `Abs`, to the sequence on the list and the set of threads with detached
nodes, each public operation is the matching deque operation (`Threadlist.implements_call`): the inserts
put a detached thread at the head, the tail, or after or before a thread on the list; the
removals take the head, the tail or a given thread off the list and detach it, and
`threadlist_remhead` and `threadlist_remtail` return `NULL` exactly on an empty list.
`threadlist_refines_deque` carries this over every sequence of calls from `threadlist_init`.

Every insert is one shape of pointer surgery, `ThreadMem.linkBetween`, and every removal one
other, `ThreadMem.unlinkFrom`; the operations differ only in the cut of the sequence where they
act, named by the nodes on either side of it (`before`, `after`).
-/

namespace Os161

open Exec Function Linked

variable {ι τ : Type} [DecidableEq ι] [DecidableEq τ]

/-! ### The two shapes of pointer surgery -/

namespace ThreadMem

/-- The fields after `x` is put between `a` and `b`. -/
def linkBetween (m : ThreadMem ι τ) (a x b : Tln ι τ) : ThreadMem ι τ :=
  { m with
    tlnPrev := update (update m.tlnPrev x (some a)) b (some x)
    tlnNext := update (update m.tlnNext x (some b)) a (some x) }

/-- The fields after `x` is taken from between `a` and `b`, its own pointers cleared. -/
def unlinkFrom (m : ThreadMem ι τ) (a x b : Tln ι τ) : ThreadMem ι τ :=
  { m with
    tlnPrev := update (update m.tlnPrev b (some a)) x none
    tlnNext := update (update m.tlnNext a (some b)) x none }

/-- `tl_count` of `tl` set to `n`. -/
def withCount (m : ThreadMem ι τ) (tl : ι) (n : Nat) : ThreadMem ι τ :=
  { m with tlCount := update m.tlCount tl n }

variable {m : ThreadMem ι τ} {a x b : Tln ι τ} {tl : ι} {n : Nat}

@[simp] theorem linkBetween_tlnSelf : (m.linkBetween a x b).tlnSelf = m.tlnSelf := rfl
@[simp] theorem linkBetween_tlCount : (m.linkBetween a x b).tlCount = m.tlCount := rfl
@[simp] theorem unlinkFrom_tlnSelf : (m.unlinkFrom a x b).tlnSelf = m.tlnSelf := rfl
@[simp] theorem unlinkFrom_tlCount : (m.unlinkFrom a x b).tlCount = m.tlCount := rfl
@[simp] theorem withCount_tlnPrev : (m.withCount tl n).tlnPrev = m.tlnPrev := rfl
@[simp] theorem withCount_tlnNext : (m.withCount tl n).tlnNext = m.tlnNext := rfl
@[simp] theorem withCount_tlnSelf : (m.withCount tl n).tlnSelf = m.tlnSelf := rfl

@[simp] theorem withCount_tlCount_self : (m.withCount tl n).tlCount tl = n := update_self ..

end ThreadMem

open ThreadMem

section Spec

variable {m : ThreadMem ι τ} {a b : Tln ι τ} {t : τ}

@[simp] theorem deref_some (n : Tln ι τ) : deref (some n) m = .ok n m := rfl

@[simp] theorem setTlnPrev_apply (n : Tln ι τ) (v : Option (Tln ι τ)) :
    setTlnPrev n v m = .ok () { m with tlnPrev := update m.tlnPrev n v } := rfl

@[simp] theorem setTlnNext_apply (n : Tln ι τ) (v : Option (Tln ι τ)) :
    setTlnNext n v m = .ok () { m with tlnNext := update m.tlnNext n v } := rfl

@[simp] theorem setTlnSelf_apply (n : Tln ι τ) (v : Option τ) :
    setTlnSelf n v m = .ok () { m with tlnSelf := update m.tlnSelf n v } := rfl

@[simp] theorem setTlCount_apply (tl : ι) (v : Nat) : setTlCount tl v m = .ok () (m.withCount tl v) :=
  rfl

/-- `threadlist_insertafternode(a, t)`, with `b` after `a`, puts `t`'s node between them. -/
theorem threadlistInsertafternode_apply (hab : m.tlnNext a = some b) (hxa : Tln.tListnode t ≠ a) :
    threadlistInsertafternode a t m = .ok () (m.linkBetween a (.tListnode t) b) := by
  simp only [threadlistInsertafternode, bind_apply, get_apply, setTlnPrev_apply,
    setTlnNext_apply, hab, update_self, deref_some, update_of_ne hxa]
  rfl

/-- `threadlist_insertbeforenode(t, b)`, with `a` before `b`, puts `t`'s node between them. -/
theorem threadlistInsertbeforenode_apply (hba : m.tlnPrev b = some a) (hxa : Tln.tListnode t ≠ a) :
    threadlistInsertbeforenode t b m = .ok () (m.linkBetween a (.tListnode t) b) := by
  simp only [threadlistInsertbeforenode, bind_apply, get_apply, setTlnPrev_apply,
    setTlnNext_apply, hba, update_self, deref_some, update_of_ne hxa]
  rfl

/-- `threadlist_removenode(x)`, between `a` and `b`, takes it out and clears its pointers. -/
theorem threadlistRemovenode_apply {x : Tln ι τ} (hxa : m.tlnPrev x = some a)
    (hxb : m.tlnNext x = some b) (hne : x ≠ a) :
    threadlistRemovenode x m = .ok () (m.unlinkFrom a x b) := by
  simp only [threadlistRemovenode, bind_apply, get_apply, setTlnPrev_apply, setTlnNext_apply,
    hxa, hxb, deref_some, update_of_ne hne]
  rfl

end Spec

namespace Threadlist

/-! ### The representation invariant -/

/-- The list `tl` holds the threads `l`, head first. -/
structure Represents (m : ThreadMem ι τ) (tl : ι) (l : List τ) : Prop where
  /-- `tl_head` leads forwards through the threads' nodes to `tl_tail`, and `tl_tail` backwards
  through the same nodes to `tl_head`; `tl_head.tln_prev` and `tl_tail.tln_next` are `NULL`. -/
  links : Dlist m.tlnNext m.tlnPrev (.tlHead tl) (.tlTail tl) (l.map .tListnode)
  /-- `tl_count` is the number of threads on the list. -/
  count : m.tlCount tl = l.length
  /-- Every node on the list holds its own thread. -/
  self : ∀ t ∈ l, m.tlnSelf (.tListnode t) = some t

/-- The node of `t` is off every list and holds `t`. -/
def Detached (m : ThreadMem ι τ) (t : τ) : Prop :=
  m.tlnPrev (.tListnode t) = none ∧ m.tlnNext (.tListnode t) = none ∧
    m.tlnSelf (.tListnode t) = some t

/-- The node before the cut after the threads `l₁`: the last of them, or `tl_head`. -/
def before (tl : ι) (l₁ : List τ) : Tln ι τ := (l₁.getLast?.map .tListnode).getD (.tlHead tl)

/-- The node after the cut before the threads `l₂`: the first of them, or `tl_tail`. -/
def after (tl : ι) (l₂ : List τ) : Tln ι τ := (l₂.head?.map .tListnode).getD (.tlTail tl)

section Cut

variable {tl : ι} {l l₁ l₂ : List τ} {t : τ}

@[simp] theorem before_nil : before tl ([] : List τ) = .tlHead tl := rfl
@[simp] theorem after_nil : after tl ([] : List τ) = .tlTail tl := rfl
@[simp] theorem after_cons : after tl (t :: l₂) = .tListnode t := rfl
@[simp] theorem before_concat : before tl (l₁ ++ [t]) = .tListnode t := by simp [before]
@[simp] theorem before_singleton : before tl [t] = .tListnode t := rfl

theorem getLast?_before (tl : ι) (l₁ : List τ) :
    (Tln.tlHead tl :: l₁.map .tListnode).getLast? = some (before tl l₁) := by
  rcases List.eq_nil_or_concat l₁ with rfl | ⟨l₀, t, rfl⟩
  · rfl
  · simp [List.getLast?_cons]

theorem head?_after (tl : ι) (l₂ : List τ) :
    (l₂.map Tln.tListnode ++ [Tln.tlTail tl]).head? = some (after tl l₂) := by
  cases l₂ <;> rfl

/-- A thread not among `l₁` does not have the node before the cut after them. -/
theorem ne_before (tl : ι) (ht : t ∉ l₁) : (Tln.tListnode t : Tln ι τ) ≠ before tl l₁ := by
  intro h
  have hmem := List.mem_of_getLast? (getLast?_before tl l₁)
  rw [← h] at hmem
  simp only [List.mem_cons, reduceCtorEq, List.mem_map, Tln.tListnode.injEq, exists_eq_right,
    false_or] at hmem
  exact ht hmem

end Cut

namespace Represents

variable {m : ThreadMem ι τ} {tl : ι} {l l₁ l₂ : List τ} {t t' : τ}

/-- The nodes of the list, bookends included. -/
theorem nodup (h : Represents m tl l) : l.Nodup :=
  (List.nodup_append.mp (List.nodup_cons.mp h.links.nodup).2).1.of_map _

/-- Around a cut of the threads, the nodes on either side point at each other. -/
theorem link_at (h : Represents m tl l) (l₁ l₂ : List τ) (hl : l = l₁ ++ l₂) :
    m.tlnNext (before tl l₁) = some (after tl l₂) ∧ m.tlnPrev (after tl l₂) = some (before tl l₁) := by
  have hd := h.links
  rw [hl, List.map_append] at hd
  exact hd.link (getLast?_before tl l₁) (head?_after tl l₂)

/-- The nodes on either side of a cut are on the list. -/
theorem before_mem (tl : ι) (l₁ l₂ : List τ) :
    before tl l₁ ∈ Tln.tlHead tl :: (l₁ ++ l₂).map .tListnode ++ [.tlTail tl] := by
  have := List.mem_of_getLast? (getLast?_before tl l₁)
  simp only [List.map_append, List.cons_append, List.mem_cons, List.mem_append] at this ⊢
  tauto

theorem after_mem (tl : ι) (l₁ l₂ : List τ) :
    after tl l₂ ∈ Tln.tlHead tl :: (l₁ ++ l₂).map .tListnode ++ [.tlTail tl] := by
  have := List.mem_of_mem_head? (head?_after tl l₂)
  simp only [List.map_append, List.cons_append, List.mem_cons, List.mem_append] at this ⊢
  tauto

/-- A detached node is none of the nodes of the list. -/
theorem ne_of_detached (h : Represents m tl l) (ht : Detached m t) {y : Tln ι τ}
    (hy : y ∈ Tln.tlHead tl :: l.map .tListnode ++ [.tlTail tl]) : Tln.tListnode t ≠ y := by
  rintro rfl
  exact h.links.not_mem ht.2.1 ht.1 hy

/-- A detached thread is not on the list. -/
theorem not_mem_of_detached (h : Represents m tl l) (ht : Detached m t) : t ∉ l := fun hl =>
  h.ne_of_detached ht (y := .tListnode t) (by simp [hl]) rfl

/-- **Insert**: a detached thread's node put between the nodes around a cut, and counted, is on
the list at the cut. -/
theorem link (h : Represents m tl (l₁ ++ l₂)) (ht : Detached m t) :
    Represents ((m.linkBetween (before tl l₁) (.tListnode t) (after tl l₂)).withCount tl
      (m.tlCount tl + 1)) tl (l₁ ++ t :: l₂) where
  links := by
    have hd := h.links
    rw [List.map_append] at hd
    have hx := hd.not_mem ht.2.1 ht.1
    have hins := hd.insert (getLast?_before tl l₁) (head?_after tl l₂) hx
    simpa [linkBetween] using hins
  count := by
    simp [h.count]
    omega
  self u hu := by
    simp only [List.mem_append, List.mem_cons] at hu
    simp only [withCount_tlnSelf, linkBetween_tlnSelf]
    rcases hu with hu | rfl | hu
    · exact h.self u (List.mem_append_left _ hu)
    · exact ht.2.2
    · exact h.self u (List.mem_append_right _ hu)

/-- **Remove**: a thread's node taken from between its neighbours, and uncounted, leaves the
list without it. -/
theorem unlink (h : Represents m tl (l₁ ++ t :: l₂)) :
    Represents ((m.unlinkFrom (before tl l₁) (.tListnode t) (after tl l₂)).withCount tl
      (m.tlCount tl - 1)) tl (l₁ ++ l₂) where
  links := by
    have hd := h.links
    rw [List.map_append, List.map_cons] at hd
    have hx := hd.not_mem_of_remove
    have hrem := (hd.remove (getLast?_before tl l₁) (head?_after tl l₂)).update_of_not_mem hx
      none none
    simpa [unlinkFrom] using hrem
  count := by simp [h.count]
  self u hu := by
    simp only [withCount_tlnSelf, unlinkFrom_tlnSelf]
    exact h.self u (by simp only [List.mem_append, List.mem_cons] at hu ⊢; tauto)

end Represents

namespace Detached

variable {m : ThreadMem ι τ} {a x b : Tln ι τ} {tl : ι} {n : Nat} {t : τ}

/-- Writes elsewhere leave a detached node detached. -/
theorem linkBetween (ht : Detached m t) (hx : Tln.tListnode t ≠ x) (ha : Tln.tListnode t ≠ a)
    (hb : Tln.tListnode t ≠ b) : Detached ((m.linkBetween a x b).withCount tl n) t := by
  simp only [Detached, withCount_tlnPrev, withCount_tlnNext, withCount_tlnSelf, ThreadMem.linkBetween, update_of_ne hx, update_of_ne ha, update_of_ne hb]
  exact ht

theorem unlinkFrom (ht : Detached m t) (hx : Tln.tListnode t ≠ x) (ha : Tln.tListnode t ≠ a)
    (hb : Tln.tListnode t ≠ b) : Detached ((m.unlinkFrom a x b).withCount tl n) t := by
  simp only [Detached, withCount_tlnPrev, withCount_tlnNext, withCount_tlnSelf, ThreadMem.unlinkFrom, update_of_ne hx, update_of_ne ha, update_of_ne hb]
  exact ht

/-- The node taken off a list is detached. -/
theorem of_unlinkFrom (hself : m.tlnSelf (.tListnode t) = some t) :
    Detached ((m.unlinkFrom a (.tListnode t) b).withCount tl n) t := by
  simp [Detached, ThreadMem.unlinkFrom, hself]

end Detached

/-! ### The deque a thread list stands for -/

/-- What a thread list stands for: the threads on it, head first, and the threads whose nodes
are detached, which may be put on it. -/
structure Deque (τ : Type) where
  seq : List τ
  detached : Set τ

/-- The list `tl` holds `q.seq`, and every thread of `q.detached` has its node detached. -/
def Abs (tl : ι) (m : ThreadMem ι τ) (q : Deque τ) : Prop :=
  Represents m tl q.seq ∧ ∀ t ∈ q.detached, Detached m t

/-- A call of a public operation of `threadlist.c` on one list. -/
inductive ThreadlistCall (τ : Type) where
  | addhead (t : τ)
  | addtail (t : τ)
  | remhead
  | remtail
  | insertafter (onlist addee : τ)
  | insertbefore (addee onlist : τ)
  | remove (t : τ)

/-- The call on the list `tl`; the inserts and `threadlist_remove` return nothing (`none`). -/
def threadlistCall (tl : ι) : ThreadlistCall τ → Exec Int (ThreadMem ι τ) (Option τ)
  | .addhead t => do threadlistAddhead tl t; pure none
  | .addtail t => do threadlistAddtail tl t; pure none
  | .remhead => threadlistRemhead tl
  | .remtail => threadlistRemtail tl
  | .insertafter onlist addee => do threadlistInsertafter tl onlist addee; pure none
  | .insertbefore addee onlist => do threadlistInsertbefore tl addee onlist; pure none
  | .remove t => do threadlistRemove tl t; pure none

namespace Deque

/-- When a call may be made: an inserted thread is detached, a thread named as on the list is on
it. -/
def pre : ThreadlistCall τ → Deque τ → Prop
  | .addhead t, q => t ∈ q.detached
  | .addtail t, q => t ∈ q.detached
  | .remhead, _ => True
  | .remtail, _ => True
  | .insertafter onlist addee, q => onlist ∈ q.seq ∧ addee ∈ q.detached
  | .insertbefore addee onlist, q => onlist ∈ q.seq ∧ addee ∈ q.detached
  | .remove t, q => t ∈ q.seq

/-- The deque operation of each call: its result and the deque after it. -/
def call : ThreadlistCall τ → Deque τ → Option τ × Deque τ
  | .addhead t, q => (none, ⟨t :: q.seq, q.detached \ {t}⟩)
  | .addtail t, q => (none, ⟨q.seq ++ [t], q.detached \ {t}⟩)
  | .remhead, q => match q.seq with
    | [] => (none, q)
    | t :: l => (some t, ⟨l, insert t q.detached⟩)
  | .remtail, q => match q.seq.getLast? with
    | none => (none, q)
    | some t => (some t, ⟨q.seq.dropLast, insert t q.detached⟩)
  | .insertafter onlist addee, q =>
    (none, ⟨q.seq.insertIdx (q.seq.idxOf onlist + 1) addee, q.detached \ {addee}⟩)
  | .insertbefore addee onlist, q =>
    (none, ⟨q.seq.insertIdx (q.seq.idxOf onlist) addee, q.detached \ {addee}⟩)
  | .remove t, q => (none, ⟨q.seq.erase t, insert t q.detached⟩)

/-- The outcome the deque operation allows: its result, and the deque after it. -/
def post (c : ThreadlistCall τ) (q : Deque τ) (r : Except Int (Option τ)) (q' : Deque τ) : Prop :=
  r = .ok (call c q).1 ∧ q' = (call c q).2

end Deque

namespace Abs

variable {tl : ι} {m : ThreadMem ι τ} {q : Deque τ} {t : τ}

/-- **An insert keeps the abstraction**: the detached thread goes on the list at the cut. -/
theorem link (h : Abs tl m q) (l₁ l₂ : List τ) (hq : q.seq = l₁ ++ l₂) (ht : t ∈ q.detached) :
    Abs tl ((m.linkBetween (before tl l₁) (.tListnode t) (after tl l₂)).withCount tl
      (m.tlCount tl + 1)) ⟨l₁ ++ t :: l₂, q.detached \ {t}⟩ := by
  obtain ⟨hrep, hdet⟩ := h
  rw [hq] at hrep
  refine ⟨hrep.link (hdet t ht), fun u ⟨hu, hut⟩ => ?_⟩
  have hne : (Tln.tListnode u : Tln ι τ) ≠ .tListnode t := by simpa using hut
  exact (hdet u hu).linkBetween hne
    (hrep.ne_of_detached (hdet u hu) (Represents.before_mem tl l₁ l₂))
    (hrep.ne_of_detached (hdet u hu) (Represents.after_mem tl l₁ l₂))

/-- **A removal keeps the abstraction**: the thread leaves the list and is detached. -/
theorem unlink (h : Abs tl m q) (l₁ : List τ) (t : τ) (l₂ : List τ) (hq : q.seq = l₁ ++ t :: l₂) :
    Abs tl ((m.unlinkFrom (before tl l₁) (.tListnode t) (after tl l₂)).withCount tl
      (m.tlCount tl - 1)) ⟨l₁ ++ l₂, insert t q.detached⟩ := by
  obtain ⟨hrep, hdet⟩ := h
  rw [hq] at hrep
  refine ⟨hrep.unlink, fun u hu => ?_⟩
  rcases hu with rfl | hu
  · exact Detached.of_unlinkFrom (hrep.self u (by simp))
  · -- a detached thread is neither the one taken off nor one of its neighbours
    have hnodes : ∀ y ∈ Tln.tlHead tl :: (l₁ ++ t :: l₂).map .tListnode ++ [.tlTail tl],
        Tln.tListnode u ≠ y := fun y hy => hrep.ne_of_detached (hdet u hu) hy
    refine (hdet u hu).unlinkFrom (hnodes _ (by simp)) (hnodes _ (Represents.before_mem tl l₁ _))
      (hnodes _ ?_)
    simpa using Represents.after_mem tl (l₁ ++ [t]) l₂

end Abs

/-! ### Each operation is its deque operation -/

namespace Deque

variable {q : Deque τ} {t : τ} {l : List τ}

theorem call_remhead_cons (hq : q.seq = t :: l) :
    call .remhead q = (some t, ⟨l, insert t q.detached⟩) := by
  simp [call, hq]

theorem call_remtail_concat (hq : q.seq = l ++ [t]) :
    call .remtail q = (some t, ⟨l, insert t q.detached⟩) := by
  simp [call, hq]

end Deque

section Implements

variable (tl : ι)

theorem implements_addhead (t : τ) : Implements (Abs tl) (Deque.pre (.addhead t))
    (Deque.post (.addhead t)) (threadlistCall tl (.addhead t)) := by
  intro m q h ht
  -- the cut in front of the whole list, after `tl_head`
  have hnext := (h.1.link_at [] q.seq rfl).1
  have hne : (Tln.tListnode t : Tln ι τ) ≠ before tl [] := ne_before tl List.not_mem_nil
  have hlink := h.link [] q.seq rfl ht
  simp only [before_nil, List.nil_append] at hnext hne hlink
  refine ⟨.ok none, _, ⟨t :: q.seq, q.detached \ {t}⟩, attempt_of_ok ?_, ⟨rfl, rfl⟩, hlink⟩
  simp only [threadlistCall, threadlistAddhead, bind_apply, threadlistInsertafternode_apply hnext hne,
    get_apply, linkBetween_tlCount, setTlCount_apply, pure_apply]

theorem implements_addtail (t : τ) : Implements (Abs tl) (Deque.pre (.addtail t))
    (Deque.post (.addtail t)) (threadlistCall tl (.addtail t)) := by
  intro m q h ht
  -- the cut behind the whole list, before `tl_tail`
  have hprev := (h.1.link_at q.seq [] (List.append_nil _).symm).2
  have hne := ne_before tl (h.1.not_mem_of_detached (h.2 t ht))
  have hlink := h.link q.seq [] (List.append_nil _).symm ht
  simp only [after_nil] at hprev hlink
  refine ⟨.ok none, _, ⟨q.seq ++ [t], q.detached \ {t}⟩, attempt_of_ok ?_, ⟨rfl, rfl⟩, hlink⟩
  simp only [threadlistCall, threadlistAddtail, bind_apply, threadlistInsertbeforenode_apply hprev hne,
    get_apply, linkBetween_tlCount, setTlCount_apply, pure_apply]

theorem implements_remhead : Implements (Abs tl) (Deque.pre (.remhead : ThreadlistCall τ))
    (Deque.post .remhead) (threadlistCall tl .remhead) := by
  intro m q h _
  rcases hq : q.seq with _ | ⟨t, l₂⟩
  · -- an empty list: `tl_head` points at `tl_tail`, whose `tln_next` is `NULL`
    have hnext := (h.1.link_at [] [] (by simp [hq])).1
    have hend := h.1.links.next_tl
    simp only [before_nil, after_nil] at hnext
    refine ⟨.ok none, m, q, attempt_of_ok ?_, by simp [Deque.post, Deque.call, hq], h⟩
    simp [threadlistCall, threadlistRemhead, bind_apply, hnext, hend]
  · -- the first thread's node sits between `tl_head` and the node after it
    obtain ⟨hnext, hprev⟩ := h.1.link_at [] (t :: l₂) (by simp [hq])
    have hafter := (h.1.link_at [t] l₂ (by simp [hq])).1
    have hne := ne_before tl (List.not_mem_nil (a := t))
    have hunlink := h.unlink [] t l₂ (by simp [hq])
    simp only [before_nil, after_cons, before_singleton] at hnext hprev hafter hne
    simp only [before_nil, List.nil_append] at hunlink
    refine ⟨.ok (some t), _, ⟨l₂, insert t q.detached⟩, attempt_of_ok ?_,
      by simp [Deque.post, Deque.call_remhead_cons hq], hunlink⟩
    simp [threadlistCall, threadlistRemhead, bind_apply, hnext, hafter,
      threadlistRemovenode_apply hprev hafter hne, h.1.self t (by simp [hq])]

theorem implements_remtail : Implements (Abs tl) (Deque.pre (.remtail : ThreadlistCall τ))
    (Deque.post .remtail) (threadlistCall tl .remtail) := by
  intro m q h _
  rcases List.eq_nil_or_concat q.seq with hq | ⟨l₁, t, hq⟩
  · -- an empty list: `tl_tail` points back at `tl_head`, whose `tln_prev` is `NULL`
    have hprev := (h.1.link_at [] [] (by simp [hq])).2
    have hend := h.1.links.prev_hd
    simp only [before_nil, after_nil] at hprev
    refine ⟨.ok none, m, q, attempt_of_ok ?_, by simp [Deque.post, Deque.call, hq], h⟩
    simp [threadlistCall, threadlistRemtail, bind_apply, hprev, hend]
  · -- the last thread's node sits between the node before it and `tl_tail`
    rw [List.concat_eq_append] at hq
    have hprev := (h.1.link_at l₁ [t] (by simp [hq])).2
    obtain ⟨hnext, hlast⟩ := h.1.link_at (l₁ ++ [t]) [] (by simp [hq])
    have ht₁ : t ∉ l₁ := by
      have hnd := h.1.nodup
      rw [hq] at hnd
      exact fun ht => (List.nodup_append.mp hnd).2.2 t ht t (by simp) rfl
    have hne := ne_before tl ht₁
    have hunlink := h.unlink l₁ t [] (by simp [hq])
    simp only [after_nil, after_cons, before_concat, List.append_nil] at hnext hprev hlast hunlink
    refine ⟨.ok (some t), _, ⟨l₁, insert t q.detached⟩, attempt_of_ok ?_,
      by simp [Deque.post, Deque.call_remtail_concat hq], hunlink⟩
    simp [threadlistCall, threadlistRemtail, bind_apply, hlast, hprev,
      threadlistRemovenode_apply hprev hnext hne, h.1.self t (by simp [hq])]

theorem implements_insertafter (onlist addee : τ) : Implements (Abs tl)
    (Deque.pre (.insertafter onlist addee)) (Deque.post (.insertafter onlist addee))
    (threadlistCall tl (.insertafter onlist addee)) := by
  rintro m q h ⟨hon, had⟩
  obtain ⟨l₁, l₂, hq⟩ := List.append_of_mem hon
  have hon₁ : onlist ∉ l₁ := by
    have hnd := h.1.nodup
    rw [hq] at hnd
    exact fun ho => (List.nodup_append.mp hnd).2.2 onlist ho onlist (by simp) rfl
  -- the cut right after `onlist`
  have hcut : q.seq = (l₁ ++ [onlist]) ++ l₂ := by simp [hq]
  have hnext := (h.1.link_at (l₁ ++ [onlist]) l₂ hcut).1
  have haddee := h.1.not_mem_of_detached (h.2 addee had)
  have hne : (Tln.tListnode addee : Tln ι τ) ≠ before tl (l₁ ++ [onlist]) :=
    ne_before tl fun ha => haddee (by rw [hcut]; exact List.mem_append_left _ ha)
  have hlink := h.link (l₁ ++ [onlist]) l₂ hcut had
  simp only [before_concat] at hnext hne hlink
  -- the deque puts `addee` at the index after `onlist`
  have hseq : q.seq.insertIdx (q.seq.idxOf onlist + 1) addee = (l₁ ++ [onlist]) ++ addee :: l₂ := by
    have hidx : q.seq.idxOf onlist + 1 = (l₁ ++ [onlist]).length := by
      rw [hq, List.idxOf_append_of_notMem hon₁, List.idxOf_cons_self]
      simp
    rw [hidx, hcut, List.insertIdx_length_append]
  refine ⟨.ok none, _, ⟨(l₁ ++ [onlist]) ++ addee :: l₂, q.detached \ {addee}⟩, attempt_of_ok ?_,
    ⟨rfl, by simp [Deque.call, hseq]⟩, hlink⟩
  simp only [threadlistCall, threadlistInsertafter, bind_apply,
    threadlistInsertafternode_apply hnext hne, get_apply, linkBetween_tlCount, setTlCount_apply,
    pure_apply]

theorem implements_insertbefore (addee onlist : τ) : Implements (Abs tl)
    (Deque.pre (.insertbefore addee onlist)) (Deque.post (.insertbefore addee onlist))
    (threadlistCall tl (.insertbefore addee onlist)) := by
  rintro m q h ⟨hon, had⟩
  obtain ⟨l₁, l₂, hq⟩ := List.append_of_mem hon
  have hon₁ : onlist ∉ l₁ := by
    have hnd := h.1.nodup
    rw [hq] at hnd
    exact fun ho => (List.nodup_append.mp hnd).2.2 onlist ho onlist (by simp) rfl
  -- the cut right before `onlist`
  have hprev := (h.1.link_at l₁ (onlist :: l₂) hq).2
  have haddee := h.1.not_mem_of_detached (h.2 addee had)
  have hne : (Tln.tListnode addee : Tln ι τ) ≠ before tl l₁ :=
    ne_before tl fun ha => haddee (by rw [hq]; exact List.mem_append_left _ ha)
  have hlink := h.link l₁ (onlist :: l₂) hq had
  simp only [after_cons] at hprev hlink
  -- the deque puts `addee` at the index of `onlist`
  have hseq : q.seq.insertIdx (q.seq.idxOf onlist) addee = l₁ ++ addee :: onlist :: l₂ := by
    have hidx : q.seq.idxOf onlist = l₁.length := by
      rw [hq, List.idxOf_append_of_notMem hon₁, List.idxOf_cons_self]
      rfl
    rw [hidx, hq, List.insertIdx_length_append]
  refine ⟨.ok none, _, ⟨l₁ ++ addee :: onlist :: l₂, q.detached \ {addee}⟩, attempt_of_ok ?_,
    ⟨rfl, by simp [Deque.call, hseq]⟩, hlink⟩
  simp only [threadlistCall, threadlistInsertbefore, bind_apply,
    threadlistInsertbeforenode_apply hprev hne, get_apply, linkBetween_tlCount, setTlCount_apply,
    pure_apply]

theorem implements_remove (t : τ) : Implements (Abs tl) (Deque.pre (.remove t))
    (Deque.post (.remove t)) (threadlistCall tl (.remove t)) := by
  rintro m q h (ht : t ∈ q.seq)
  obtain ⟨l₁, l₂, hq⟩ := List.append_of_mem ht
  have ht₁ : t ∉ l₁ := by
    have hnd := h.1.nodup
    rw [hq] at hnd
    exact fun ht' => (List.nodup_append.mp hnd).2.2 t ht' t (by simp) rfl
  -- `t`'s node sits between the nodes around it
  have hprev := (h.1.link_at l₁ (t :: l₂) hq).2
  have hnext := (h.1.link_at (l₁ ++ [t]) l₂ (by simp [hq])).1
  have hunlink := h.unlink l₁ t l₂ hq
  simp only [after_cons, before_concat] at hprev hnext
  have hseq : q.seq.erase t = l₁ ++ l₂ := by
    rw [hq, List.erase_append_right _ ht₁, List.erase_cons_head]
  refine ⟨.ok none, _, ⟨l₁ ++ l₂, insert t q.detached⟩, attempt_of_ok ?_,
    ⟨rfl, by simp [Deque.call, hseq]⟩, hunlink⟩
  simp only [threadlistCall, threadlistRemove, bind_apply,
    threadlistRemovenode_apply hprev hnext (ne_before tl ht₁), get_apply, unlinkFrom_tlCount,
    setTlCount_apply, pure_apply]

/-- **Every call is its deque operation.** -/
theorem implements_call (c : ThreadlistCall τ) :
    Implements (Abs tl) (Deque.pre c) (Deque.post c) (threadlistCall tl c) := by
  cases c with
  | addhead t => exact implements_addhead tl t
  | addtail t => exact implements_addtail tl t
  | remhead => exact implements_remhead tl
  | remtail => exact implements_remtail tl
  | insertafter onlist addee => exact implements_insertafter tl onlist addee
  | insertbefore addee onlist => exact implements_insertbefore tl addee onlist
  | remove t => exact implements_remove tl t

end Implements

/-- What `threadlist_init` writes: the bookends point at each other, and the count is 0. -/
theorem threadlistInit_apply (tl : ι) (m : ThreadMem ι τ) :
    threadlistInit tl m = .ok ()
      { tlnPrev := update (update m.tlnPrev (.tlHead tl) none) (.tlTail tl) (some (.tlHead tl))
        tlnNext := update (update m.tlnNext (.tlHead tl) (some (.tlTail tl))) (.tlTail tl) none
        tlnSelf := update (update m.tlnSelf (.tlHead tl) none) (.tlTail tl) none
        tlCount := update m.tlCount tl 0 } := rfl

/-- **`threadlist_init` makes an empty list**, and leaves detached nodes detached. -/
theorem threadlistInit_abs (tl : ι) (m : ThreadMem ι τ) (D : Set τ)
    (hD : ∀ t ∈ D, Detached m t) : ∃ m₀, threadlistInit tl m = .ok () m₀ ∧ Abs tl m₀ ⟨[], D⟩ := by
  refine ⟨_, threadlistInit_apply tl m, ⟨Dlist.nil ?_ ?_ ?_ ?_, by simp, by simp⟩, ?_⟩
  · simp
  · simp
  · simp
  · simp
  · -- the writes are to the bookends, not to threads' nodes
    intro t ht
    obtain ⟨hp, hn, hs⟩ := hD t ht
    simp [Detached, hp, hn, hs]

end Threadlist

open Threadlist

/-- **A thread list is a deque**, from `threadlist_init` on any memory where the threads of `D`
have detached nodes: every sequence of calls keeps the representation invariant and returns what
the deque operations return, up to a call on a thread that is not where the call needs it (not
detached for an insert, not on the list for a removal or as the anchor of an insert). -/
theorem threadlist_refines_deque (tl : ι) (m : ThreadMem ι τ) (D : Set τ)
    (hD : ∀ t ∈ D, Detached m t) (cs : List (ThreadlistCall τ)) :
    ∃ m₀, threadlistInit tl m = .ok () m₀ ∧
      ((∃ rs m' q', runCalls (threadlistCall tl) cs m₀ = .ok rs m' ∧
          AbsRun Deque.pre Deque.post ⟨[], D⟩ cs rs q' ∧ Abs tl m' q') ∨
        ∃ cs₁ c cs₂ rs₁ m₁ q₁, cs = cs₁ ++ c :: cs₂ ∧
          runCalls (threadlistCall tl) cs₁ m₀ = .ok rs₁ m₁ ∧
          AbsRun Deque.pre Deque.post ⟨[], D⟩ cs₁ rs₁ q₁ ∧ Abs tl m₁ q₁ ∧ ¬Deque.pre c q₁) := by
  obtain ⟨m₀, hinit, habs⟩ := threadlistInit_abs tl m D hD
  exact ⟨m₀, hinit, Implements.runCalls (implements_call tl) habs cs⟩

/-- One list over threads numbered by `Nat`, every thread's node as `threadlistnode_init` leaves
it. -/
def freshThreads : ThreadMem Unit Nat where
  tlnPrev _ := none
  tlnNext _ := none
  tlnSelf
    | .tListnode t => some t
    | _ => none
  tlCount _ := 0

/-- On one list: `addhead(0)`, `addtail(1)`, `remhead`, `remtail`, `remhead` return the deque's
answers. -/
example : returnsWith (fun rs _ => decide (rs = [.ok none, .ok none, .ok (some 0), .ok (some 1),
    .ok none])) ((threadlistInit () >>= fun _ => runCalls (threadlistCall ())
      [.addhead 0, .addtail 1, .remhead, .remtail, .remhead]) freshThreads) = true := by
  decide

theorem threadlist_refines_deque_fresh :
    ∃ m₀, threadlistInit () freshThreads = .ok () m₀ ∧
      ((∃ rs m' q', runCalls (threadlistCall ()) [.addhead 0, .addtail 1, .remhead] m₀ = .ok rs m' ∧
          AbsRun Deque.pre Deque.post ⟨[], Set.univ⟩ [.addhead 0, .addtail 1, .remhead] rs q' ∧
          Abs () m' q') ∨
        ∃ cs₁ c cs₂ rs₁ m₁ q₁, [.addhead 0, .addtail 1, .remhead] = cs₁ ++ c :: cs₂ ∧
          runCalls (threadlistCall ()) cs₁ m₀ = .ok rs₁ m₁ ∧
          AbsRun Deque.pre Deque.post ⟨[], Set.univ⟩ cs₁ rs₁ q₁ ∧ Abs () m₁ q₁ ∧
          ¬Deque.pre c q₁) :=
  threadlist_refines_deque () freshThreads Set.univ (fun _ _ => ⟨rfl, rfl, rfl⟩)
    [.addhead 0, .addtail 1, .remhead]

end Os161

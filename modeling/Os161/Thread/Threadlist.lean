import Os161.Lib.Exec

/-!
# Thread lists (`thread/threadlist.c`)

A `struct threadlist` holds two `struct threadlistnode`s, `tl_head` and `tl_tail`, that stay on
the list as bookends, and the count `tl_count`; every `struct thread` holds the node
`t_listnode` by which it is on a list. A node has the pointers `tln_prev` and `tln_next` and
`tln_self`, the thread that holds it. The model names each node by where it sits (`Tln`): the
two bookends of a list, or the node of a thread; and it keeps each field of the nodes as a
function of the node (`ThreadMem`), so that every assignment of the C code is an update of one
field at one node. A `NULL` pointer is `none`, and following one halts, as the kernel's fault on
a `NULL` dereference would.

The `DEBUGASSERT`s of the file compile to nothing (`lib.h`), so the model has none of them.
`tl_count` is an `unsigned` that counts threads in kernel memory, which stays far below `2^32`;
it is a `Nat`.
-/

namespace Os161

open Exec

/-- Where a `struct threadlistnode` sits: a bookend of the list `tl`, or the `t_listnode` of the
thread `t`. -/
inductive Tln (ι τ : Type) where
  | tlHead (tl : ι)
  | tlTail (tl : ι)
  | tListnode (t : τ)
  deriving DecidableEq

/-- The fields of every thread list node, and the count of every thread list. -/
structure ThreadMem (ι τ : Type) where
  tlnPrev : Tln ι τ → Option (Tln ι τ)
  tlnNext : Tln ι τ → Option (Tln ι τ)
  tlnSelf : Tln ι τ → Option τ
  tlCount : ι → Nat

variable {ι τ : Type} [DecidableEq ι] [DecidableEq τ]

/-- Follow a node pointer: `NULL` faults. -/
def deref : Option (Tln ι τ) → Exec Int (ThreadMem ι τ) (Tln ι τ)
  | some n => pure n
  | none => halt

/-- `n->tln_prev = v`. -/
def setTlnPrev (n : Tln ι τ) (v : Option (Tln ι τ)) : Exec Int (ThreadMem ι τ) Unit :=
  modify fun m => { m with tlnPrev := Function.update m.tlnPrev n v }

/-- `n->tln_next = v`. -/
def setTlnNext (n : Tln ι τ) (v : Option (Tln ι τ)) : Exec Int (ThreadMem ι τ) Unit :=
  modify fun m => { m with tlnNext := Function.update m.tlnNext n v }

/-- `n->tln_self = v`. -/
def setTlnSelf (n : Tln ι τ) (v : Option τ) : Exec Int (ThreadMem ι τ) Unit :=
  modify fun m => { m with tlnSelf := Function.update m.tlnSelf n v }

/-- `tl->tl_count = v`. -/
def setTlCount (tl : ι) (v : Nat) : Exec Int (ThreadMem ι τ) Unit :=
  modify fun m => { m with tlCount := Function.update m.tlCount tl v }

/-- `threadlistnode_init(&t->t_listnode, t)`, as `thread_create` calls it. -/
def threadlistnodeInit (t : τ) : Exec Int (ThreadMem ι τ) Unit := do
  setTlnNext (.tListnode t) none
  setTlnPrev (.tListnode t) none
  setTlnSelf (.tListnode t) (some t)

/-- `threadlist_init(tl)`. -/
def threadlistInit (tl : ι) : Exec Int (ThreadMem ι τ) Unit := do
  setTlnNext (.tlHead tl) (some (.tlTail tl))
  setTlnPrev (.tlHead tl) none
  setTlnNext (.tlTail tl) none
  setTlnPrev (.tlTail tl) (some (.tlHead tl))
  setTlnSelf (.tlHead tl) none
  setTlnSelf (.tlTail tl) none
  setTlCount tl 0

/-- `threadlist_isempty(tl)`. -/
def threadlistIsempty (tl : ι) (m : ThreadMem ι τ) : Bool := m.tlCount tl == 0

/-- `threadlist_insertafternode(onlist, t)`: each statement reads the fields as the ones before
it left them. -/
def threadlistInsertafternode (onlist : Tln ι τ) (t : τ) : Exec Int (ThreadMem ι τ) Unit := do
  let addee := Tln.tListnode t
  setTlnPrev addee (some onlist)
  setTlnNext addee ((← get).tlnNext onlist)
  setTlnNext (← deref ((← get).tlnPrev addee)) (some addee)
  setTlnPrev (← deref ((← get).tlnNext addee)) (some addee)

/-- `threadlist_insertbeforenode(t, onlist)`. -/
def threadlistInsertbeforenode (t : τ) (onlist : Tln ι τ) : Exec Int (ThreadMem ι τ) Unit := do
  let addee := Tln.tListnode t
  setTlnPrev addee ((← get).tlnPrev onlist)
  setTlnNext addee (some onlist)
  setTlnNext (← deref ((← get).tlnPrev addee)) (some addee)
  setTlnPrev (← deref ((← get).tlnNext addee)) (some addee)

/-- `threadlist_removenode(tln)`. -/
def threadlistRemovenode (tln : Tln ι τ) : Exec Int (ThreadMem ι τ) Unit := do
  setTlnNext (← deref ((← get).tlnPrev tln)) ((← get).tlnNext tln)
  setTlnPrev (← deref ((← get).tlnNext tln)) ((← get).tlnPrev tln)
  setTlnPrev tln none
  setTlnNext tln none

/-- `threadlist_addhead(tl, t)`. -/
def threadlistAddhead (tl : ι) (t : τ) : Exec Int (ThreadMem ι τ) Unit := do
  threadlistInsertafternode (.tlHead tl) t
  setTlCount tl ((← get).tlCount tl + 1)

/-- `threadlist_addtail(tl, t)`. -/
def threadlistAddtail (tl : ι) (t : τ) : Exec Int (ThreadMem ι τ) Unit := do
  threadlistInsertbeforenode t (.tlTail tl)
  setTlCount tl ((← get).tlCount tl + 1)

/-- `threadlist_remhead(tl)`: `none` is the `NULL` it returns on an empty list. -/
def threadlistRemhead (tl : ι) : Exec Int (ThreadMem ι τ) (Option τ) := do
  let tln ← deref ((← get).tlnNext (.tlHead tl))
  if ((← get).tlnNext tln).isNone then
    -- list was empty
    pure none
  else do
    threadlistRemovenode tln
    setTlCount tl ((← get).tlCount tl - 1)
    pure ((← get).tlnSelf tln)

/-- `threadlist_remtail(tl)`. -/
def threadlistRemtail (tl : ι) : Exec Int (ThreadMem ι τ) (Option τ) := do
  let tln ← deref ((← get).tlnPrev (.tlTail tl))
  if ((← get).tlnPrev tln).isNone then
    -- list was empty
    pure none
  else do
    threadlistRemovenode tln
    setTlCount tl ((← get).tlCount tl - 1)
    pure ((← get).tlnSelf tln)

/-- `threadlist_insertafter(tl, onlist, addee)`. -/
def threadlistInsertafter (tl : ι) (onlist addee : τ) : Exec Int (ThreadMem ι τ) Unit := do
  threadlistInsertafternode (.tListnode onlist) addee
  setTlCount tl ((← get).tlCount tl + 1)

/-- `threadlist_insertbefore(tl, addee, onlist)`. -/
def threadlistInsertbefore (tl : ι) (addee onlist : τ) : Exec Int (ThreadMem ι τ) Unit := do
  threadlistInsertbeforenode addee (.tListnode onlist)
  setTlCount tl ((← get).tlCount tl + 1)

/-- `threadlist_remove(tl, t)`. -/
def threadlistRemove (tl : ι) (t : τ) : Exec Int (ThreadMem ι τ) Unit := do
  threadlistRemovenode (.tListnode t)
  setTlCount tl ((← get).tlCount tl - 1)

end Os161

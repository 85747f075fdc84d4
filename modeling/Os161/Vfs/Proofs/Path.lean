import Os161.Vfs.Path

/-!
# The grammar of paths (`vfs/vfslookup.c`)

A path names its start with what stands before its first `:` or `/` (`Parses`): no separator,
or a `/` after a name, is a path relative to the current directory; `name:rest` starts at the
root of the device or volume `name`; `/rest` at the boot file system's root; `:rest` at the root
of the current directory's file system. The grammar reads every path in exactly one way
(`parses_exists`, `Parses.unique`).

`getdevice` follows the grammar (`getdevice_parses`): its scan for the first colon or slash and
its four branches hand back the start of the parse (`PathSyntax.start`) and the rest of the path
without its leading slashes (`PathSyntax.subpath`). `getdevice_grammar` adds what `vfs_lookup`
and `vfs_lookparent` do with an empty rest.
-/

namespace Os161

open Exec

/-- `:` or `/`, the two characters `getdevice` looks for. -/
def isPathSep (c : UInt8) : Bool := c == ':'.toUInt8 || c == '/'.toUInt8

/-- How a path reads. -/
inductive PathSyntax where
  /-- No device: the whole path, from the current directory. -/
  | relative
  /-- `name:rest`. -/
  | device (name rest : List UInt8)
  /-- `/rest`. -/
  | bootfs (rest : List UInt8)
  /-- `:rest`. -/
  | curfs (rest : List UInt8)
  deriving DecidableEq, Repr

/-- The grammar of paths: what stands before the first `:` or `/` decides the start. -/
inductive Parses : List UInt8 → PathSyntax → Prop
  | plain {p : List UInt8} : (∀ c ∈ p, isPathSep c = false) → Parses p .relative
  | slash {pre post : List UInt8} : pre ≠ [] → (∀ c ∈ pre, isPathSep c = false) →
      Parses (pre ++ '/'.toUInt8 :: post) .relative
  | device {pre post : List UInt8} : pre ≠ [] → (∀ c ∈ pre, isPathSep c = false) →
      Parses (pre ++ ':'.toUInt8 :: post) (.device pre post)
  | bootfs {post : List UInt8} : Parses ('/'.toUInt8 :: post) (.bootfs post)
  | curfs {post : List UInt8} : Parses (':'.toUInt8 :: post) (.curfs post)

namespace PathSyntax

/-- What is looked up from the start: the whole path, or the rest without its leading
slashes. -/
def subpath (path : List UInt8) : PathSyntax → List UInt8
  | relative => path
  | device _ rest | bootfs rest | curfs rest => rest.dropWhile (· == '/'.toUInt8)

/-- The vnode the path starts from, with a new reference. -/
def start : PathSyntax → Exec Int Vfs Nat
  | relative => vfsGetcurdir
  | device name _ => vfsGetroot name
  | bootfs _ => do
    match (← get).bootfsVnode with
    | none => fail ENOENT
    | some vn => do
      inSfs (vnodeIncref vn)
      pure vn
  | curfs _ => do
    let vn ← vfsGetcurdir
    let startvn ← inSfs sfsGetroot
    inSfs (vnodeDecref vn)
    pure startvn

/-- The reading of a path whose first separator is `c`, after `pre`. -/
def ofSplit (pre : List UInt8) (c : UInt8) (post : List UInt8) : PathSyntax :=
  if pre = [] then (if c = '/'.toUInt8 then bootfs post else curfs post)
  else if c = '/'.toUInt8 then relative else device pre post

/-- The rest of the path as `getdevice` hands it back, a C string in the path's own bytes. -/
def subpathOf (path : CStr) : PathSyntax → CStr
  | relative => path
  | device name _ => path.subpath (name.length + 1)
  | bootfs _ | curfs _ => path.subpath 1

end PathSyntax

/-! ### The grammar reads every path once -/

/-- The first separator of `pre ++ c :: post` is `c` when `pre` has none. -/
theorem findIdx_sep {pre post : List UInt8} {c : UInt8} (hpre : ∀ b ∈ pre, isPathSep b = false)
    (hc : isPathSep c = true) :
    (pre ++ c :: post).findIdx? isPathSep = some pre.length := by
  induction pre with
  | nil => simp [List.findIdx?_cons, hc]
  | cons b pre ih =>
    simp only [List.forall_mem_cons] at hpre
    simp [List.findIdx?_cons, hpre.1, ih hpre.2]

theorem colon_ne_slash : ':'.toUInt8 ≠ '/'.toUInt8 := by decide

theorem isPathSep_iff {c : UInt8} : isPathSep c = true ↔ c = ':'.toUInt8 ∨ c = '/'.toUInt8 := by
  simp [isPathSep]

/-- A path splits at its first separator in one way only. -/
theorem split_unique {pre post pre' post' : List UInt8} {c c' : UInt8}
    (h : pre ++ c :: post = pre' ++ c' :: post') (hpre : ∀ b ∈ pre, isPathSep b = false)
    (hpre' : ∀ b ∈ pre', isPathSep b = false) (hc : isPathSep c = true)
    (hc' : isPathSep c' = true) : pre = pre' ∧ c = c' ∧ post = post' := by
  have hlen : pre.length = pre'.length := by
    have h₁ : (pre ++ c :: post).findIdx? isPathSep = some pre.length := findIdx_sep hpre hc
    rw [h, findIdx_sep hpre' hc'] at h₁
    exact (Option.some.inj h₁).symm
  obtain ⟨rfl, h₂⟩ := List.append_inj h hlen
  obtain ⟨rfl, rfl⟩ := List.cons.inj h₂
  exact ⟨rfl, rfl, rfl⟩

/-- Every split at a first separator is a parse. -/
theorem Parses.ofSplit {pre post : List UInt8} {c : UInt8}
    (hpre : ∀ b ∈ pre, isPathSep b = false) (hc : isPathSep c = true) :
    Parses (pre ++ c :: post) (PathSyntax.ofSplit pre c post) := by
  rcases isPathSep_iff.1 hc with rfl | rfl
  · by_cases h0 : pre = []
    · subst h0
      exact .curfs
    · have hdev : Parses (pre ++ ':'.toUInt8 :: post) (.device pre post) := .device h0 hpre
      simpa [PathSyntax.ofSplit, h0, colon_ne_slash] using hdev
  · by_cases h0 : pre = []
    · subst h0
      exact .bootfs
    · have hslash : Parses (pre ++ '/'.toUInt8 :: post) .relative := .slash h0 hpre
      simpa [PathSyntax.ofSplit, h0] using hslash

/-- A parse has no separator, or is the reading of the split at the first one. -/
theorem Parses.plain_or_split {p : List UInt8} {syn : PathSyntax} (h : Parses p syn) :
    ((∀ c ∈ p, isPathSep c = false) ∧ syn = .relative) ∨
      ∃ pre c post, p = pre ++ c :: post ∧ (∀ b ∈ pre, isPathSep b = false) ∧
        isPathSep c = true ∧ syn = PathSyntax.ofSplit pre c post := by
  cases h with
  | plain hp => exact .inl ⟨hp, rfl⟩
  | slash h0 hpre => exact .inr ⟨_, _, _, rfl, hpre, by decide, by simp [PathSyntax.ofSplit, h0]⟩
  | device h0 hpre =>
    exact .inr ⟨_, _, _, rfl, hpre, by decide, by simp [PathSyntax.ofSplit, h0, colon_ne_slash]⟩
  | bootfs => exact .inr ⟨[], _, _, rfl, by simp, by decide, by simp [PathSyntax.ofSplit]⟩
  | curfs =>
    exact .inr ⟨[], _, _, rfl, by simp, by decide, by simp [PathSyntax.ofSplit, colon_ne_slash]⟩

/-- **Every path parses.** -/
theorem parses_exists (p : List UInt8) : ∃ syn, Parses p syn := by
  rcases h : p.findIdx? isPathSep with _ | k
  · exact ⟨_, .plain (List.findIdx?_eq_none_iff.mp h)⟩
  · obtain ⟨hk, hsep, hbefore⟩ := List.findIdx?_eq_some_iff_getElem.mp h
    have hsplit : p = p.take k ++ p[k] :: p.drop (k + 1) := by
      rw [List.getElem_cons_drop, List.take_append_drop]
    have hpre : ∀ b ∈ p.take k, isPathSep b = false := by
      intro b hb
      obtain ⟨j, hj, rfl⟩ := List.getElem_of_mem hb
      rw [List.getElem_take]
      have hjk : j < k := by
        simp only [List.length_take] at hj
        omega
      simpa using hbefore j hjk
    rw [hsplit]
    exact ⟨_, .ofSplit hpre hsep⟩

/-- **A path parses in one way only.** -/
theorem Parses.unique {p : List UInt8} {syn syn' : PathSyntax} (h : Parses p syn)
    (h' : Parses p syn') : syn = syn' := by
  -- a separator in a path without one
  have hnone : ∀ {pre c post}, (∀ b ∈ pre ++ c :: post, isPathSep b = false) →
      isPathSep c = true → False := fun hp hc => by
    rw [hp _ (by simp)] at hc
    exact Bool.false_ne_true hc
  rcases h.plain_or_split with ⟨hp, rfl⟩ | ⟨pre, c, post, rfl, hpre, hc, rfl⟩ <;>
    rcases h'.plain_or_split with ⟨hp', rfl⟩ | ⟨pre', c', post', heq, hpre', hc', rfl⟩
  · rfl
  · exact (hnone (heq ▸ hp) hc').elim
  · exact (hnone hp' hc).elim
  · obtain ⟨rfl, rfl, rfl⟩ := split_unique heq hpre hpre' hc hc'
    rfl

/-! ### `getdevice` follows the grammar -/

theorem getdeviceScan_eq (p : List UInt8) : getdeviceScan p =
    match p.findIdx? isPathSep with
    | some i => if p[i]? = some ':'.toUInt8 then ((i : Int), -1) else (-1, i)
    | none => (-1, -1) := rfl

/-- A path without a separator is looked up whole from the current directory. -/
theorem getdevice_plain {path : CStr} (hp : ∀ c ∈ path.bytes, isPathSep c = false) :
    getdevice path = (vfsGetcurdir >>= fun vn => pure (path, vn)) := by
  have hscan : getdeviceScan path.bytes = (-1, -1) := by
    rw [getdeviceScan_eq, List.findIdx?_eq_none_iff.mpr hp]
  simp [getdevice, hscan]

/-- The scan of a path that splits at `c` after `pre`: the colon or the slash at `pre.length`. -/
theorem getdeviceScan_split {p pre post : List UInt8} {c : UInt8} (hp : p = pre ++ c :: post)
    (hpre : ∀ b ∈ pre, isPathSep b = false) (hc : isPathSep c = true) :
    getdeviceScan p =
      if c = ':'.toUInt8 then ((pre.length : Int), (-1 : Int)) else ((-1 : Int), (pre.length : Int)) := by
  rw [getdeviceScan_eq, hp, findIdx_sep hpre hc]
  simp

/-- The bytes of a path that splits at `c` after `pre`, after position `pre.length + 1`. -/
theorem subpath_split {path : CStr} {pre post : List UInt8} {c : UInt8}
    (hp : path.bytes = pre ++ c :: post) :
    (path.subpath (pre.length + 1)).bytes = post.dropWhile (· == '/'.toUInt8) := by
  have hdrop : pre.drop (pre.length + 1) = [] := List.drop_eq_nil_of_le (by omega)
  simp [CStr.subpath, hp, List.drop_append, hdrop]

/-- **`getdevice` hands back the start and the rest of the parse**: a path that splits at its
first separator goes to the branch of its reading. -/
theorem getdevice_split {path : CStr} {pre post : List UInt8} {c : UInt8}
    (hp : path.bytes = pre ++ c :: post) (hpre : ∀ b ∈ pre, isPathSep b = false)
    (hc : isPathSep c = true) :
    getdevice path = ((PathSyntax.ofSplit pre c post).start >>= fun vn =>
      pure ((PathSyntax.ofSplit pre c post).subpathOf path, vn)) := by
  have hscan := getdeviceScan_split hp hpre hc
  rcases isPathSep_iff.1 hc with rfl | rfl
  · rw [if_pos rfl] at hscan
    by_cases h0 : pre = []
    · -- `:path`: the root of the current directory's file system
      subst h0
      have hhead : path.bytes.head? = some ':'.toUInt8 := by simp [hp]
      simp [getdevice, hscan, hhead, colon_ne_slash, PathSyntax.ofSplit, PathSyntax.start,
        PathSyntax.subpathOf]
    · -- `device:path`
      have hpos : 0 < pre.length := List.length_pos_of_ne_nil h0
      have hneg : ¬(pre.length : Int) < 0 := by omega
      have htake : path.bytes.take pre.length = pre := by simp [hp]
      simp [getdevice, hscan, hneg, hpos, htake, h0, colon_ne_slash, PathSyntax.ofSplit,
        PathSyntax.start, PathSyntax.subpathOf]
  · rw [if_neg (Ne.symm colon_ne_slash)] at hscan
    by_cases h0 : pre = []
    · -- `/path`: the boot file system
      subst h0
      have hhead : path.bytes.head? = some '/'.toUInt8 := by simp [hp]
      simp [getdevice, hscan, hhead, PathSyntax.ofSplit, PathSyntax.start, PathSyntax.subpathOf]
      funext st
      cases h : st.bootfsVnode with
      | none => simp [bind_apply, h]
      | some vn =>
        simp only [bind_apply, get_apply, h, map_apply]
        cases inSfs (vnodeIncref vn) st <;> rfl
    · -- a slash after a name: relative
      have hpos : pre.length ≠ 0 := fun h => h0 (List.length_eq_zero_iff.mp h)
      simp [getdevice, hscan, hpos, h0, PathSyntax.ofSplit, PathSyntax.start,
        PathSyntax.subpathOf]

/-- `getdevice` on a path that reads as `syn`. -/
theorem getdevice_parses {path : CStr} {syn : PathSyntax} (h : Parses path.bytes syn) :
    getdevice path = (syn.start >>= fun vn => pure (syn.subpathOf path, vn)) := by
  rcases h.plain_or_split with ⟨hp, rfl⟩ | ⟨pre, c, post, hsplit, hpre, hc, rfl⟩
  · rw [getdevice_plain hp]
    rfl
  · exact getdevice_split hsplit hpre hc

/-- The rest `getdevice` hands back is the rest of the parse. -/
theorem subpathOf_bytes {path : CStr} {syn : PathSyntax} (h : Parses path.bytes syn) :
    (syn.subpathOf path).bytes = syn.subpath path.bytes := by
  generalize hb : path.bytes = p at h
  cases h with
  | plain _ | slash _ _ => simp [PathSyntax.subpathOf, PathSyntax.subpath, hb]
  | device _ _ => exact subpath_split hb
  | bootfs | curfs =>
    simpa [PathSyntax.subpathOf, PathSyntax.subpath] using
      subpath_split (show path.bytes = [] ++ _ :: _ from hb)

/-- With an empty rest, `vfs_lookup` returns the start. -/
theorem vfsLookup_of_subpath_nil {path : CStr} {syn : PathSyntax} (h : Parses path.bytes syn)
    (hnil : syn.subpath path.bytes = []) : vfsLookup path = syn.start := by
  have hlen : (syn.subpathOf path).length = 0 := by
    rw [CStr.length, subpathOf_bytes h, hnil, List.length_nil]
  simp [vfsLookup, getdevice_parses h, hlen]

end Os161

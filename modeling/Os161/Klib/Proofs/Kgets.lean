import Os161.Klib.Kgets

/-!
# `kgets` is a line editor that stays in its buffer

The line `kgets` holds is `buf[0..pos)` (`KgetsState.line`). Each round of its loop does to that
line what one character does in the line editor `editStep` (`kgetsChar_line`): the two deleting
loops of `^W` leave `List.rdropWhile` of the line (`Cells.take_popWhile`), and `^R`'s NUL goes
in past the line. Each round also keeps `KgetsInv`: `pos < maxlen`, every character held is
printable, and no cell from `buf[maxlen]` on is written. `Scan.run_map` carries both over the
loop, and `kgets_edits_line` reads off what a whole call leaves for an input that ends with a
newline.
-/

namespace Os161

/-! ### The line editor -/

/-- The line editor `kgets` is meant to be: the edit one character makes to the line held, and
whether it ends the line. A newline ends the line as it is and `^C` ends it empty; a printable
character is appended while fewer than `maxlen - 1` are held; backspace and DEL drop the last
character; `^U` clears the line; `^W` drops the trailing spaces and then the last word; any other
character, `^R` among them, leaves the line as it is. -/
def editStep (maxlen : ℕ) (ch : Int) (line : List Int) : Bool × List Int :=
  if ch = chr '\n' ∨ ch = chr '\r' then (true, line)
  else if ch = 3 then (true, [])
  else if 32 ≤ ch ∧ ch < 127 then (false, if line.length < maxlen - 1 then line ++ [ch] else line)
  else if ch = chr '\x08' ∨ ch = 127 then (false, line.dropLast)
  else if ch = 21 then (false, [])
  else if ch = 23 then (false, (line.rdropWhile (· == chr ' ')).rdropWhile (· != chr ' '))
  else (false, line)

/-- The line the editor ends with on the input, or `none` if no newline or `^C` ends it. -/
def lineEdit (maxlen : ℕ) (input : List Int) : Option (List Int) :=
  (Scan.run (editStep maxlen) input []).map Prod.fst

/-! ### Each round edits the line held -/

/-- The line `kgets` holds: `buf[0..pos)`. -/
def KgetsState.line (s : KgetsState) : List Int := Cells.take s.buf s.pos

variable {maxlen : ℕ}

/-- **One round of the loop is one step of the line editor** on the line held. -/
theorem kgetsChar_line (hmax : 1 ≤ maxlen) (hmax' : maxlen < 2 ^ 32) (ch : Int) (s : KgetsState) :
    editStep maxlen ch s.line = ((kgetsChar maxlen ch s).1, (kgetsChar maxlen ch s).2.line) := by
  have hsub : Word.sub 32 maxlen 1 = maxlen - 1 := Word.sub_of_le hmax hmax'
  have hbs₈ : chr '\x08' = 8 := rfl
  unfold KgetsState.line
  by_cases hnl : ch = chr '\n' ∨ ch = chr '\r'
  · simp only [editStep, kgetsChar, if_pos hnl]
  by_cases hput : 32 ≤ ch ∧ ch < 127 ∧ s.pos < Word.sub 32 maxlen 1
  · -- a printable character, with room for it
    have hc : ¬ch = 3 := by omega
    have hpr : 32 ≤ ch ∧ ch < 127 := ⟨hput.1, hput.2.1⟩
    have hroom : s.pos < maxlen - 1 := hsub ▸ hput.2.2
    simp only [editStep, kgetsChar, if_neg hnl, if_neg hc, if_pos hpr, if_pos hput,
      Cells.length_take, if_pos hroom, Cells.take_update_succ]
  by_cases hbs : (ch = chr '\x08' ∨ ch = 127) ∧ 0 < s.pos
  · -- backspace or DEL, with a character to take back
    have hc : ¬ch = 3 := by omega
    have hpr : ¬(32 ≤ ch ∧ ch < 127) := by omega
    simp only [editStep, kgetsChar, if_neg hnl, if_neg hc, if_neg hpr, if_neg hput, if_pos hbs.1,
      if_pos hbs, Cells.take_sub_one]
  by_cases h3 : ch = 3
  · subst h3
    simp [editStep, kgetsChar]
  by_cases h18 : ch = 18
  · -- `^R` writes its NUL past the line
    subst h18
    simp [editStep, kgetsChar, Cells.take_update_of_le]
  by_cases h21 : ch = 21
  · subst h21
    simp [editStep, kgetsChar, Cells.take_popWhile, List.rdropWhile_eq_nil_iff]
  by_cases h23 : ch = 23
  · subst h23
    simp [editStep, kgetsChar, Cells.take_popWhile]
  -- any other character: the code beeps, and the editor leaves a line it cannot edit
  simp only [kgetsChar, editStep, if_neg hnl, if_neg hput, if_neg hbs, if_neg h3, if_neg h18,
    if_neg h21, if_neg h23]
  by_cases hpr : 32 ≤ ch ∧ ch < 127
  · have hfull : ¬s.pos < maxlen - 1 := by omega
    rw [if_pos hpr, Cells.length_take, if_neg hfull]
  by_cases hb : ch = chr '\x08' ∨ ch = 127
  · have hempty : s.pos = 0 := by omega
    rw [if_neg hpr, if_pos hb, hempty]
    rfl
  rw [if_neg hpr, if_neg hb]

/-! ### What each round keeps -/

/-- What every round of `kgets`' loop keeps, for the buffer `buf₀` it was called with:
`pos < maxlen`, the characters held are printable, and no cell from `buf[maxlen]` on has been
written. -/
structure KgetsInv (maxlen : ℕ) (buf₀ : ℕ → Int) (s : KgetsState) : Prop where
  pos_lt : s.pos < maxlen
  printable : ∀ i < s.pos, 32 ≤ s.buf i ∧ s.buf i < 127
  frame : ∀ i, maxlen ≤ i → s.buf i = buf₀ i

namespace KgetsInv

variable {buf₀ : ℕ → Int} {s : KgetsState}

/-- Moving `pos` back keeps the invariant. -/
theorem of_pos_le (h : KgetsInv maxlen buf₀ s) {n : ℕ} (hn : n ≤ s.pos) (out : List Int) :
    KgetsInv maxlen buf₀ { s with pos := n, out } where
  pos_lt := lt_of_le_of_lt hn h.pos_lt
  printable i hi := h.printable i (lt_of_lt_of_le hi hn)
  frame := h.frame

/-- Storing a printable character at `pos`, with room before `maxlen`, keeps the invariant. -/
theorem store (h : KgetsInv maxlen buf₀ s) {ch : Int} (hch : 32 ≤ ch ∧ ch < 127)
    (hroom : s.pos + 1 < maxlen) (out : List Int) :
    KgetsInv maxlen buf₀ { s with buf := Function.update s.buf s.pos ch, pos := s.pos + 1, out } where
  pos_lt := hroom
  printable i hi := by
    dsimp only at hi ⊢
    by_cases hi' : i = s.pos
    · subst hi'
      rw [Function.update_self]
      exact hch
    · rw [Function.update_of_ne hi']
      exact h.printable i (by omega)
  frame i hi := by
    show Function.update s.buf s.pos _ i = buf₀ i
    rw [Function.update_of_ne (by have := h.pos_lt; omega)]
    exact h.frame i hi

/-- The NUL `^R` stores at `pos` keeps the invariant. -/
theorem nul (h : KgetsInv maxlen buf₀ s) (out : List Int) :
    KgetsInv maxlen buf₀ { s with buf := Function.update s.buf s.pos 0, out } where
  pos_lt := h.pos_lt
  printable i hi := by
    show 32 ≤ Function.update s.buf s.pos 0 i ∧ Function.update s.buf s.pos 0 i < 127
    rw [Function.update_of_ne hi.ne]
    exact h.printable i hi
  frame i hi := by
    show Function.update s.buf s.pos _ i = buf₀ i
    rw [Function.update_of_ne (by have := h.pos_lt; omega)]
    exact h.frame i hi

/-- **Each round of the loop keeps the invariant.** -/
theorem step (h : KgetsInv maxlen buf₀ s) (hmax' : maxlen < 2 ^ 32) (ch : Int) :
    KgetsInv maxlen buf₀ (kgetsChar maxlen ch s).2 := by
  have hsub : Word.sub 32 maxlen 1 = maxlen - 1 := Word.sub_of_le (by have := h.pos_lt; omega) hmax'
  unfold kgetsChar
  split_ifs with hnl hput hbs h3 h18 h21 h23
  · exact h.of_pos_le le_rfl _
  · exact h.store ⟨hput.1, hput.2.1⟩ (by omega) _
  · exact h.of_pos_le (Nat.sub_le _ _) _
  · exact h.of_pos_le (Nat.zero_le _) _
  · exact h.nul _
  · exact h.of_pos_le (Cells.popWhile_le _ _ _ _ _) _
  · exact h.of_pos_le ((Cells.popWhile_le _ _ _ _ _).trans (Cells.popWhile_le _ _ _ _ _)) _
  · exact h

end KgetsInv

/-- The state `kgets` starts its loop in. -/
theorem kgetsInv_init (hmax : 1 ≤ maxlen) (buf : ℕ → Int) : KgetsInv maxlen buf ⟨buf, 0, []⟩ where
  pos_lt := hmax
  printable i hi := absurd hi (Nat.not_lt_zero i)
  frame _ _ := rfl

/-- **`kgets` is a line editor that stays in its buffer.** For every `maxlen ≥ 1` of `size_t`
and every input that ends with a newline, `kgets(buf, maxlen)` returns; it has written no cell
from `buf[maxlen]` on; it leaves a NUL-terminated string of fewer than `maxlen` characters; and
that string is the line the line editor ends with on the input. -/
theorem kgets_edits_line (hmax : 1 ≤ maxlen) (hmax' : maxlen < 2 ^ 32) (buf : ℕ → Int)
    (cs : List Int) {nl : Int} (hnl : nl = chr '\n' ∨ nl = chr '\r') :
    ∃ s rest, kgets buf maxlen (cs ++ [nl]) = some (s, rest) ∧
      (∀ i, maxlen ≤ i → s.buf i = buf i) ∧
      ∃ n < maxlen, s.buf n = 0 ∧ (∀ i < n, s.buf i ≠ 0) ∧
        lineEdit maxlen (cs ++ [nl]) = some (Cells.take s.buf n) := by
  -- the loop edits the line held and keeps the invariant, round after round
  obtain ⟨hsim, hinv⟩ := Scan.run_map KgetsState.line (KgetsInv maxlen buf)
    (fun ch s hs => ⟨kgetsChar_line hmax hmax' ch s, hs.step hmax' ch⟩) (cs ++ [nl])
    (kgetsInv_init hmax buf)
  -- and the newline at the end stops it
  have hstop : ∀ s, (kgetsChar maxlen nl s).1 = true := fun s => by
    simp only [kgetsChar, if_pos hnl]
  obtain ⟨⟨s, rest⟩, hrun⟩ :=
    Option.isSome_iff_exists.mp (Scan.run_append_isSome hstop cs ⟨buf, 0, []⟩)
  have hs : KgetsInv maxlen buf s := hinv (s, rest) hrun
  have hline : lineEdit maxlen (cs ++ [nl]) = some s.line := by
    rw [hrun] at hsim
    unfold lineEdit
    change Option.map _ (Scan.run _ _ (KgetsState.line ⟨buf, 0, []⟩)) = _
    rw [← hsim]
    rfl
  refine ⟨{ s with buf := Function.update s.buf s.pos 0 }, rest, by simp [kgets, hrun], ?_,
    s.pos, hs.pos_lt, Function.update_self .., ?_, ?_⟩
  · intro i hi
    show Function.update s.buf s.pos 0 i = buf i
    rw [Function.update_of_ne (by have := hs.pos_lt; omega)]
    exact hs.frame i hi
  · intro i hi
    show Function.update s.buf s.pos 0 i ≠ 0
    rw [Function.update_of_ne hi.ne]
    have := (hs.printable i hi).1
    omega
  · rw [Cells.take_update_of_le _ le_rfl]
    exact hline

example : lineEdit 64 [chr 'l', chr 's', chr ' ', 23, chr 'p', 127, chr 'q', chr '\r'] =
    some [chr 'q'] := by
  decide

/-- The prompt of `menu`, `kgets(buf, 64)`, on `ls`, `^W`, `p` and a newline. -/
theorem kgets_edits_line_menu :
    ∃ s rest, kgets (fun _ => 0) 64 ([chr 'l', chr 's', 23, chr 'p'] ++ [chr '\n']) =
        some (s, rest) ∧
      (∀ i, 64 ≤ i → s.buf i = 0) ∧
      ∃ n < 64, s.buf n = 0 ∧ (∀ i < n, s.buf i ≠ 0) ∧
        lineEdit 64 ([chr 'l', chr 's', 23, chr 'p'] ++ [chr '\n']) = some (Cells.take s.buf n) :=
  kgets_edits_line (by decide) (by decide) _ _ (.inl rfl)

end Os161

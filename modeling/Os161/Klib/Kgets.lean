import Os161.Lib.Scan
import Os161.Lib.Word

/-!
# Reading a line off the console (`lib/kgets.c`)

`kgets(buf, maxlen)` reads characters with `getch` until a newline, and edits the line it holds
in `buf[0..pos)` as it goes: a printable character is stored and echoed while there is room for
it and the final NUL, backspace and DEL take back the last character, `^U` and `^W` erase the
line or the last word, `^R` reprints the line and `^C` ends it empty. The loop is `Scan.run`
over the characters `getch` returns, each one step (`kgetsChar`); when they run out before a
newline or `^C`, `getch` waits, and the model has no result.

The caller's buffer is the memory from `buf` on, every cell of it and past it, so that a write
past `buf[maxlen-1]` is a change the model sees. `maxlen - 1` is taken in 32-bit `size_t`. What goes out on the console (`putch`, and
`kprintf` for `^R`) is kept in order; `beep()` sounds the beep device and puts nothing on the
console.
-/

namespace Os161

/-- A character literal as the `int` `getch` returns. -/
def chr (c : Char) : Int := c.toNat

@[simp] theorem chr_newline : chr '\n' = 10 := rfl

@[simp] theorem chr_return : chr '\r' = 13 := rfl

@[simp] theorem chr_backspace : chr '\x08' = 8 := rfl

@[simp] theorem chr_space : chr ' ' = 32 := rfl

/-- The state of `kgets`: the caller's buffer, `pos`, and what it has put on the console. -/
structure KgetsState where
  buf : ℕ → Int
  pos : ℕ
  out : List Int

/-- `backsp()`: back up (`'\b'`, here `'\x08'`), overwrite with a space, back up again. -/
def backsp (out : List Int) : List Int := out ++ [chr '\x08', chr ' ', chr '\x08']

/-- What `kprintf("%s", buf)` prints when `buf[n]` is NUL: the characters before the first NUL. -/
def cstr (buf : ℕ → Int) (n : ℕ) : List Int := (Cells.take buf n).takeWhile (· != 0)

/-- One round of `kgets`' loop on the character `ch`, and whether it ends the loop (`break`). -/
def kgetsChar (maxlen : ℕ) (ch : Int) (s : KgetsState) : Bool × KgetsState :=
  if ch = chr '\n' ∨ ch = chr '\r' then (true, { s with out := s.out ++ [chr '\n'] })
  -- only allow the normal 7-bit ascii
  else if 32 ≤ ch ∧ ch < 127 ∧ s.pos < Word.sub 32 maxlen 1 then
    (false, { s with buf := Function.update s.buf s.pos ch, pos := s.pos + 1,
                     out := s.out ++ [ch] })
  else if (ch = chr '\x08' ∨ ch = 127) ∧ 0 < s.pos then
    -- backspace
    (false, { s with pos := s.pos - 1, out := backsp s.out })
  else if ch = 3 then
    -- ^C - return empty string
    (true, { s with pos := 0, out := s.out ++ [chr '^', chr 'C', chr '\n'] })
  else if ch = 18 then
    -- ^R - reprint input
    let buf := Function.update s.buf s.pos 0
    (false, { s with buf, out := s.out ++ [chr '^', chr 'R', chr '\n'] ++ cstr buf s.pos })
  else if ch = 21 then
    -- ^U - erase line
    let (pos, out) := Cells.popWhile (fun _ => true) s.buf backsp s.pos s.out
    (false, { s with pos, out })
  else if ch = 23 then
    -- ^W - erase word
    let (pos, out) := Cells.popWhile (· == chr ' ') s.buf backsp s.pos s.out
    let (pos, out) := Cells.popWhile (· != chr ' ') s.buf backsp pos out
    (false, { s with pos, out })
  else (false, s)

/-- `kgets(buf, maxlen)` on the characters `getch` returns: the state it returns in, with
`buf[pos] = 0`, and the characters left for the next reader. -/
def kgets (buf : ℕ → Int) (maxlen : ℕ) (input : List Int) : Option (KgetsState × List Int) :=
  (Scan.run (kgetsChar maxlen) input ⟨buf, 0, []⟩).map fun (s, rest) =>
    ({ s with buf := Function.update s.buf s.pos 0 }, rest)

end Os161

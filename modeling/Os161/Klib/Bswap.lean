import Mathlib.Data.BitVec

/-!
# Byte order (`lib/bswap.c`)

`bswap16`, `bswap32` and `bswap64` swap the byte order of a `uint16_t`, `uint32_t` and
`uint64_t`, each written out as an or of masked shifts. `join32to64` pastes two 32-bit words,
in the order they stand in memory, into a 64-bit one, and `split64to32` cuts one in two; on the
big-endian MIPS that OS/161 runs on, the first word is the high one. The `ntoh*` and `hton*`
functions of that build return their argument.

An unsigned C integer of `w` bits is a `BitVec w`; a cast to a wider type is `setWidth`, which
zero-extends, and to a narrower one `setWidth`, which truncates.
-/

namespace Os161

/-- `bswap16(val)`. -/
def bswap16 (val : BitVec 16) : BitVec 16 :=
  ((val &&& 0x00ff#16) <<< 8)
    ||| ((val &&& 0xff00#16) >>> 8)

/-- `bswap32(val)`. -/
def bswap32 (val : BitVec 32) : BitVec 32 :=
  ((val &&& 0x000000ff#32) <<< 24)
    ||| ((val &&& 0x0000ff00#32) <<< 8)
    ||| ((val &&& 0x00ff0000#32) >>> 8)
    ||| ((val &&& 0xff000000#32) >>> 24)

/-- `bswap64(val)`. -/
def bswap64 (val : BitVec 64) : BitVec 64 :=
  ((val &&& 0x00000000000000ff#64) <<< 56)
    ||| ((val &&& 0x000000000000ff00#64) <<< 40)
    ||| ((val &&& 0x0000000000ff0000#64) <<< 24)
    ||| ((val &&& 0x00000000ff000000#64) <<< 8)
    ||| ((val &&& 0x000000ff00000000#64) <<< 8)
    ||| ((val &&& 0x0000ff0000000000#64) <<< 24)
    ||| ((val &&& 0x00ff000000000000#64) >>> 40)
    ||| ((val &&& 0xff00000000000000#64) >>> 56)

/-- `join32to64(x1, x2, &y2)` of the big-endian build: the value stored in `*y2`. -/
def join32to64 (x1 x2 : BitVec 32) : BitVec 64 :=
  (x1.setWidth 64 <<< 32) ||| x2.setWidth 64

/-- `split64to32(x, &y1, &y2)` of the big-endian build: the values stored in `*y1` and `*y2`. -/
def split64to32 (x : BitVec 64) : BitVec 32 × BitVec 32 :=
  ((x >>> 32).setWidth 32, (x &&& 0xffffffff#64).setWidth 32)

end Os161

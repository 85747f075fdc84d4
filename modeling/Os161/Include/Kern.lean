import Mathlib
import Os161.Lib.Word

/-!
# Constants of the kernel–user interface

The values of `kern/errno.h`, `kern/limits.h`, `kern/stattypes.h` and `kern/fcntl.h` that the
modelled code reads, and the `DIVROUNDUP` of `lib.h`.
Error codes and open flags are C `int`s, so they are `Int` here.
-/

namespace Os161

/-! ### `kern/errno.h` -/

def EUNIMP : Int := 2
def ENOMEM : Int := 3
def EAGAIN : Int := 4
def EFAULT : Int := 6
def ENAMETOOLONG : Int := 7
def EINVAL : Int := 8
def ENOEXEC : Int := 13
def ENOTDIR : Int := 17
def EISDIR : Int := 18
def ENOENT : Int := 19
def EEXIST : Int := 22
def EXDEV : Int := 24
def ENODEV : Int := 25
def ENXIO : Int := 26
def EBUSY : Int := 27
def EMFILE : Int := 28
def EBADF : Int := 30
def EIO : Int := 32
def ENOSPC : Int := 36
def EFBIG : Int := 38

/-! ### `kern/limits.h` -/

/-- `__OPEN_MAX`: the number of slots of a filetable. -/
def OPEN_MAX : Nat := 128

/-- `__NAME_MAX`: the longest name of a path component. -/
def NAME_MAX : Nat := 255

/-- `__PATH_MAX`: the longest pathname, with its terminating NUL. -/
def PATH_MAX : Nat := 1024

/-- `__PID_MIN`: the smallest process id a user process may have. -/
def PID_MIN : Int := 2

/-- `__PID_MAX`: the largest process id. -/
def PID_MAX : Int := 32767

/-! ### `kern/stattypes.h` -/

def S_IFREG : Nat := 0o10000
def S_IFDIR : Nat := 0o20000

/-! ### `kern/fcntl.h` -/

def O_RDONLY : Int := 0
def O_WRONLY : Int := 1
def O_RDWR : Int := 2
def O_CREAT : Int := 4
def O_EXCL : Int := 8
def O_TRUNC : Int := 16
def O_APPEND : Int := 32
def O_ACCMODE : Int := 3

/-! ### `lib.h` -/

/-- `DIVROUNDUP(a, b)`, `((a)+(b)-1)/(b)`, on `unsigned` operands: the sum wraps at `2 ^ 32`. -/
def DIVROUNDUP (a b : Nat) : Nat := Word.add 32 a (b - 1) / b

end Os161

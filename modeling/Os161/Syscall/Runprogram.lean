import Os161.Vm.Dumbvm
import Os161.Fs.Sfs.Layout

/-!
# The arguments of a new program on its user stack (`syscall/runprogram.c`)

After `as_define_stack`, `runprogram` copies each argument string with its NUL onto the user
stack, the last argument first, and keeps the user address of each in a kernel array `argv`
whose last entry is `NULL`. It then moves the stack pointer down by `4 - total % 4` bytes,
where `total` is the length of the strings with their NULs, and copies the entries of `argv`
onto the stack, the `NULL` first, one 32-bit word each. The final stack pointer is both the
`argv` and the stack pointer handed to `enter_new_process`.

Both loops run from the last index down to the first, so each is a right fold over the list
it walks. The results of `copyoutstr` and `copyout` are not checked; a failed `copyout`
leaves the memory as it was. The user address space is a byte buffer (every page mapped).
-/

namespace Os161

open Bytes

/-- The kernel buffer of an argument: its bytes, then NUL. -/
def CStr.buf (a : CStr) : Buf := fun j => a.bytes.getD j 0

/-- The first loop of `runprogram`: each `args[i]` is copied below the stack pointer with
`copyoutstr(args[i], stackptr, len)`, `len = strlen(args[i]) + 1`. The stack pointer,
`total_kernel_mem`, the entries `argv[0 ..]` and the user memory after the loop. -/
def copyArgs : List CStr → Nat → Nat → Buf → Nat × Nat × List Nat × Buf
  | [], stackptr, total, user => (stackptr, total, [], user)
  | a :: rest, stackptr, total, user =>
    let (stackptr, total, argv, user) := copyArgs rest stackptr total user
    let len := a.length + 1
    let stackptr := Word.sub 32 stackptr len
    let user := (copyoutstr a.buf 0 user stackptr len).1
    (stackptr, total + len, stackptr :: argv, user)

/-- The second loop of `runprogram`: each entry of `argv` is copied below the stack pointer
with `copyout(&argv[i], stackptr, 4)`, the bytes of the pointer most significant first. -/
def copyArgv : List Nat → Nat → Buf → Nat × Buf
  | [], stackptr, user => (stackptr, user)
  | p :: rest, stackptr, user =>
    let (stackptr, user) := copyArgv rest stackptr user
    let stackptr := Word.sub 32 stackptr 4
    match copyout (setBE zeros 0 4 p) 0 user stackptr 4 with
    | .ok user => (stackptr, user)
    | .error _ => (stackptr, user)

/-- The part of `runprogram` from `as_define_stack` on, which returned `stackptr`: `ENOMEM`
if the `kmalloc` of `argv` fails (`argvOk = false`), else the arguments of
`enter_new_process(nargs, argv, stackptr, entrypoint)` and the user memory. -/
def runprogramArgs (args : List CStr) (argvOk : Bool) (stackptr : Nat) (user : Buf) :
    Except Int ((Nat × Nat × Nat) × Buf) :=
  if !argvOk then .error ENOMEM else
  let (stackptr, total, argv, user) := copyArgs args stackptr 0 user
  -- "fix any alignment issues to user stack"
  let stackptr := Word.sub 32 stackptr (4 - total % 4)
  -- `argv[nargs] = 0`
  let (stackptr, user) := copyArgv (argv ++ [0]) stackptr user
  .ok ((args.length, stackptr, stackptr), user)

end Os161

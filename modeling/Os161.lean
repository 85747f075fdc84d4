import Os161.Lib.Lts
import Os161.Include.Kern
import Os161.Lib.Lists
import Os161.Syscall.File
import Os161.Syscall.Proofs.File
import Os161.Lib.Threads
import Os161.Thread.Synch
import Os161.Thread.Proofs.Synch
import Os161.Synchprobs.Catmouse
import Os161.Lib.Exec
import Os161.Lib.Bytes
import Os161.Lib.Word
import Os161.Lib.Refine
import Os161.Klib.Uio
import Os161.Klib.Bitmap
import Os161.Klib.Array
import Os161.Dev.Lhd
import Os161.Dev.Proofs.Lhd
import Os161.Fs.Sfs.Layout
import Os161.Fs.Sfs.Io
import Os161.Fs.Sfs.FileIo
import Os161.Fs.Sfs.Vnode
import Os161.Fs.Sfs.Fs
import Os161.Fs.Sfs.View
import Os161.Fs.Sfs.Proofs.Vnode
import Os161.Fs.Sfs.Proofs.Blockio
import Os161.Vfs.Path
import Os161.Vfs.Proofs.Refcount
import Os161.Lib.Linked
import Os161.Vm.Kmalloc
import Os161.Vm.Proofs.Layout
import Os161.Vm.Proofs.Kmalloc
import Os161.Klib.Proofs.Copyinout
import Os161.Vm.Dumbvm
import Os161.Syscall.Runprogram
import Os161.Syscall.Proofs.Runprogram
import Os161.Syscall.Proofs.FileCalls
import Os161.Proc.Proc
import Os161.Proc.Proofs.Proc
import Os161.Fs.Sfs.Proofs.Truncate
import Os161.Vfs.Vfslist
import Os161.Vfs.Proofs.Vfslist
import Os161.Thread.Proofs.Semaphore
import Os161.Vm.Proofs.Dumbvm
import Os161.Syscall.Loadelf
import Os161.Syscall.Proofs.Loadelf
import Os161.Klib.Proofs.Bitmap
import Os161.Klib.Proofs.Array
import Os161.Vfs.Proofs.Path
import Os161.Klib.Proofs.Uio
import Os161.Vfs.Proofs.Cwd
import Os161.Lib.Dlinked
import Os161.Thread.Threadlist
import Os161.Thread.Proofs.Threadlist
import Os161.Lib.Ring
import Os161.Klib.Queue
import Os161.Klib.Proofs.Queue
import Os161.Thread.Migrate
import Os161.Thread.Proofs.Migrate
import Os161.Dev.Console
import Os161.Dev.Proofs.Console
import Os161.Thread.Spl
import Os161.Thread.Proofs.Spl
import Os161.Lib.Scan
import Os161.Klib.Kgets
import Os161.Klib.Proofs.Kgets
import Os161.Synchprobs.CatmouseSynch
import Os161.Synchprobs.Proofs.CatmouseSynch
import Os161.Vfs.Proofs.Bootfs
import Os161.Lib.ByteOrder
import Os161.Klib.Bswap
import Os161.Klib.Proofs.Bswap
import Os161.Dev.Lser
import Os161.Dev.Proofs.Lser
import Os161.Dev.LhdIrq
import Os161.Dev.Proofs.LhdIrq
import Os161.Fs.Sfs.Sync
import Os161.Fs.Sfs.Proofs.Mapio
import Os161.Fs.Sfs.Proofs.Sync
import Os161.Vm.Proofs.Copy

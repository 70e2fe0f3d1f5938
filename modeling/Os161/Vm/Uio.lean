import Os161.Vm.AddrSpace
import Os161.Lib.Bytes

namespace Os161.Vm
open Word

/-- `enum uio_rw` -/
inductive UioRw where
  | read
  | write
deriving DecidableEq, Repr

/-- The fields of `struct uio` that a transfer uses. -/
structure Uio where
  offset : Int
  resid : Nat
  rw : UioRw
deriving DecidableEq

/-- A file system answers a read with a result code and the bytes that it moved. -/
structure ReadReply where
  result : Errno
  data : List Byte

/-- The files as one call sees them. The last field is the value that an uninitialised
`uio_offset` has on the kernel stack. -/
structure Files where
  read : Vnode → (offset : Int) → (length : Nat) → ReadReply
  write : Vnode → (offset : Int) → (length : Nat) → Int
  swapfile : Vnode
  strayOffset : Int

/-- `VOP_READ` on a regular file asserts the direction and moves at most `uio_resid` bytes. -/
def vopRead (files : Files) (vn : Vnode) (u : Uio) : Kernel (Errno × List Byte × Uio) := do
  kassert (u.rw = .read) "uio->uio_rw==UIO_READ"
  let reply := files.read vn u.offset u.resid
  let moved := reply.data.take u.resid
  return (reply.result, moved,
    { u with resid := u.resid - moved.length, offset := u.offset + moved.length })

/-- `VOP_WRITE` on a regular file asserts the direction. -/
def vopWrite (files : Files) (vn : Vnode) (u : Uio) : Kernel Int := do
  kassert (u.rw = .write) "uio->uio_rw==UIO_WRITE"
  return files.write vn u.offset u.resid

/-- The file system answers every read of the file with its bytes. -/
def Files.Honest (files : Files) (vn : Vnode) (file : List Byte) : Prop :=
  ∀ offset length : Nat, files.read vn offset length =
    { result := 0, data := (file.drop offset).take length }

end Os161.Vm

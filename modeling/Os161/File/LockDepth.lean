import Os161.File.VfsPath
import Os161.Syscall.CopyInOut

namespace Os161.File
open Word

/-- The depth of the big lock, what `kmalloc` answers in `emufs_loadvnode` (true for memory), and the
answers to all other questions that the code asks: what it reads from memory and devices and what the
functions return that do not use the lock. -/
structure LockState where
  depth : Nat
  memory : List Bool
  answers : Nat → Nat
  asked : Nat

/-- The function table of a vnode -/
inductive VnodeOps where
  | sfsFile
  | sfsDir
  | emufsFile
  | emufsDir
  | device
deriving DecidableEq

/-- The functions of a file system -/
inductive FsOps where
  | sfs
  | emufs
deriving DecidableEq

namespace LockDepth

/-- `vfs_biglock_acquire` -/
def acquire : Action LockState Unit :=
  fun s => .ok ((), { s with depth := s.depth + 1 })

/-- `vfs_biglock_release` -/
def release : Action LockState Unit := fun s => do
  kassert (0 < s.depth) "vfs_biglock_depth > 0"
  return ((), { s with depth := s.depth - 1 })

/-- `vfs_biglock_do_i_hold` -/
def doIHold : Action LockState Bool :=
  fun s => .ok (0 < s.depth, s)

/-- The next answer -/
def ask : Action LockState Nat :=
  fun s => .ok (s.answers s.asked, { s with asked := s.asked + 1 })

/-- A condition that the code tests -/
def test : Action LockState Bool := do
  return (← ask) ≠ 0

/-- Code that does not use the lock returns any result or stops the kernel. -/
def other : Action LockState Errno := do
  if ← test then throw (.message "panic") else ask

/-- `kmalloc` in `emufs_loadvnode` -/
def kmallocVnode : Action LockState Bool :=
  fun s => .ok (s.memory.headD true, { s with memory := s.memory.tail })

/-- Some function table -/
def someOps : Action LockState VnodeOps := do
  match ← ask with
  | 0 => return .sfsFile
  | 1 => return .sfsDir
  | 2 => return .emufsFile
  | 3 => return .emufsDir
  | _ => return .device

/-- Some file system -/
def someFs : Action LockState FsOps := do
  if ← test then return .sfs else return .emufs

/-- `vnode_check`, which comes before every operation on a vnode -/
def vnodeCheck : Action LockState Unit := do
  acquire
  let _ ← other
  release

/-- `vnode_incref` and `vnode_incopen` -/
def vnodeIncref : Action LockState Unit := do
  acquire
  release

def sfsFsync : Action LockState Errno := do
  acquire
  let result ← other
  release
  return result

def vopFsync (v : VnodeOps) : Action LockState Errno := do
  vnodeCheck
  match v with
  | .sfsFile | .sfsDir => sfsFsync
  | _ => other

def vopClose (v : VnodeOps) : Action LockState Errno := do
  vnodeCheck
  match v with
  | .sfsFile | .sfsDir => vopFsync v
  | _ => other

/-- `sfs_truncate` reads the indirect block if there is one to shorten, and writes it back if some of its
entries stay and some go. -/
def sfsTruncate : Action LockState Errno := do
  acquire
  if ← test then
    let result ← other
    if result ≠ 0 then
      release
      return result
    else if ← test then
      let result ← other
      if result ≠ 0 then
        release
        return result
      else
        release
        return 0
    else
      release
      return 0
  else
    release
    return 0

def vopTruncate (v : VnodeOps) : Action LockState Errno := do
  vnodeCheck
  match v with
  | .sfsFile => sfsTruncate
  | _ => other

/-- The truncation in `sfs_reclaim`, for a file without links -/
def truncateUnlinked (v : VnodeOps) : Action LockState Errno := do
  if ← test then vopTruncate v else return 0

def sfsReclaim (v : VnodeOps) : Action LockState Errno := do
  acquire
  if ← test then
    release
    return eBusy
  else
    let result ← truncateUnlinked v
    if result ≠ 0 then
      release
      return result
    else
      let result ← other
      if result ≠ 0 then
        release
        return result
      else
        let _ ← other
        release
        return 0

def emufsReclaim : Action LockState Errno := do
  acquire
  if ← test then
    release
    return eBusy
  else
    let result ← other
    if result ≠ 0 then
      release
      return result
    else
      let _ ← other
      release
      return 0

def vopReclaim (v : VnodeOps) : Action LockState Errno := do
  vnodeCheck
  match v with
  | .sfsFile | .sfsDir => sfsReclaim v
  | .emufsFile | .emufsDir => emufsReclaim
  | .device => return 0

def vnodeDecref (v : VnodeOps) : Action LockState Unit := do
  acquire
  let _ ← other
  if ← test then release
  else
    let _ ← vopReclaim v
    release

def vnodeDecopen (v : VnodeOps) : Action LockState Unit := do
  acquire
  let _ ← other
  if ← test then release
  else
    let _ ← vopClose v
    release

/-- `VOP_READ` into kernel memory, as a page fault does it -/
def readPage : Action LockState Errno := do
  let v ← someOps
  vnodeCheck
  match v with
  | .sfsFile =>
    acquire
    let result ← other
    release
    return result
  | _ => other

/-- The page faults of a copy to or from user memory -/
def pageFaults : Nat → Action LockState Unit
  | 0 => return
  | n + 1 => do
    let _ ← readPage
    pageFaults n

def uiomove : Action LockState Errno := do
  pageFaults (← ask)
  other

/-- A transfer piece by piece; each is found and then copied. -/
def pieces : Nat → Action LockState Errno
  | 0 => return 0
  | n + 1 => do
    let result ← other
    if result ≠ 0 then return result
    else
      let result ← uiomove
      if result ≠ 0 then return result
      else pieces n

/-- `sfs_read` and `sfs_write` -/
def sfsTransfer : Action LockState Errno := do
  acquire
  let result ← pieces (← ask)
  release
  return result

/-- `VOP_READ` and `VOP_WRITE` -/
def vopTransfer (v : VnodeOps) : Action LockState Errno := do
  vnodeCheck
  match v with
  | .sfsFile => sfsTransfer
  | .emufsFile | .device => pieces (← ask)
  | _ => other

def vopGetdirentry (v : VnodeOps) : Action LockState Errno := do
  vnodeCheck
  match v with
  | .emufsDir => pieces 1
  | _ => other

/-- `VOP_OPEN`, `VOP_READLINK`, `VOP_IOCTL`, `VOP_TRYSEEK`, `VOP_MMAP`, `VOP_NAMEFILE`, `VOP_SYMLINK`,
`VOP_MKDIR` and `VOP_RMDIR`, which use the lock for no table -/
def vopPlain : Action LockState Errno := do
  vnodeCheck
  other

def sfsGettype : Action LockState (Except Errno Nat) := do
  acquire
  let vtype ← other
  release
  return .ok vtype

def vopGettype (v : VnodeOps) : Action LockState (Except Errno Nat) := do
  vnodeCheck
  match v with
  | .sfsFile | .sfsDir => sfsGettype
  | _ => return .ok (← other)

/-- `VOP_STAT`; on `emufs` it asks the device for the size first. -/
def vopStat (v : VnodeOps) : Action LockState Errno := do
  vnodeCheck
  let result ← other
  if result ≠ 0 then return result
  else
    match ← vopGettype v with
    | .error result => return result
    | .ok _ => return 0

def sfsLoadvnode : Action LockState Errno := do
  if ← test then
    vnodeIncref
    return 0
  else other

def sfsMakeobj : Action LockState Errno := do
  let result ← other
  if result ≠ 0 then return result else sfsLoadvnode

def sfsLookonce : Action LockState Errno := do
  let result ← other
  if result ≠ 0 then return result
  else
    let result ← sfsLoadvnode
    if result ≠ 0 then return result
    else
      let _ ← other
      return 0

/-- The table of a vnode of `sfs` -/
def sfsOps : Action LockState VnodeOps := do
  if ← test then return .sfsFile else return .sfsDir

def sfsCreat (excl : Bool) : Action LockState (Except Errno VnodeOps) := do
  acquire
  let found ← other
  if found ≠ 0 ∧ found ≠ eNoEnt then
    release
    return .error found
  else if found = 0 ∧ excl then
    release
    return .error eExist
  else if found = 0 then
    let result ← sfsLoadvnode
    if result ≠ 0 then
      release
      return .error result
    else
      let v ← sfsOps
      release
      return .ok v
  else
    let result ← sfsMakeobj
    if result ≠ 0 then
      release
      return .error result
    else
      let result ← other
      if result ≠ 0 then
        vnodeDecref .sfsFile
        release
        return .error result
      else
        release
        return .ok .sfsFile

def sfsLink : Action LockState Errno := do
  let _ ← other
  acquire
  let result ← other
  if result ≠ 0 then
    release
    return result
  else
    release
    return 0

def sfsRemove : Action LockState Errno := do
  acquire
  let result ← sfsLookonce
  if result ≠ 0 then
    release
    return result
  else
    let result ← other
    vnodeDecref (← sfsOps)
    release
    return result

/-- `sfs_rename`, with the labels `puke_harder` and `puke` -/
def sfsRename : Action LockState Errno := do
  acquire
  let _ ← other
  let result ← sfsLookonce
  if result ≠ 0 then
    release
    return result
  else
    let result ← other
    if result ≠ 0 then
      vnodeDecref .sfsFile
      release
      return result
    else
      let result ← other
      if result ≠ 0 then
        let _ ← other
        vnodeDecref .sfsFile
        release
        return result
      else
        vnodeDecref .sfsFile
        release
        return 0

def sfsLookparent (v : VnodeOps) (path : CString) (buflen : Nat) :
    Action LockState (Except Errno (VnodeOps × CString)) := do
  acquire
  if ← test then
    release
    return .error eNotDir
  else if path.length + 1 > buflen then
    release
    return .error Syscall.eNameTooLong
  else
    vnodeIncref
    release
    return .ok (v, path)

def sfsLookup : Action LockState (Except Errno VnodeOps) := do
  acquire
  if ← test then
    release
    return .error eNotDir
  else
    let result ← sfsLookonce
    if result ≠ 0 then
      release
      return .error result
    else
      let v ← sfsOps
      release
      return .ok v

/-- The end of `emufs_loadvnode`, with memory for the vnode -/
def emufsInitvnode : Action LockState Errno := do
  let result ← other
  if result ≠ 0 then
    release
    return result
  else
    let result ← other
    if result ≠ 0 then
      release
      return result
    else
      release
      return 0

/-- `emufs_loadvnode`; without memory for the vnode it returns with the lock. -/
def emufsLoadvnode : Action LockState Errno := do
  acquire
  if ← test then
    vnodeIncref
    release
    return 0
  else if ← kmallocVnode then emufsInitvnode
  else return eNoMem

/-- `emufs_creat` and `emufs_lookup`: the device opens the file, and its vnode is loaded. -/
def emufsFind : Action LockState (Except Errno VnodeOps) := do
  let result ← other
  if result ≠ 0 then return .error result
  else
    let result ← emufsLoadvnode
    if result ≠ 0 then
      let _ ← other
      return .error result
    else if ← test then return .ok .emufsDir
    else return .ok .emufsFile

def emufsLookparent (v : VnodeOps) (path : CString) (buflen : Nat) :
    Action LockState (Except Errno (VnodeOps × CString)) := do
  if slash ∈ path then
    let name := (path.reverse.takeWhile (· ≠ slash)).reverse
    if name.length + 1 > buflen then return .error Syscall.eNameTooLong
    else return (← emufsFind).map (·, name)
  else if path.length + 1 > buflen then return .error Syscall.eNameTooLong
  else
    vnodeIncref
    return .ok (v, path)

def vopCreat (v : VnodeOps) (excl : Bool) : Action LockState (Except Errno VnodeOps) := do
  vnodeCheck
  match v with
  | .sfsDir => sfsCreat excl
  | .emufsDir => emufsFind
  | _ => return .error eNotDir

def vopLink (v : VnodeOps) : Action LockState Errno := do
  vnodeCheck
  match v with
  | .sfsDir => sfsLink
  | _ => other

def vopRemove (v : VnodeOps) : Action LockState Errno := do
  vnodeCheck
  match v with
  | .sfsDir => sfsRemove
  | _ => other

def vopRename (v : VnodeOps) : Action LockState Errno := do
  vnodeCheck
  match v with
  | .sfsDir => sfsRename
  | _ => other

def vopLookup (v : VnodeOps) (path : CString) : Action LockState (Except Errno VnodeOps) := do
  vnodeCheck
  match v with
  | .sfsDir => sfsLookup
  | .emufsDir => emufsFind
  | .device =>
    if path = [] then
      vnodeIncref
      return .ok .device
    else return .error eNoEnt
  | _ => return .error eNotDir

def vopLookparent (v : VnodeOps) (path : CString) (buflen : Nat) :
    Action LockState (Except Errno (VnodeOps × CString)) := do
  vnodeCheck
  match v with
  | .sfsDir => sfsLookparent v path buflen
  | .emufsDir => emufsLookparent v path buflen
  | _ => return .error eNotDir

/-- The loop of `sfs_sync` over the vnodes in memory -/
def syncVnodes : Nat → Action LockState Unit
  | 0 => return
  | n + 1 => do
    let _ ← vopFsync (← sfsOps)
    syncVnodes n

/-- A dirty part of the volume in memory is written back. -/
def writeDirty : Action LockState Errno := do
  if ← test then other else return 0

def sfsSync : Action LockState Errno := do
  acquire
  syncVnodes (← ask)
  let result ← writeDirty
  if result ≠ 0 then
    release
    return result
  else
    let result ← writeDirty
    if result ≠ 0 then
      release
      return result
    else
      release
      return 0

def fsopSync : FsOps → Action LockState Errno
  | .sfs => sfsSync
  | .emufs => return 0

def fsopGetvolname : FsOps → Action LockState Unit
  | .sfs => do
    acquire
    release
  | .emufs => return

/-- `FSOP_GETROOT`; `sfs_getroot` stops the kernel when it cannot load the vnode. -/
def fsopGetroot : FsOps → Action LockState VnodeOps
  | .sfs => do
    acquire
    let result ← sfsLoadvnode
    if result ≠ 0 then throw (.message "sfs: getroot: Cannot load root vnode")
    else
      release
      return .sfsDir
  | .emufs => do
    vnodeIncref
    return .emufsDir

def fsopUnmount : FsOps → Action LockState Errno
  | .sfs => do
    acquire
    if ← test then
      release
      return eBusy
    else
      let _ ← other
      release
      return 0
  | .emufs => return eBusy

/-- `sfs_domount`, which gives up at the first of its steps that fails -/
def sfsDomountSteps : Nat → Action LockState Errno
  | 0 => do
    release
    return 0
  | n + 1 => do
    let result ← other
    if result ≠ 0 then
      release
      return result
    else sfsDomountSteps n

/-- `sfs_domount` checks the size of a sector, allocates the file system and the array of vnodes, reads
the superblock, checks its magic number, creates the map and reads it. -/
def sfsDomount : Action LockState Errno := do
  acquire
  let _ ← other
  sfsDomountSteps 7

/-- The loop of `vfs_sync` -/
def syncDevices : Nat → Action LockState Unit
  | 0 => return
  | n + 1 => do
    let _ ← fsopSync (← someFs)
    syncDevices n

def vfsSync : Action LockState Errno := do
  acquire
  syncDevices (← ask)
  release
  return 0

/-- The first test of a round in `vfs_getroot`: an entry with a file system answers for its name and the
name of the volume, a mountable one without answers with an error. -/
def getrootMounted : Action LockState (Option (Except Errno VnodeOps)) := do
  if ← test then
    let fs ← someFs
    fsopGetvolname fs
    if ← test then return some (.ok (← fsopGetroot fs)) else return none
  else if ← test then return some (.error eNxio)
  else return none

/-- The loop of `vfs_getroot` over the entries of the table -/
def getrootLoop : Nat → Action LockState (Except Errno VnodeOps)
  | 0 => return .error eNoDev
  | n + 1 => do
    match ← getrootMounted with
    | some answer => return answer
    | none =>
      if ← test then
        let _ ← other
        vnodeIncref
        return .ok .device
      else getrootLoop n

def vfsGetroot : Action LockState (Except Errno VnodeOps) := do
  let held ← doIHold
  kassert held "vfs_biglock_do_i_hold()"
  getrootLoop (← ask)

def vfsGetdevname : Action LockState Errno := do
  let held ← doIHold
  kassert held "vfs_biglock_do_i_hold()"
  other

/-- The name of the volume of an entry that has a file system -/
def volnameMounted : Action LockState Unit := do
  if ← test then fsopGetvolname (← someFs) else return

/-- The loop of `badnames` -/
def badnamesLoop : Nat → Action LockState Bool
  | 0 => return false
  | n + 1 => do
    volnameMounted
    if ← test then return true
    else badnamesLoop n

/-- `vfs_doadd`, after the allocations -/
def vfsDoaddNamed : Action LockState Errno := do
  volnameMounted
  let held ← doIHold
  kassert held "vfs_biglock_do_i_hold()"
  if ← badnamesLoop (← ask) then
    release
    return eExist
  else
    let result ← other
    release
    return result

/-- `vfs_doadd`, as `vfs_adddev` and `vfs_addfs` call it; with memory missing it goes to `nomem`. -/
def vfsDoadd : Action LockState Errno := do
  acquire
  if ← test then
    let _ ← other
    release
    return eNoMem
  else vfsDoaddNamed

def findmount : Action LockState Errno := do
  let held ← doIHold
  kassert held "vfs_biglock_do_i_hold()"
  other

/-- `vfs_mount` with `sfs_domount`, as `sfs_mount` calls it -/
def vfsMount : Action LockState Errno := do
  acquire
  let result ← findmount
  if result ≠ 0 then
    release
    return result
  else if ← test then
    release
    return eBusy
  else
    let _ ← other
    let result ← sfsDomount
    if result ≠ 0 then
      release
      return result
    else
      fsopGetvolname .sfs
      release
      return 0

/-- `vfs_unmount` up to the label `fail` -/
def vfsUnmountSteps : Action LockState Errno := do
  let result ← findmount
  if result ≠ 0 then return result
  else if ← test then return eInval
  else
    let _ ← other
    let fs ← someFs
    let result ← fsopSync fs
    if result ≠ 0 then return result
    else fsopUnmount fs

def vfsUnmount : Action LockState Errno := do
  acquire
  let result ← vfsUnmountSteps
  release
  return result

/-- One round of the loop in `vfs_unmountall` -/
def unmountOne : Action LockState Unit := do
  if ← test then return
  else
    let fs ← someFs
    let result ← fsopSync fs
    if result = 0 then
      let _ ← fsopUnmount fs
      return
    else
      let result ← fsopSync fs
      if result ≠ 0 then return
      else
        let _ ← fsopUnmount fs
        return

/-- The loop in `vfs_unmountall` -/
def unmountDevices : Nat → Action LockState Unit
  | 0 => return
  | n + 1 => do
    unmountOne
    unmountDevices n

def vfsUnmountall : Action LockState Errno := do
  acquire
  unmountDevices (← ask)
  release
  return 0

def emufsAddtovfs : Action LockState Errno := do
  if ← test then return eNoMem
  else
    let result ← emufsLoadvnode
    if result ≠ 0 then return result
    else
      let result ← vfsDoadd
      if result ≠ 0 then
        vnodeDecref .emufsDir
        return result
      else return 0

/-- A vnode or none -/
def maybeOps : Action LockState (Option VnodeOps) := do
  if ← test then return some (← someOps) else return none

/-- What the functions on paths call, with the lock that it takes -/
def calls : VfsCalls LockState VnodeOps where
  biglockAcquire := acquire
  biglockRelease := release
  biglockDoIHold := doIHold
  cwd := maybeOps
  setCwd _ := return
  bootfs := maybeOps
  setBootfs _ := return
  vnFs
    | .device => return none
    | _ => return some (← ask)
  fsopGetroot
    | .emufsFile | .emufsDir => fsopGetroot .emufs
    | _ => fsopGetroot .sfs
  getroot _ := vfsGetroot
  incref _ := vnodeIncref
  decref := vnodeDecref
  incopen _ := vnodeIncref
  decopen := vnodeDecopen
  vopOpen _ _ := vopPlain
  readlink _ := vopPlain
  gettype := vopGettype
  truncate v _ := vopTruncate v
  creat v _ excl _ := vopCreat v excl
  symlink _ _ _ := vopPlain
  mkdir _ _ _ := vopPlain
  link v _ _ := vopLink v
  remove v _ := vopRemove v
  rmdir _ _ := vopPlain
  rename v _ _ _ := vopRename v
  lookup := vopLookup
  lookparent := vopLookparent

/-- The name of the device, for a file system without a volume name -/
def devnameUnnamed : Action LockState Unit := do
  if ← test then
    acquire
    let _ ← vfsGetdevname
    release
  else return

/-- `vfs_getcwd` writes the name of the volume or of the device, a colon and the path. -/
def vfsGetcwd : Action LockState Errno := do
  match ← calls.vfsGetcurdir with
  | .error result => return result
  | .ok cwd =>
    fsopGetvolname (← someFs)
    devnameUnnamed
    let result ← pieces 2
    if result ≠ 0 then
      vnodeDecref cwd
      return result
    else
      let result ← vopPlain
      vnodeDecref cwd
      return result

end LockDepth

end Os161.File

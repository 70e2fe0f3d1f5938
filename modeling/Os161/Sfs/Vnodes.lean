import Os161.Sfs.Directory
import Os161.Sfs.Truncate

namespace Os161.Sfs
open Word Outcome

/-- `SFS_ROOT_LOCATION` -/
abbrev rootLocation : Word32 := 1

/-- `struct sfs_fs`: a mounted volume and its table of vnodes. Inode numbers stand for the pointers to vnodes. -/
structure SfsFs where
  vol : Volume
  vnodes : List SfsVnode

/-- What `kmalloc` and `vnodearray_add` answer when a vnode is loaded. -/
structure Memory where
  vnode : Bool
  table : Bool

def SfsFs.find (s : SfsFs) (v : Word32) : Option SfsVnode := s.vnodes.find? fun sv => sv.ino = v

def SfsFs.file (s : SfsFs) (v : Word32) : Kernel SfsFile :=
  match s.find v with
  | some sv => .ok ⟨s.vol, sv⟩
  | none => .error .nullPointer

def SfsFs.put (s : SfsFs) (f : SfsFile) : SfsFs where
  vol := f.vol
  vnodes := s.vnodes.map fun sv => if sv.ino = f.sv.ino then f.sv else sv

/-- The table after a vnode has been added -/
def SfsFs.add (s : SfsFs) (sv : SfsVnode) : SfsFs := ⟨s.vol, s.vnodes ++ [sv]⟩

/-- The table after a vnode has been removed -/
def SfsFs.drop (s : SfsFs) (vol : Volume) (v : Word32) : SfsFs :=
  ⟨vol, s.vnodes.filter fun sv => sv.ino ≠ v⟩

def SfsFs.modify (s : SfsFs) (v : Word32) (change : SfsVnode → SfsVnode) : Kernel SfsFs := do
  let f ← s.file v
  return s.put { f with sv := change f.sv }

def SfsVnode.setRefcount (sv : SfsVnode) (count : Nat) : SfsVnode := { sv with refcount := count }

def SfsVnode.setOpencount (sv : SfsVnode) (count : Nat) : SfsVnode := { sv with opencount := count }

def SfsVnode.setLinkcount (sv : SfsVnode) (count : BitVec 16) : SfsVnode :=
  { sv with inode := { sv.inode with linkcount := count }, dirty := true }

def vnodeIncref (s : SfsFs) (v : Word32) : Kernel SfsFs := s.modify v fun sv => sv.setRefcount (sv.refcount + 1)

def vnodeIncopen (s : SfsFs) (v : Word32) : Kernel SfsFs :=
  s.modify v fun sv => sv.setOpencount (sv.opencount + 1)

def sfsSyncInode (f : SfsFile) : Kernel SfsFile := do
  if f.sv.dirty then
    let vol ← sfsWblock f.vol f.sv.inode.encode f.sv.ino
    return ⟨vol, { f.sv with dirty := false }⟩
  else return f

/-- `vnode_decopen`; the last close writes the inode. -/
def vnodeDecopen (s : SfsFs) (v : Word32) : Kernel SfsFs := do
  let f ← s.file v
  kassert (0 < f.sv.opencount) "vn->vn_opencount>0"
  let f : SfsFile := { f with sv := f.sv.setOpencount (f.sv.opencount - 1) }
  if 0 < f.sv.opencount then return s.put f
  else
    let f ← sfsSyncInode f
    return s.put f

def vopTruncate (f : SfsFile) (len : Nat) : Kernel (Errno × SfsFile) := do
  if f.sv.inode.type = typeDir then return (Syscall.eIsDir, f)
  else
    let f ← sfsTruncate f len
    return (0, f)

/-- `sfs_reclaim` erases a file without links. -/
def reclaimErase (f : SfsFile) : Kernel (Errno × SfsFile) :=
  if f.sv.inode.linkcount = 0 then vopTruncate f 0 else .ok (0, f)

/-- `sfs_reclaim` discards the inode of a file without links. -/
def reclaimDiscard (f : SfsFile) : Kernel Volume :=
  if f.sv.inode.linkcount = 0 then sfsBfree f.vol f.sv.ino else .ok f.vol

def vnodeCleanup (sv : SfsVnode) : Kernel Unit := do
  kassert (sv.refcount = 1) "vn->vn_refcount==1"
  kassert (sv.opencount = 0) "vn->vn_opencount==0"

def sfsReclaim (s : SfsFs) (v : Word32) : Kernel (Errno × SfsFs) := do
  let f ← s.file v
  if f.sv.refcount ≠ 1 then
    kassert (1 < f.sv.refcount) "v->vn_refcount>1"
    return (eBusy, s.put { f with sv := f.sv.setRefcount (f.sv.refcount - 1) })
  else
    let (result, f) ← reclaimErase f
    if result ≠ 0 then return (result, s.put f)
    else
      let f ← sfsSyncInode f
      let vol ← reclaimDiscard f
      vnodeCleanup f.sv
      return (0, s.drop vol v)

def vnodeDecref (s : SfsFs) (v : Word32) : Kernel SfsFs := do
  let f ← s.file v
  kassert (0 < f.sv.refcount) "vn->vn_refcount>0"
  if 1 < f.sv.refcount then return s.put { f with sv := f.sv.setRefcount (f.sv.refcount - 1) }
  else
    let (_, s) ← sfsReclaim s v
    return s

abbrev unallocatedPanic (ino : Nat) : Panic := .message s!"sfs: Found inode {ino} in unallocated block\n"

/-- `sfs_loadvnode` searches the table, and every inode that it passes has to be in a used block. -/
def searchVnodes (vol : Volume) (ino : Word32) : List SfsVnode → Kernel Bool
  | [] => .ok false
  | sv :: rest => do
    if ← sfsBused vol sv.ino then
      if sv.ino = ino then return true else searchVnodes vol ino rest
    else .error (unallocatedPanic sv.ino.toNat)

/-- `vnode_init` gives one reference to the caller. -/
def SfsVnode.fresh (ino : Word32) (inode : Inode) (dirty : Bool) : SfsVnode := ⟨ino, inode, dirty, 1, 0⟩

/-- A new file gets its type when its inode is loaded. -/
def forceType (sv : SfsVnode) (forcetype : BitVec 16) : Kernel SfsVnode := do
  if forcetype ≠ typeInval then
    kassert (sv.inode.type = typeInval) "sv->sv_i.sfi_type == SFS_TYPE_INVAL"
    return { sv with inode := { sv.inode with type := forcetype }, dirty := true }
  else return sv

abbrev tooSoonPanic (ino : Nat) : Panic :=
  .message s!"sfs: Tried to load inode {ino} from unallocated block\n"

abbrev invalidTypePanic (ino type : Nat) : Panic :=
  .message s!"sfs: loadvnode: Invalid inode type (inode {ino}, type {type})\n"

/-- `sfs_loadvnode` for an inode that is not in the table -/
def loadFresh (s : SfsFs) (ino : Word32) (forcetype : BitVec 16) (memory : Memory) : Kernel (Errno × SfsFs) := do
  if memory.vnode = false then return (eNoMem, s)
  else if ← sfsBused s.vol ino then
    let block ← sfsRblock s.vol ino
    let sv ← forceType (.fresh ino (.decode block) false) forcetype
    if sv.inode.type ≠ typeFile ∧ sv.inode.type ≠ typeDir then
      .error (invalidTypePanic ino.toNat sv.inode.type.toNat)
    else if memory.table = false then return (eNoMem, s)
    else return (0, s.add sv)
  else .error (tooSoonPanic ino.toNat)

def sfsLoadvnode (s : SfsFs) (ino : Word32) (forcetype : BitVec 16) (memory : Memory) :
    Kernel (Errno × SfsFs) := do
  if ← searchVnodes s.vol ino s.vnodes then
    kassert (forcetype = typeInval) "forcetype==SFS_TYPE_INVAL"
    let s ← vnodeIncref s ino
    return (0, s)
  else loadFresh s ino forcetype memory

def sfsGetroot (s : SfsFs) (memory : Memory) : Kernel SfsFs := do
  let (result, s) ← sfsLoadvnode s rootLocation typeInval memory
  if result ≠ 0 then .error (.message "sfs: getroot: Cannot load root vnode\n") else return s

abbrev zeroLinksPanic (ino dir : Nat) : Panic :=
  .message s!"sfs: Link count of file {ino} found in dir {dir} is 0\n"

/-- `sfs_lookonce` hands back the vnode and its slot. -/
def sfsLookonce (s : SfsFs) (d : Word32) (name : Name) (memory : Memory) :
    Kernel (Errno × Word32 × Nat × SfsFs) := do
  let sv ← s.file d
  let (result, found, sv) ← sfsDirFindname sv name
  let s := s.put sv
  if result ≠ 0 then return (result, 0, 0, s)
  else
    let (result, s) ← sfsLoadvnode s found.ino typeInval memory
    if result ≠ 0 then return (result, 0, 0, s)
    else
      let final ← s.file found.ino
      if final.sv.inode.linkcount = 0 then .error (zeroLinksPanic found.ino.toNat d.toNat)
      else return (0, found.ino, found.slot, s)

def sfsMakeobj (s : SfsFs) (type : BitVec 16) (memory : Memory) : Kernel (Except Errno Word32 × SfsFs) := do
  match ← sfsBalloc s.vol with
  | (.error result, vol) => return (.error result, { s with vol := vol })
  | (.ok ino, vol) =>
    let (result, s) ← sfsLoadvnode { s with vol := vol } ino type memory
    if result ≠ 0 then return (.error result, s) else return (.ok ino, s)

/-- Link counts have 16 bits. -/
def addLink (s : SfsFs) (v : Word32) : Kernel SfsFs :=
  s.modify v fun sv => sv.setLinkcount (sv.inode.linkcount + 1)

def dropLink (s : SfsFs) (v : Word32) (text : String) : Kernel SfsFs := do
  let f ← s.file v
  kassert (0 < f.sv.inode.linkcount) text
  return s.put { f with sv := f.sv.setLinkcount (f.sv.inode.linkcount - 1) }

/-- `sfs_creat` for a name that does not exist -/
def creatNew (s : SfsFs) (d : Word32) (name : Name) (memory : Memory) :
    Kernel (Except Errno Word32 × SfsFs) := do
  match ← sfsMakeobj s typeFile memory with
  | (.error result, s) => return (.error result, s)
  | (.ok newguy, s) =>
    let sv ← s.file d
    let (result, _, sv) ← sfsDirLink sv name newguy
    let s := s.put sv
    if result ≠ 0 then
      let s ← vnodeDecref s newguy
      return (.error result, s)
    else
      let s ← addLink s newguy
      return (.ok newguy, s)

def sfsCreat (s : SfsFs) (d : Word32) (name : Name) (excl : Bool) (memory : Memory) :
    Kernel (Except Errno Word32 × SfsFs) := do
  let sv ← s.file d
  let (result, found, sv) ← sfsDirFindname sv name
  let s := s.put sv
  if result ≠ 0 ∧ result ≠ File.eNoEnt then return (.error result, s)
  else if result = 0 ∧ excl then return (.error File.eExist, s)
  else if result = 0 then
    let (result, s) ← sfsLoadvnode s found.ino typeInval memory
    if result ≠ 0 then return (.error result, s) else return (.ok found.ino, s)
  else creatNew s d name memory

def sfsLink (s : SfsFs) (d : Word32) (name : Name) (file : Word32) : Kernel (Errno × SfsFs) := do
  let sv ← s.file d
  let (result, _, sv) ← sfsDirLink sv name file
  let s := s.put sv
  if result ≠ 0 then return (result, s)
  else
    let s ← addLink s file
    return (0, s)

def sfsRemove (s : SfsFs) (d : Word32) (name : Name) (memory : Memory) : Kernel (Errno × SfsFs) := do
  let (result, victim, slot, s) ← sfsLookonce s d name memory
  if result ≠ 0 then return (result, s)
  else
    let sv ← s.file d
    let (result, sv) ← sfsDirUnlink sv slot
    let s := s.put sv
    if result ≠ 0 then
      let s ← vnodeDecref s victim
      return (result, s)
    else
      let s ← dropLink s victim "victim->sv_i.sfi_linkcount > 0"
      let s ← vnodeDecref s victim
      return (0, s)

/-- The error recovery of `sfs_rename` takes the new entry back. -/
def renameUndo (s : SfsFs) (d g1 : Word32) (slot2 : Nat) : Kernel SfsFs := do
  let sv ← s.file d
  let (result2, sv) ← sfsDirUnlink sv slot2
  if result2 ≠ 0 then .error (.message "sfs: rename: Cannot recover\n")
  else
    let s := s.put sv
    let f ← s.file g1
    let s := s.put { f with
      sv := { f.sv with inode := { f.sv.inode with linkcount := f.sv.inode.linkcount - 1 } } }
    vnodeDecref s g1

/-- `sfs_rename` after it has looked the old name up -/
def renameMove (s : SfsFs) (d g1 : Word32) (slot1 : Nat) (n2 : Name) : Kernel (Errno × SfsFs) := do
  let f ← s.file g1
  kassert (f.sv.inode.type = typeFile) "g1->sv_i.sfi_type == SFS_TYPE_FILE"
  let sv ← s.file d
  let (result, slot2, sv) ← sfsDirLink sv n2 g1
  let s := s.put sv
  if result ≠ 0 then
    let s ← vnodeDecref s g1
    return (result, s)
  else
    let s ← addLink s g1
    let sv ← s.file d
    let (result, sv) ← sfsDirUnlink sv slot1
    let s := s.put sv
    if result ≠ 0 then
      let s ← renameUndo s d g1 slot2
      return (result, s)
    else
      let s ← dropLink s g1 "g1->sv_i.sfi_linkcount>0"
      let s ← vnodeDecref s g1
      return (0, s)

def sfsRename (s : SfsFs) (d1 : Word32) (n1 : Name) (d2 : Word32) (n2 : Name) (memory : Memory) :
    Kernel (Errno × SfsFs) := do
  kassert (d1 = d2) "d1==d2"
  kassert (d1 = rootLocation) "sv->sv_ino == SFS_ROOT_LOCATION"
  let (result, g1, slot1, s) ← sfsLookonce s d1 n1 memory
  if result ≠ 0 then return (result, s) else renameMove s d1 g1 slot1 n2

def sfsLookup (s : SfsFs) (d : Word32) (path : Name) (memory : Memory) :
    Kernel (Except Errno Word32 × SfsFs) := do
  let (result, final, _, s) ← sfsLookonce s d path memory
  if result ≠ 0 then return (.error result, s) else return (.ok final, s)

/-- The calls on a mounted volume -/
inductive Request where
  | getroot (memory : Memory)
  | lookup (dir : Word32) (path : Name) (memory : Memory)
  | creat (dir : Word32) (name : Name) (excl : Bool) (memory : Memory)
  | link (dir : Word32) (name : Name) (file : Word32)
  | remove (dir : Word32) (name : Name) (memory : Memory)
  | rename (d1 : Word32) (n1 : Name) (d2 : Word32) (n2 : Name) (memory : Memory)
  | read (file : Word32) (u : Uio)
  | write (file : Word32) (u : Uio)
  | truncate (file : Word32) (len : Nat)
  | incref (file : Word32)
  | decref (file : Word32)
  | incopen (file : Word32)
  | decopen (file : Word32)

/-- What a call hands back: an error number, a vnode, or an error number and a `uio` -/
inductive Reply where
  | code (result : Errno)
  | vnode (v : Word32)
  | moved (result : Errno) (u : Uio)

def Reply.ofVnode : Except Errno Word32 → Reply
  | .error result => .code result
  | .ok v => .vnode v

/-- The operations of a directory are `NOTDIR` for a file. -/
def onDirectory (s : SfsFs) (d : Word32) (operation : Kernel (Reply × SfsFs)) : Kernel (Reply × SfsFs) := do
  let f ← s.file d
  if f.sv.inode.type = typeDir then operation else return (.code eNotDir, s)

/-- `VOP_READ` and `VOP_WRITE`; both are `ISDIR` for a directory. -/
def vopIo (s : SfsFs) (v : Word32) (rw : Vm.UioRw) (text : String) (u : Uio) : Kernel (Reply × SfsFs) := do
  let f ← s.file v
  if f.sv.inode.type = typeDir then return (.moved Syscall.eIsDir u, s)
  else
    kassert (u.rw = rw) text
    let (result, u, f) ← sfsIo f u
    return (.moved result u, s.put f)

def SfsFs.perform (s : SfsFs) : Request → Kernel (Reply × SfsFs)
  | .getroot memory => do
    let s ← sfsGetroot s memory
    return (.vnode rootLocation, s)
  | .lookup d path memory => onDirectory s d do
      let (result, s) ← sfsLookup s d path memory
      return (.ofVnode result, s)
  | .creat d name excl memory => onDirectory s d do
      let (result, s) ← sfsCreat s d name excl memory
      return (.ofVnode result, s)
  | .link d name file => onDirectory s d do
      let (result, s) ← sfsLink s d name file
      return (.code result, s)
  | .remove d name memory => onDirectory s d do
      let (result, s) ← sfsRemove s d name memory
      return (.code result, s)
  | .rename d1 n1 d2 n2 memory => onDirectory s d1 do
      let (result, s) ← sfsRename s d1 n1 d2 n2 memory
      return (.code result, s)
  | .read v u => vopIo s v .read "uio->uio_rw==UIO_READ" u
  | .write v u => vopIo s v .write "uio->uio_rw==UIO_WRITE" u
  | .truncate v len => do
    let f ← s.file v
    let (result, f) ← vopTruncate f len
    return (.code result, s.put f)
  | .incref v => do
    let s ← vnodeIncref s v
    return (.code 0, s)
  | .decref v => do
    let s ← vnodeDecref s v
    return (.code 0, s)
  | .incopen v => do
    let s ← vnodeIncopen s v
    return (.code 0, s)
  | .decopen v => do
    let s ← vnodeDecopen s v
    return (.code 0, s)

end Os161.Sfs

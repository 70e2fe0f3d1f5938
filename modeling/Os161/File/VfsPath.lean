import Os161.File.Devices

namespace Os161.File
open Word Outcome

abbrev eXdev : Errno := 24

abbrev nameMax : Nat := 255

/-- The bytes `:` and `/` -/
abbrev colon : Byte := 58

@[inherit_doc colon] abbrev slash : Byte := 47

instance (c : Byte) (s : CString) : Decidable (c ∈ s) := List.instDecidableMemOfLawfulBEq c s

abbrev sIfdir : Nat := 0o020000

/-- Kernel code that works on a state and returns a value or stops the machine. -/
abbrev Action (S A : Type) := StateT S Kernel A

/-- What the functions of `vfscwd.c`, `vfslookup.c` and `vfspath.c` use of the rest of the kernel, on a
state of any type and with vnodes of any type. A call with a result of zero comes with what it hands
back. -/
structure VfsCalls (S V : Type) where
  biglockAcquire : Action S Unit
  biglockRelease : Action S Unit
  biglockDoIHold : Action S Bool
  /-- `curproc->p_cwd` -/
  cwd : Action S (Option V)
  setCwd : Option V → Action S Unit
  /-- `bootfs_vnode` -/
  bootfs : Action S (Option V)
  setBootfs : Option V → Action S Unit
  /-- `vn->vn_fs` -/
  vnFs : V → Action S (Option Nat)
  /-- `FSOP_GETROOT(vn->vn_fs)` -/
  fsopGetroot : V → Action S V
  /-- `vfs_getroot` -/
  getroot : CString → Action S (Except Errno V)
  incref : V → Action S Unit
  decref : V → Action S Unit
  incopen : V → Action S Unit
  decopen : V → Action S Unit
  vopOpen : V → (openflags : Word32) → Action S Errno
  readlink : V → Action S Errno
  gettype : V → Action S (Except Errno Nat)
  truncate : V → (len : Nat) → Action S Errno
  creat : V → CString → (excl : Bool) → (mode : Nat) → Action S (Except Errno V)
  symlink : V → CString → (contents : CString) → Action S Errno
  mkdir : V → CString → (mode : Nat) → Action S Errno
  link : V → CString → (file : V) → Action S Errno
  remove : V → CString → Action S Errno
  rmdir : V → CString → Action S Errno
  rename : V → CString → V → CString → Action S Errno
  lookup : V → CString → Action S (Except Errno V)
  lookparent : V → CString → (buflen : Nat) → Action S (Except Errno (V × CString))

namespace VfsCalls

variable {S V : Type} (vfs : VfsCalls S V)

def vfsGetcurdir : Action S (Except Errno V) := do
  match ← vfs.cwd with
  | some vn =>
    vfs.incref vn
    return .ok vn
  | none => return .error eNoEnt

/-- The path without the slashes at its front. -/
def skipSlashes (path : CString) : CString :=
  path.dropWhile (· = slash)

/-- The end of `getdevice`, for a path that begins with a slash or a colon. -/
def getdeviceRooted (mark : Byte) : Action S (Except Errno V) := do
  if mark = slash then
    match ← vfs.bootfs with
    | none => return .error eNoEnt
    | some vn =>
      vfs.incref vn
      return .ok vn
  else
    match ← vfs.vfsGetcurdir with
    | .error result => return .error result
    | .ok vn =>
      let fs ← vfs.vnFs vn
      kassert (fs ≠ none) "vn->vn_fs!=NULL"
      let startvn ← vfs.fsopGetroot vn
      vfs.decref vn
      return .ok startvn

/-- `getdevice`: the rest of the path and the vnode that it is relative to. The path is split at the
first colon or slash. -/
def getdevice (path : CString) : Action S (Except Errno (CString × V)) := do
  let held ← vfs.biglockDoIHold
  kassert held "vfs_biglock_do_i_hold()"
  let front := path.takeWhile fun byte => byte ≠ colon ∧ byte ≠ slash
  match path.drop front.length with
  | [] => return (← vfs.vfsGetcurdir).map (path, ·)
  | mark :: rest =>
    if mark ≠ colon ∧ front ≠ [] then return (← vfs.vfsGetcurdir).map (path, ·)
    else if front ≠ [] then return (← vfs.getroot front).map (skipSlashes rest, ·)
    else return (← vfs.getdeviceRooted mark).map (skipSlashes rest, ·)

/-- The lookup in `vfs_lookparent`; a name of a device alone has no parent. -/
def lookparentFrom (startvn : V) (path : CString) (buflen : Nat) :
    Action S (Except Errno (V × CString)) :=
  if path = [] then return .error eInval else vfs.lookparent startvn path buflen

def vfsLookparent (path : CString) (buflen : Nat) : Action S (Except Errno (V × CString)) := do
  vfs.biglockAcquire
  match ← vfs.getdevice path with
  | .error result =>
    vfs.biglockRelease
    return .error result
  | .ok (path, startvn) =>
    let result ← vfs.lookparentFrom startvn path buflen
    vfs.decref startvn
    vfs.biglockRelease
    return result

def vfsLookup (path : CString) : Action S (Except Errno V) := do
  vfs.biglockAcquire
  match ← vfs.getdevice path with
  | .error result =>
    vfs.biglockRelease
    return .error result
  | .ok (path, startvn) =>
    if path = [] then
      vfs.biglockRelease
      return .ok startvn
    else
      let result ← vfs.lookup startvn path
      vfs.decref startvn
      vfs.biglockRelease
      return result

/-- The branches of `vfs_open` that find or create the file -/
def openVnode (path : CString) (openflags : Word32) (mode : Nat) : Action S (Except Errno V) := do
  if openflags &&& oCreat ≠ 0 then
    match ← vfs.vfsLookparent path (nameMax + 1) with
    | .error result => return .error result
    | .ok (dir, name) =>
      let result ← vfs.creat dir name (openflags &&& oExcl ≠ 0) mode
      vfs.decref dir
      return result
  else vfs.vfsLookup path

/-- The truncation in `vfs_open` -/
def openTruncate (openflags : Word32) (vn : V) : Action S Errno :=
  if openflags &&& oTrunc = 0 then return 0
  else if openflags &&& oAccmode = 0 then return eInval
  else vfs.truncate vn 0

def vfsOpen (path : CString) (openflags : Word32) (mode : Nat) : Action S (Except Errno V) := do
  if openflags &&& oAccmode = 3 then return .error eInval
  else
    match ← vfs.openVnode path openflags mode with
    | .error result => return .error result
    | .ok vn =>
      let result ← vfs.vopOpen vn openflags
      if result ≠ 0 then
        vfs.decref vn
        return .error result
      else
        vfs.incopen vn
        let result ← vfs.openTruncate openflags vn
        if result ≠ 0 then
          vfs.decopen vn
          vfs.decref vn
          return .error result
        else return .ok vn

def vfsClose (vn : V) : Action S Unit := do
  vfs.decopen vn
  vfs.decref vn

/-- An operation on the last component of a path in the directory that holds it. -/
def atParent (path : CString) (operation : V → CString → Action S Errno) : Action S Errno := do
  match ← vfs.vfsLookparent path (nameMax + 1) with
  | .error result => return result
  | .ok (dir, name) =>
    let result ← operation dir name
    vfs.decref dir
    return result

def vfsRemove (path : CString) : Action S Errno :=
  vfs.atParent path vfs.remove

def vfsSymlink (contents path : CString) : Action S Errno :=
  vfs.atParent path fun newdir newname => vfs.symlink newdir newname contents

def vfsMkdir (path : CString) (mode : Nat) : Action S Errno :=
  vfs.atParent path fun parent name => vfs.mkdir parent name mode

def vfsRmdir (path : CString) : Action S Errno :=
  vfs.atParent path vfs.rmdir

/-- The end of `vfs_rename` and `vfs_link`, for two vnodes that must be on one file system. -/
def onOneFs (first newdir : V) (operation : Action S Errno) : Action S Errno := do
  let firstFs ← vfs.vnFs first
  let newFs ← vfs.vnFs newdir
  if firstFs = none ∨ newFs = none ∨ firstFs ≠ newFs then
    vfs.decref newdir
    vfs.decref first
    return eXdev
  else
    let result ← operation
    vfs.decref newdir
    vfs.decref first
    return result

def vfsRename (oldpath newpath : CString) : Action S Errno := do
  match ← vfs.vfsLookparent oldpath (nameMax + 1) with
  | .error result => return result
  | .ok (olddir, oldname) =>
    match ← vfs.vfsLookparent newpath (nameMax + 1) with
    | .error result =>
      vfs.decref olddir
      return result
    | .ok (newdir, newname) =>
      vfs.onOneFs olddir newdir (vfs.rename olddir oldname newdir newname)

def vfsLink (oldpath newpath : CString) : Action S Errno := do
  match ← vfs.vfsLookup oldpath with
  | .error result => return result
  | .ok oldfile =>
    match ← vfs.vfsLookparent newpath (nameMax + 1) with
    | .error result =>
      vfs.decref oldfile
      return result
    | .ok (newdir, newname) =>
      vfs.onOneFs oldfile newdir (vfs.link newdir newname oldfile)

/-- An operation on the vnode that a path names. -/
def atFile (path : CString) (operation : V → Action S Errno) : Action S Errno := do
  match ← vfs.vfsLookup path with
  | .error result => return result
  | .ok vn =>
    let result ← operation vn
    vfs.decref vn
    return result

def vfsReadlink (path : CString) : Action S Errno :=
  vfs.atFile path vfs.readlink

/-- A vnode that may be missing loses a reference. -/
def dropOld : Option V → Action S Unit
  | none => return
  | some old => vfs.decref old

def vfsSetcurdir (dir : V) : Action S Errno := do
  match ← vfs.gettype dir with
  | .error result => return result
  | .ok vtype =>
    if vtype ≠ sIfdir then return eNotDir
    else
      vfs.incref dir
      let old ← vfs.cwd
      vfs.setCwd (some dir)
      vfs.dropOld old
      return 0

def vfsClearcurdir : Action S Errno := do
  let old ← vfs.cwd
  vfs.setCwd none
  vfs.dropOld old
  return 0

def vfsChdir (path : CString) : Action S Errno :=
  vfs.atFile path vfs.vfsSetcurdir

def changeBootfs (newvn : Option V) : Action S Unit := do
  let oldvn ← vfs.bootfs
  vfs.setBootfs newvn
  vfs.dropOld oldvn

/-- `vfs_setbootfs`; it takes no name with a colon, not even at the end. -/
def vfsSetbootfs (fsname : CString) : Action S Errno := do
  vfs.biglockAcquire
  let tmp := fsname.take (nameMax - 1)
  if colon ∈ tmp then
    vfs.biglockRelease
    return eInval
  else
    let result ← vfs.vfsChdir (tmp ++ [colon])
    if result ≠ 0 then
      vfs.biglockRelease
      return result
    else
      match ← vfs.vfsGetcurdir with
      | .error result =>
        vfs.biglockRelease
        return result
      | .ok newguy =>
        vfs.changeBootfs (some newguy)
        vfs.biglockRelease
        return 0

def vfsClearbootfs : Action S Unit := do
  vfs.biglockAcquire
  vfs.changeBootfs none
  vfs.biglockRelease

end VfsCalls

end Os161.File

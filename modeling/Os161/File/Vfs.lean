import Os161.Vm.AddrSpace

namespace Os161.File
open Word Vm Outcome Function

/-- `O_WRONLY`, `O_CREAT`, `O_EXCL`, `O_TRUNC`, `O_APPEND` and the mask `O_ACCMODE` -/
abbrev oWronly : Word32 := 1

@[inherit_doc oWronly] abbrev oCreat : Word32 := 4

@[inherit_doc oWronly] abbrev oExcl : Word32 := 8

@[inherit_doc oWronly] abbrev oTrunc : Word32 := 16

@[inherit_doc oWronly] abbrev oAppend : Word32 := 32

@[inherit_doc oWronly] abbrev oAccmode : Word32 := 3

/-- The fields `vn_refcount` and `vn_opencount` of every vnode. -/
structure Vnodes where
  refcount : Vnode → Nat
  opencount : Vnode → Nat

/-- `vnode_incref` -/
def Vnodes.incref (v : Vnodes) (vn : Vnode) : Vnodes :=
  { v with refcount := update v.refcount vn (v.refcount vn + 1) }

/-- `vnode_decref`; the vnode is reclaimed with its last reference. -/
def Vnodes.decref (v : Vnodes) (vn : Vnode) : Kernel Vnodes := do
  kassert (0 < v.refcount vn) "vn->vn_refcount>0"
  return { v with refcount := update v.refcount vn (v.refcount vn - 1) }

/-- `vnode_incopen` -/
def Vnodes.incopen (v : Vnodes) (vn : Vnode) : Vnodes :=
  { v with opencount := update v.opencount vn (v.opencount vn + 1) }

/-- `vnode_decopen`; the file system closes the file with its last opening. -/
def Vnodes.decopen (v : Vnodes) (vn : Vnode) : Kernel Vnodes := do
  kassert (0 < v.opencount vn) "vn->vn_opencount>0"
  return { v with opencount := update v.opencount vn (v.opencount vn - 1) }

/-- What the file system answers in one call of `vfs_open`. A result of zero comes with a vnode. -/
structure VfsEnv where
  lookparent : Errno × Vnode
  creat : (dir : Vnode) → (excl : Bool) → Errno × Vnode
  lookup : Errno × Vnode
  vopOpen : Vnode → (openflags : Word32) → Errno
  truncate : Vnode → Errno

/-- The branches of `vfs_open` that find or create the file. The file system counts a reference for
every vnode that it returns. -/
def vfsFind (env : VfsEnv) (openflags : Word32) (v : Vnodes) :
    Kernel (Errno × Option Vnode × Vnodes) := do
  if openflags &&& oCreat ≠ 0 then
    let (result, dir) := env.lookparent
    if result ≠ 0 then return (result, none, v)
    let v := v.incref dir
    let (result, vn) := env.creat dir (openflags &&& oExcl ≠ 0)
    if result ≠ 0 then return (result, none, ← v.decref dir)
    return (0, some vn, ← (v.incref vn).decref dir)
  else
    let (result, vn) := env.lookup
    if result ≠ 0 then return (result, none, v)
    return (0, some vn, v.incref vn)

/-- The truncation in `vfs_open` fails for a file that is opened for reading. -/
def vfsTruncate (env : VfsEnv) (openflags : Word32) (vn : Vnode) : Errno :=
  if openflags &&& oTrunc = 0 then 0
  else if openflags &&& oAccmode = 0 then eInval
  else env.truncate vn

/-- `vfs_open` writes through `ret` on success only. -/
def vfsOpen (env : VfsEnv) (openflags : Word32) (ret : Option Vnode) (v : Vnodes) :
    Kernel (Errno × Option Vnode × Vnodes) := do
  if openflags &&& oAccmode = 3 then return (eInval, ret, v)
  match ← vfsFind env openflags v with
  | (result, none, v) =>
    kassert (result ≠ 0) "vn != NULL"
    return (result, ret, v)
  | (_, some vn, v) =>
    let result := env.vopOpen vn openflags
    if result ≠ 0 then return (result, ret, ← v.decref vn)
    let v := v.incopen vn
    let result := vfsTruncate env openflags vn
    if result ≠ 0 then return (result, ret, ← (← v.decopen vn).decref vn)
    return (0, some vn, v)

def vfsClose (vn : Vnode) (v : Vnodes) : Kernel Vnodes := do
  (← v.decopen vn).decref vn

/-- The answer of the file system to the search for the file. -/
def VfsEnv.found (env : VfsEnv) (openflags : Word32) : Errno × Vnode :=
  if openflags &&& oCreat ≠ 0 then
    if env.lookparent.1 ≠ 0 then env.lookparent
    else env.creat env.lookparent.2 (openflags &&& oExcl ≠ 0)
  else env.lookup

/-- The result of `vfs_open`. -/
def VfsEnv.result (env : VfsEnv) (openflags : Word32) : Errno :=
  if openflags &&& oAccmode = 3 then eInval
  else if (env.found openflags).1 ≠ 0 then (env.found openflags).1
  else if env.vopOpen (env.found openflags).2 openflags ≠ 0 then
    env.vopOpen (env.found openflags).2 openflags
  else vfsTruncate env openflags (env.found openflags).2

theorem Vnodes.decref_incref (v : Vnodes) (vn : Vnode) : (v.incref vn).decref vn = .ok v := by
  simp [decref, incref, kassert]

theorem Vnodes.decref_incref_incref (v : Vnodes) (dir vn : Vnode) :
    ((v.incref dir).incref vn).decref dir = .ok (v.incref vn) := by
  by_cases same : vn = dir
  · subst same
    exact Vnodes.decref_incref _ _
  · have counted : ((v.incref dir).incref vn).refcount dir = v.refcount dir + 1 := by
      simp [incref, update_of_ne (Ne.symm same)]
    have restored : update ((v.incref dir).incref vn).refcount dir (v.refcount dir) =
        (v.incref vn).refcount := by
      simp [incref, update_of_ne same, update_comm same]
    simp [decref, counted, restored]
    rfl

theorem Vnodes.decopen_incopen (v : Vnodes) (vn : Vnode) : (v.incopen vn).decopen vn = .ok v := by
  simp [decopen, incopen, kassert]

theorem vfsFind_eq (env : VfsEnv) (flags : Word32) (v : Vnodes) :
    vfsFind env flags v =
      if (env.found flags).1 ≠ 0 then .ok ((env.found flags).1, none, v)
      else .ok (0, some (env.found flags).2, v.incref (env.found flags).2) := by
  unfold vfsFind VfsEnv.found
  by_cases create : flags &&& oCreat ≠ 0
  · simp only [if_pos create]
    by_cases missing : env.lookparent.1 ≠ 0
    · simp [missing]
    · simp only [if_neg missing]
      by_cases refused : (env.creat env.lookparent.2 (flags &&& oExcl ≠ 0)).1 ≠ 0
      · simp only [if_pos refused, Vnodes.decref_incref, ok_bind, pure_ok]
      · simp only [if_neg refused, Vnodes.decref_incref_incref, ok_bind, pure_ok]
  · simp only [if_neg create]
    by_cases missing : env.lookup.1 ≠ 0
    · simp [missing]
    · simp [missing]

theorem vfsOpen_eq (env : VfsEnv) (flags : Word32) (ret : Option Vnode) (v : Vnodes) :
    vfsOpen env flags ret v =
      if env.result flags = 0 then
        .ok (0, some (env.found flags).2,
          (v.incref (env.found flags).2).incopen (env.found flags).2)
      else .ok (env.result flags, ret, v) := by
  unfold vfsOpen VfsEnv.result
  by_cases mode : flags &&& oAccmode = 3
  · simp only [if_pos mode]
    rfl
  · simp only [if_neg mode, vfsFind_eq]
    by_cases missing : (env.found flags).1 ≠ 0
    · simp [missing, kassert]
    · simp only [if_neg missing, ok_bind]
      by_cases refused : env.vopOpen (env.found flags).2 flags ≠ 0
      · simp [refused, Vnodes.decref_incref]
      · simp only [if_neg refused]
        by_cases failed : vfsTruncate env flags (env.found flags).2 = 0
        · simp [failed]
        · simp [Vnodes.decopen_incopen, Vnodes.decref_incref]

end Os161.File

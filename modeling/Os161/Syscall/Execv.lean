import Os161.File.Vfs
import Os161.Syscall.UserCopies
import Os161.Syscall.UserPointers

namespace Os161.Syscall
open Word Vm File Outcome Strings

abbrev eIsDir : Errno := 18

abbrev pathMax : Word32 := 1024

abbrev argMax : Word32 := 65536

abbrev nargMax : Nat := 1024

/-- `sizeof(ARG_MAX)`, the size of an `int`, is what `sys_execv` allocates for the strings. -/
abbrev bufferBytes : Nat := 4

/-- The memory of a program before its first access: every page is loaded by its first fault, which finds
a frame, and a page that cannot be loaded is unreadable. -/
def newMemory (files : Files) (as : AddrSpace) : UserMem where
  cell address :=
    let page := pageMask (BitVec.ofNat 32 address)
    match as.locate page with
    | none => none
    | some (region, vpn) =>
      let load := regionLoad files as region vpn page
      if load.code ≠ 0 then none else some (load.data.getD (address % pageSize) 0)
  writable address :=
    match as.locate (pageMask (BitVec.ofNat 32 address)) with
    | none => false
    | some (region, _) => as.flag region &&& 2 ≠ 0

/-- The first access to the address reads its page from a file to which no reference is left. -/
def fileClosed (as : AddrSpace) (vnodes : Vnodes) (address : Nat) : Bool :=
  match as.locate (pageMask (BitVec.ofNat 32 address)) with
  | none => false
  | some (region, vpn) => vnodes.refcount as.vn = 0 ∧ as.InFile vpn region

/-- `vnode_check` in the `VOP_READ` of the faults at these addresses. -/
def vnodeCheck (closed : Nat → Bool) (touched : List Nat) : Kernel Unit :=
  if touched.any closed then .error (.message "vnode_check: vop_read: zero refcount\n") else .ok ()

/-- The kernel objects that `sys_execv` allocates. -/
inductive Block where
  | path
  | space
  | buffer
  | offsets
deriving DecidableEq, Repr

/-- What `sys_execv` changes in the kernel: the objects that it has allocated and not released, whether
the new address space is installed, the vnodes and the page allocator. -/
structure ExecState where
  blocks : List Block
  installed : Bool
  vnodes : Vnodes
  core : CoreState

def ExecState.allocate (s : ExecState) (block : Block) : ExecState :=
  { s with blocks := block :: s.blocks }

def ExecState.release (s : ExecState) (block : Block) : ExecState :=
  { s with blocks := s.blocks.erase block }

/-- What the call finds: whether `kmalloc` has memory for the path, the strings and the offsets, the file
system, the memory of `as_create`, and the contents of the string buffer and of the uninitialised
`karg` and `alen`. -/
structure ExecEnv where
  path : Bool
  buffer : Bool
  offsets : Bool
  vfs : VfsEnv
  files : Files
  heap : HeapReply
  contents : Nat → Byte
  karg : Vaddr
  alen : Word32

/-- `sys_execv` returns an error number or sets `errno` and returns -1. -/
inductive ExecReply where
  | code (code : Errno)
  | minusOne (errno : Errno)
deriving DecidableEq, Repr

/-- The new program when it starts, with how far the kernel has written into the string buffer. -/
structure Started where
  argc : Nat
  argv : Vaddr
  stackptr : Vaddr
  entrypoint : Vaddr
  mem : UserMem
  extent : Nat

inductive ExecOutcome where
  | returned (reply : ExecReply) (s : ExecState)
  | started (program : Started) (s : ExecState)

/-- The variables of the loop that copies the arguments in. `bufend` is an offset in the buffer. -/
structure ArgState where
  args : Vaddr
  karg : Vaddr
  alen : Word32
  bufend : Word32
  resid : Word32
  offsets : List Word32
  buffer : Nat → Byte
  extent : Nat

/-- The bytes of a pointer in memory. -/
def wordBytes (word : Word32) : List Byte := encode (halves word)

/-- `karg` after `copyin`, which may have copied only some of its bytes. -/
def ArgState.fetchKarg (s : ArgState) (mem : UserMem) : Vaddr :=
  let moved := (copyin mem s.args 4).2
  be32 (moved ++ (wordBytes s.karg).drop moved.length) 0

/-- The state after one string. The results of `copyin` and `copyinstr` are ignored. -/
def ArgState.copyString (s : ArgState) (mem : UserMem) (karg : Vaddr) : ArgState :=
  let (_, bytes, actual) := copyinstr mem karg s.resid
  let alen := actual.getD s.alen
  { args := s.args + 4
    karg := karg
    alen := alen
    bufend := s.bufend + alen
    resid := s.resid - alen
    offsets := s.offsets ++ [argMax - s.resid]
    buffer := Bytes.store s.bufend.toNat bytes s.buffer
    extent := if bytes = [] then s.extent else max s.extent (s.bufend.toNat + bytes.length) }

/-- The loop that copies the arguments in. -/
def argLoop (mem : UserMem) (closed : Nat → Bool) : (remaining : Nat) → ArgState → Kernel ArgState
  | 0, s => .ok s
  | remaining + 1, s => do
    vnodeCheck closed (Traced.copyin mem s.args 4).touched
    let karg := s.fetchKarg mem
    if karg = 0 then return { s with karg := karg }
    vnodeCheck closed (Traced.copyinstr mem karg s.resid).touched
    argLoop mem closed remaining (s.copyString mem karg)

/-- The loop that copies the pointers out. -/
def pointerLoop (mem : UserMem) (argbase uargs : Vaddr) : List Word32 → UserMem
  | [] => (copyout mem (wordBytes 0) uargs).2
  | offset :: rest =>
    pointerLoop (copyout mem (wordBytes (argbase + offset)) uargs).2 argbase (uargs + 4) rest

/-- The addresses that this loop touches. -/
def pointersTouched (mem : UserMem) (uargs : Vaddr) : (count : Nat) → List Nat
  | 0 => []
  | count + 1 => (Traced.copyout mem (fun _ => 0) uargs 4).touched ++ pointersTouched mem (uargs + 4) count

/-- The variables before the loop. -/
def ExecEnv.argStart (env : ExecEnv) (args : Vaddr) : ArgState where
  args := args
  karg := env.karg
  alen := env.alen
  bufend := 0
  resid := argMax
  offsets := []
  buffer := env.contents
  extent := 0

/-- `sys_execv` behind its allocations. -/
def copyArguments (env : ExecEnv) (mem : UserMem) (closed : Nat → Bool) (args stackptr entrypoint : Vaddr) :
    Kernel Started := do
  let s ← argLoop mem closed nargMax (env.argStart args)
  let stack := stackptr - s.bufend
  let argbase := stack - (stack &&& 3)
  vnodeCheck closed (Traced.copyout mem s.buffer argbase s.bufend).touched
  let mem := (copyout mem ((List.range s.bufend.toNat).map s.buffer) argbase).2
  let stack := argbase - (BitVec.ofNat 32 s.offsets.length + 1) * 4
  vnodeCheck closed (pointersTouched mem stack (s.offsets.length + 1))
  return { argc := s.offsets.length
           argv := stack
           stackptr := stack
           entrypoint := entrypoint
           mem := pointerLoop mem argbase stack s.offsets
           extent := s.extent }

/-- The checks of the two pointers apply to a process with an address space. -/
def execvRefuses (as : Option AddrSpace) (addr : Vaddr) : Bool :=
  match as with
  | none => false
  | some as => Procops.validAddressCheck as addr = false

/-- `copyinstr` of the path. Without memory for the path its first store faults at the null pointer. -/
def execvPath (env : ExecEnv) (old : UserMem) (progname : Vaddr) : Errno × List Byte :=
  if env.path = false then (eFault, [])
  else
    let (result, bytes, _) := copyinstr old progname pathMax
    (result, bytes)

/-- `sys_execv` behind the path and `vfs_open`. The old address space is replaced before `load_elf`, and
the file is closed before its pages are read. -/
def execvLoad (env : ExecEnv) (args : Vaddr) (vn : Vnode) (s : ExecState) : Kernel ExecOutcome := do
  match ← asCreate env.heap with
  | none =>
    let vnodes ← vfsClose vn s.vnodes
    return .returned (.code eNoMem) { s with vnodes := vnodes }
  | some new =>
    let s := { s.allocate .space with installed := true }
    let (result, entrypoint, space, core) ← loadElf env.files vn new s.core
    let vnodes ← vfsClose vn s.vnodes
    let s := { s with vnodes := vnodes, core := core }
    match result, entrypoint with
    | 0, some entrypoint =>
      -- `as_define_stack` returns 0
      let s := s.release .path
      if env.buffer = false then return .returned (.minusOne eNoMem) s
      let s := s.allocate .buffer
      if env.offsets = false then return .returned (.minusOne eNoMem) s
      let s := s.allocate .offsets
      -- the first access to the new memory runs the assertions of `vm_fault`
      space.check
      let program ← copyArguments env (newMemory env.files space) (fileClosed space vnodes) args userStack entrypoint
      return .started program ((s.release .buffer).release .offsets)
    | result, _ => return .returned (.code result) s

/-- `sys_execv` in a process with the given address space and memory. -/
def sysExecv (env : ExecEnv) (as : Option AddrSpace) (old : UserMem) (progname args : Vaddr)
    (s : ExecState) : Kernel ExecOutcome := do
  let s := if env.path then s.allocate .path else s
  if execvRefuses as args then return .returned (.minusOne eFault) s
  if execvRefuses as progname then return .returned (.minusOne eFault) s
  let (result, path) := execvPath env old progname
  if result ≠ 0 then return .returned (.code result) s
  if path.head? = some 0 then return .returned (.minusOne eIsDir) s
  let (result, v, vnodes) ← vfsOpen env.vfs 0 none s.vnodes
  let s := { s with vnodes := vnodes }
  match v with
  | none => return .returned (.code result) s
  | some vn => execvLoad env args vn s

/-- The process has its address space and the kernel its objects and counts of before. -/
structure ExecState.Restored (after before : ExecState) : Prop where
  blocks : after.blocks = before.blocks
  installed : after.installed = before.installed
  vnodes : after.vnodes = before.vnodes

/-- What a failed `sys_execv` leaves: it allocated nothing, it leaks the path, or it has replaced the
address space and keeps the new one. The counts of the vnodes are always given back. -/
inductive FailedExec (env : ExecEnv) (before after : ExecState) : Prop where
  | untouched (path : env.path = false) (same : after = before)
  | leaked (path : env.path = true) (blocks : after.blocks = .path :: before.blocks)
      (installed : after.installed = before.installed) (vnodes : after.vnodes = before.vnodes)
  | replaced (path : env.path = true) (space : .space ∈ after.blocks)
      (installed : after.installed = true) (vnodes : after.vnodes = before.vnodes)

theorem vfsClose_opened (vn : Vnode) (v : Vnodes) :
    vfsClose vn ((v.incref vn).incopen vn) = .ok v := by
  simp only [vfsClose, Vnodes.decopen_incopen, Vnodes.decref_incref, ok_bind]

theorem execvLoad_returned {env : ExecEnv} {prev s : ExecState} (path : env.path = true)
    (blocks : s.blocks = .path :: prev.blocks) (installed : s.installed = prev.installed)
    (opened : s.vnodes = (prev.vnodes.incref vn).incopen vn)
    (ran : execvLoad env args vn s = .ok (.returned reply after)) : FailedExec env prev after := by
  obtain ⟨made, _, went⟩ := bind_ok.mp ran
  cases made with
  | none =>
    simp only [opened, vfsClose_opened] at went
    cases went
    exact .leaked path blocks installed rfl
  | some new =>
    obtain ⟨⟨res, entrypoint, space, core⟩, _, rest⟩ := bind_ok.mp went
    simp only [ExecState.allocate, opened, vfsClose_opened, ok_bind] at rest
    split at rest
    · -- the path is released here, and the remaining failures are those of the two `kmalloc` calls
      split at rest
      · cases rest
        exact .replaced path (by simp [ExecState.release]) rfl rfl
      · split at rest
        · cases rest
          exact .replaced path (by simp [ExecState.release]) rfl rfl
        · obtain ⟨_, _, checked⟩ := bind_ok.mp rest
          obtain ⟨_, _, entered⟩ := bind_ok.mp checked
          cases entered
    · cases rest
      exact .replaced path (by simp) rfl rfl

theorem sysExecv_returned
    (ran : sysExecv env as old progname args prev = .ok (.returned reply after)) :
    FailedExec env prev after := by
  cases path : env.path with
  | false =>
    -- without memory for the path `copyinstr` fails at the latest
    simp only [sysExecv, execvPath, path] at ran
    split at ran
    · cases ran
      exact .untouched path rfl
    · split at ran
      · cases ran
        exact .untouched path rfl
      · cases ran
        exact .untouched path rfl
  | true =>
    have leaked : FailedExec env prev (prev.allocate .path) := .leaked path rfl rfl rfl
    simp only [sysExecv] at ran
    split at ran
    · cases ran
      exact leaked
    · split at ran
      · cases ran
        exact leaked
      · split at ran
        · cases ran
          exact leaked
        · split at ran
          · cases ran
            exact leaked
          · rw [vfsOpen_eq] at ran
            split at ran
            · refine execvLoad_returned path ?_ ?_ ?_ ran
              · rfl
              · rfl
              · rfl
            · cases ran
              exact leaked

/-- A failed `sys_execv` changes nothing exactly when it had no memory for the path. -/
theorem failed_execv_restores_iff (env : ExecEnv) (as : Option AddrSpace) (old : UserMem)
    (progname args : Vaddr) (before after : ExecState) (reply : ExecReply)
    (original : before.installed = false)
    (returned : sysExecv env as old progname args before = .ok (.returned reply after)) :
    after.Restored before ↔ env.path = false := by
  constructor
  · intro restored
    cases sysExecv_returned returned with
    | untouched path _ => exact path
    | leaked _ blocks _ _ => exact absurd (blocks.symm.trans restored.blocks) (by simp)
    | replaced _ _ installed _ =>
      exact absurd (installed.symm.trans (restored.installed.trans original)) (by simp)
  · intro empty
    cases sysExecv_returned returned with
    | untouched _ same => exact ⟨congrArg _ same, congrArg _ same, congrArg _ same⟩
    | leaked path _ _ _ | replaced path _ _ _ => exact absurd (empty.symm.trans path) (by simp)

/-- A memory of zeros with a path of one letter at the start of the code. -/
def pathMemory : UserMem where
  cell address := some (if address = 0x400000 then 112 else 0)
  writable _ := true

/-- A call on a file with the given contents for which all memory is found. -/
def execOf (contents : List Byte) : ExecEnv where
  path := true
  buffer := true
  offsets := true
  vfs := { lookparent := (0, 1), creat := fun _ _ => (0, 0), lookup := (0, 0), vopOpen := fun _ _ => 0
           truncate := fun _ => 0 }
  files := fileOf contents
  heap := { block := some newSpace, stackTable := true }
  contents := fun _ => 0
  karg := 0
  alen := 0

/-- The kernel before a call of a process that runs its own address space. -/
def execStart : ExecState where
  blocks := []
  installed := false
  vnodes := { refcount := fun _ => 0, opencount := fun _ => 0 }
  core := booted eightFrames fun _ => 0

theorem failed_execv_restores_noPath :
    sysExecv { execOf smallElf with path := false } (some smallLoaded.1) pathMemory 0x400000 0x7fffff00
        execStart = .ok (.returned (.code eFault) execStart) ∧
      execStart.Restored execStart := by
  have returned : sysExecv { execOf smallElf with path := false } (some smallLoaded.1) pathMemory
      0x400000 0x7fffff00 execStart = .ok (.returned (.code eFault) execStart) := rfl
  exact ⟨returned, (failed_execv_restores_iff _ _ _ _ _ _ _ _ rfl returned).mpr rfl⟩

/-- After a failed `load_elf` the process has the new address space. -/
theorem failed_execv_replaces :
    ∃ after, sysExecv (execOf []) (some smallLoaded.1) pathMemory 0x400000 0x7fffff00 execStart =
        .ok (.returned (.code eNoExec) after) ∧
      after.installed = true ∧ after.blocks = [.space, .path] ∧ ¬ after.Restored execStart := by
  refine ⟨_, rfl, rfl, rfl, ?_⟩
  intro restored
  exact absurd restored.installed (by decide)

end Os161.Syscall

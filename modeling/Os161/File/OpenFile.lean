import Os161.File.Vfs
import Os161.Syscall.UserPointers

namespace Os161.File
open Word Vm Outcome Syscall Function

abbrev eNoEnt : Errno := 19
abbrev eExist : Errno := 22
abbrev eMfile : Errno := 28
abbrev eBadf : Errno := 30

abbrev maxFdTable : Nat := 64

/-- A pointer to a `struct fd`, by the number of its allocation. -/
abbrev FdRef := Nat

/-- `struct fd` without its lock, which no call takes. -/
structure Fd where
  fileFlag : Word32
  filename : Vaddr
  file : Vnode
  offset : Int
  buflen : Word32
deriving DecidableEq

/-- `fd_table` and `open_num` of a process. -/
structure Descriptors where
  fdTable : Nat → Option FdRef
  openNum : Nat

/-- The vnodes and the allocated descriptors of the kernel. -/
structure FileState where
  vnodes : Vnodes
  fds : FdRef → Option Fd
  allocated : Nat

/-- What a file call returns. A failed call sets `errno` and returns -1. -/
inductive FileReply where
  | failed (code : Errno)
  | returned (value : Nat)
deriving DecidableEq, Repr

/-- The arguments of `sys_open` and what the call finds: the file system, the contents of the
uninitialised `new_file` and whether `kmalloc` has a block for the descriptor. -/
structure OpenCall where
  filename : Vaddr
  flag : Word32
  vfs : VfsEnv
  stray : Option Vnode
  block : Bool

/-- The checks of the arguments in `sys_open`. -/
def OpenCall.argumentError (call : OpenCall) (as : AddrSpace) : Option Errno :=
  if call.filename = 0 ∨ Filesystem.validAddressCheck as call.filename = false then some eFault
  else if 94 < call.flag.toInt ∨ call.flag.toInt.tmod 4 = 3 ∨ call.flag &&& oAppend ≠ 0 then
    some eInval
  else none

/-- The checks of `sys_open` behind `vfs_open`. -/
def openError (ret : Errno) (flag : Word32) : Option Errno :=
  if ret = 0 then
    if flag &&& oCreat ≠ 0 ∧ flag &&& oExcl ≠ 0 then some eExist else none
  else if flag &&& ~~~oCreat ≠ 0 then some eNoEnt
  else none

/-- The search for an empty slot has no bound, so a full table sends it off the end. -/
def findSlot (fdTable : Nat → Option FdRef) : (remaining fileHandle : Nat) → Kernel Nat
  | 0, fileHandle => .error (.badIndex fileHandle)
  | remaining + 1, fileHandle =>
    if fdTable fileHandle ≠ none then findSlot fdTable remaining (fileHandle + 1)
    else .ok fileHandle

/-- `create_fd` does not check its allocation. -/
def createFd (call : OpenCall) (vn : Option Vnode) (f : FileState) : Kernel (FdRef × FileState) :=
  if call.block = false then .error .nullPointer
  else
    match vn with
    | none => .error (.assertion "vn != NULL")
    | some vn =>
      let fd := { fileFlag := call.flag, filename := call.filename, file := vn, offset := 0, buflen := 0 }
      .ok (f.allocated,
        { f with fds := update f.fds f.allocated (some fd), allocated := f.allocated + 1 })

def sysOpen (call : OpenCall) (as : AddrSpace) (d : Descriptors) (f : FileState) :
    Kernel (FileReply × Descriptors × FileState) := do
  match call.argumentError as with
  | some code => return (.failed code, d, f)
  | none =>
    if d.openNum < maxFdTable then
      let (ret, newFile, vnodes) ← vfsOpen call.vfs call.flag call.stray f.vnodes
      let d := { d with openNum := d.openNum + 1 }
      let f := { f with vnodes := vnodes }
      match openError ret call.flag with
      | some code => return (.failed code, d, f)
      | none =>
        let fileHandle ← findSlot d.fdTable (maxFdTable - 3) 3
        let (fd, f) ← createFd call newFile f
        return (.returned fileHandle,
          { d with fdTable := update d.fdTable fileHandle (some fd) }, f)
    -- `create` is still false here
    else return (.failed eMfile, d, f)

/-- An access to a descriptor. `kfree` fills it with a pattern that is no address, so that a use of its
file stops the kernel. -/
def FileState.fetch (f : FileState) (ref : FdRef) : Kernel Fd :=
  match f.fds ref with
  | none => .error (.message "Fatal exception in kernel mode")
  | some fd => .ok fd

def sysClose (fd : Int) (d : Descriptors) (f : FileState) :
    Kernel (FileReply × Descriptors × FileState) := do
  if fd < 0 ∨ maxFdTable ≤ fd then return (.failed eBadf, d, f)
  match d.fdTable fd.toNat with
  | none => return (.failed eBadf, d, f)
  | some ref =>
    let descriptor ← f.fetch ref
    let vnodes ← vfsClose descriptor.file f.vnodes
    return (.returned 0, { d with fdTable := update d.fdTable fd.toNat none },
      { f with vnodes := vnodes, fds := update f.fds ref none })

/-- The first empty slot from 3 on. -/
structure FirstFree (fdTable : Nat → Option FdRef) (handle : Nat) : Prop where
  low : 3 ≤ handle
  high : handle < maxFdTable
  free : fdTable handle = none
  first : ∀ slot, 3 ≤ slot → slot < handle → fdTable slot ≠ none

/-- A slot for files is empty. -/
def Descriptors.HasFree (d : Descriptors) : Prop :=
  ∃ slot, 3 ≤ slot ∧ slot < maxFdTable ∧ d.fdTable slot = none

theorem findSlot_ok {fdTable : Nat → Option FdRef} :
    findSlot fdTable todo start = .ok handle ↔ start ≤ handle ∧ handle < start + todo ∧
      fdTable handle = none ∧ ∀ slot, start ≤ slot → slot < handle → fdTable slot ≠ none := by
  induction todo generalizing start with
  | zero =>
    refine iff_of_false (by simp [findSlot]) ?_
    rintro ⟨low, high, _⟩
    omega
  | succ todo ih =>
    unfold findSlot
    by_cases taken : fdTable start ≠ none
    · rw [if_pos taken, ih]
      constructor
      · rintro ⟨low, high, free, first⟩
        refine ⟨by omega, by omega, free, fun slot above below => ?_⟩
        obtain rfl | later := Nat.eq_or_lt_of_le above
        · exact taken
        · exact first slot later below
      · rintro ⟨low, high, free, first⟩
        have other : start ≠ handle := by
          rintro rfl
          exact taken free
        exact ⟨by omega, by omega, free, fun slot above below => first slot (by omega) below⟩
    · rw [if_neg taken]
      have empty := not_not.mp taken
      constructor
      · rintro ⟨⟩
        exact ⟨Nat.le_refl _, by omega, empty, fun slot above below => by omega⟩
      · rintro ⟨low, _, _, first⟩
        obtain rfl | later := Nat.eq_or_lt_of_le low
        · rfl
        · exact absurd empty (first start (Nat.le_refl _) later)

theorem findSlot_firstFree : findSlot fdTable (maxFdTable - 3) 3 = .ok handle ↔ FirstFree fdTable handle := by
  rw [findSlot_ok]
  constructor
  · rintro ⟨low, high, free, first⟩
    exact ⟨low, high, free, first⟩
  · intro found
    exact ⟨found.low, found.high, found.free, found.first⟩

theorem Descriptors.hasFree_iff (d : Descriptors) : d.HasFree ↔ ∃ handle, FirstFree d.fdTable handle := by
  constructor
  · intro free
    classical
    obtain ⟨low, high, empty⟩ := Nat.find_spec free
    refine ⟨Nat.find free, low, high, empty, fun slot above below taken => ?_⟩
    exact Nat.find_min free below ⟨above, by omega, taken⟩
  · rintro ⟨handle, found⟩
    exact ⟨handle, found.low, found.high, found.free⟩

/-- `new_file` behind `vfs_open`. -/
def OpenCall.newFile (call : OpenCall) : Option Vnode :=
  if call.vfs.result call.flag = 0 then some (call.vfs.found call.flag).2 else call.stray

/-- The vnodes behind `vfs_open`. -/
def OpenCall.vnodesAfter (call : OpenCall) (v : Vnodes) : Vnodes :=
  if call.vfs.result call.flag = 0 then
    (v.incref (call.vfs.found call.flag).2).incopen (call.vfs.found call.flag).2
  else v

theorem OpenCall.vfsOpen_eq (call : OpenCall) (v : Vnodes) :
    vfsOpen call.vfs call.flag call.stray v =
      .ok (call.vfs.result call.flag, call.newFile, call.vnodesAfter v) := by
  rw [File.vfsOpen_eq, OpenCall.newFile, OpenCall.vnodesAfter]
  split
  · rename_i opened
    rw [opened]
  · rfl

/-- The descriptor that `create_fd` fills. -/
def OpenCall.descriptor (call : OpenCall) (vn : Vnode) : Fd where
  fileFlag := call.flag
  filename := call.filename
  file := vn
  offset := 0
  buflen := 0

/-- The four ways in which `sys_open` returns. -/
inductive OpenEffect (call : OpenCall) (as : AddrSpace) (d : Descriptors) (f : FileState) :
    FileReply → Descriptors → FileState → Prop where
  | refused (error : call.argumentError as = some code) : OpenEffect call as d f (.failed code) d f
  | full (passed : call.argumentError as = none) (full : maxFdTable ≤ d.openNum) :
      OpenEffect call as d f (.failed eMfile) d f
  | failed (passed : call.argumentError as = none) (room : d.openNum < maxFdTable)
      (error : openError (call.vfs.result call.flag) call.flag = some code) :
      OpenEffect call as d f (.failed code) { d with openNum := d.openNum + 1 }
        { f with vnodes := call.vnodesAfter f.vnodes }
  | opened (passed : call.argumentError as = none) (room : d.openNum < maxFdTable)
      (proceeds : openError (call.vfs.result call.flag) call.flag = none)
      (slot : FirstFree d.fdTable handle) (block : call.block = true) (file : call.newFile = some vn) :
      OpenEffect call as d f (.returned handle)
        { fdTable := update d.fdTable handle (some f.allocated), openNum := d.openNum + 1 }
        { vnodes := call.vnodesAfter f.vnodes
          fds := update f.fds f.allocated (some (call.descriptor vn))
          allocated := f.allocated + 1 }

theorem createFd_ok :
    createFd call vn f = .ok (fd, after) ↔ call.block = true ∧ ∃ file, vn = some file ∧
      fd = f.allocated ∧ after = { f with
        fds := update f.fds f.allocated (some (call.descriptor file))
        allocated := f.allocated + 1 } := by
  unfold createFd
  by_cases block : call.block = false
  · simp [block]
  · cases vn with
    | none => simp [block]
    | some file =>
      simp only [Bool.eq_true_of_not_eq_false block, true_and]
      constructor
      · rintro ⟨⟩
        exact ⟨file, rfl, rfl, rfl⟩
      · rintro ⟨_, ⟨⟩, rfl, rfl⟩
        rfl

theorem sysOpen_ok :
    sysOpen call as d f = .ok (reply, next, after) ↔ OpenEffect call as d f reply next after := by
  unfold sysOpen
  rw [call.vfsOpen_eq]
  constructor
  · intro ran
    split at ran
    · rename_i code error
      cases ran
      exact .refused error
    · rename_i passed
      split at ran
      · rename_i room
        simp only [ok_bind] at ran
        split at ran
        · rename_i code error
          cases ran
          exact .failed passed room error
        · rename_i proceeds
          obtain ⟨handle, found, created⟩ := bind_ok.mp ran
          obtain ⟨⟨fd, heap⟩, made, same⟩ := bind_ok.mp created
          obtain ⟨block, file, newFile, rfl, rfl⟩ := createFd_ok.mp made
          cases same
          exact .opened passed room proceeds (findSlot_firstFree.mp found) block newFile
      · rename_i full
        cases ran
        exact .full passed (Nat.le_of_not_lt full)
  · intro effect
    cases effect with
    | refused error => simp only [error, pure_ok]
    | full passed full => simp only [passed, if_neg (Nat.not_lt.mpr full), pure_ok]
    | failed passed room error => simp only [passed, if_pos room, ok_bind, error, pure_ok]
    | opened passed room proceeds slot block file =>
      simp only [passed, if_pos room, ok_bind, proceeds, findSlot_firstFree.mpr slot]
      rw [createFd_ok.mpr ⟨block, _, file, rfl, rfl⟩]
      rfl

theorem FileState.fetch_ok {f : FileState} : f.fetch ref = .ok fd ↔ f.fds ref = some fd := by
  unfold fetch
  cases f.fds ref <;> simp

/-- `sys_close` fails, or it frees the descriptor and empties its slot. -/
inductive CloseEffect (fd : Int) (d : Descriptors) (f : FileState) :
    FileReply → Descriptors → FileState → Prop where
  | failed (bad : fd < 0 ∨ maxFdTable ≤ fd ∨ d.fdTable fd.toNat = none) :
      CloseEffect fd d f (.failed eBadf) d f
  | closed (low : 0 ≤ fd) (high : fd < maxFdTable) (held : d.fdTable fd.toNat = some ref)
      (allocated : f.fds ref = some descriptor) (closed : vfsClose descriptor.file f.vnodes = .ok vnodes) :
      CloseEffect fd d f (.returned 0) { d with fdTable := update d.fdTable fd.toNat none }
        { f with vnodes := vnodes, fds := update f.fds ref none }

theorem sysClose_ok : sysClose fd d f = .ok (reply, next, after) ↔ CloseEffect fd d f reply next after := by
  unfold sysClose
  constructor
  · intro ran
    split at ran
    · rename_i out
      cases ran
      exact .failed (out.imp_right .inl)
    · rename_i inside
      split at ran
      · rename_i empty
        cases ran
        exact .failed (.inr (.inr empty))
      · rename_i ref held
        obtain ⟨descriptor, fetched, went⟩ := bind_ok.mp ran
        obtain ⟨vnodes, closed, same⟩ := bind_ok.mp went
        cases same
        exact .closed (by omega) (by omega) held (FileState.fetch_ok.mp fetched) closed
  · intro effect
    cases effect with
    | failed bad =>
      by_cases out : fd < 0 ∨ (maxFdTable : Int) ≤ fd
      · rw [if_pos out]
        rfl
      · obtain ⟨low, high⟩ := not_or.mp out
        have empty := (bad.resolve_left low).resolve_left high
        rw [if_neg out, empty]
        rfl
    | closed low high held allocated closed =>
      rw [if_neg (by omega)]
      simp only [held, FileState.fetch_ok.mpr allocated, closed, ok_bind, pure_ok]

theorem openError_none :
    openError ret flag = none ↔ (ret = 0 → ¬ (flag &&& oCreat ≠ 0 ∧ flag &&& oExcl ≠ 0)) ∧
      (ret ≠ 0 → flag &&& ~~~oCreat = 0) := by
  unfold openError
  by_cases opened : ret = 0
  · simp [opened]
  · simp [opened]

/-- `sys_open` returns a handle for the vnode of `vfs_open` exactly when `vfs_open` returns 0, and
changes no slot and no count otherwise. -/
def FollowsVfs (call : OpenCall) (as : AddrSpace) (d : Descriptors) (f : FileState) (ret : Errno)
    (newFile : Option Vnode) : Prop :=
  ∃ reply next after, sysOpen call as d f = .ok (reply, next, after) ∧
    ((∃ handle, reply = .returned handle) ↔ ret = 0) ∧
    (∀ handle, reply = .returned handle → ∃ ref fd, next.fdTable handle = some ref ∧
      after.fds ref = some fd ∧ newFile = some fd.file) ∧
    ∀ code, reply = .failed code → next.fdTable = d.fdTable ∧ after.vnodes = f.vnodes

/-- `sys_open` follows `vfs_open` exactly under these conditions on the call. -/
theorem open_follows_vfs_iff {call : OpenCall} {as : AddrSpace} {d : Descriptors} {f : FileState}
    (passed : call.argumentError as = none) (room : d.openNum < maxFdTable) {ret : Errno}
    {newFile : Option Vnode} {vnodes : Vnodes}
    (result : vfsOpen call.vfs call.flag call.stray f.vnodes = .ok (ret, newFile, vnodes)) :
    FollowsVfs call as d f ret newFile ↔
      (ret = 0 → ¬ (call.flag &&& oCreat ≠ 0 ∧ call.flag &&& oExcl ≠ 0) ∧ d.HasFree ∧
        call.block = true) ∧
      (ret ≠ 0 → call.flag &&& ~~~oCreat ≠ 0) := by
  rw [call.vfsOpen_eq] at result
  cases result
  constructor
  · rintro ⟨reply, next, after, returned, agrees, _, _⟩
    cases sysOpen_ok.mp returned with
    | refused error => cases passed.symm.trans error
    | full _ full => exact absurd room (Nat.not_lt.mpr full)
    | failed _ _ error =>
      have ret : call.vfs.result call.flag ≠ 0 := fun opened => by
        obtain ⟨_, ⟨⟩⟩ := agrees.mpr opened
      refine ⟨fun opened => absurd opened ret, fun _ => ?_⟩
      by_contra plain
      rw [openError_none.mpr ⟨fun opened => absurd opened ret, fun _ => plain⟩] at error
      cases error
    | opened _ _ proceeds slot block _ =>
      have ret := agrees.mp ⟨_, rfl⟩
      exact ⟨fun _ => ⟨(openError_none.mp proceeds).1 ret, d.hasFree_iff.mpr ⟨_, slot⟩, block⟩,
        fun failed => absurd ret failed⟩
  · rintro ⟨success, failure⟩
    by_cases opened : call.vfs.result call.flag = 0
    · obtain ⟨shared, free, block⟩ := success opened
      obtain ⟨handle, slot⟩ := d.hasFree_iff.mp free
      have proceeds : openError (call.vfs.result call.flag) call.flag = none :=
        openError_none.mpr ⟨fun _ => shared, fun failed => absurd opened failed⟩
      have file : call.newFile = some (call.vfs.found call.flag).2 := if_pos opened
      refine ⟨_, _, _, sysOpen_ok.mpr (.opened passed room proceeds slot block file), ?_, ?_, ?_⟩
      · exact iff_of_true ⟨handle, rfl⟩ opened
      · rintro _ ⟨⟩
        exact ⟨_, _, update_self .., update_self .., file⟩
      · rintro _ ⟨⟩
    · have error : openError (call.vfs.result call.flag) call.flag = some eNoEnt := by
        rw [openError, if_neg opened, if_pos (failure opened)]
      refine ⟨_, _, _, sysOpen_ok.mpr (.failed passed room error), ?_, ?_, ?_⟩
      · exact iff_of_false (by rintro ⟨_, ⟨⟩⟩) opened
      · rintro _ ⟨⟩
      · rintro _ _
        exact ⟨rfl, if_neg opened⟩

/-- A process without open files. -/
def Descriptors.empty : Descriptors where
  fdTable := fun _ => none
  openNum := 0

/-- The kernel before any file is opened. -/
def FileState.empty : FileState where
  vnodes := { refcount := fun _ => 0, opencount := fun _ => 0 }
  fds := fun _ => none
  allocated := 0

/-- The answers about a file with vnode 7. -/
def existingFile : VfsEnv where
  lookparent := (0, 1)
  creat := fun _ excl => if excl then (eExist, 0) else (0, 7)
  lookup := (0, 7)
  vopOpen := fun _ _ => 0
  truncate := fun _ => 0

/-- The answers about a name without a file, for which a creation makes vnode 7. -/
def missingFile : VfsEnv where
  lookparent := (0, 1)
  creat := fun _ _ => (0, 7)
  lookup := (eNoEnt, 0)
  vopOpen := fun _ _ => 0
  truncate := fun _ => 0

/-- A call of the small program, with the name in its data. -/
def smallOpen (flag : Word32) (vfs : VfsEnv) (stray : Option Vnode) : OpenCall where
  filename := 0x10000000
  flag := flag
  vfs := vfs
  stray := stray
  block := true

/-- Opening an existing file for reading succeeds with `vfs_open`. -/
theorem open_follows_vfs_existing :
    FollowsVfs (smallOpen 0 existingFile none) smallLoaded.1 .empty .empty 0 (some 7) := by
  refine (open_follows_vfs_iff (by decide) (by decide)
    ((smallOpen 0 existingFile none).vfsOpen_eq _)).mpr ⟨fun _ => ⟨by decide, ?_, rfl⟩, by decide⟩
  exact ⟨3, by decide, by decide, rfl⟩

/-- A successful `vfs_open` can fail here, and a failed one can succeed. -/
theorem open_departs_from_vfs :
    (∃ next after, sysOpen (smallOpen 14 missingFile none) smallLoaded.1 .empty .empty =
        .ok (.failed eExist, next, after) ∧
      missingFile.result 14 = 0 ∧ after.vnodes.refcount 7 = 1) ∧
    (∃ next after fd, sysOpen (smallOpen 0 missingFile (some 5)) smallLoaded.1 .empty .empty =
        .ok (.returned 3, next, after) ∧
      missingFile.result 0 = eNoEnt ∧ after.fds 0 = some fd ∧ fd.file = 5) ∧
    sysOpen (smallOpen 0 missingFile none) smallLoaded.1 .empty .empty =
      .error (.assertion "vn != NULL") :=
  ⟨⟨_, _, rfl, rfl, rfl⟩, ⟨_, _, _, rfl, rfl, rfl, rfl⟩, rfl⟩

end Os161.File

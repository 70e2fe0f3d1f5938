import Os161.File.VfsBalance
import Os161.File.Transfer

namespace Os161.File
open Vm Word Function

/-- What one call of `VOP_RECLAIM` does: it destroys the vnode, or it returns a result and leaves the
vnode as it is. -/
inductive Reclaimed where
  | destroyed
  | kept (result : Errno)
deriving DecidableEq

/-- The counts of every vnode, the vnodes that the kernel starts paths from, the depth of the big lock,
what the next calls of `VOP_RECLAIM` do and how often a file system was called. -/
structure CountState where
  refcount : Vnode → Nat
  opencount : Vnode → Nat
  cwd : Option Vnode
  bootfs : Option Vnode
  depth : Nat
  reclaims : List Reclaimed
  time : Nat

/-- The answers of the file systems, one for every call, and the file system of every vnode. -/
structure FsAnswers where
  vnode : Nat → Except Errno Vnode
  name : Nat → CString
  code : Nat → Errno
  fs : Vnode → Option Nat

namespace CountState

/-- The number of this call of a file system -/
def tick : Action CountState Nat :=
  fun s => .ok (s.time, { s with time := s.time + 1 })

def acquire : Action CountState Unit :=
  fun s => .ok ((), { s with depth := s.depth + 1 })

def release : Action CountState Unit := fun s => do
  kassert (0 < s.depth) "vfs_biglock_depth > 0"
  return ((), { s with depth := s.depth - 1 })

/-- `vnode_incref` -/
def incref (vn : Vnode) : Action CountState Unit :=
  fun s => .ok ((), { s with refcount := update s.refcount vn (s.refcount vn + 1) })

/-- `VOP_RECLAIM`, with `vnode_cleanup` for a vnode that is destroyed -/
def reclaim (vn : Vnode) : Action CountState Unit := fun s =>
  match s.reclaims with
  | .kept _ :: rest => return ((), { s with reclaims := rest })
  | _ => do
    kassert (s.opencount vn = 0) "vn->vn_opencount==0"
    return ((), { s with refcount := update s.refcount vn 0, reclaims := s.reclaims.tail })

/-- `vnode_decref` -/
def decref (vn : Vnode) : Action CountState Unit := fun s => do
  kassert (0 < s.refcount vn) "vn->vn_refcount>0"
  if 1 < s.refcount vn then
    return ((), { s with refcount := update s.refcount vn (s.refcount vn - 1) })
  else reclaim vn s

/-- `vnode_incopen` -/
def incopen (vn : Vnode) : Action CountState Unit :=
  fun s => .ok ((), { s with opencount := update s.opencount vn (s.opencount vn + 1) })

/-- `vnode_check`: an operation on a vnode without references stops the kernel. -/
def check (vn : Vnode) : Action CountState Unit := fun s =>
  if s.refcount vn = 0 then .error (.message "vnode_check: zero refcount") else .ok ((), s)

/-- An operation of the file system on the vnode, by its number -/
def operation (vn : Vnode) : Action CountState Nat := do
  check vn
  tick

/-- The decrement in `vnode_decopen` -/
def dropOpen (vn : Vnode) : Action CountState Bool := fun s => do
  kassert (0 < s.opencount vn) "vn->vn_opencount>0"
  return (1 < s.opencount vn,
    { s with opencount := update s.opencount vn (s.opencount vn - 1) })

/-- `vnode_decopen`; the result of `VOP_CLOSE` is only printed. -/
def decopen (vn : Vnode) : Action CountState Unit := do
  if ← dropOpen vn then return
  else
    let _ ← operation vn
    return

end CountState

namespace FsAnswers
open CountState

variable (env : FsAnswers)

/-- An answer that hands back a vnode counts a reference to it. -/
def handBack (time : Nat) : Action CountState (Except Errno Vnode) := do
  match env.vnode time with
  | .error result => return .error result
  | .ok vn =>
    incref vn
    return .ok vn

/-- A call whose only effect on the counts is the reference to the vnode that it hands back. -/
def lookup (dir : Vnode) : Action CountState (Except Errno Vnode) := do
  env.handBack (← operation dir)

/-- A call that leaves the counts alone. -/
def perform (vn : Vnode) : Action CountState Errno := do
  return env.code (← operation vn)

/-- `FSOP_GETROOT` does not fail. -/
def fsopGetroot : Action CountState Vnode := do
  match ← env.handBack (← tick) with
  | .ok vn => return vn
  | .error _ => throw (.message "sfs: getroot: Cannot load root vnode")

/-- The functions of the VFS layer with these answers of the file systems. -/
def calls : VfsCalls CountState Vnode where
  biglockAcquire := acquire
  biglockRelease := release
  biglockDoIHold := fun s => .ok (0 < s.depth, s)
  cwd := fun s => .ok (s.cwd, s)
  setCwd vn := fun s => .ok ((), { s with cwd := vn })
  bootfs := fun s => .ok (s.bootfs, s)
  setBootfs vn := fun s => .ok ((), { s with bootfs := vn })
  vnFs vn := return env.fs vn
  fsopGetroot _ := env.fsopGetroot
  getroot _ := do env.handBack (← tick)
  incref := incref
  decref := decref
  incopen := incopen
  decopen := decopen
  vopOpen vn _ := env.perform vn
  readlink := env.perform
  gettype vn := do
    let result ← env.perform vn
    return if result = 0 then .ok sIfdir else .error result
  truncate vn _ := env.perform vn
  creat dir _ _ _ := env.lookup dir
  symlink dir _ _ := env.perform dir
  mkdir dir _ _ := env.perform dir
  link dir _ _ := env.perform dir
  remove dir _ := env.perform dir
  rmdir dir _ := env.perform dir
  rename olddir _ _ _ := env.perform olddir
  lookup dir _ := env.lookup dir
  lookparent dir _ _ := do
    let time ← operation dir
    return (← env.handBack time).map (·, env.name time)

end FsAnswers

/-- A quantity that the calls must leave as it was -/
inductive Tally where
  | reference (vn : Vnode)
  | opening (vn : Vnode)
deriving DecidableEq

/-- The counts, and what the calls of `VOP_RECLAIM` do -/
def countLedger : Ledger CountState Tally Reclaimed where
  count s
    | .reference vn => s.refcount vn
    | .opening vn => s.opencount vn
  script := CountState.reclaims
  good answer := answer = .destroyed

/-- One reference to the vnode -/
def oneReference (vn : Vnode) : Tally → ℤ :=
  Pi.single (.reference vn) 1

/-- One opening of the vnode -/
def oneOpening (vn : Vnode) : Tally → ℤ :=
  Pi.single (.opening vn) 1

namespace CountState
open Ledger

theorem tick_shifts : countLedger.Shifts tick fun _ => 0 := by
  refine .of_unchanged fun first value last ran => ?_
  cases ran
  exact ⟨rfl, rfl⟩

theorem acquire_shifts : countLedger.Shifts acquire fun _ => 0 := by
  refine .of_unchanged fun first value last ran => ?_
  cases ran
  exact ⟨rfl, rfl⟩

theorem release_shifts : countLedger.Shifts release fun _ => 0 := by
  refine .of_unchanged fun first value last ran => ?_
  obtain ⟨-, ran⟩ := kassert_bind.mp ran
  cases ran
  exact ⟨rfl, rfl⟩

theorem check_shifts (vn : Vnode) : countLedger.Shifts (check vn) fun _ => 0 := by
  refine .of_unchanged fun first value last ran => ?_
  change (if first.refcount vn = 0 then _ else _) = _ at ran
  split_ifs at ran
  cases ran
  exact ⟨rfl, rfl⟩

theorem operation_shifts (vn : Vnode) : countLedger.Shifts (operation vn) fun _ => 0 :=
  (check_shifts vn).bind fun _ => tick_shifts.congr fun _ => by simp

theorem count_update_refcount (s : CountState) (vn : Vnode) (value : Nat)
    (sum : (value : ℤ) = s.refcount vn + k) (tally : Tally) :
    countLedger.count { s with refcount := update s.refcount vn value } tally =
      countLedger.count s tally + k * oneReference vn tally := by
  cases tally with
  | reference other =>
    by_cases same : other = vn
    · subst same
      simp [countLedger, oneReference, sum]
    · simp [countLedger, oneReference, same]
  | opening other => simp [countLedger, oneReference]

theorem count_update_opencount (s : CountState) (vn : Vnode) (value : Nat)
    (sum : (value : ℤ) = s.opencount vn + k) (tally : Tally) :
    countLedger.count { s with opencount := update s.opencount vn value } tally =
      countLedger.count s tally + k * oneOpening vn tally := by
  cases tally with
  | opening other =>
    by_cases same : other = vn
    · subst same
      simp [countLedger, oneOpening, sum]
    · simp [countLedger, oneOpening, same]
  | reference other => simp [countLedger, oneOpening]

theorem incref_shifts (vn : Vnode) : countLedger.Shifts (incref vn) fun _ => oneReference vn := by
  refine .of_gain fun first value last ran => ?_
  cases ran
  refine ⟨fun tally => ?_, rfl⟩
  simpa using count_update_refcount first vn (first.refcount vn + 1) (k := 1) (by push_cast; ring) tally

theorem incopen_shifts (vn : Vnode) : countLedger.Shifts (incopen vn) fun _ => oneOpening vn := by
  refine .of_gain fun first value last ran => ?_
  cases ran
  refine ⟨fun tally => ?_, rfl⟩
  simpa using count_update_opencount first vn (first.opencount vn + 1) (k := 1) (by push_cast; ring) tally

theorem oneReference_nonneg (vn : Vnode) (tally : Tally) : 0 ≤ oneReference vn tally := by
  by_cases same : tally = .reference vn
  · simp [oneReference, same]
  · simp [oneReference, same]

theorem reclaim_shifts {first : CountState} (single : first.refcount vn = 1)
    (ran : reclaim vn first = .ok ((), last)) :
    ∃ (used : List Reclaimed) (lost : Tally → ℕ), first.reclaims = used ++ last.reclaims ∧
      (∀ tally, countLedger.count last tally =
        countLedger.count first tally + -oneReference vn tally + lost tally) ∧
      ((∀ tally, lost tally = 0) ↔ ∀ answer ∈ used, answer = Reclaimed.destroyed) := by
  have sum : ((0 : Nat) : ℤ) = first.refcount vn + -1 := by simp [single]
  have gone : ∀ tally, countLedger.count
      { first with
        refcount := update first.refcount vn 0, reclaims := first.reclaims.tail } tally =
      countLedger.count first tally + -oneReference vn tally := by
    intro tally
    have updated := count_update_refcount first vn 0 sum tally
    rw [neg_one_mul] at updated
    rw [← updated]
    cases tally <;> rfl
  unfold reclaim at ran
  cases script : first.reclaims with
  | nil =>
    rw [script] at ran gone
    obtain ⟨-, ran⟩ := kassert_bind.mp ran
    cases ran
    exact ⟨[], fun _ => 0, rfl, fun tally => by rw [gone tally]; simp, by simp⟩
  | cons answer rest =>
    rw [script] at ran gone
    cases answer with
    | destroyed =>
      obtain ⟨-, ran⟩ := kassert_bind.mp ran
      cases ran
      exact ⟨[.destroyed], fun _ => 0, rfl, fun tally => by rw [gone tally]; simp, by simp⟩
    | kept res =>
      cases ran
      refine ⟨[.kept res], fun tally => (oneReference vn tally).toNat, rfl, fun tally => ?_, ?_⟩
      · rw [Int.toNat_of_nonneg (oneReference_nonneg vn tally), neg_add_cancel_right]
        cases tally <;> rfl
      · simp only [List.forall_mem_singleton, reduceCtorEq, iff_false, not_forall]
        exact ⟨.reference vn, by simp [oneReference]⟩

theorem decref_shifts (vn : Vnode) : countLedger.Shifts (decref vn) fun _ => -oneReference vn := by
  intro first value last ran
  obtain ⟨pos, ran⟩ := kassert_bind.mp ran
  split_ifs at ran with more
  · cases ran
    refine ⟨[], fun _ => 0, rfl, fun tally => ?_, by simp⟩
    have sum : ((first.refcount vn - 1 : Nat) : ℤ) = first.refcount vn + -1 := by omega
    simpa using count_update_refcount first vn _ sum tally
  · exact reclaim_shifts (by omega) ran

theorem dropOpen_shifts (vn : Vnode) : countLedger.Shifts (dropOpen vn) fun _ => -oneOpening vn := by
  refine .of_gain fun first value last ran => ?_
  obtain ⟨pos, ran⟩ := kassert_bind.mp ran
  cases ran
  refine ⟨fun tally => ?_, rfl⟩
  have sum : ((first.opencount vn - 1 : Nat) : ℤ) = first.opencount vn + -1 := by omega
  simpa using count_update_opencount first vn _ sum tally

theorem decopen_shifts (vn : Vnode) : countLedger.Shifts (decopen vn) fun _ => -oneOpening vn := by
  refine (dropOpen_shifts vn).bind fun more => ?_
  split_ifs
  · exact .pure (by simp)
  · exact (operation_shifts vn).bind fun _ => .pure (by simp)

end CountState

namespace FsAnswers
open CountState Ledger

variable (env : FsAnswers)

theorem handBack_shifts (time : Nat) :
    countLedger.Shifts (env.handBack time) (handed oneReference) := by
  unfold handBack
  cases env.vnode time with
  | error res => exact .pure (by simp)
  | ok vn => exact (incref_shifts vn).bind fun _ => .pure (by simp)

theorem lookup_shifts (dir : Vnode) : countLedger.Shifts (env.lookup dir) (handed oneReference) :=
  (operation_shifts dir).bind fun time => (env.handBack_shifts time).congr fun _ => by simp

theorem perform_shifts (vn : Vnode) : countLedger.Shifts (env.perform vn) fun _ => 0 :=
  (operation_shifts vn).bind fun _ => .pure (by simp)

theorem fsopGetroot_shifts : countLedger.Shifts env.fsopGetroot oneReference := by
  refine tick_shifts.bind fun time => (env.handBack_shifts time).bind fun found => ?_
  cases found with
  | error res => exact .throw _
  | ok vn => exact .pure (by simp)

theorem calls_counted : env.calls.Counted countLedger 0 oneReference oneOpening where
  acquire := acquire_shifts
  release := release_shifts.congr fun _ => by simp
  held := .of_unchanged fun _ _ _ returned => by cases returned; exact ⟨rfl, rfl⟩
  cwd := .of_unchanged fun _ _ _ returned => by cases returned; exact ⟨rfl, rfl⟩
  setCwd _ := .of_unchanged fun _ _ _ returned => by cases returned; exact ⟨rfl, rfl⟩
  bootfs := .of_unchanged fun _ _ _ returned => by cases returned; exact ⟨rfl, rfl⟩
  setBootfs _ := .of_unchanged fun _ _ _ returned => by cases returned; exact ⟨rfl, rfl⟩
  vnFs _ := .pure rfl
  fsopGetroot _ := env.fsopGetroot_shifts
  getroot _ := tick_shifts.bind fun time => (env.handBack_shifts time).congr fun _ => by simp
  incref := incref_shifts
  decref := decref_shifts
  incopen := incopen_shifts
  decopen := decopen_shifts
  vopOpen vn _ := env.perform_shifts vn
  readlink := env.perform_shifts
  gettype vn := (env.perform_shifts vn).bind fun _ => .pure (by simp)
  truncate vn _ := env.perform_shifts vn
  creat dir _ _ _ := env.lookup_shifts dir
  symlink dir _ _ := env.perform_shifts dir
  mkdir dir _ _ := env.perform_shifts dir
  link dir _ _ := env.perform_shifts dir
  remove dir _ := env.perform_shifts dir
  rmdir dir _ := env.perform_shifts dir
  rename olddir _ _ _ := env.perform_shifts olddir
  lookup dir _ := env.lookup_shifts dir
  lookparent dir _ _ := by
    refine (operation_shifts dir).bind fun time => (env.handBack_shifts time).bind fun found => ?_
    cases found <;> exact .pure (by simp [Except.map])

end FsAnswers

/-- A call of the VFS layer with its arguments -/
inductive VfsCall where
  | vfsOpen (path : CString) (openflags : Word32) (mode : Nat)
  | vfsRemove (path : CString)
  | vfsLink (oldpath newpath : CString)
  | vfsRename (oldpath newpath : CString)

/-- The call with its result and the vnode that it hands back. -/
def FsAnswers.run (env : FsAnswers) : VfsCall → Action CountState (Errno × Option Vnode)
  | .vfsOpen path openflags mode => do
    match ← env.calls.vfsOpen path openflags mode with
    | .error result => return (result, none)
    | .ok vn => return (0, some vn)
  | .vfsRemove path => return (← env.calls.vfsRemove path, none)
  | .vfsLink oldpath newpath => return (← env.calls.vfsLink oldpath newpath, none)
  | .vfsRename oldpath newpath => return (← env.calls.vfsRename oldpath newpath, none)

/-- All counts are as before, but for one more reference to the vnode and one more opening of it. -/
def CountState.Added (s : CountState) (vnode : Option Vnode) (next : CountState) : Prop :=
  ∀ vn, next.refcount vn = s.refcount vn + (if vnode = some vn then 1 else 0) ∧
    next.opencount vn = s.opencount vn + (if vnode = some vn then 1 else 0)

/-- The gain of a call that hands back an open file or nothing -/
def added : Option Vnode → Tally → ℤ
  | none => 0
  | some vn => oneReference vn + oneOpening vn

theorem CountState.added_iff {s : CountState} :
    s.Added vnode next ↔ ∀ tally, countLedger.count next tally =
      countLedger.count s tally + added vnode tally := by
  have gain : ∀ vn, added vnode (.reference vn) = (if vnode = some vn then 1 else 0 : Nat) ∧
      added vnode (.opening vn) = (if vnode = some vn then 1 else 0 : Nat) := by
    intro vn
    cases vnode with
    | none => simp [added]
    | some other =>
      by_cases same : other = vn
      · simp [added, oneReference, oneOpening, same]
      · simp [added, oneReference, oneOpening, same]
  constructor
  · intro counts tally
    cases tally with
    | reference vn =>
      simp only [countLedger, (counts vn).1, (gain vn).1]
      rfl
    | opening vn =>
      simp only [countLedger, (counts vn).2, (gain vn).2]
      rfl
  · intro counts vn
    have references := counts (.reference vn)
    have openings := counts (.opening vn)
    simp only [countLedger, (gain vn).1, (gain vn).2] at references openings
    exact ⟨by exact_mod_cast references, by exact_mod_cast openings⟩

theorem FsAnswers.run_shifts (env : FsAnswers) (call : VfsCall) :
    countLedger.Shifts (env.run call) fun out => added out.2 := by
  have counted := env.calls_counted
  cases call with
  | vfsOpen path flags mode =>
    refine (counted.vfsOpen path flags mode).bind fun res => ?_
    cases res <;> exact .pure (by simp [added])
  | vfsRemove path => exact (counted.vfsRemove path).bind fun _ => .pure (by simp [added])
  | vfsLink oldpath newpath => exact (counted.vfsLink oldpath newpath).bind fun _ => .pure (by simp [added])
  | vfsRename oldpath newpath =>
    exact (counted.vfsRename oldpath newpath).bind fun _ => .pure (by simp [added])

/-- A file is opened and closed again. -/
def FsAnswers.openClose (env : FsAnswers) (path : CString) (openflags : Word32) (mode : Nat) :
    Action CountState Unit := do
  match ← env.calls.vfsOpen path openflags mode with
  | .error _ => return
  | .ok vn => env.calls.vfsClose vn

theorem FsAnswers.openClose_shifts (env : FsAnswers) (path : CString) (flags : Word32)
    (mode : Nat) : countLedger.Shifts (env.openClose path flags mode) fun _ => added none := by
  refine (env.calls_counted.vfsOpen path flags mode).bind fun res => ?_
  cases res with
  | error problem => exact .pure (by simp [added])
  | ok vn =>
    refine (env.calls_counted.vfsClose vn).congr fun _ => ?_
    simp only [handed_ok]
    abel

/-- A call balances the counts exactly when every vnode given up is destroyed. -/
theorem vfs_calls_balance (env : FsAnswers) (s next : CountState) (taken : next.reclaims = []) :
    (∀ call result vnode, (env.run call).run s = .ok ((result, vnode), next) →
      (s.Added vnode next ↔ ∀ answer ∈ s.reclaims, answer = .destroyed)) ∧
    (∀ path openflags mode, (env.openClose path openflags mode).run s = .ok ((), next) →
      (s.Added none next ↔ ∀ answer ∈ s.reclaims, answer = .destroyed)) := by
  constructor
  · intro call result vnode returned
    rw [CountState.added_iff]
    exact (env.run_shifts call).exact_iff returned taken
  · intro path openflags mode returned
    rw [CountState.added_iff]
    exact (env.openClose_shifts path openflags mode).exact_iff returned taken

/-- Vnode 3 is the current directory, and every file is vnode 5 in it. -/
abbrev newFileAnswers (opened : Errno) : FsAnswers where
  vnode time := if time = 0 then .ok 3 else .ok 5
  name _ := [97]
  code _ := opened
  fs _ := some 0

/-- Only the current directory has a reference. -/
abbrev atDirectory (reclaims : List Reclaimed) : CountState where
  refcount vn := if vn = 3 then 1 else 0
  opencount _ := 0
  cwd := some 3
  bootfs := none
  depth := 0
  reclaims := reclaims
  time := 0

/-- `O_WRONLY|O_CREAT|O_APPEND` -/
abbrev creatingAppend : Word32 := 37

/-- The file is created and opened. -/
theorem vfs_calls_balance_created : ∃ next,
    ((newFileAnswers 0).run (.vfsOpen [97] creatingAppend 0)).run (atDirectory []) = .ok ((0, some 5), next) ∧
      (atDirectory []).Added (some 5) next := by
  refine ⟨_, rfl, ?_⟩
  exact ((vfs_calls_balance (newFileAnswers 0) (atDirectory []) _ rfl).1
    (.vfsOpen [97] creatingAppend 0) 0 (some 5) rfl).mpr (by simp)

/-- A vnode whose inode cannot be written back keeps a reference. -/
theorem failed_reclaim_keeps_reference : ∃ next,
    ((newFileAnswers eUnimp).run (.vfsOpen [97] creatingAppend 0)).run (atDirectory [.kept eIo]) =
      .ok ((eUnimp, none), next) ∧
      (atDirectory [.kept eIo]).refcount 5 = 0 ∧ next.refcount 5 = 1 :=
  ⟨_, rfl, rfl, rfl⟩

end Os161.File

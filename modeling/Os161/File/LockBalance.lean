import Os161.File.LockDepth
import Os161.File.VfsBalance

namespace Os161.File
open Word

namespace LockDepth

/-- The depth, and what `kmalloc` answers in `emufs_loadvnode` -/
def ledger : Ledger LockState Unit Bool where
  count s _ := s.depth
  script := LockState.memory
  good memory := memory = true

/-- An action changes the depth by a number, and by one more for every vnode without memory. -/
def Leaves {A : Type} (action : Action LockState A) (k : ℤ) : Prop :=
  ledger.Shifts action fun _ _ => k

/-- An action gives the lock back as often as it takes it. -/
abbrev Balanced {A : Type} (action : Action LockState A) : Prop :=
  Leaves action 0

section

variable {A B : Type} {k : ℤ}

@[simp] theorem Leaves.pure {value : A} (zero : k = 0) :
    Leaves (Pure.pure value : Action LockState A) k :=
  Ledger.Shifts.pure (by rw [zero]; rfl)

theorem Leaves.throw : Leaves (MonadExcept.throw problem : Action LockState A) k :=
  Ledger.Shifts.throw problem

/-- A balanced action may come first. -/
theorem Leaves.after {action : Action LockState A} {rest : A → Action LockState B}
    (prev : Balanced action) (next : ∀ value, Leaves (rest value) k) : Leaves (action >>= rest) k :=
  Ledger.Shifts.bind prev fun value => (next value).congr fun _ => by
    funext
    simp

/-- The rest of a call that has taken the lock gives it back. -/
theorem Leaves.locked {rest : Unit → Action LockState A} (next : Leaves (rest ()) (k - 1)) :
    Leaves (acquire >>= rest) k := by
  have prev : Leaves acquire 1 := by
    refine .of_gain fun first value last ran => ?_
    cases ran
    exact ⟨fun _ => by simp [ledger], rfl⟩
  exact Ledger.Shifts.bind prev fun _ => next

theorem release_leaves : Leaves release (-1) := by
  refine .of_gain fun first value last ran => ?_
  obtain ⟨pos, ran⟩ := kassert_bind.mp ran
  cases ran
  refine ⟨fun _ => ?_, rfl⟩
  simp only [ledger]
  omega

/-- A call that holds the lock once releases it and returns. -/
theorem Leaves.exit {value : A} (held : k = -1) :
    Leaves (do release; return value) k :=
  Ledger.Shifts.bind release_leaves fun _ => .pure (by rw [held]; funext; simp)

theorem Leaves.ite {condition : Prop} [Decidable condition] {yes no : Action LockState A}
    (first : Leaves yes k) (second : Leaves no k) : Leaves (if condition then yes else no) k := by
  split_ifs
  · exact first
  · exact second

theorem lift_balanced (outcome : Kernel A) : Balanced (liftM outcome : Action LockState A) :=
  (Ledger.Shifts.lift outcome).congr fun _ => rfl

theorem ask_balanced : Balanced ask := by
  refine .congr (.of_unchanged fun first value last ran => ?_) fun _ => rfl
  cases ran
  exact ⟨rfl, rfl⟩

theorem doIHold_balanced : Balanced doIHold := by
  refine .congr (.of_unchanged fun first value last ran => ?_) fun _ => rfl
  cases ran
  exact ⟨rfl, rfl⟩

theorem test_balanced : Balanced test :=
  .after ask_balanced fun _ => .pure rfl

/-- Both ways behind an answer of the outside leave the same depth. -/
theorem Leaves.test (first : Leaves yes k) (second : Leaves no k) :
    Leaves (do if ← LockDepth.test then yes else no) k :=
  .after test_balanced fun _ => .ite first second

@[simp] theorem other_balanced : Balanced other :=
  .test .throw ask_balanced

theorem someOps_balanced : Balanced someOps := by
  refine .after ask_balanced fun answer => ?_
  split <;> exact .pure rfl

theorem someFs_balanced : Balanced someFs :=
  .test (.pure rfl) (.pure rfl)

theorem sfsOps_balanced : Balanced sfsOps :=
  .test (.pure rfl) (.pure rfl)

end

@[simp] theorem vnodeCheck_balanced : Balanced vnodeCheck :=
  .locked (.after other_balanced fun _ => release_leaves)

@[simp] theorem vnodeIncref_balanced : Balanced vnodeIncref :=
  .locked release_leaves

@[simp] theorem sfsFsync_balanced : Balanced sfsFsync :=
  .locked (.after other_balanced fun _ => .exit rfl)

@[simp] theorem vopFsync_balanced (v : VnodeOps) : Balanced (vopFsync v) := by
  refine .after vnodeCheck_balanced fun _ => ?_
  cases v <;> simp

@[simp] theorem vopClose_balanced (v : VnodeOps) : Balanced (vopClose v) := by
  refine .after vnodeCheck_balanced fun _ => ?_
  cases v <;> simp

@[simp] theorem sfsTruncate_balanced : Balanced sfsTruncate := by
  refine .locked (.test ?_ (.exit rfl))
  refine .after other_balanced fun _ => .ite (.exit rfl) (.test ?_ (.exit rfl))
  exact .after other_balanced fun _ => .ite (.exit rfl) (.exit rfl)

@[simp] theorem vopTruncate_balanced (v : VnodeOps) : Balanced (vopTruncate v) := by
  refine .after vnodeCheck_balanced fun _ => ?_
  cases v <;> simp

theorem truncateUnlinked_balanced (v : VnodeOps) : Balanced (truncateUnlinked v) :=
  .test (vopTruncate_balanced v) (.pure rfl)

@[simp] theorem sfsReclaim_balanced (v : VnodeOps) : Balanced (sfsReclaim v) := by
  refine .locked (.test (.exit rfl) ?_)
  refine .after (truncateUnlinked_balanced v) fun _ => .ite (.exit rfl) ?_
  refine .after other_balanced fun _ => .ite (.exit rfl) ?_
  exact .after other_balanced fun _ => .exit rfl

@[simp] theorem emufsReclaim_balanced : Balanced emufsReclaim := by
  refine .locked (.test (.exit rfl) ?_)
  refine .after other_balanced fun _ => .ite (.exit rfl) ?_
  exact .after other_balanced fun _ => .exit rfl

@[simp] theorem vopReclaim_balanced (v : VnodeOps) : Balanced (vopReclaim v) := by
  refine .after vnodeCheck_balanced fun _ => ?_
  cases v <;> simp

@[simp] theorem vnodeDecref_balanced (v : VnodeOps) : Balanced (vnodeDecref v) := by
  refine .locked (.after other_balanced fun _ => .test release_leaves ?_)
  exact .after (vopReclaim_balanced v) fun _ => release_leaves

@[simp] theorem vnodeDecopen_balanced (v : VnodeOps) : Balanced (vnodeDecopen v) := by
  refine .locked (.after other_balanced fun _ => .test release_leaves ?_)
  exact .after (vopClose_balanced v) fun _ => release_leaves

theorem readPage_balanced : Balanced readPage := by
  refine .after someOps_balanced fun v => .after vnodeCheck_balanced fun _ => ?_
  cases v with
  | sfsFile => exact .locked (.after other_balanced fun _ => .exit rfl)
  | _ => exact other_balanced

/-- Page faults during a transfer read from executables. -/
theorem pageFaults_balanced (n : Nat) : Balanced (pageFaults n) := by
  induction n with
  | zero => exact .pure rfl
  | succ n ih => exact .after readPage_balanced fun _ => ih

theorem uiomove_balanced : Balanced uiomove :=
  .after ask_balanced fun n => .after (pageFaults_balanced n) fun _ => other_balanced

@[simp] theorem pieces_balanced (n : Nat) : Balanced (pieces n) := by
  induction n with
  | zero => exact .pure rfl
  | succ n ih =>
    refine .after other_balanced fun _ => .ite (.pure rfl) ?_
    exact .after uiomove_balanced fun _ => .ite (.pure rfl) ih

@[simp] theorem sfsTransfer_balanced : Balanced sfsTransfer :=
  .locked (.after ask_balanced fun n => .after (pieces_balanced n) fun _ => .exit rfl)

@[simp] theorem vopTransfer_balanced (v : VnodeOps) : Balanced (vopTransfer v) := by
  refine .after vnodeCheck_balanced fun _ => ?_
  cases v with
  | sfsFile => exact sfsTransfer_balanced
  | emufsFile | device => exact .after ask_balanced pieces_balanced
  | _ => exact other_balanced

@[simp] theorem vopGetdirentry_balanced (v : VnodeOps) : Balanced (vopGetdirentry v) := by
  refine .after vnodeCheck_balanced fun _ => ?_
  cases v <;> simp

@[simp] theorem vopPlain_balanced : Balanced vopPlain :=
  .after vnodeCheck_balanced fun _ => other_balanced

@[simp] theorem sfsGettype_balanced : Balanced sfsGettype :=
  .locked (.after other_balanced fun _ => .exit rfl)

@[simp] theorem vopGettype_balanced (v : VnodeOps) : Balanced (vopGettype v) := by
  refine .after vnodeCheck_balanced fun _ => ?_
  cases v with
  | sfsFile | sfsDir => exact sfsGettype_balanced
  | _ => exact .after other_balanced fun _ => .pure rfl

@[simp] theorem vopStat_balanced (v : VnodeOps) : Balanced (vopStat v) := by
  refine .after vnodeCheck_balanced fun _ => .after other_balanced fun _ => .ite (.pure rfl) ?_
  refine .after (vopGettype_balanced v) fun res => ?_
  cases res <;> exact .pure rfl

theorem sfsLoadvnode_balanced : Balanced sfsLoadvnode :=
  .test (.after vnodeIncref_balanced fun _ => .pure rfl) other_balanced

theorem sfsMakeobj_balanced : Balanced sfsMakeobj :=
  .after other_balanced fun _ => .ite (.pure rfl) sfsLoadvnode_balanced

theorem sfsLookonce_balanced : Balanced sfsLookonce := by
  refine .after other_balanced fun _ => .ite (.pure rfl) ?_
  refine .after sfsLoadvnode_balanced fun _ => .ite (.pure rfl) ?_
  exact .after other_balanced fun _ => .pure rfl

@[simp] theorem sfsCreat_balanced (excl : Bool) : Balanced (sfsCreat excl) := by
  refine .locked (.after other_balanced fun _ => .ite (.exit rfl) (.ite (.exit rfl) (.ite ?_ ?_)))
  · refine .after sfsLoadvnode_balanced fun _ => .ite (.exit rfl) ?_
    exact .after sfsOps_balanced fun _ => .exit rfl
  · refine .after sfsMakeobj_balanced fun _ => .ite (.exit rfl) ?_
    refine .after other_balanced fun _ => .ite ?_ (.exit rfl)
    exact .after (vnodeDecref_balanced .sfsFile) fun _ => .exit rfl

@[simp] theorem sfsLink_balanced : Balanced sfsLink := by
  refine .after other_balanced fun _ => .locked ?_
  exact .after other_balanced fun _ => .ite (.exit rfl) (.exit rfl)

@[simp] theorem sfsRemove_balanced : Balanced sfsRemove := by
  refine .locked (.after sfsLookonce_balanced fun _ => .ite (.exit rfl) ?_)
  refine .after other_balanced fun _ => .after sfsOps_balanced fun v => ?_
  exact .after (vnodeDecref_balanced v) fun _ => .exit rfl

@[simp] theorem sfsRename_balanced : Balanced sfsRename := by
  have dropped : ∀ res : Errno, Leaves (do vnodeDecref .sfsFile; release; return res) (-1) :=
    fun _ => .after (vnodeDecref_balanced .sfsFile) fun _ => .exit rfl
  refine .locked (.after other_balanced fun _ => .after sfsLookonce_balanced fun _ => ?_)
  refine .ite (.exit rfl) (.after other_balanced fun _ => .ite (dropped _) ?_)
  refine .after other_balanced fun _ => .ite ?_ (dropped 0)
  exact .after other_balanced fun _ => dropped _

@[simp] theorem sfsLookparent_balanced (v : VnodeOps) (path : CString) (buflen : Nat) :
    Balanced (sfsLookparent v path buflen) := by
  refine .locked (.test (.exit rfl) (.ite (.exit rfl) ?_))
  exact .after vnodeIncref_balanced fun _ => .exit rfl

@[simp] theorem sfsLookup_balanced : Balanced sfsLookup := by
  refine .locked (.test (.exit rfl) (.after sfsLookonce_balanced fun _ => .ite (.exit rfl) ?_))
  exact .after sfsOps_balanced fun _ => .exit rfl

theorem emufsInitvnode_leaves : Leaves emufsInitvnode (-1) := by
  refine .after other_balanced fun _ => .ite (.exit rfl) ?_
  exact .after other_balanced fun _ => .ite (.exit rfl) (.exit rfl)

/-- Without memory `emufs_loadvnode` returns with the lock. -/
theorem kmallocVnode_leaves :
    Leaves (do if ← kmallocVnode then emufsInitvnode else return eNoMem) (-1) := by
  intro first value last ran
  rw [StateT.run_bind, Outcome.bind_ok] at ran
  obtain ⟨⟨memory, middle⟩, asked, ran⟩ := ran
  cases asked
  cases script : first.memory with
  | nil =>
    rw [script] at ran
    obtain ⟨used, lost, same, count, fair⟩ := emufsInitvnode_leaves _ value last ran
    exact ⟨used, lost, by rw [← same]; exact script, count, fair⟩
  | cons memory rest =>
    rw [script] at ran
    cases memory with
    | true =>
      obtain ⟨used, lost, same, count, fair⟩ := emufsInitvnode_leaves _ value last ran
      refine ⟨true :: used, lost, ?_, count, fair.trans ?_⟩
      · rw [List.cons_append, ← same]
        exact script
      · simp [ledger]
    | false =>
      cases ran
      exact ⟨[false], fun _ => 1, script, fun _ => by simp [ledger], by simp [ledger]⟩

theorem emufsLoadvnode_balanced : Balanced emufsLoadvnode :=
  .locked (.test (.after vnodeIncref_balanced fun _ => .exit rfl) kmallocVnode_leaves)

@[simp] theorem emufsFind_balanced : Balanced emufsFind := by
  refine .after other_balanced fun _ => .ite (.pure rfl) ?_
  refine .after emufsLoadvnode_balanced fun _ => .ite ?_ (.test (.pure rfl) (.pure rfl))
  exact .after other_balanced fun _ => .pure rfl

@[simp] theorem emufsLookparent_balanced (v : VnodeOps) (path : CString) (buflen : Nat) :
    Balanced (emufsLookparent v path buflen) := by
  refine .ite (.ite (.pure rfl) ?_) (.ite (.pure rfl) ?_)
  · exact .after emufsFind_balanced fun _ => .pure rfl
  · exact .after vnodeIncref_balanced fun _ => .pure rfl

@[simp] theorem vopCreat_balanced (v : VnodeOps) (excl : Bool) : Balanced (vopCreat v excl) := by
  refine .after vnodeCheck_balanced fun _ => ?_
  cases v <;> simp

@[simp] theorem vopLink_balanced (v : VnodeOps) : Balanced (vopLink v) := by
  refine .after vnodeCheck_balanced fun _ => ?_
  cases v <;> simp

@[simp] theorem vopRemove_balanced (v : VnodeOps) : Balanced (vopRemove v) := by
  refine .after vnodeCheck_balanced fun _ => ?_
  cases v <;> simp

@[simp] theorem vopRename_balanced (v : VnodeOps) : Balanced (vopRename v) := by
  refine .after vnodeCheck_balanced fun _ => ?_
  cases v <;> simp

@[simp] theorem vopLookup_balanced (v : VnodeOps) (path : CString) : Balanced (vopLookup v path) := by
  refine .after vnodeCheck_balanced fun _ => ?_
  cases v with
  | sfsDir => exact sfsLookup_balanced
  | emufsDir => exact emufsFind_balanced
  | device => exact .ite (.after vnodeIncref_balanced fun _ => .pure rfl) (.pure rfl)
  | _ => exact .pure rfl

@[simp] theorem vopLookparent_balanced (v : VnodeOps) (path : CString) (buflen : Nat) :
    Balanced (vopLookparent v path buflen) := by
  refine .after vnodeCheck_balanced fun _ => ?_
  cases v <;> simp

theorem syncVnodes_balanced (n : Nat) : Balanced (syncVnodes n) := by
  induction n with
  | zero => exact .pure rfl
  | succ n ih => exact .after sfsOps_balanced fun v => .after (vopFsync_balanced v) fun _ => ih

theorem writeDirty_balanced : Balanced writeDirty :=
  .test other_balanced (.pure rfl)

@[simp] theorem sfsSync_balanced : Balanced sfsSync := by
  refine .locked (.after ask_balanced fun n => .after (syncVnodes_balanced n) fun _ => ?_)
  refine .after writeDirty_balanced fun _ => .ite (.exit rfl) ?_
  exact .after writeDirty_balanced fun _ => .ite (.exit rfl) (.exit rfl)

@[simp] theorem fsopSync_balanced (fs : FsOps) : Balanced (fsopSync fs) := by
  cases fs with
  | sfs => exact sfsSync_balanced
  | emufs => exact .pure rfl

@[simp] theorem fsopGetvolname_balanced (fs : FsOps) : Balanced (fsopGetvolname fs) := by
  cases fs with
  | sfs => exact .locked release_leaves
  | emufs => exact .pure rfl

@[simp] theorem fsopGetroot_balanced (fs : FsOps) : Balanced (fsopGetroot fs) := by
  cases fs with
  | sfs => exact .locked (.after sfsLoadvnode_balanced fun _ => .ite .throw (.exit rfl))
  | emufs => exact .after vnodeIncref_balanced fun _ => .pure rfl

@[simp] theorem fsopUnmount_balanced (fs : FsOps) : Balanced (fsopUnmount fs) := by
  cases fs with
  | sfs => exact .locked (.test (.exit rfl) (.after other_balanced fun _ => .exit rfl))
  | emufs => exact .pure rfl

theorem sfsDomountSteps_leaves (n : Nat) : Leaves (sfsDomountSteps n) (-1) := by
  induction n with
  | zero => exact .exit rfl
  | succ n ih => exact .after other_balanced fun _ => .ite (.exit rfl) ih

@[simp] theorem sfsDomount_balanced : Balanced sfsDomount :=
  .locked (.after other_balanced fun _ => sfsDomountSteps_leaves 7)

theorem syncDevices_balanced (n : Nat) : Balanced (syncDevices n) := by
  induction n with
  | zero => exact .pure rfl
  | succ n ih => exact .after someFs_balanced fun fs => .after (fsopSync_balanced fs) fun _ => ih

@[simp] theorem vfsSync_balanced : Balanced vfsSync :=
  .locked (.after ask_balanced fun n => .after (syncDevices_balanced n) fun _ => .exit rfl)

theorem getrootMounted_balanced : Balanced getrootMounted := by
  refine .test ?_ (.test (.pure rfl) (.pure rfl))
  refine .after someFs_balanced fun fs => .after (fsopGetvolname_balanced fs) fun _ => ?_
  exact .test (.after (fsopGetroot_balanced fs) fun _ => .pure rfl) (.pure rfl)

theorem getrootLoop_balanced (n : Nat) : Balanced (getrootLoop n) := by
  induction n with
  | zero => exact .pure rfl
  | succ n ih =>
    refine .after getrootMounted_balanced fun answer => ?_
    cases answer with
    | some answer => exact .pure rfl
    | none =>
      refine .test (.after other_balanced fun _ => ?_) ih
      exact .after vnodeIncref_balanced fun _ => .pure rfl

theorem Leaves.asserted {A : Type} {rest : Action LockState A} {k : ℤ} {text : String}
    (next : Leaves rest k) :
    Leaves (do let held ← doIHold; kassert (held = true) text; rest) k :=
  .after doIHold_balanced fun _ => .after (lift_balanced _) fun _ => next

@[simp] theorem vfsGetroot_balanced : Balanced vfsGetroot :=
  .asserted (.after ask_balanced getrootLoop_balanced)

@[simp] theorem vfsGetdevname_balanced : Balanced vfsGetdevname :=
  .asserted other_balanced

theorem volnameMounted_balanced : Balanced volnameMounted :=
  .test (.after someFs_balanced fsopGetvolname_balanced) (.pure rfl)

theorem badnamesLoop_balanced (n : Nat) : Balanced (badnamesLoop n) := by
  induction n with
  | zero => exact .pure rfl
  | succ n ih => exact .after volnameMounted_balanced fun _ => .test (.pure rfl) ih

theorem vfsDoaddNamed_leaves : Leaves vfsDoaddNamed (-1) := by
  refine .after volnameMounted_balanced fun _ => .asserted (.after ask_balanced fun n => ?_)
  refine .after (badnamesLoop_balanced n) fun _ => .ite (.exit rfl) ?_
  exact .after other_balanced fun _ => .exit rfl

@[simp] theorem vfsDoadd_balanced : Balanced vfsDoadd :=
  .locked (.test (.after other_balanced fun _ => .exit rfl) vfsDoaddNamed_leaves)

theorem findmount_balanced : Balanced findmount :=
  .asserted other_balanced

@[simp] theorem vfsMount_balanced : Balanced vfsMount := by
  refine .locked (.after findmount_balanced fun _ => .ite (.exit rfl) (.test (.exit rfl) ?_))
  refine .after other_balanced fun _ => .after sfsDomount_balanced fun _ => .ite (.exit rfl) ?_
  exact .after (fsopGetvolname_balanced .sfs) fun _ => .exit rfl

theorem vfsUnmountSteps_balanced : Balanced vfsUnmountSteps := by
  refine .after findmount_balanced fun _ => .ite (.pure rfl) (.test (.pure rfl) ?_)
  refine .after other_balanced fun _ => .after someFs_balanced fun fs => ?_
  exact .after (fsopSync_balanced fs) fun _ => .ite (.pure rfl) (fsopUnmount_balanced fs)

@[simp] theorem vfsUnmount_balanced : Balanced vfsUnmount :=
  .locked (.after vfsUnmountSteps_balanced fun _ => .exit rfl)

theorem unmountOne_balanced : Balanced unmountOne := by
  refine .test (.pure rfl) (.after someFs_balanced fun fs => ?_)
  have unmounted : Balanced (do let _ ← fsopUnmount fs; return) :=
    .after (fsopUnmount_balanced fs) fun _ => .pure rfl
  refine .after (fsopSync_balanced fs) fun _ => .ite unmounted ?_
  exact .after (fsopSync_balanced fs) fun _ => .ite (.pure rfl) unmounted

theorem unmountDevices_balanced (n : Nat) : Balanced (unmountDevices n) := by
  induction n with
  | zero => exact .pure rfl
  | succ n ih => exact .after unmountOne_balanced fun _ => ih

@[simp] theorem vfsUnmountall_balanced : Balanced vfsUnmountall :=
  .locked (.after ask_balanced fun n => .after (unmountDevices_balanced n) fun _ => .exit rfl)

@[simp] theorem emufsAddtovfs_balanced : Balanced emufsAddtovfs := by
  refine .test (.pure rfl) (.after emufsLoadvnode_balanced fun _ => .ite (.pure rfl) ?_)
  refine .after vfsDoadd_balanced fun _ => .ite ?_ (.pure rfl)
  exact .after (vnodeDecref_balanced .emufsDir) fun _ => .pure rfl

theorem maybeOps_balanced : Balanced maybeOps :=
  .test (.after someOps_balanced fun _ => .pure rfl) (.pure rfl)

theorem Leaves.handed {A : Type} {action : Action LockState A} (balanced : Balanced action)
    (vnode : A → Except Errno VnodeOps) :
    ledger.Shifts action fun res => File.handed (fun _ => 0) (vnode res) :=
  Ledger.Shifts.congr balanced fun res => by cases vnode res <;> rfl

theorem Leaves.of_handed {A : Type} {action : Action LockState A} {vnode : A → Except Errno VnodeOps}
    (shifts : ledger.Shifts action fun res => File.handed (fun _ => 0) (vnode res)) :
    Balanced action := by
  refine shifts.congr fun res => ?_
  cases vnode res <;> rfl

/-- The functions on paths count the lock and nothing else. -/
theorem calls_counted : calls.Counted ledger (fun _ => 1) (fun _ => 0) (fun _ => 0) where
  acquire := (Leaves.locked (.pure rfl) : Leaves (do acquire; return) 1)
  release := release_leaves
  held := doIHold_balanced
  cwd := maybeOps_balanced
  setCwd _ := .pure rfl
  bootfs := maybeOps_balanced
  setBootfs _ := .pure rfl
  vnFs vn := by
    cases vn with
    | device => exact .pure rfl
    | _ => exact Leaves.after ask_balanced fun _ => .pure rfl
  fsopGetroot vn := by
    cases vn with
    | emufsFile | emufsDir => exact fsopGetroot_balanced .emufs
    | _ => exact fsopGetroot_balanced .sfs
  getroot _ := vfsGetroot_balanced.handed id
  incref _ := vnodeIncref_balanced
  decref vn := (vnodeDecref_balanced vn).congr fun _ => by funext; simp
  incopen _ := vnodeIncref_balanced
  decopen vn := (vnodeDecopen_balanced vn).congr fun _ => by funext; simp
  vopOpen _ _ := vopPlain_balanced
  readlink _ := vopPlain_balanced
  gettype := vopGettype_balanced
  truncate vn _ := vopTruncate_balanced vn
  creat dir _ excl _ := (vopCreat_balanced dir excl).handed id
  symlink _ _ _ := vopPlain_balanced
  mkdir _ _ _ := vopPlain_balanced
  link dir _ _ := vopLink_balanced dir
  remove dir _ := vopRemove_balanced dir
  rmdir _ _ := vopPlain_balanced
  rename olddir _ _ _ := vopRename_balanced olddir
  lookup dir path := (vopLookup_balanced dir path).handed id
  lookparent dir path buflen := (vopLookparent_balanced dir path buflen).handed (Except.map Prod.fst)

theorem devnameUnnamed_balanced : Balanced devnameUnnamed :=
  .test (.locked (.after vfsGetdevname_balanced fun _ => release_leaves)) (.pure rfl)

@[simp] theorem vfsGetcurdir_balanced : Balanced calls.vfsGetcurdir :=
  .of_handed calls_counted.vfsGetcurdir

@[simp] theorem vfsGetcwd_balanced : Balanced vfsGetcwd := by
  refine .after vfsGetcurdir_balanced fun found => ?_
  cases found with
  | error res => exact .pure rfl
  | ok cwd =>
    refine .after someFs_balanced fun fs => .after (fsopGetvolname_balanced fs) fun _ => ?_
    refine .after devnameUnnamed_balanced fun _ => .after (pieces_balanced 2) fun _ => .ite ?_ ?_
    · exact .after (vnodeDecref_balanced cwd) fun _ => .pure rfl
    · refine .after vopPlain_balanced fun _ => ?_
      exact .after (vnodeDecref_balanced cwd) fun _ => .pure rfl

end LockDepth

open LockDepth in
/-- The functions that the rest of the kernel calls: those on the table of devices, on paths and on
vnodes, the operations of each function table and of each file system, and the functions that mount the
two file systems. -/
inductive EntryPoint : {A : Type} → Action LockState A → Prop where
  | vfsSync : EntryPoint vfsSync
  | vfsGetroot : EntryPoint LockDepth.vfsGetroot
  | vfsGetdevname : EntryPoint vfsGetdevname
  | vfsDoadd : EntryPoint LockDepth.vfsDoadd
  | vfsMount : EntryPoint LockDepth.vfsMount
  | vfsUnmount : EntryPoint LockDepth.vfsUnmount
  | vfsUnmountall : EntryPoint vfsUnmountall
  | vfsGetcurdir : EntryPoint calls.vfsGetcurdir
  | vfsSetcurdir (dir : VnodeOps) : EntryPoint (calls.vfsSetcurdir dir)
  | vfsClearcurdir : EntryPoint calls.vfsClearcurdir
  | vfsChdir (path : CString) : EntryPoint (calls.vfsChdir path)
  | vfsGetcwd : EntryPoint vfsGetcwd
  | vfsSetbootfs (fsname : CString) : EntryPoint (calls.vfsSetbootfs fsname)
  | vfsClearbootfs : EntryPoint calls.vfsClearbootfs
  | vfsLookparent (path : CString) (buflen : Nat) : EntryPoint (calls.vfsLookparent path buflen)
  | vfsLookup (path : CString) : EntryPoint (calls.vfsLookup path)
  | vfsOpen (path : CString) (openflags : Word32) (mode : Nat) :
      EntryPoint (calls.vfsOpen path openflags mode)
  | vfsClose (vn : VnodeOps) : EntryPoint (calls.vfsClose vn)
  | vfsRemove (path : CString) : EntryPoint (calls.vfsRemove path)
  | vfsRename (oldpath newpath : CString) : EntryPoint (calls.vfsRename oldpath newpath)
  | vfsLink (oldpath newpath : CString) : EntryPoint (calls.vfsLink oldpath newpath)
  | vfsSymlink (contents path : CString) : EntryPoint (calls.vfsSymlink contents path)
  | vfsReadlink (path : CString) : EntryPoint (calls.vfsReadlink path)
  | vfsMkdir (path : CString) (mode : Nat) : EntryPoint (calls.vfsMkdir path mode)
  | vfsRmdir (path : CString) : EntryPoint (calls.vfsRmdir path)
  | vnodeCheck : EntryPoint vnodeCheck
  | vnodeIncref : EntryPoint vnodeIncref
  | vnodeDecref (v : VnodeOps) : EntryPoint (vnodeDecref v)
  | vnodeDecopen (v : VnodeOps) : EntryPoint (vnodeDecopen v)
  | vopClose (v : VnodeOps) : EntryPoint (vopClose v)
  | vopReclaim (v : VnodeOps) : EntryPoint (vopReclaim v)
  | vopTransfer (v : VnodeOps) : EntryPoint (vopTransfer v)
  | vopGetdirentry (v : VnodeOps) : EntryPoint (vopGetdirentry v)
  | vopPlain : EntryPoint vopPlain
  | vopStat (v : VnodeOps) : EntryPoint (vopStat v)
  | vopGettype (v : VnodeOps) : EntryPoint (vopGettype v)
  | vopFsync (v : VnodeOps) : EntryPoint (vopFsync v)
  | vopTruncate (v : VnodeOps) : EntryPoint (vopTruncate v)
  | vopCreat (v : VnodeOps) (excl : Bool) : EntryPoint (vopCreat v excl)
  | vopLink (v : VnodeOps) : EntryPoint (vopLink v)
  | vopRemove (v : VnodeOps) : EntryPoint (vopRemove v)
  | vopRename (v : VnodeOps) : EntryPoint (vopRename v)
  | vopLookup (v : VnodeOps) (path : CString) : EntryPoint (vopLookup v path)
  | vopLookparent (v : VnodeOps) (path : CString) (buflen : Nat) :
      EntryPoint (vopLookparent v path buflen)
  | fsopSync (fs : FsOps) : EntryPoint (fsopSync fs)
  | fsopGetvolname (fs : FsOps) : EntryPoint (fsopGetvolname fs)
  | fsopGetroot (fs : FsOps) : EntryPoint (fsopGetroot fs)
  | fsopUnmount (fs : FsOps) : EntryPoint (fsopUnmount fs)
  | sfsDomount : EntryPoint sfsDomount
  | emufsAddtovfs : EntryPoint emufsAddtovfs

open LockDepth in
/-- One case for every function that the kernel calls. -/
theorem EntryPoint.balanced {A : Type} {action : Action LockState A} (entry : EntryPoint action) :
    Balanced action := by
  have counted := calls_counted
  cases entry with
  | vfsSetcurdir dir => exact counted.vfsSetcurdir dir
  | vfsClearcurdir => exact counted.vfsClearcurdir
  | vfsChdir path => exact counted.vfsChdir path
  | vfsSetbootfs fsname => exact counted.vfsSetbootfs fsname
  | vfsClearbootfs => exact counted.vfsClearbootfs
  | vfsLookparent path buflen => exact Leaves.of_handed (counted.vfsLookparent path buflen)
  | vfsLookup path => exact Leaves.of_handed (counted.vfsLookup path)
  | vfsOpen path flags mode =>
    refine (counted.vfsOpen path flags mode).congr fun res => ?_
    cases res <;> rfl
  | vfsClose vn => exact (counted.vfsClose vn).congr fun _ => rfl
  | vfsRemove path => exact counted.vfsRemove path
  | vfsRename oldpath newpath => exact counted.vfsRename oldpath newpath
  | vfsLink oldpath newpath => exact counted.vfsLink oldpath newpath
  | vfsSymlink contents path => exact counted.vfsSymlink contents path
  | vfsReadlink path => exact counted.vfsReadlink path
  | vfsMkdir path mode => exact counted.vfsMkdir path mode
  | vfsRmdir path => exact counted.vfsRmdir path
  | _ => simp

/-- The big lock is given back exactly when `emufs_loadvnode` always finds memory. -/
theorem biglock_given_back {A : Type} {action : Action LockState A} (entry : EntryPoint action)
    {s next : LockState} {value : A} (returned : action.run s = .ok (value, next))
    (taken : next.memory = []) : next.depth = s.depth ↔ ∀ memory ∈ s.memory, memory = true := by
  have same : next.depth = s.depth ↔
      ∀ i : Unit, LockDepth.ledger.count next i = LockDepth.ledger.count s i + 0 := by
    simp [LockDepth.ledger]
  exact same.trans (entry.balanced.exact_iff returned taken)

/-- All tests of the code fail, and every function succeeds. -/
abbrev plainAnswers (memory : List Bool) : LockState where
  depth := 0
  memory := memory
  answers _ := 0
  asked := 0

/-- A file of `emufs` is found with memory for its vnode. -/
theorem biglock_given_back_found : ∃ next,
    (LockDepth.vopLookup .emufsDir [97]).run (plainAnswers [true]) = .ok (.ok .emufsFile, next) ∧
      next.depth = 0 :=
  ⟨_, rfl, (biglock_given_back (s := plainAnswers [true]) (.vopLookup .emufsDir [97]) rfl rfl).mpr
    (by simp)⟩

/-- Without memory for the vnode the lookup returns an error and keeps the lock. -/
theorem emufs_lookup_keeps_biglock : ∃ next,
    (LockDepth.vopLookup .emufsDir [97]).run (plainAnswers [false]) = .ok (.error eNoMem, next) ∧
      next.depth = 1 :=
  ⟨_, rfl, rfl⟩

end Os161.File

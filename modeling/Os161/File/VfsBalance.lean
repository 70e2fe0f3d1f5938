import Os161.File.VfsPath
import Os161.Lib.Ledger
import Mathlib.Tactic.Abel

namespace Os161.File
open Ledger

variable {S V I F : Type}

/-- The gain of a call that hands back a vnode or fails. -/
def handed (gain : V → I → ℤ) : Except Errno V → I → ℤ
  | .ok vn => gain vn
  | .error _ => 0

@[simp] theorem handed_ok (gain : V → I → ℤ) (vn : V) : handed gain (.ok vn) = gain vn := rfl

@[simp] theorem handed_error (gain : V → I → ℤ) (res : Errno) :
    handed gain (.error res) = 0 := rfl

/-- What the calls do to the quantities of a ledger: the big lock counts for `lock`, a reference to a
vnode and an opening of it for what `reference` and `opening` say. A lookup or a creation hands back one
reference on success and none on failure. -/
structure VfsCalls.Counted (vfs : VfsCalls S V) (ledger : Ledger S I F) (lock : I → ℤ)
    (reference opening : V → I → ℤ) : Prop where
  acquire : ledger.Shifts vfs.biglockAcquire fun _ => lock
  release : ledger.Shifts vfs.biglockRelease fun _ => -lock
  held : ledger.Shifts vfs.biglockDoIHold fun _ => 0
  cwd : ledger.Shifts vfs.cwd fun _ => 0
  setCwd (vn : Option V) : ledger.Shifts (vfs.setCwd vn) fun _ => 0
  bootfs : ledger.Shifts vfs.bootfs fun _ => 0
  setBootfs (vn : Option V) : ledger.Shifts (vfs.setBootfs vn) fun _ => 0
  vnFs (vn : V) : ledger.Shifts (vfs.vnFs vn) fun _ => 0
  fsopGetroot (vn : V) : ledger.Shifts (vfs.fsopGetroot vn) reference
  getroot (name : CString) : ledger.Shifts (vfs.getroot name) (handed reference)
  incref (vn : V) : ledger.Shifts (vfs.incref vn) fun _ => reference vn
  decref (vn : V) : ledger.Shifts (vfs.decref vn) fun _ => -reference vn
  incopen (vn : V) : ledger.Shifts (vfs.incopen vn) fun _ => opening vn
  decopen (vn : V) : ledger.Shifts (vfs.decopen vn) fun _ => -opening vn
  vopOpen (vn : V) (openflags : Word.Word32) : ledger.Shifts (vfs.vopOpen vn openflags) fun _ => 0
  readlink (vn : V) : ledger.Shifts (vfs.readlink vn) fun _ => 0
  gettype (vn : V) : ledger.Shifts (vfs.gettype vn) fun _ => 0
  truncate (vn : V) (len : Nat) : ledger.Shifts (vfs.truncate vn len) fun _ => 0
  creat (dir : V) (name : CString) (excl : Bool) (mode : Nat) :
    ledger.Shifts (vfs.creat dir name excl mode) (handed reference)
  symlink (dir : V) (name contents : CString) :
    ledger.Shifts (vfs.symlink dir name contents) fun _ => 0
  mkdir (dir : V) (name : CString) (mode : Nat) : ledger.Shifts (vfs.mkdir dir name mode) fun _ => 0
  link (dir : V) (name : CString) (file : V) : ledger.Shifts (vfs.link dir name file) fun _ => 0
  remove (dir : V) (name : CString) : ledger.Shifts (vfs.remove dir name) fun _ => 0
  rmdir (dir : V) (name : CString) : ledger.Shifts (vfs.rmdir dir name) fun _ => 0
  rename (olddir : V) (oldname : CString) (newdir : V) (newname : CString) :
    ledger.Shifts (vfs.rename olddir oldname newdir newname) fun _ => 0
  lookup (dir : V) (path : CString) : ledger.Shifts (vfs.lookup dir path) (handed reference)
  lookparent (dir : V) (path : CString) (buflen : Nat) :
    ledger.Shifts (vfs.lookparent dir path buflen) fun result => handed reference (result.map Prod.fst)

namespace VfsCalls.Counted

variable {vfs : VfsCalls S V} {ledger : Ledger S I F} {lock : I → ℤ} {reference opening : V → I → ℤ}
  (counted : vfs.Counted ledger lock reference opening)

include counted

theorem vfsGetcurdir :
    ledger.Shifts vfs.vfsGetcurdir (handed reference) := by
  refine counted.cwd.bind fun cwd => ?_
  cases cwd with
  | none => exact .pure (by simp)
  | some vn => exact (counted.incref vn).bind fun _ => .pure (by simp)

theorem getdeviceRooted (mark : Byte) :
    ledger.Shifts (vfs.getdeviceRooted mark) (handed reference) := by
  unfold VfsCalls.getdeviceRooted
  split_ifs
  · refine counted.bootfs.bind fun bootfs => ?_
    cases bootfs with
    | none => exact .pure (by simp)
    | some vn => exact (counted.incref vn).bind fun _ => .pure (by simp)
  · refine counted.vfsGetcurdir.bind fun found => ?_
    cases found with
    | error res => exact .pure (by simp)
    | ok vn =>
      refine (counted.vnFs vn).bind fun fs => (Shifts.lift _).bind fun _ => ?_
      exact (counted.fsopGetroot vn).bind fun startvn => (counted.decref vn).bind fun _ =>
        .pure (by simp)

/-- The big lock is taken outside, and a vnode comes with a reference. -/
theorem getdevice (path : CString) :
    ledger.Shifts (vfs.getdevice path) fun res => handed reference (res.map Prod.snd) := by
  have mapped : ∀ {action : Action S (Except Errno V)} (subpath : CString),
      ledger.Shifts action (handed reference) →
        ledger.Shifts (do return (← action).map (subpath, ·)) fun res =>
          handed reference (res.map Prod.snd) := by
    intro action subpath shifts
    refine shifts.bind fun res => .pure ?_
    cases res <;> simp [Except.map]
  refine counted.held.bind fun held => (Shifts.lift _).bind fun _ => Shifts.congr ?_ fun res =>
    show handed reference (res.map Prod.snd) = _ by simp
  dsimp only
  split
  · exact mapped _ counted.vfsGetcurdir
  · split_ifs
    · exact mapped _ counted.vfsGetcurdir
    · exact mapped _ (counted.getroot _)
    · exact mapped _ (counted.getdeviceRooted _)

theorem lookparentFrom (startvn : V)
    (path : CString) (buflen : Nat) :
    ledger.Shifts (vfs.lookparentFrom startvn path buflen) fun res =>
      handed reference (res.map Prod.fst) := by
  unfold VfsCalls.lookparentFrom
  split_ifs
  · exact .pure (by simp [Except.map])
  · exact counted.lookparent startvn path buflen

/-- A directory is handed back with a reference. -/
theorem vfsLookparent (path : CString)
    (buflen : Nat) :
    ledger.Shifts (vfs.vfsLookparent path buflen) fun res =>
      handed reference (res.map Prod.fst) := by
  refine counted.acquire.bind fun _ => (counted.getdevice path).bind fun found => ?_
  cases found with
  | error res => exact counted.release.bind fun _ => .pure (by simp [Except.map])
  | ok start =>
    obtain ⟨subpath, startvn⟩ := start
    refine (counted.lookparentFrom startvn subpath buflen).bind fun res => ?_
    refine (counted.decref startvn).bind fun _ => counted.release.bind fun _ => .pure ?_
    simp only [Except.map, handed_ok]
    abel

/-- A vnode is handed back with a reference. -/
theorem vfsLookup (path : CString) :
    ledger.Shifts (vfs.vfsLookup path) (handed reference) := by
  refine counted.acquire.bind fun _ => (counted.getdevice path).bind fun found => ?_
  cases found with
  | error res => exact counted.release.bind fun _ => .pure (by simp [Except.map])
  | ok start =>
    obtain ⟨subpath, startvn⟩ := start
    dsimp only
    split_ifs
    · exact counted.release.bind fun _ => .pure (by simp [Except.map])
    · refine (counted.lookup startvn subpath).bind fun res => ?_
      refine (counted.decref startvn).bind fun _ => counted.release.bind fun _ => .pure ?_
      simp only [Except.map, handed_ok]
      abel

theorem openVnode (path : CString)
    (flags : Word.Word32) (mode : Nat) :
    ledger.Shifts (vfs.openVnode path flags mode) (handed reference) := by
  unfold VfsCalls.openVnode
  split_ifs
  · refine (counted.vfsLookparent path _).bind fun found => ?_
    cases found with
    | error res => exact .pure (by simp [Except.map])
    | ok parent =>
      refine (counted.creat parent.1 parent.2 _ mode).bind fun res => ?_
      exact (counted.decref parent.1).bind fun _ => .pure (by simp [Except.map])
  · exact counted.vfsLookup path

theorem openTruncate (flags : Word.Word32)
    (vn : V) : ledger.Shifts (vfs.openTruncate flags vn) fun _ => 0 := by
  unfold VfsCalls.openTruncate
  split_ifs
  · exact .pure rfl
  · exact .pure rfl
  · exact counted.truncate vn 0

/-- A vnode is handed back with a reference and an opening. -/
theorem vfsOpen (path : CString)
    (flags : Word.Word32) (mode : Nat) :
    ledger.Shifts (vfs.vfsOpen path flags mode) fun res =>
      handed reference res + handed opening res := by
  unfold VfsCalls.vfsOpen
  split_ifs
  · exact .pure (by simp)
  refine (counted.openVnode path flags mode).bind fun found => ?_
  cases found with
  | error res => exact .pure (by simp)
  | ok vn =>
    refine (counted.vopOpen vn flags).bind fun res => ?_
    split_ifs
    · exact (counted.decref vn).bind fun _ => .pure (by simp)
    refine (counted.incopen vn).bind fun _ => (counted.openTruncate flags vn).bind fun res => ?_
    split_ifs
    · exact (counted.decopen vn).bind fun _ => (counted.decref vn).bind fun _ => .pure (by simp)
    · exact .pure (by simp)

theorem vfsClose (vn : V) :
    ledger.Shifts (vfs.vfsClose vn) fun _ => -opening vn - reference vn :=
  (counted.decopen vn).bind fun _ => (counted.decref vn).congr fun _ => by abel

/-- The directory is given back after the operation. -/
theorem atParent (path : CString)
    {op : V → CString → Action S Errno}
    (neutral : ∀ dir name, ledger.Shifts (op dir name) fun _ => 0) :
    ledger.Shifts (vfs.atParent path op) fun _ => 0 := by
  refine (counted.vfsLookparent path _).bind fun found => ?_
  cases found with
  | error res => exact .pure (by simp [Except.map])
  | ok parent =>
    refine (neutral parent.1 parent.2).bind fun res => ?_
    exact (counted.decref parent.1).bind fun _ => .pure (by simp [Except.map])

theorem vfsRemove (path : CString) :
    ledger.Shifts (vfs.vfsRemove path) fun _ => 0 :=
  counted.atParent path counted.remove

theorem vfsSymlink (contents path : CString) :
    ledger.Shifts (vfs.vfsSymlink contents path) fun _ => 0 :=
  counted.atParent path fun dir name => counted.symlink dir name contents

theorem vfsMkdir (path : CString) (mode : Nat) :
    ledger.Shifts (vfs.vfsMkdir path mode) fun _ => 0 :=
  counted.atParent path fun dir name => counted.mkdir dir name mode

theorem vfsRmdir (path : CString) :
    ledger.Shifts (vfs.vfsRmdir path) fun _ => 0 :=
  counted.atParent path counted.rmdir

/-- Both vnodes are given back on every way out. -/
theorem onOneFs (first newdir : V) (neutral : ledger.Shifts op fun _ => 0) :
    ledger.Shifts (vfs.onOneFs first newdir op) fun _ => -reference newdir - reference first := by
  refine (counted.vnFs first).bind fun firstFs => (counted.vnFs newdir).bind fun newFs => ?_
  split_ifs
  · exact (counted.decref newdir).bind fun _ => (counted.decref first).bind fun _ => .pure (by abel)
  · refine neutral.bind fun res => (counted.decref newdir).bind fun _ => ?_
    exact (counted.decref first).bind fun _ => .pure (by abel)

theorem vfsRename (oldpath newpath : CString) :
    ledger.Shifts (vfs.vfsRename oldpath newpath) fun _ => 0 := by
  refine (counted.vfsLookparent oldpath _).bind fun found => ?_
  cases found with
  | error res => exact .pure (by simp [Except.map])
  | ok old =>
    refine (counted.vfsLookparent newpath _).bind fun found => ?_
    cases found with
    | error res => exact (counted.decref old.1).bind fun _ => .pure (by simp [Except.map])
    | ok new =>
      refine (counted.onOneFs old.1 new.1 (counted.rename old.1 old.2 new.1 new.2)).congr ?_
      intro res
      simp only [Except.map, handed_ok]
      abel

theorem vfsLink (oldpath newpath : CString) :
    ledger.Shifts (vfs.vfsLink oldpath newpath) fun _ => 0 := by
  refine (counted.vfsLookup oldpath).bind fun found => ?_
  cases found with
  | error res => exact .pure (by simp)
  | ok oldfile =>
    refine (counted.vfsLookparent newpath _).bind fun found => ?_
    cases found with
    | error res => exact (counted.decref oldfile).bind fun _ => .pure (by simp [Except.map])
    | ok new =>
      refine (counted.onOneFs oldfile new.1 (counted.link new.1 new.2 oldfile)).congr ?_
      intro res
      simp only [Except.map, handed_ok]
      abel

/-- The vnode is given back after the operation. -/
theorem atFile (path : CString) {op : V → Action S Errno}
    (neutral : ∀ vn, ledger.Shifts (op vn) fun _ => 0) :
    ledger.Shifts (vfs.atFile path op) fun _ => 0 := by
  refine (counted.vfsLookup path).bind fun found => ?_
  cases found with
  | error res => exact .pure (by simp)
  | ok vn =>
    refine (neutral vn).bind fun res => ?_
    exact (counted.decref vn).bind fun _ => .pure (by simp)

theorem vfsReadlink (path : CString) :
    ledger.Shifts (vfs.vfsReadlink path) fun _ => 0 :=
  counted.atFile path counted.readlink

end VfsCalls.Counted

namespace VfsCalls.Counted

-- The next functions move a reference from one vnode to another, so references do not count here.

variable {vfs : VfsCalls S V} {ledger : Ledger S I F} {lock : I → ℤ} {opening : V → I → ℤ}
  (counted : vfs.Counted ledger lock (fun _ => 0) opening)

include counted

theorem dropOld (old : Option V) :
    ledger.Shifts (vfs.dropOld old) fun _ => 0 := by
  cases old with
  | none => exact .pure rfl
  | some vn => exact (counted.decref vn).congr fun _ => by simp

theorem vfsSetcurdir (dir : V) :
    ledger.Shifts (vfs.vfsSetcurdir dir) fun _ => 0 := by
  refine (counted.gettype dir).bind fun found => ?_
  cases found with
  | error res => exact .pure (by simp)
  | ok vtype =>
    dsimp only
    split_ifs
    · exact .pure (by simp)
    refine (counted.incref dir).bind fun _ => counted.cwd.bind fun old => ?_
    refine (counted.setCwd _).bind fun _ => (counted.dropOld old).bind fun _ => .pure (by simp)

theorem vfsClearcurdir :
    ledger.Shifts vfs.vfsClearcurdir fun _ => 0 := by
  refine counted.cwd.bind fun old => (counted.setCwd _).bind fun _ => ?_
  exact (counted.dropOld old).bind fun _ => .pure (by simp)

theorem vfsChdir (path : CString) :
    ledger.Shifts (vfs.vfsChdir path) fun _ => 0 :=
  counted.atFile path counted.vfsSetcurdir

theorem changeBootfs (newvn : Option V) :
    ledger.Shifts (vfs.changeBootfs newvn) fun _ => 0 :=
  counted.bootfs.bind fun oldvn => (counted.setBootfs newvn).bind fun _ =>
    (counted.dropOld oldvn).congr fun _ => by simp

theorem vfsSetbootfs (fsname : CString) :
    ledger.Shifts (vfs.vfsSetbootfs fsname) fun _ => 0 := by
  refine counted.acquire.bind fun _ => ?_
  dsimp only
  split_ifs
  · exact counted.release.bind fun _ => .pure (by simp)
  refine (counted.vfsChdir _).bind fun res => ?_
  split_ifs
  · exact counted.release.bind fun _ => .pure (by simp)
  refine counted.vfsGetcurdir.bind fun found => ?_
  cases found with
  | error res => exact counted.release.bind fun _ => .pure (by simp)
  | ok newguy =>
    refine (counted.changeBootfs _).bind fun _ => ?_
    exact counted.release.bind fun _ => .pure (by simp)

theorem vfsClearbootfs :
    ledger.Shifts vfs.vfsClearbootfs fun _ => 0 :=
  counted.acquire.bind fun _ => (counted.changeBootfs none).bind fun _ =>
    counted.release.congr fun _ => by simp

end VfsCalls.Counted

end Os161.File

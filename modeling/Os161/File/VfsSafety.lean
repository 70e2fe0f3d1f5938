import Mathlib.Data.Multiset.AddSub
import Os161.File.VfsPath
import Os161.Lib.Returns

namespace Os161.File
open Word Multiset

/-- What the calls in progress have: the depth of the big lock, references to vnodes, and open vnodes, each
with a reference of its own. -/
structure Holding (V : Type) where
  depth : Nat
  loose : Multiset V
  opened : Multiset V

namespace Holding

variable {V : Type} (h : Holding V)

def enter : Holding V := { h with depth := h.depth + 1 }

def take (v : V) : Holding V := { h with loose := v ::ₘ h.loose }

def takeOpen (v : V) : Holding V := { h with opened := v ::ₘ h.opened }

/-- A vnode that may be missing is taken. -/
def takeOption : Option V → Holding V
  | none => h
  | some v => h.take v

/-- A call has handed back a vnode or an error. -/
def handed : Except Errno V → Holding V
  | .ok v => h.take v
  | .error _ => h

def Keeps (v : V) : Prop := v ∈ h.loose ∨ v ∈ h.opened

@[simp] theorem handed_ok (v : V) : h.handed (.ok v) = h.take v := rfl

@[simp] theorem takeOption_depth (old : Option V) : (h.takeOption old).depth = h.depth := by
  cases old <;> rfl

theorem take_comm (v w : V) : (h.take v).take w = (h.take w).take v := by
  simp only [take, cons_swap]

theorem handed_take (v : V) (res : Except Errno V) :
    (h.take v).handed res = (h.handed res).take v := by
  cases res with
  | error problem => rfl
  | ok w => exact h.take_comm v w

theorem enter_handed (res : Except Errno V) : h.enter.handed res = (h.handed res).enter := by
  cases res <;> rfl

variable {h}

theorem keeps_take (v : V) : (h.take v).Keeps v := .inl (mem_cons_self v h.loose)

theorem Keeps.take (keeps : h.Keeps w) (v : V) : (h.take v).Keeps w :=
  keeps.imp_left mem_cons_of_mem

end Holding

namespace VfsCalls

/-- The part of a path behind its device, which `getdevice` hands back. -/
def subpath (path : CString) : CString :=
  let front := path.takeWhile fun byte => byte ≠ colon ∧ byte ≠ slash
  match path.drop front.length with
  | [] => path
  | mark :: rest => if mark ≠ colon ∧ front ≠ [] then path else skipSlashes rest

variable {S V N : Type}

/-- Operations that return in every state in which the calls hold what `Has` counts. Only a rename asks for
more than that: that its directories are of the kind `Dir`, and that the names allow it. -/
structure Serves (vfs : VfsCalls S V) (Has : Holding V → N → S → Prop) (Dir : V → Prop)
    (Movable : N → CString → Prop) : Prop where
  acquire {h n s} : Has h n s → Returns vfs.biglockAcquire s fun _ => Has h.enter n
  release {h : Holding V} {n s} : Has h.enter n s → Returns vfs.biglockRelease s fun _ => Has h n
  held {h : Holding V} {n s} : Has h.enter n s →
    Returns vfs.biglockDoIHold s fun held s' => held = true ∧ Has h.enter n s'
  cwd {h n s} : Has h n s → ∃ old, vfs.cwd.run s = .ok (old, s) ∧
    ∀ v, old = some v → Returns (vfs.incref v) s fun _ => Has (h.take v) n
  setCwd {h : Holding V} {n s old} (new : Option V) : Has (h.takeOption new) n s →
    vfs.cwd.run s = .ok (old, s) → Returns (vfs.setCwd new) s fun _ => Has (h.takeOption old) n
  bootfs {h n s} : Has h n s → ∃ old, vfs.bootfs.run s = .ok (old, s) ∧
    ∀ v, old = some v → Returns (vfs.incref v) s fun _ => Has (h.take v) n
  setBootfs {h : Holding V} {n s old} (new : Option V) : Has (h.takeOption new) n s →
    vfs.bootfs.run s = .ok (old, s) → Returns (vfs.setBootfs new) s fun _ => Has (h.takeOption old) n
  vnFs {h n s} {v : V} : Has h n s → Returns (vfs.vnFs v) s fun fs s' => fs ≠ none ∧ Has h n s'
  fsopGetroot {h n s} {v : V} : Has h n s → Returns (vfs.fsopGetroot v) s fun root => Has (h.take root) n
  getroot {h n s} (name : CString) : Has h n s → Returns (vfs.getroot name) s fun r => Has (h.handed r) n
  incref {h n s v} : Has h n s → h.Keeps v → Returns (vfs.incref v) s fun _ => Has (h.take v) n
  decref {h : Holding V} {n s v} : Has (h.take v) n s → Returns (vfs.decref v) s fun _ => Has h n
  incopen {h : Holding V} {n s v} : Has (h.take v) n s → Returns (vfs.incopen v) s fun _ => Has (h.takeOpen v) n
  decopen {h : Holding V} {n s v} : Has (h.takeOpen v) n s → Returns (vfs.decopen v) s fun _ => Has (h.take v) n
  vopOpen {h n s v} (openflags : Word32) : Has h n s → h.Keeps v →
    Returns (vfs.vopOpen v openflags) s fun _ => Has h n
  readlink {h n s v} : Has h n s → h.Keeps v → Returns (vfs.readlink v) s fun _ => Has h n
  gettype {h n s v} : Has h n s → h.Keeps v → Returns (vfs.gettype v) s fun _ => Has h n
  truncate {h n s v} (len : Nat) : Has h n s → h.Keeps v → Returns (vfs.truncate v len) s fun _ => Has h n
  creat {h n s dir} (name : CString) (excl : Bool) (mode : Nat) : Has h n s → h.Keeps dir →
    Returns (vfs.creat dir name excl mode) s fun r s' => ∃ n', Has (h.handed r) n' s'
  symlink {h n s dir} (name contents : CString) : Has h n s → h.Keeps dir →
    Returns (vfs.symlink dir name contents) s fun _ => Has h n
  mkdir {h n s dir} (name : CString) (mode : Nat) : Has h n s → h.Keeps dir →
    Returns (vfs.mkdir dir name mode) s fun _ => Has h n
  link {h n s dir file} (name : CString) : Has h n s → h.Keeps dir → h.Keeps file →
    Returns (vfs.link dir name file) s fun _ s' => ∃ n', Has h n' s'
  remove {h n s dir} (name : CString) : Has h n s → h.Keeps dir →
    Returns (vfs.remove dir name) s fun _ s' => ∃ n', Has h n' s'
  rmdir {h n s dir} (name : CString) : Has h n s → h.Keeps dir →
    Returns (vfs.rmdir dir name) s fun _ => Has h n
  rename {h n s olddir newdir} {oldname : CString} (newname : CString) : Has h n s → h.Keeps olddir →
    h.Keeps newdir → Dir olddir → Dir newdir → Movable n oldname →
    Returns (vfs.rename olddir oldname newdir newname) s fun _ s' => ∃ n', Has h n' s'
  lookup {h n s dir} (path : CString) : Has h n s → h.Keeps dir →
    Returns (vfs.lookup dir path) s fun r => Has (h.handed r) n
  lookparent {h n s dir} (path : CString) (buflen : Nat) : Has h n s → h.Keeps dir →
    Returns (vfs.lookparent dir path buflen) s fun r s' => Has (h.handed (r.map Prod.fst)) n s' ∧
      ∀ parent name, r = .ok (parent, name) → Dir parent ∧ name = path

namespace Serves

variable {vfs : VfsCalls S V} {Has : Holding V → N → S → Prop} {Dir : V → Prop}
  {Movable : N → CString → Prop} {h : Holding V} {n : N} {s : S}
  (serves : vfs.Serves Has Dir Movable)

include serves

theorem vfsGetcurdir (has : Has h n s) :
    Returns vfs.vfsGetcurdir s fun r => Has (h.handed r) n := by
  obtain ⟨old, read, shared⟩ := serves.cwd has
  refine Returns.bind_run read ?_
  cases old with
  | none => exact .pure has
  | some vn => exact (shared vn rfl).bind fun _ _ has => .pure has

theorem getdeviceRooted (mark : Byte) (has : Has h n s) :
    Returns (vfs.getdeviceRooted mark) s fun r => Has (h.handed r) n := by
  unfold VfsCalls.getdeviceRooted
  split_ifs
  · obtain ⟨old, read, shared⟩ := serves.bootfs has
    refine Returns.bind_run read ?_
    cases old with
    | none => exact .pure has
    | some vn => exact (shared vn rfl).bind fun _ _ has => .pure has
  · refine (serves.vfsGetcurdir has).bind fun found _ has => ?_
    cases found with
    | error res => exact .pure has
    | ok vn =>
      refine (serves.vnFs has).bind fun fs _ both => ?_
      obtain ⟨mounted, has⟩ := both
      refine Returns.bind_lift (kassert_ok.mpr mounted) ?_
      refine (serves.fsopGetroot has).bind fun startvn _ has => ?_
      rw [Holding.handed_ok, Holding.take_comm] at has
      exact (serves.decref has).bind fun _ _ has => .pure has

/-- The caller holds the lock, and a vnode comes with a reference. -/
theorem getdevice (path : CString) (has : Has h.enter n s) :
    Returns (vfs.getdevice path) s fun r s' => Has (h.enter.handed (r.map Prod.snd)) n s' ∧
      ∀ rest startvn, r = .ok (rest, startvn) → rest = subpath path := by
  have mapped {action : Action S (Except Errno V)} {rest : CString} {s : S}
      (returns : Returns action s fun r => Has (h.enter.handed r) n) :
      Returns (do return (← action).map (rest, ·)) s fun r s' => Has (h.enter.handed (r.map Prod.snd)) n s' ∧
        ∀ rest' startvn, r = .ok (rest', startvn) → rest' = rest := by
    refine returns.bind fun found _ has => .pure ?_
    cases found with
    | error res => exact ⟨has, nofun⟩
    | ok vn =>
      refine ⟨has, fun _ _ same => ?_⟩
      cases same
      rfl
  refine (serves.held has).bind fun held _ ⟨holds, has⟩ => ?_
  refine Returns.bind_lift (kassert_ok.mpr holds) ?_
  unfold subpath
  dsimp only
  generalize path.takeWhile (fun byte => byte ≠ colon ∧ byte ≠ slash) = front
  cases path.drop front.length with
  | nil => exact mapped (serves.vfsGetcurdir has)
  | cons mark rest =>
    dsimp only
    split_ifs
    · exact mapped (serves.vfsGetcurdir has)
    · exact mapped (serves.getroot _ has)
    · exact mapped (serves.getdeviceRooted _ has)

theorem lookparentFrom (path : CString) (buflen : Nat) (has : Has h n s) (keeps : h.Keeps startvn) :
    Returns (vfs.lookparentFrom startvn path buflen) s fun r s' => Has (h.handed (r.map Prod.fst)) n s' ∧
      ∀ parent name, r = .ok (parent, name) → Dir parent ∧ name = path := by
  unfold VfsCalls.lookparentFrom
  split_ifs
  · exact .pure ⟨has, nofun⟩
  · exact serves.lookparent path buflen has keeps

theorem vfsLookparent (path : CString) (buflen : Nat) (has : Has h n s) :
    Returns (vfs.vfsLookparent path buflen) s fun r s' => Has (h.handed (r.map Prod.fst)) n s' ∧
      ∀ parent name, r = .ok (parent, name) → Dir parent ∧ name = subpath path := by
  refine (serves.acquire has).bind fun _ _ has => (serves.getdevice path has).bind fun found _ ⟨has, rest⟩ => ?_
  cases found with
  | error res => exact (serves.release has).bind fun _ _ has => .pure ⟨has, nofun⟩
  | ok start =>
    obtain ⟨rest', startvn⟩ := start
    obtain rfl := rest _ _ rfl
    refine (serves.lookparentFrom _ buflen has (Holding.keeps_take startvn)).bind fun r _ ⟨has, found⟩ => ?_
    dsimp only [Except.map, Holding.handed_ok] at has
    rw [Holding.handed_take] at has
    refine (serves.decref has).bind fun _ _ has => ?_
    rw [Holding.enter_handed] at has
    exact (serves.release has).bind fun _ _ has => .pure ⟨has, found⟩

theorem vfsLookup (path : CString) (has : Has h n s) :
    Returns (vfs.vfsLookup path) s fun r => Has (h.handed r) n := by
  refine (serves.acquire has).bind fun _ _ has => (serves.getdevice path has).bind fun found _ ⟨has, _⟩ => ?_
  cases found with
  | error res => exact (serves.release has).bind fun _ _ has => .pure has
  | ok start =>
    obtain ⟨rest, startvn⟩ := start
    dsimp only [Except.map, Holding.handed_ok] at has ⊢
    split_ifs
    · exact (serves.release (show Has (h.take startvn).enter n _ from has)).bind fun _ _ has => .pure has
    · refine (serves.lookup rest has (Holding.keeps_take startvn)).bind fun r _ has => ?_
      rw [Holding.handed_take] at has
      refine (serves.decref has).bind fun _ _ has => ?_
      rw [Holding.enter_handed] at has
      exact (serves.release has).bind fun _ _ has => .pure has

theorem openVnode (path : CString) (flags : Word32) (mode : Nat)
    (has : Has h n s) :
    Returns (vfs.openVnode path flags mode) s fun r s' => ∃ n', Has (h.handed r) n' s' := by
  unfold VfsCalls.openVnode
  split_ifs
  · refine (serves.vfsLookparent path _ has).bind fun found _ ⟨has, _⟩ => ?_
    cases found with
    | error res => exact .pure ⟨n, has⟩
    | ok parent =>
      refine (serves.creat _ _ mode has (Holding.keeps_take parent.1)).bind fun r _ ⟨n', has⟩ => ?_
      dsimp only [Except.map, Holding.handed_ok] at has
      rw [Holding.handed_take] at has
      exact (serves.decref has).bind fun _ _ has => .pure ⟨n', has⟩
  · exact (serves.vfsLookup path has).mono fun _ _ has => ⟨n, has⟩

theorem openTruncate (flags : Word32) (has : Has h n s) (keeps : h.Keeps vn) :
    Returns (vfs.openTruncate flags vn) s fun _ => Has h n := by
  unfold VfsCalls.openTruncate
  split_ifs
  · exact .pure has
  · exact .pure has
  · exact serves.truncate 0 has keeps

theorem vfsOpen (path : CString) (flags : Word32) (mode : Nat)
    (has : Has h n s) : Returns (vfs.vfsOpen path flags mode) s fun r s' => ∃ n',
      Has (match r with | .ok vn => h.takeOpen vn | .error _ => h) n' s' := by
  unfold VfsCalls.vfsOpen
  split_ifs
  · exact .pure ⟨n, has⟩
  refine (serves.openVnode path flags mode has).bind fun found _ ⟨n', has⟩ => ?_
  cases found with
  | error res => exact .pure ⟨n', has⟩
  | ok vn =>
    refine (serves.vopOpen flags has (Holding.keeps_take vn)).bind fun res _ has => ?_
    split_ifs
    · exact (serves.decref has).bind fun _ _ has => .pure ⟨n', has⟩
    refine (serves.incopen has).bind fun _ _ has => ?_
    refine (serves.openTruncate flags has (.inr (mem_cons_self vn _))).bind fun res _ has => ?_
    split_ifs
    · refine (serves.decopen has).bind fun _ _ has => (serves.decref has).bind fun _ _ has => ?_
      exact .pure ⟨n', has⟩
    · exact .pure ⟨n', has⟩

theorem vfsClose (has : Has (h.takeOpen vn) n s) : Returns (vfs.vfsClose vn) s fun _ => Has h n :=
  (serves.decopen has).bind fun _ _ has => serves.decref has

/-- An operation on a name returns if it does in a held directory. -/
theorem atParent (path : CString)
    {op : V → CString → Action S Errno} (has : Has h n s)
    (returns : ∀ dir name s, Has (h.take dir) n s →
      Returns (op dir name) s fun _ s' => ∃ n', Has (h.take dir) n' s') :
    Returns (vfs.atParent path op) s fun _ s' => ∃ n', Has h n' s' := by
  refine (serves.vfsLookparent path _ has).bind fun found _ ⟨has, _⟩ => ?_
  cases found with
  | error res => exact .pure ⟨n, has⟩
  | ok parent =>
    refine (returns parent.1 parent.2 _ has).bind fun res _ ⟨n', has⟩ => ?_
    exact (serves.decref has).bind fun _ _ has => .pure ⟨n', has⟩

theorem vfsRemove (path : CString) (has : Has h n s) :
    Returns (vfs.vfsRemove path) s fun _ s' => ∃ n', Has h n' s' :=
  serves.atParent path has fun dir name _ has => serves.remove name has (Holding.keeps_take dir)

theorem vfsSymlink (contents path : CString) (has : Has h n s) :
    Returns (vfs.vfsSymlink contents path) s fun _ s' => ∃ n', Has h n' s' :=
  serves.atParent path has fun dir name _ has =>
    (serves.symlink name contents has (Holding.keeps_take dir)).mono fun _ _ has => ⟨n, has⟩

theorem vfsMkdir (path : CString) (mode : Nat) (has : Has h n s) :
    Returns (vfs.vfsMkdir path mode) s fun _ s' => ∃ n', Has h n' s' :=
  serves.atParent path has fun dir name _ has =>
    (serves.mkdir name mode has (Holding.keeps_take dir)).mono fun _ _ has => ⟨n, has⟩

theorem vfsRmdir (path : CString) (has : Has h n s) :
    Returns (vfs.vfsRmdir path) s fun _ s' => ∃ n', Has h n' s' :=
  serves.atParent path has fun dir name _ has =>
    (serves.rmdir name has (Holding.keeps_take dir)).mono fun _ _ has => ⟨n, has⟩

theorem onOneFs (has : Has ((h.take first).take newdir) n s)
    (returns : ∀ s, Has ((h.take first).take newdir) n s →
      Returns op s fun _ s' => ∃ n', Has ((h.take first).take newdir) n' s') :
    Returns (vfs.onOneFs first newdir op) s fun _ s' => ∃ n', Has h n' s' := by
  refine (serves.vnFs has).bind fun firstFs _ ⟨_, has⟩ => (serves.vnFs has).bind fun newFs _ ⟨_, has⟩ => ?_
  split_ifs
  · refine (serves.decref has).bind fun _ _ has => (serves.decref has).bind fun _ _ has => ?_
    exact .pure ⟨n, has⟩
  · refine (returns _ has).bind fun res _ ⟨n', has⟩ => (serves.decref has).bind fun _ _ has => ?_
    exact (serves.decref has).bind fun _ _ has => .pure ⟨n', has⟩

/-- Only a rename asks for more than references. -/
theorem vfsRename (newpath : CString) (movable : Movable n (subpath oldpath)) (has : Has h n s) :
    Returns (vfs.vfsRename oldpath newpath) s fun _ s' => ∃ n', Has h n' s' := by
  refine (serves.vfsLookparent oldpath _ has).bind fun found _ ⟨has, old⟩ => ?_
  cases found with
  | error res => exact .pure ⟨n, has⟩
  | ok parent =>
    obtain ⟨olddir, oldname⟩ := parent
    obtain ⟨oldDir, rfl⟩ := old _ _ rfl
    refine (serves.vfsLookparent newpath _ has).bind fun found _ ⟨has, new⟩ => ?_
    cases found with
    | error res => exact (serves.decref has).bind fun _ _ has => .pure ⟨n, has⟩
    | ok parent =>
      obtain ⟨newdir, newname⟩ := parent
      obtain ⟨newDir, _⟩ := new _ _ rfl
      refine serves.onOneFs has fun _ has => ?_
      exact serves.rename newname has ((Holding.keeps_take olddir).take newdir) (Holding.keeps_take newdir)
        oldDir newDir movable

theorem vfsLink (oldpath newpath : CString) (has : Has h n s) :
    Returns (vfs.vfsLink oldpath newpath) s fun _ s' => ∃ n', Has h n' s' := by
  refine (serves.vfsLookup oldpath has).bind fun found _ has => ?_
  cases found with
  | error res => exact .pure ⟨n, has⟩
  | ok oldfile =>
    refine (serves.vfsLookparent newpath _ has).bind fun found _ ⟨has, _⟩ => ?_
    cases found with
    | error res => exact (serves.decref has).bind fun _ _ has => .pure ⟨n, has⟩
    | ok parent =>
      refine serves.onOneFs has fun _ has => ?_
      exact serves.link parent.2 has (Holding.keeps_take parent.1)
        ((Holding.keeps_take oldfile).take parent.1)

theorem atFile (path : CString) {op : V → Action S Errno} (has : Has h n s)
    (returns : ∀ vn s, Has (h.take vn) n s → Returns (op vn) s fun _ => Has (h.take vn) n) :
    Returns (vfs.atFile path op) s fun _ => Has h n := by
  refine (serves.vfsLookup path has).bind fun found _ has => ?_
  cases found with
  | error res => exact .pure has
  | ok vn =>
    refine (returns vn _ has).bind fun res _ has => ?_
    exact (serves.decref has).bind fun _ _ has => .pure has

theorem vfsReadlink (path : CString) (has : Has h n s) :
    Returns (vfs.vfsReadlink path) s fun _ => Has h n :=
  serves.atFile path has fun vn _ has => serves.readlink has (Holding.keeps_take vn)

theorem dropOld (has : Has (h.takeOption old) n s) : Returns (vfs.dropOld old) s fun _ => Has h n := by
  cases old with
  | none => exact .pure has
  | some vn => exact serves.decref has

theorem vfsSetcurdir (has : Has h n s) (keeps : h.Keeps dir) :
    Returns (vfs.vfsSetcurdir dir) s fun _ => Has h n := by
  refine (serves.gettype has keeps).bind fun found _ has => ?_
  cases found with
  | error res => exact .pure has
  | ok vtype =>
    dsimp only
    split_ifs
    · exact .pure has
    refine (serves.incref has keeps).bind fun _ s has => ?_
    obtain ⟨old, read, _⟩ := serves.cwd has
    refine Returns.bind_run read ?_
    refine (serves.setCwd (some dir) has read).bind fun _ _ has => ?_
    exact (serves.dropOld has).bind fun _ _ has => .pure has

theorem vfsClearcurdir (has : Has h n s) :
    Returns vfs.vfsClearcurdir s fun _ => Has h n := by
  obtain ⟨old, read, _⟩ := serves.cwd has
  refine Returns.bind_run read ?_
  refine (serves.setCwd none has read).bind fun _ _ has => ?_
  exact (serves.dropOld has).bind fun _ _ has => .pure has

theorem vfsChdir (path : CString) (has : Has h n s) :
    Returns (vfs.vfsChdir path) s fun _ => Has h n :=
  serves.atFile path has fun vn _ has => serves.vfsSetcurdir has (Holding.keeps_take vn)

theorem changeBootfs (has : Has (h.takeOption newvn) n s) :
    Returns (vfs.changeBootfs newvn) s fun _ => Has h n := by
  obtain ⟨old, read, _⟩ := serves.bootfs has
  refine Returns.bind_run read ?_
  exact (serves.setBootfs newvn has read).bind fun _ _ has => serves.dropOld has

theorem vfsSetbootfs (fsname : CString) (has : Has h n s) :
    Returns (vfs.vfsSetbootfs fsname) s fun _ => Has h n := by
  refine (serves.acquire has).bind fun _ _ has => ?_
  dsimp only
  split_ifs
  · exact (serves.release has).bind fun _ _ has => .pure has
  refine (serves.vfsChdir _ has).bind fun res _ has => ?_
  split_ifs
  · exact (serves.release has).bind fun _ _ has => .pure has
  refine (serves.vfsGetcurdir has).bind fun found _ has => ?_
  cases found with
  | error res => exact (serves.release has).bind fun _ _ has => .pure has
  | ok newguy =>
    have changed := serves.changeBootfs (show Has (h.enter.takeOption (some newguy)) n _ from has)
    exact changed.bind fun _ _ has => (serves.release has).bind fun _ _ has => .pure has

theorem vfsClearbootfs (has : Has h n s) :
    Returns vfs.vfsClearbootfs s fun _ => Has h n := by
  refine (serves.acquire has).bind fun _ _ has => ?_
  have changed := serves.changeBootfs (show Has (h.enter.takeOption none) n _ from has)
  exact changed.bind fun _ _ has => serves.release has

end Serves

end VfsCalls

end Os161.File

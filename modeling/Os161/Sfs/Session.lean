import Os161.Sfs.VnodeOps

namespace Os161.Sfs
open Word Outcome Transition File Multiset

/-- The calls on paths and on open files -/
inductive FileCall where
  | openPath (path : CString) (openflags : Word32) (mode : Nat)
  | close (v : Word32)
  | remove (path : CString)
  | link (oldpath newpath : CString)
  | rename (oldpath newpath : CString)
  | symlink (contents path : CString)
  | mkdir (path : CString) (mode : Nat)
  | rmdir (path : CString)
  | readlink (path : CString)
  | chdir (path : CString)
  | clearcurdir
  | setbootfs (fsname : CString)
  | clearbootfs
  | read (v : Word32) (u : Uio)
  | write (v : Word32) (u : Uio)
  | truncate (v : Word32) (len : Nat)

/-- A call does its work and says how the list of the open files changes. -/
def FileCall.run (devices : CString → Bool) : FileCall → Action SfsWorld (List Word32 → List Word32)
  | .openPath path openflags mode => do
    match ← (SfsWorld.calls devices).vfsOpen path openflags mode with
    | .ok v => return (v :: ·)
    | .error _ => return id
  | .close v => do
    (SfsWorld.calls devices).vfsClose v
    return (·.erase v)
  | .remove path => do
    let _ ← (SfsWorld.calls devices).vfsRemove path
    return id
  | .link oldpath newpath => do
    let _ ← (SfsWorld.calls devices).vfsLink oldpath newpath
    return id
  | .rename oldpath newpath => do
    let _ ← (SfsWorld.calls devices).vfsRename oldpath newpath
    return id
  | .symlink contents path => do
    let _ ← (SfsWorld.calls devices).vfsSymlink contents path
    return id
  | .mkdir path mode => do
    let _ ← (SfsWorld.calls devices).vfsMkdir path mode
    return id
  | .rmdir path => do
    let _ ← (SfsWorld.calls devices).vfsRmdir path
    return id
  | .readlink path => do
    let _ ← (SfsWorld.calls devices).vfsReadlink path
    return id
  | .chdir path => do
    let _ ← (SfsWorld.calls devices).vfsChdir path
    return id
  | .clearcurdir => do
    let _ ← (SfsWorld.calls devices).vfsClearcurdir
    return id
  | .setbootfs fsname => do
    let _ ← (SfsWorld.calls devices).vfsSetbootfs fsname
    return id
  | .clearbootfs => do
    (SfsWorld.calls devices).vfsClearbootfs
    return id
  | .read v u => do
    let _ ← SfsWorld.call (.read v u)
    return id
  | .write v u => do
    let _ ← SfsWorld.call (.write v u)
    return id
  | .truncate v len => do
    let _ ← SfsWorld.call (.truncate v len)
    return id

/-- A volume in use, with the vnodes that `vfs_open` has handed back. -/
structure Session where
  world : SfsWorld
  opened : List Word32

/-- A call with the answers of `kmalloc` that it gets -/
structure Invocation where
  call : FileCall
  roots : List Memory
  files : List Memory

namespace Session

/-- A volume that has just been mounted -/
def start (fs : SfsFs) : Session := ⟨⟨fs, none, none, 0, [], []⟩, []⟩

def perform (devices : CString → Bool) (s : Session) (invocation : Invocation) : Kernel Session := do
  let w := { s.world with roots := invocation.roots, files := invocation.files }
  let (update, w) ← (invocation.call.run devices).run w
  return ⟨w, update s.opened⟩

/-- Only open files are read, written, truncated and closed. -/
def Allows (s : Session) : FileCall → Prop
  | .close v | .truncate v _ => v ∈ s.opened
  | .read v u => v ∈ s.opened ∧ u.rw = .read
  | .write v u => v ∈ s.opened ∧ u.rw = .write
  | _ => True

/-- The call is not a rename of a name that is bound to the root, and there is memory when it has to load
the root. -/
def Meets (s : Session) (invocation : Invocation) : Prop :=
  (∀ memory ∈ invocation.roots, memory.vnode = true ∧ memory.table = true) ∧
    ∀ oldpath newpath, invocation.call = .rename oldpath newpath →
      s.world.fs.names (toName (VfsCalls.subpath oldpath)) ≠ some rootLocation

/-- One call that is allowed and meets the conditions, and that returns -/
def Step (devices : CString → Bool) (s : Session) (invocation : Invocation) (s' : Session) : Prop :=
  s.Allows invocation.call ∧ s.Meets invocation ∧ s.perform devices invocation = .ok s'

/-- The volume is consistent, and its vnodes have exactly the references of the open files and of the
kernel. -/
def Sound (s : Session) : Prop := ∃ names, SfsWorld.Has ⟨0, 0, s.opened⟩ names s.world

end Session

section

variable {devices : CString → Bool} {opened : List Word32} {names : Name → Option Word32} {w : SfsWorld}

theorem holding_erase (mem : v ∈ opened) :
    (⟨0, 0, opened⟩ : Holding Word32) = Holding.takeOpen ⟨0, 0, ↑(opened.erase v)⟩ v := by
  have same := cons_erase (mem_coe.mpr mem)
  rw [coe_erase] at same
  rw [Holding.takeOpen, same]

theorem returns_id {A : Type} {action : Action SfsWorld A}
    (returns : Returns action w fun _ w' => ∃ names', SfsWorld.Has ⟨0, 0, opened⟩ names' w') :
    Returns (do let _ ← action; return (id : List Word32 → List Word32)) w
      fun update w' => ∃ names', SfsWorld.Has ⟨0, 0, ↑(update opened)⟩ names' w' :=
  returns.bind fun _ _ has => .pure has

theorem FileCall.returns {s : Session} {call : FileCall} (has : SfsWorld.Has ⟨0, 0, s.opened⟩ names w)
    (allowed : s.Allows call)
    (movable : ∀ oldpath newpath, call = .rename oldpath newpath → Movable names (VfsCalls.subpath oldpath)) :
    Returns (call.run devices) w
      fun update w' => ∃ names', SfsWorld.Has ⟨0, 0, ↑(update s.opened)⟩ names' w' := by
  have serves := SfsWorld.serves devices
  have same {A : Type} {action : Action SfsWorld A}
      (returns : Returns action w fun _ => SfsWorld.Has ⟨0, 0, s.opened⟩ names) :
      Returns action w fun _ w' => ∃ names', SfsWorld.Has ⟨0, 0, s.opened⟩ names' w' :=
    returns.mono fun _ _ has => ⟨names, has⟩
  cases call with
  | openPath path flags mode =>
    refine (serves.vfsOpen path flags mode has).bind fun res _ ⟨names', has⟩ => ?_
    cases res with
    | ok v | error problem => exact .pure ⟨names', has⟩
  | close v =>
    rw [holding_erase allowed] at has
    exact (serves.vfsClose has).bind fun _ _ has => .pure ⟨names, has⟩
  | remove path => exact returns_id (serves.vfsRemove path has)
  | link oldpath newpath => exact returns_id (serves.vfsLink oldpath newpath has)
  | rename oldpath newpath =>
    exact returns_id (serves.vfsRename newpath (movable oldpath newpath rfl) has)
  | symlink contents path => exact returns_id (serves.vfsSymlink contents path has)
  | mkdir path mode => exact returns_id (serves.vfsMkdir path mode has)
  | rmdir path => exact returns_id (serves.vfsRmdir path has)
  | readlink path => exact returns_id (same (serves.vfsReadlink path has))
  | chdir path => exact returns_id (same (serves.vfsChdir path has))
  | clearcurdir => exact returns_id (same (serves.vfsClearcurdir has))
  | setbootfs fsname => exact returns_id (same (serves.vfsSetbootfs fsname has))
  | clearbootfs => exact returns_id (same (serves.vfsClearbootfs has))
  | read v u =>
    have held := has.held (.inr (mem_coe.mpr allowed.1))
    exact returns_id (has.change (.read v u) ⟨held, allowed.2⟩ id (fun _ _ => rfl) nofun)
  | write v u =>
    have held := has.held (.inr (mem_coe.mpr allowed.1))
    exact returns_id (has.change (.write v u) ⟨held, allowed.2⟩ id (fun _ _ => rfl) nofun)
  | truncate v len =>
    have held := has.held (.inr (mem_coe.mpr allowed))
    exact returns_id (has.change (.truncate v len) held id (fun _ _ => rfl) nofun)

end

section

variable {s : Session} {invocation : Invocation}

theorem Session.Sound.perform (sound : s.Sound) (devices : CString → Bool) (allowed : s.Allows invocation.call)
    (meets : s.Meets invocation) : ∃ s', s.perform devices invocation = .ok s' ∧ s'.Sound := by
  obtain ⟨names, has⟩ := sound
  have ready : SfsWorld.Has ⟨0, 0, s.opened⟩ names
      { s.world with roots := invocation.roots, files := invocation.files } :=
    ⟨has.depth, has.consistent, has.names, has.counts, meets.1⟩
  have movable : ∀ oldpath newpath, invocation.call = .rename oldpath newpath →
      Movable names (VfsCalls.subpath oldpath) := by
    intro oldpath newpath renamed
    rw [← has.names]
    exact meets.2 oldpath newpath renamed
  obtain ⟨update, w, run, names', has'⟩ := FileCall.returns ready allowed movable
  refine ⟨⟨w, update s.opened⟩, ?_, names', has'⟩
  rw [Session.perform, run]
  rfl

theorem Session.start_sound {fs : SfsFs} (fresh : fs.Fresh) : (Session.start fs).Sound := by
  refine ⟨fs.names, rfl, fresh.inv.consistent, rfl, ?_, nofun⟩
  funext v
  have none : fs.held v = none := by rw [SfsFs.held, fresh.find v, Option.map_none]
  rw [Session.start, SfsFs.tally_of_none none]
  rfl

end

/-- The path of a name on the device `lhd0` -/
def lhd0Path (name : CString) : CString := [108, 104, 100, 48] ++ colon :: name

/-- The names of the device of a volume that has none of its own -/
def lhd0 (name : CString) : Bool := name == [108, 104, 100, 48]

theorem image_linkRoot : ∃ disk fs s, mksfs 4096 (fun _ => zeroBlock) = .ok disk ∧
    sfsDomount 4096 disk = .ok (.ok fs) ∧
    Run (Session.Step lhd0) (Session.start fs) [⟨.link (lhd0Path []) (lhd0Path [97]), [], []⟩] s ∧
    s.world.fs.names nameB = none ∧
    s.perform lhd0 ⟨.rename (lhd0Path [97]) (lhd0Path [98]), [], []⟩ =
      .error (.assertion "g1->sv_i.sfi_type == SFS_TYPE_FILE") :=
  ⟨_, _, _, rfl, rfl, .single ⟨trivial, ⟨nofun, nofun⟩, rfl⟩, rfl, rfl⟩

/-- No sequence of calls that meet the condition stops the kernel. -/
theorem session_never_stops {size : Word32} {disk disk' : Disk} {fs : SfsFs} {devices : CString → Bool}
    {invocations : List Invocation} {s : Session} (made : mksfs size disk = .ok disk')
    (mounted : sfsDomount size disk' = .ok (.ok fs)) (mapped : size.toNat ≤ 2 ^ 32 - 4096)
    (reached : Run (Session.Step devices) (Session.start fs) invocations s) (invocation : Invocation)
    (allowed : s.Allows invocation.call) (meets : s.Meets invocation) :
    ∃ s', s.perform devices invocation = .ok s' := by
  obtain ⟨ready, least, few | huge⟩ := mksfs_mounted made mounted
  · have keeps (state : Session) (called : Invocation) (next : Session) (sound : state.Sound)
        (step : state.Step devices called next) : next.Sound := by
      obtain ⟨allowed, meets, returned⟩ := step
      obtain ⟨next', again, sound'⟩ := sound.perform devices allowed meets
      rw [returned] at again
      cases again
      exact sound'
    have sound := reached.invariant keeps (Session.start_sound (ready.fresh least few))
    obtain ⟨s', returned, _⟩ := sound.perform devices allowed meets
    exact ⟨s', returned⟩
  · omega

theorem session_never_stops_linked : ∃ disk fs s, mksfs 4096 (fun _ => zeroBlock) = .ok disk ∧
    sfsDomount 4096 disk = .ok (.ok fs) ∧
    Run (Session.Step lhd0) (Session.start fs) [⟨.link (lhd0Path []) (lhd0Path [97]), [], []⟩] s ∧
    ∃ s', s.perform lhd0 ⟨.rename (lhd0Path [98]) (lhd0Path [97]), [], []⟩ = .ok s' := by
  obtain ⟨disk, fs, s, made, mounted, reached, absent, _⟩ := image_linkRoot
  refine ⟨disk, fs, s, made, mounted, reached, ?_⟩
  refine session_never_stops made mounted (by decide) reached _ trivial ⟨nofun, ?_⟩
  rintro oldpath newpath same bound
  cases same
  cases absent.symm.trans bound

/-- A link to the root and a rename of it stop the kernel. -/
theorem session_stops_at_root : ∃ disk fs s, mksfs 4096 (fun _ => zeroBlock) = .ok disk ∧
    sfsDomount 4096 disk = .ok (.ok fs) ∧
    Run (Session.Step lhd0) (Session.start fs) [⟨.link (lhd0Path []) (lhd0Path [97]), [], []⟩] s ∧
    s.Allows (.rename (lhd0Path [97]) (lhd0Path [98])) ∧
    s.perform lhd0 ⟨.rename (lhd0Path [97]) (lhd0Path [98]), [], []⟩ =
      .error (.assertion "g1->sv_i.sfi_type == SFS_TYPE_FILE") := by
  obtain ⟨disk, fs, s, made, mounted, reached, _, stopped⟩ := image_linkRoot
  exact ⟨disk, fs, s, made, mounted, reached, trivial, stopped⟩

end Os161.Sfs

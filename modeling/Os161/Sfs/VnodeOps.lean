import Os161.File.VfsSafety
import Os161.Sfs.Integrity

namespace Os161.Sfs
open Word Outcome Transition File Function Holding

abbrev sIfreg : Nat := 0o010000

/-- The volume with the vnodes that the kernel starts paths from, the depth of the big lock, and the answers
of `kmalloc` when the root or another inode is loaded. After the last answer there is memory. -/
structure SfsWorld where
  fs : SfsFs
  cwd : Option Word32
  bootfs : Option Word32
  depth : Nat
  roots : List Memory
  files : List Memory

abbrev Memory.plenty : Memory := ⟨true, true⟩

/-- A path as it is seen by a function that stops at the first zero -/
def toName (path : CString) : Name where
  val := path.takeWhile (· ≠ 0)
  property zero := by simpa using List.mem_takeWhile_imp zero

def Reply.errno : Reply → Errno
  | .code result | .moved result _ => result
  | .vnode _ => 0

def Reply.toVnode : Reply → Except Errno Word32
  | .code result | .moved result _ => .error result
  | .vnode v => .ok v

def sfsOpen (openflags : Word32) : Errno := if openflags &&& oAppend ≠ 0 then eUnimp else 0

def sfsOpendir (openflags : Word32) : Errno :=
  if openflags &&& oAccmode ≠ 0 then Syscall.eIsDir
  else if openflags &&& oAppend ≠ 0 then Syscall.eIsDir
  else 0

abbrev gettypePanic (ino type : Nat) : Panic :=
  .message s!"sfs: gettype: Invalid inode type (inode {ino}, type {type})\n"

def sfsGettype (sv : SfsVnode) : Kernel Nat :=
  if sv.inode.type = typeFile then .ok sIfreg
  else if sv.inode.type = typeDir then .ok sIfdir
  else .error (gettypePanic sv.ino.toNat sv.inode.type.toNat)

namespace SfsWorld

/-- A call of the file system -/
def call (request : Request) : Action SfsWorld Reply := fun w => do
  let (reply, fs) ← w.fs.perform request
  return (reply, { w with fs := fs })

/-- Memory is only needed for a root that is not in the table. -/
def takeRoot : Action SfsWorld Memory := fun w =>
  match w.fs.find rootLocation, w.roots with
  | none, memory :: rest => .ok (memory, { w with roots := rest })
  | _, _ => .ok (.plenty, w)

def takeFile : Action SfsWorld Memory := fun w =>
  match w.files with
  | memory :: rest => .ok (memory, { w with files := rest })
  | [] => .ok (.plenty, w)

/-- `FSOP_GETROOT` -/
def getroot : Action SfsWorld Word32 := do
  let memory ← takeRoot
  let _ ← call (.getroot memory)
  return rootLocation

/-- An operation that only answers by the vnode and leaves everything as it is. -/
def answer {A : Type} (v : Word32) (result : SfsVnode → Kernel A) : Action SfsWorld A := fun w => do
  let f ← w.fs.file v
  let value ← result f.sv
  return (value, w)

/-- An operation that is not implemented for files or for directories. -/
def refuse (v : Word32) (file dir : Errno) : Action SfsWorld Errno :=
  answer v fun sv => .ok (if sv.inode.type = typeDir then dir else file)

/-- `sfs_lookparent` -/
def lookparent (v : Word32) (path : CString) (buflen : Nat) :
    Action SfsWorld (Except Errno (Word32 × CString)) := do
  let type ← answer v fun sv => .ok sv.inode.type
  if type ≠ typeDir then return .error eNotDir
  else if buflen < path.length + 1 then return .error Syscall.eNameTooLong
  else
    let _ ← call (.incref v)
    return .ok (v, path)

/-- The functions of the VFS layer on a volume that has these device names. -/
def calls (devices : CString → Bool) : VfsCalls SfsWorld Word32 where
  biglockAcquire w := .ok ((), { w with depth := w.depth + 1 })
  biglockRelease w := do
    kassert (0 < w.depth) "vfs_biglock_depth > 0"
    return ((), { w with depth := w.depth - 1 })
  biglockDoIHold w := .ok (0 < w.depth, w)
  cwd w := .ok (w.cwd, w)
  setCwd vn w := .ok ((), { w with cwd := vn })
  bootfs w := .ok (w.bootfs, w)
  setBootfs vn w := .ok ((), { w with bootfs := vn })
  vnFs _ := return some 0
  fsopGetroot _ := getroot
  getroot name := do if devices name then return .ok (← getroot) else return .error eNoDev
  incref v := do let _ ← call (.incref v)
  decref v := do let _ ← call (.decref v)
  incopen v := do let _ ← call (.incopen v)
  decopen v := do let _ ← call (.decopen v)
  vopOpen v openflags := answer v fun sv =>
    .ok (if sv.inode.type = typeDir then sfsOpendir openflags else sfsOpen openflags)
  readlink v := refuse v eNotDir Syscall.eIsDir
  gettype v := do return .ok (← answer v sfsGettype)
  truncate v len := do return (← call (.truncate v len)).errno
  creat dir name excl _ := do return (← call (.creat dir (toName name) excl (← takeFile))).toVnode
  symlink dir _ _ := refuse dir eNotDir eUnimp
  mkdir dir _ _ := refuse dir eNotDir eUnimp
  link dir name file := do return (← call (.link dir (toName name) file)).errno
  remove dir name := do return (← call (.remove dir (toName name) (← takeFile))).errno
  rmdir dir _ := refuse dir eNotDir eUnimp
  rename olddir oldname newdir newname := do
    return (← call (.rename olddir (toName oldname) newdir (toName newname) (← takeFile))).errno
  lookup dir path := do return (← call (.lookup dir (toName path) (← takeFile))).toVnode
  lookparent := lookparent

end SfsWorld

section

variable (h : Holding Word32) (cwd bootfs : Option Word32)

/-- What the references of the kernel and of the calls in progress add up to. -/
def countsOf (v : Word32) : Nat × Nat :=
  (h.loose.count v + h.opened.count v + (if cwd = some v then 1 else 0) + (if bootfs = some v then 1 else 0),
    h.opened.count v)

theorem countsOf_take (v : Word32) : countsOf (h.take v) cwd bootfs =
    update (countsOf h cwd bootfs) v
      ((countsOf h cwd bootfs v).1 + 1, (countsOf h cwd bootfs v).2) := by
  funext w
  by_cases same : w = v
  · subst same
    simp only [countsOf, take, Multiset.count_cons_self, update_self, Prod.mk.injEq, and_true]
    omega
  · simp only [countsOf, take, Multiset.count_cons_of_ne same, update_of_ne same]

theorem countsOf_takeOpen (v : Word32) : countsOf (h.takeOpen v) cwd bootfs =
    update (countsOf h cwd bootfs) v
      ((countsOf h cwd bootfs v).1 + 1, (countsOf h cwd bootfs v).2 + 1) := by
  funext w
  by_cases same : w = v
  · subst same
    simp only [countsOf, takeOpen, Multiset.count_cons_self, update_self, Prod.mk.injEq,
      and_true]
    omega
  · simp only [countsOf, takeOpen, Multiset.count_cons_of_ne same, update_of_ne same]

theorem countsOf_takeOption (new : Option Word32) (v : Word32) :
    countsOf (h.takeOption new) cwd bootfs v =
      ((countsOf h cwd bootfs v).1 + (if new = some v then 1 else 0), (countsOf h cwd bootfs v).2) := by
  cases new with
  | none => simp [takeOption]
  | some w =>
    rw [takeOption, countsOf_take]
    by_cases same : v = w
    · subst same
      simp
    · have apart : some w ≠ some v := fun equal => same (Option.some.inj equal).symm
      rw [update_of_ne same, if_neg apart, Nat.add_zero]

theorem countsOf_setCwd (new : Option Word32) :
    countsOf (h.takeOption new) cwd bootfs = countsOf (h.takeOption cwd) new bootfs := by
  funext v
  rw [countsOf_takeOption, countsOf_takeOption]
  simp only [countsOf, Prod.mk.injEq, and_true]
  omega

theorem countsOf_setBootfs (new : Option Word32) :
    countsOf (h.takeOption new) cwd bootfs = countsOf (h.takeOption bootfs) cwd new := by
  funext v
  rw [countsOf_takeOption, countsOf_takeOption]
  simp only [countsOf, Prod.mk.injEq, and_true]
  omega

end

/-- The calls that bind no name and remove none -/
def Request.Reads : Request → Prop
  | .creat .. | .link .. | .remove .. | .rename .. => False
  | _ => True

theorem Effect.unchanged (effect : Effect prev cramped req reply after) (reads : req.Reads) : after = prev := by
  cases effect <;> first | rfl | exact reads.elim

theorem Effect.getroot (effect : Effect prev cramped (.getroot memory) reply after)
    (ready : memory.vnode = true ∧ memory.table = true) : reply = .vnode rootLocation := by
  cases effect with
  | notDirectory called _ => simp [Request.directory] at called
  | exhausted short _ => exact absurd ready short
  | root => rfl

/-- The volume is consistent with these names, the counts of its vnodes are exact, and memory is found for
the root. -/
structure SfsWorld.Has (h : Holding Word32) (names : Name → Option Word32) (w : SfsWorld) : Prop where
  depth : w.depth = h.depth
  consistent : w.fs.Consistent
  names : w.fs.names = names
  counts : w.fs.tally = countsOf h w.cwd w.bootfs
  memory : ∀ memory ∈ w.roots, memory.vnode = true ∧ memory.table = true

/-- The name is not bound to the root. -/
def Movable (names : Name → Option Word32) (name : CString) : Prop := names (toName name) ≠ some rootLocation

namespace SfsWorld.Has

variable {h : Holding Word32} {names : Name → Option Word32} {w : SfsWorld} {v : Word32}

section

variable (has : Has h names w)
include has

theorem held_of_pos (counted : 0 < (countsOf h w.cwd w.bootfs v).1) :
    ∃ sv, w.fs.find v = some sv ∧ w.fs.held v = some (countsOf h w.cwd w.bootfs v) := by
  cases here : w.fs.held v with
  | none =>
    have none := SfsFs.tally_of_none here
    rw [has.counts] at none
    rw [none] at counted
    exact absurd counted (Nat.lt_irrefl 0)
  | some counts =>
    obtain ⟨sv, found, _⟩ := SfsFs.find_of_held here
    have same := SfsFs.tally_of_held here
    rw [has.counts] at same
    exact ⟨sv, found, by rw [same]⟩

theorem found (keeps : h.Keeps v) :
    ∃ sv, w.fs.find v = some sv ∧ w.fs.held v = some (countsOf h w.cwd w.bootfs v) := by
  refine has.held_of_pos ?_
  rcases keeps with loose | opened
  · have counted := Multiset.count_pos.mpr loose
    simp only [countsOf]
    omega
  · have counted := Multiset.count_pos.mpr opened
    simp only [countsOf]
    omega

theorem held (keeps : h.Keeps v) : w.fs.held v ≠ none := by
  obtain ⟨_, _, held⟩ := has.found keeps
  rw [held]
  exact nofun

theorem call (req : Request) (allowed : w.fs.Allows req) (calm : ¬ w.fs.RenamesRoot req)
    (ready : ∀ memory, req = .getroot memory → memory.vnode = true ∧ memory.table = true) :
    Returns (SfsWorld.call req) w fun reply w' => ∃ fs, w' = { w with fs := fs } ∧ fs.Consistent ∧
      Effect names (w.fs.fileAt rootLocation).Cramped req reply fs.names ∧
      fs.tally = req.tally (countsOf h w.cwd w.bootfs) reply := by
  obtain ⟨live, inv⟩ := has.consistent
  have ended := inv.perform allowed
  generalize outcome : w.fs.perform req = res at ended
  cases ended with
  | @returned _ reply fs did =>
    obtain ⟨live', table', inv', effect, _, _, tally⟩ := did
    obtain rfl : fs.listing = table' := inv'.listing
    have run : (SfsWorld.call req).run w = .ok (reply, { w with fs := fs }) := by
      change (w.fs.perform req >>= fun (reply, fs) => pure (reply, { w with fs := fs })) = _
      rw [outcome]
      rfl
    refine .of_run run ⟨fs, rfl, inv'.consistent, has.names ▸ effect, ?_⟩
    rw [← has.counts, tally]
  | renamedRoot bound => exact absurd ⟨rfl, bound⟩ calm
  | rootless short => exact absurd (ready _ rfl) short

theorem next {h' : Holding Word32} {fs : SfsFs} (depth : h'.depth = h.depth) (consistent : fs.Consistent)
    (named : fs.names = names') (counts : fs.tally = countsOf h' w.cwd w.bootfs) :
    Has h' names' { w with fs := fs } where
  depth := has.depth.trans depth.symm
  consistent := consistent
  names := named
  counts := counts
  memory := has.memory

theorem incref (held : w.fs.held v ≠ none) :
    Returns (SfsWorld.call (.incref v)) w fun _ => Has (h.take v) names := by
  refine (has.call (.incref v) held id nofun).mono ?_
  rintro reply _ ⟨fs, rfl, consistent, effect, tally⟩
  refine has.next rfl consistent (effect.unchanged trivial) ?_
  rw [tally, countsOf_take]
  rfl

end

theorem decref (has : Has (h.take v) names w) :
    Returns (SfsWorld.call (.decref v)) w fun _ => Has h names := by
  obtain ⟨_, _, held⟩ := has.found (keeps_take v)
  have spare : (countsOf (h.take v) w.cwd w.bootfs v).2 < (countsOf (h.take v) w.cwd w.bootfs v).1 := by
    simp only [countsOf, take, Multiset.count_cons_self]
    omega
  refine (has.call (.decref v) ⟨_, held, spare⟩ id (by simp)).mono ?_
  rintro reply _ ⟨fs, rfl, consistent, effect, tally⟩
  refine has.next rfl consistent (effect.unchanged trivial) ?_
  rw [tally, countsOf_take]
  simp only [Request.tally, update_idem, update_self]
  exact update_eq_self v _

theorem incopen (has : Has (h.take v) names w) :
    Returns (SfsWorld.call (.incopen v)) w fun _ => Has (h.takeOpen v) names := by
  obtain ⟨_, _, held⟩ := has.found (keeps_take v)
  have spare : (countsOf (h.take v) w.cwd w.bootfs v).2 < (countsOf (h.take v) w.cwd w.bootfs v).1 := by
    simp only [countsOf, take, Multiset.count_cons_self]
    omega
  refine (has.call (.incopen v) ⟨_, held, spare⟩ id (by simp)).mono ?_
  rintro reply _ ⟨fs, rfl, consistent, effect, tally⟩
  refine has.next rfl consistent (effect.unchanged trivial) ?_
  rw [tally, countsOf_take, countsOf_takeOpen]
  simp only [Request.tally, update_idem, update_self]

theorem decopen (has : Has (h.takeOpen v) names w) :
    Returns (SfsWorld.call (.decopen v)) w fun _ => Has (h.take v) names := by
  obtain ⟨_, _, held⟩ := has.found (.inr (Multiset.mem_cons_self v h.opened))
  have opened : 0 < (countsOf (h.takeOpen v) w.cwd w.bootfs v).2 := by
    simp only [countsOf, takeOpen, Multiset.count_cons_self]
    omega
  refine (has.call (.decopen v) ⟨_, held, opened⟩ id (by simp)).mono ?_
  rintro reply _ ⟨fs, rfl, consistent, effect, tally⟩
  refine has.next rfl consistent (effect.unchanged trivial) ?_
  rw [tally, countsOf_take, countsOf_takeOpen]
  simp only [Request.tally, update_idem, update_self, Nat.add_sub_cancel]

section

variable (has : Has h names w)
include has

theorem takeFile : Returns SfsWorld.takeFile w fun _ => Has h names := by
  cases answers : w.files with
  | nil =>
    have run : SfsWorld.takeFile.run w = .ok (.plenty, w) := by
      change SfsWorld.takeFile w = _
      simp only [SfsWorld.takeFile, answers]
    exact .of_run run has
  | cons memory rest =>
    have run : SfsWorld.takeFile.run w = .ok (memory, { w with files := rest }) := by
      change SfsWorld.takeFile w = _
      simp only [SfsWorld.takeFile, answers]
    exact .of_run run ⟨has.depth, has.consistent, has.names, has.counts, has.memory⟩

theorem takeRoot : Returns SfsWorld.takeRoot w fun memory w' => Has h names w' ∧
    memory.vnode = true ∧ memory.table = true := by
  have enough (run : SfsWorld.takeRoot.run w = .ok (.plenty, w)) : Returns SfsWorld.takeRoot w
      fun memory w' => Has h names w' ∧ memory.vnode = true ∧ memory.table = true :=
    .of_run run ⟨has, rfl, rfl⟩
  cases loaded : w.fs.find rootLocation with
  | some sv =>
    refine enough ?_
    change SfsWorld.takeRoot w = _
    simp only [SfsWorld.takeRoot, loaded]
  | none =>
    cases answers : w.roots with
    | nil =>
      refine enough ?_
      change SfsWorld.takeRoot w = _
      simp only [SfsWorld.takeRoot, loaded, answers]
    | cons memory rest =>
      have all := has.memory
      rw [answers] at all
      have kept : Has h names { w with roots := rest } := ⟨has.depth, has.consistent, has.names, has.counts,
        fun memory mem => all memory (List.mem_cons_of_mem _ mem)⟩
      refine .of_run ?_ ⟨kept, all memory List.mem_cons_self⟩
      change SfsWorld.takeRoot w = _
      simp only [SfsWorld.takeRoot, loaded, answers]

theorem getroot : Returns SfsWorld.getroot w fun root => Has (h.take root) names := by
  refine has.takeRoot.bind fun memory w ⟨has, ready⟩ => ?_
  have called := has.call (.getroot memory) trivial id (fun other same => by cases same; exact ready)
  refine called.bind ?_
  rintro reply _ ⟨fs, rfl, consistent, effect, tally⟩
  refine .pure (has.next rfl consistent (effect.unchanged trivial) ?_)
  rw [tally, effect.getroot ready, countsOf_take]
  rfl

theorem lookup (keeps : h.Keeps dir) (path : Name) (memory : Memory) :
    Returns (SfsWorld.call (.lookup dir path memory)) w fun reply => Has (h.handed reply.toVnode) names := by
  refine (has.call (.lookup dir path memory) (has.held keeps) id nofun).mono ?_
  rintro reply _ ⟨fs, rfl, consistent, effect, tally⟩
  have named := effect.unchanged trivial
  cases reply with
  | code res | moved res u => exact has.next rfl consistent named tally
  | vnode v =>
    refine has.next rfl consistent named ?_
    rw [tally, Reply.toVnode, Holding.handed_ok, countsOf_take]
    rfl

theorem creat (keeps : h.Keeps dir) (name : Name) (excl : Bool) (memory : Memory) :
    Returns (SfsWorld.call (.creat dir name excl memory)) w fun reply w' =>
      ∃ names', Has (h.handed reply.toVnode) names' w' := by
  refine (has.call (.creat dir name excl memory) (has.held keeps) id nofun).mono ?_
  rintro reply _ ⟨fs, rfl, consistent, _, tally⟩
  cases reply with
  | code res | moved res u => exact ⟨_, has.next rfl consistent rfl tally⟩
  | vnode v =>
    refine ⟨_, has.next rfl consistent rfl ?_⟩
    rw [tally, Reply.toVnode, Holding.handed_ok, countsOf_take]
    rfl

theorem change (req : Request) (allowed : w.fs.Allows req) (calm : ¬ w.fs.RenamesRoot req)
    (neutral : ∀ prev reply, req.tally prev reply = prev)
    (other : ∀ memory, req ≠ .getroot memory) :
    Returns (SfsWorld.call req) w fun _ w' => ∃ names', Has h names' w' := by
  refine (has.call req allowed calm fun memory same => absurd same (other memory)).mono ?_
  rintro reply _ ⟨fs, rfl, consistent, _, tally⟩
  exact ⟨_, has.next rfl consistent rfl (tally.trans (neutral _ _))⟩

theorem answer {A : Type} (keeps : h.Keeps v) {res : SfsVnode → Kernel A} (post : A → Prop)
    (known : ∀ sv, w.fs.find v = some sv → ∃ value, res sv = .ok value ∧ post value) :
    Returns (SfsWorld.answer v res) w fun value w' => Has h names w' ∧ post value := by
  obtain ⟨sv, found, _⟩ := has.found keeps
  obtain ⟨value, answered, holds⟩ := known sv found
  refine .of_run ?_ ⟨has, holds⟩
  change (w.fs.file v >>= fun f => res f.sv >>= fun value => pure (value, w)) = _
  rw [SfsFs.file_eq found, ok_bind, answered, ok_bind, pure_ok]

theorem refuse (keeps : h.Keeps v) (file dir : Errno) :
    Returns (SfsWorld.refuse v file dir) w fun _ => Has h names :=
  (has.answer keeps (fun _ => True) fun _ _ => ⟨_, rfl, trivial⟩).mono fun _ _ kept => kept.1

theorem fileType (found : w.fs.find v = some sv) :
    sv.inode.type = if v = rootLocation then typeDir else typeFile := by
  obtain ⟨live, inv⟩ := has.consistent
  have type := inv.fileType (inv.owned.loaded v sv found)
  rwa [SfsFs.vnodeAt_of_find found] at type

theorem lookparent (keeps : h.Keeps v) (path : CString) (buflen : Nat) :
    Returns (SfsWorld.lookparent v path buflen) w fun r w' => Has (h.handed (r.map Prod.fst)) names w' ∧
      ∀ parent name, r = .ok (parent, name) → parent = rootLocation ∧ name = path := by
  have typed : Returns (SfsWorld.answer v fun sv => .ok sv.inode.type) w fun type w' => Has h names w' ∧
      type = if v = rootLocation then typeDir else typeFile :=
    has.answer keeps (fun type => type = _) fun sv found => ⟨_, rfl, has.fileType found⟩
  refine typed.bind fun type w ⟨has, same⟩ => ?_
  split_ifs with file long
  · exact .pure ⟨has, nofun⟩
  · exact .pure ⟨has, nofun⟩
  · have root : v = rootLocation := by
      by_contra apart
      rw [if_neg apart] at same
      rw [same] at file
      exact file (by decide)
    refine (has.incref (has.held keeps)).bind fun _ _ has => .pure ⟨has, ?_⟩
    intro parent name found
    cases found
    exact ⟨root, rfl⟩

end

end SfsWorld.Has

theorem SfsWorld.serves (devices : CString → Bool) :
    (SfsWorld.calls devices).Serves SfsWorld.Has (· = rootLocation) Movable where
  acquire has := .of_run rfl ⟨congrArg (· + 1) has.depth, has.consistent, has.names, has.counts, has.memory⟩
  release {h n s} has := by
    have pos : 0 < s.depth := by
      rw [has.depth]
      exact Nat.succ_pos _
    have run : ((calls devices).biglockRelease).run s = .ok ((), { s with depth := s.depth - 1 }) := by
      change (kassert (0 < s.depth) _ >>= fun _ => pure ((), { s with depth := s.depth - 1 })) = _
      rw [kassert_ok.mpr pos, ok_bind, pure_ok]
    refine .of_run run ⟨?_, has.consistent, has.names, has.counts, has.memory⟩
    rw [has.depth]
    rfl
  held {h n s} has := by
    refine .of_run rfl ⟨?_, has⟩
    rw [has.depth]
    exact decide_eq_true (Nat.succ_pos _)
  cwd {h n s} has := by
    refine ⟨s.cwd, rfl, fun v same => ?_⟩
    have counted : 0 < (countsOf h s.cwd s.bootfs v).1 := by
      simp only [countsOf, if_pos same]
      omega
    obtain ⟨_, _, held⟩ := has.held_of_pos counted
    exact (has.incref (held.symm ▸ nofun)).bind fun _ _ has => .pure has
  setCwd new has read := by
    cases read
    refine .of_run rfl ⟨has.depth.trans (by simp), has.consistent, has.names, ?_, has.memory⟩
    exact has.counts.trans (countsOf_setCwd _ _ _ new)
  bootfs {h n s} has := by
    refine ⟨s.bootfs, rfl, fun v same => ?_⟩
    have counted : 0 < (countsOf h s.cwd s.bootfs v).1 := by
      simp only [countsOf, if_pos same]
      omega
    obtain ⟨_, _, held⟩ := has.held_of_pos counted
    exact (has.incref (held.symm ▸ nofun)).bind fun _ _ has => .pure has
  setBootfs new has read := by
    cases read
    refine .of_run rfl ⟨has.depth.trans (by simp), has.consistent, has.names, ?_, has.memory⟩
    exact has.counts.trans (countsOf_setBootfs _ _ _ new)
  vnFs has := .pure ⟨nofun, has⟩
  fsopGetroot has := has.getroot
  getroot name has := by
    change Returns (if devices name then _ else _) _ _
    split_ifs
    · exact has.getroot.bind fun _ _ has => .pure has
    · exact .pure has
  incref has keeps := (has.incref (has.held keeps)).bind fun _ _ has => .pure has
  decref has := has.decref.bind fun _ _ has => .pure has
  incopen has := has.incopen.bind fun _ _ has => .pure has
  decopen has := has.decopen.bind fun _ _ has => .pure has
  vopOpen {h n s v} flags has keeps := by
    change Returns (answer v fun sv => .ok (if sv.inode.type = typeDir then sfsOpendir flags
      else sfsOpen flags)) s _
    exact (has.answer keeps (fun _ => True) fun _ _ => ⟨_, rfl, trivial⟩).mono fun _ _ kept => kept.1
  readlink has keeps := has.refuse keeps _ _
  gettype has keeps := by
    refine (has.answer keeps (fun _ => True) fun sv found => ?_).bind fun _ _ kept => .pure kept.1
    have type := has.fileType found
    by_cases file : sv.inode.type = typeFile
    · exact ⟨sIfreg, if_pos file, trivial⟩
    · refine ⟨sIfdir, ?_, trivial⟩
      split_ifs at type
      · rw [sfsGettype, if_neg file, if_pos type]
      · exact absurd type file
  truncate len has keeps := by
    refine (has.call (.truncate _ len) (has.held keeps) id nofun).bind ?_
    rintro reply _ ⟨fs, rfl, consistent, effect, tally⟩
    exact .pure (has.next rfl consistent (effect.unchanged trivial) tally)
  creat name excl mode has keeps :=
    has.takeFile.bind fun memory _ has => (has.creat keeps (toName name) excl memory).bind fun _ _ has => .pure has
  symlink name contents has keeps := has.refuse keeps _ _
  mkdir name mode has keeps := has.refuse keeps _ _
  link {h n s dir other} name has keeps file := by
    have changed := has.change (.link dir (toName name) other) ⟨has.held keeps, has.held file⟩ id
      (fun _ _ => rfl) nofun
    exact changed.bind fun _ _ has => .pure has
  remove {h n s dir} name has keeps := by
    refine has.takeFile.bind fun memory _ has => ?_
    have changed := has.change (.remove dir (toName name) memory) (has.held keeps) id (fun _ _ => rfl) nofun
    exact changed.bind fun _ _ has => .pure has
  rmdir name has keeps := has.refuse keeps _ _
  rename {h n s olddir newdir oldname} newname has keeps _ oldDir newDir movable := by
    refine has.takeFile.bind fun memory w has => ?_
    have calm : ¬ w.fs.RenamesRoot (.rename olddir (toName oldname) newdir (toName newname) memory) := by
      rintro ⟨_, bound⟩
      rw [has.names] at bound
      exact movable bound
    have changed := has.change (.rename olddir (toName oldname) newdir (toName newname) memory)
      ⟨has.held keeps, oldDir.trans newDir.symm⟩ calm (fun _ _ => rfl) nofun
    exact changed.bind fun _ _ has => .pure has
  lookup path has keeps := has.takeFile.bind fun memory _ has =>
    (has.lookup keeps (toName path) memory).bind fun _ _ has => .pure has
  lookparent path buflen has keeps := has.lookparent keeps path buflen

end Os161.Sfs

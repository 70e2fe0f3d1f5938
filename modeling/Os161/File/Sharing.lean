import Os161.File.Transfer

namespace Os161.File
open Word Vm Outcome Syscall Transition Function Option Finset

/-- The processes with their tables, the files, and how often `sys_open` has opened and `sys_close` has
closed each vnode. -/
structure World where
  procs : Nat → Option Descriptors
  files : FileState
  opened : Vnode → Nat
  closed : Vnode → Nat

/-- A call of one process. -/
inductive FileOp where
  | openFile (p : Nat) (call : OpenCall) (as : AddrSpace)
  | closeFile (p : Nat) (fd : Int)
  | fork (p child : Nat)
  | transfer (p : Nat) (op : TransferOp) (as : AddrSpace)

/-- One more event for the vnode. -/
def tally (counts : Vnode → Nat) : Option Vnode → Vnode → Nat
  | none => counts
  | some vn => update counts vn (counts vn + 1)

/-- The vnode that `vfs_open` opens in the call. -/
def OpenCall.opens (call : OpenCall) (as : AddrSpace) (d : Descriptors) : Option Vnode :=
  if call.argumentError as = none ∧ d.openNum < maxFdTable ∧ call.vfs.result call.flag = 0 then
    some (call.vfs.found call.flag).2
  else none

/-- The descriptor behind a handle. -/
def Descriptors.ref (d : Descriptors) (fd : Int) : Option FdRef :=
  if 0 ≤ fd ∧ fd < maxFdTable then d.fdTable fd.toNat else none

/-- The table of a new process in `sys_fork` has the same pointers. -/
def Descriptors.fork (d : Descriptors) : Descriptors := { d with openNum := 0 }

/-- One call that returns. -/
inductive WorldStep : World → FileOp → World → Prop where
  | openFile {w : World} {p : Nat} {d next : Descriptors} {call : OpenCall} {as : AddrSpace}
      {reply : FileReply} {after : FileState} (here : w.procs p = some d)
      (returned : sysOpen call as d w.files = .ok (reply, next, after)) :
      WorldStep w (.openFile p call as)
        { w with
          procs := update w.procs p (some next)
          files := after
          opened := tally w.opened (call.opens as d) }
  | closeFile {w : World} {p : Nat} {d next : Descriptors} {fd : Int} {reply : FileReply}
      {after : FileState} (here : w.procs p = some d)
      (returned : sysClose fd d w.files = .ok (reply, next, after)) :
      WorldStep w (.closeFile p fd)
        { w with
          procs := update w.procs p (some next)
          files := after
          closed := tally w.closed (((d.ref fd).bind w.files.fds).map Fd.file) }
  | fork {w : World} {p child : Nat} {d : Descriptors} (here : w.procs p = some d)
      (new : w.procs child = none) :
      WorldStep w (.fork p child) { w with procs := update w.procs child (some d.fork) }
  | transfer {w : World} {p : Nat} {d : Descriptors} {op : TransferOp} {as : AddrSpace}
      {reply : FileReply} {moved : Option Transfer} {after : FileState} (here : w.procs p = some d)
      (returned : op.run as d w.files = .ok (reply, moved, after)) :
      WorldStep w (.transfer p op as) { w with files := after }

/-- The process holds the descriptor in one of its slots. -/
def World.Holds (w : World) (p slot : Nat) (ref : FdRef) : Prop :=
  ∃ d, w.procs p = some d ∧ slot < maxFdTable ∧ d.fdTable slot = some ref

/-- No table holds a freed descriptor, and no vnode was closed more often than `sys_open` opened it. -/
structure World.Sound (w : World) : Prop where
  live : ∀ p slot ref, w.Holds p slot ref → w.files.fds ref ≠ none
  once : ∀ vn, w.closed vn ≤ w.opened vn

/-- No other slot of any process holds the descriptor that the call closes. An open that fails in
`vfs_open` has another flag than `O_CREAT`. -/
def FileOp.Safe (op : FileOp) (w : World) : Prop :=
  match op with
  | .openFile _ call _ => call.vfs.result call.flag ≠ 0 → call.flag &&& ~~~oCreat ≠ 0
  | .closeFile p fd => ∀ d ref, w.procs p = some d → d.ref fd = some ref →
      ∀ q slot, w.Holds q slot ref → q = p ∧ slot = fd.toNat
  | .fork _ _ => True
  | .transfer _ _ _ => True

/-- A step that meets the condition. -/
structure SafeWorldStep (w : World) (op : FileOp) (next : World) : Prop where
  step : WorldStep w op next
  safe : op.Safe w

/-- No process has opened a file and no vnode was closed. -/
structure World.Fresh (w : World) : Prop where
  empty : ∀ p d slot, w.procs p = some d → d.fdTable slot = none
  unallocated : ∀ ref, w.files.fds ref = none
  unclosed : ∀ vn, w.closed vn = 0

/-- The number of allocated descriptors for the vnode. -/
def FileState.live (f : FileState) (vn : Vnode) : Nat :=
  ((Finset.range f.allocated).filter fun ref => (f.fds ref).map Fd.file = some vn).card

/-- What holds in every state of a run whose calls meet the condition. -/
structure World.Inv (w : World) : Prop where
  live : ∀ p slot ref, w.Holds p slot ref → w.files.fds ref ≠ none
  fresh : ∀ ref, w.files.allocated ≤ ref → w.files.fds ref = none
  balance : ∀ vn, w.closed vn + w.files.live vn ≤ w.opened vn

variable {w : World}

theorem World.Inv.sound (inv : w.Inv) : w.Sound where
  live := inv.live
  once vn := Nat.le_trans (Nat.le_add_right _ _) (inv.balance vn)

theorem World.Fresh.inv (fresh : w.Fresh) : w.Inv where
  live := by
    rintro p slot ref ⟨d, here, _, held⟩
    cases (fresh.empty p d slot here).symm.trans held
  fresh := fun ref _ => fresh.unallocated ref
  balance := by
    intro vn
    have none : w.files.live vn = 0 := by
      simp [FileState.live, fresh.unallocated]
    rw [fresh.unclosed, none]
    exact Nat.zero_le _

theorem FileState.live_create (f : FileState) (vnodes : Vnodes) (fd : Fd) (vn : Vnode) :
    FileState.live
      { vnodes := vnodes, fds := update f.fds f.allocated (some fd), allocated := f.allocated + 1 }
      vn = f.live vn + if fd.file = vn then 1 else 0 := by
  have older : ((Finset.range f.allocated).filter fun ref =>
        (update f.fds f.allocated (some fd) ref).map Fd.file = some vn) =
      (Finset.range f.allocated).filter fun ref => (f.fds ref).map Fd.file = some vn := by
    refine filter_congr fun ref mem => ?_
    rw [update_of_ne (mem_range.mp mem).ne]
  unfold FileState.live
  simp only [range_add_one, filter_insert, update_self, older,
    map_some, Option.some.injEq]
  split
  · exact card_insert_of_notMem (by simp)
  · rfl

variable {f : FileState} {ref : FdRef}

theorem FileState.live_free (inside : ref < f.allocated) (held : f.fds ref = some fd) (vnodes : Vnodes)
    (vn : Vnode) :
    FileState.live { f with vnodes := vnodes, fds := update f.fds ref none } vn +
      (if fd.file = vn then 1 else 0) = f.live vn := by
  have rest : ((Finset.range f.allocated).filter fun other =>
        (update f.fds ref none other).map Fd.file = some vn) =
      ((Finset.range f.allocated).filter fun other =>
        (f.fds other).map Fd.file = some vn).erase ref := by
    ext other
    by_cases same : other = ref
    · simp [same]
    · simp [same]
  unfold FileState.live
  rw [rest]
  by_cases same : fd.file = vn
  · have mem : ref ∈ (Finset.range f.allocated).filter fun other =>
        (f.fds other).map Fd.file = some vn := by
      simp [inside, held, same]
    rw [if_pos same]
    exact card_erase_add_one mem
  · rw [if_neg same, erase_eq_of_notMem (by simp [held, same])]
    rfl

/-- The same descriptors are allocated, for the same vnodes. -/
structure SameFiles (f after : FileState) : Prop where
  allocated : after.allocated = f.allocated
  file : ∀ ref, (after.fds ref).map Fd.file = (f.fds ref).map Fd.file

variable {after : FileState}

theorem SameFiles.of_eq (fds : after.fds = f.fds) (allocated : after.allocated = f.allocated) :
    SameFiles f after :=
  ⟨allocated, fun ref => by rw [fds]⟩

theorem SameFiles.fds_none (same : SameFiles f after) (ref : FdRef) :
    after.fds ref = none ↔ f.fds ref = none := by
  rw [← map_eq_none_iff (f := Fd.file), same.file, map_eq_none_iff]

theorem SameFiles.live (same : SameFiles f after) (vn : Vnode) : after.live vn = f.live vn := by
  unfold FileState.live
  rw [same.allocated]
  simp only [same.file]

theorem openConsole_same (ran : openConsole call flags f = .ok (vn, after)) : SameFiles f after := by
  obtain ⟨⟨_, found, vnodes⟩, _, went⟩ := bind_ok.mp ran
  dsimp only at went
  split at went
  · cases went
  · cases went
    exact .of_eq rfl rfl

variable {as : AddrSpace} {d : Descriptors} {reply : FileReply} {moved : Option Transfer}

theorem refused_same {bad : Prop} [Decidable bad] {rest : Kernel (FileReply × Option Transfer × FileState)}
    (ran : (if bad then .ok (.failed code, none, f) else rest) = .ok (reply, moved, after))
    (next : rest = .ok (reply, moved, after) → SameFiles f after) : SameFiles f after := by
  split at ran
  · cases ran
    exact .of_eq rfl rfl
  · exact next ran

theorem console_same {next : Vnode × FileState → Kernel (FileReply × Option Transfer × FileState)}
    (ran : (do
      let _ ← asCreate heap
      let console ← openConsole call flags f
      next console) = .ok (reply, moved, after))
    (keeps : ∀ console, next console = .ok (reply, moved, after) → after = console.2) :
    SameFiles f after := by
  obtain ⟨_, _, went⟩ := bind_ok.mp ran
  obtain ⟨console, opened, transferred⟩ := bind_ok.mp went
  rw [keeps console transferred]
  exact openConsole_same opened

theorem descriptor_same {refuses : Fd → Prop} [DecidablePred refuses]
    {next : Fd → Kernel (FileReply × Option Transfer × FileState)}
    (ran : (do
      let tmp ← f.fetch ref
      if refuses tmp then return (.failed code, none, f)
      let _ ← asCreate heap
      next tmp : Kernel (FileReply × Option Transfer × FileState)) = .ok (reply, moved, after))
    (keeps : ∀ tmp, f.fetch ref = .ok tmp → next tmp = .ok (reply, moved, after) →
      SameFiles f after) : SameFiles f after := by
  obtain ⟨tmp, fetched, went⟩ := bind_ok.mp ran
  refine refused_same went fun went => ?_
  obtain ⟨_, _, transferred⟩ := bind_ok.mp went
  exact keeps tmp fetched transferred

theorem sysRead_same (ran : sysRead call as d f = .ok (reply, moved, after)) : SameFiles f after := by
  refine refused_same ran fun ran => refused_same ran fun ran => refused_same ran fun ran => ?_
  split at ran
  · refine console_same ran fun _ same => ?_
    cases same
    rfl
  · split at ran
    · cases ran
      exact .of_eq rfl rfl
    · refine descriptor_same ran fun tmp _ same => ?_
      cases same
      exact .of_eq rfl rfl

theorem sysWrite_same (ran : sysWrite call as d f = .ok (reply, moved, after)) : SameFiles f after := by
  refine refused_same ran fun ran => refused_same ran fun ran => refused_same ran fun ran => ?_
  split at ran
  · refine console_same ran fun _ same => ?_
    cases same
    rfl
  · split at ran
    · cases ran
      exact .of_eq rfl rfl
    · rename_i ref held
      refine descriptor_same ran fun tmp fetched transferred => ?_
      dsimp only at transferred
      split at transferred
      · cases transferred
        exact .of_eq rfl rfl
      · cases transferred
        refine ⟨rfl, fun other => ?_⟩
        by_cases same : other = ref
        · subst same
          simp [FileState.fetch_ok.mp fetched]
        · simp [same]

theorem TransferOp.run_same {op : TransferOp} (ran : op.run as d f = .ok (reply, moved, after)) :
    SameFiles f after := by
  cases op with
  | read call => exact sysRead_same ran
  | write call => exact sysWrite_same ran

variable {p : Nat} {next : Descriptors}

theorem World.Holds.replaced {files : FileState} {opened closed : Vnode → Nat} {q slot : Nat}
    (held : World.Holds ⟨update w.procs p (some next), files, opened, closed⟩ q slot ref) :
    (q = p ∧ slot < maxFdTable ∧ next.fdTable slot = some ref) ∨ (q ≠ p ∧ w.Holds q slot ref) := by
  obtain ⟨d, here, inside, entry⟩ := held
  dsimp only at here
  by_cases same : q = p
  · subst same
    rw [update_self] at here
    cases here
    exact .inl ⟨rfl, inside, entry⟩
  · rw [update_of_ne same] at here
    exact .inr ⟨same, d, here, inside, entry⟩

theorem World.Inv.unchanged (inv : w.Inv) (here : w.procs p = some d)
    (slots : next.fdTable = d.fdTable) (same : SameFiles w.files after) {opened : Vnode → Nat}
    (grows : ∀ vn, w.opened vn ≤ opened vn) :
    World.Inv ⟨update w.procs p (some next), after, opened, w.closed⟩ where
  live := by
    intro q slot ref held
    refine mt (same.fds_none ref).mp ?_
    obtain ⟨rfl, inside, entry⟩ | ⟨_, older⟩ := held.replaced
    · rw [slots] at entry
      exact inv.live q slot ref ⟨d, here, inside, entry⟩
    · exact inv.live q slot ref older
  fresh := by
    intro ref high
    exact (same.fds_none ref).mpr (inv.fresh ref (same.allocated ▸ high))
  balance := by
    intro vn
    rw [same.live]
    exact Nat.le_trans (inv.balance vn) (grows vn)

theorem tally_grows (counts : Vnode → Nat) (event : Option Vnode) (vn : Vnode) :
    counts vn ≤ tally counts event vn := by
  cases event with
  | none => exact Nat.le_refl _
  | some other =>
    by_cases same : vn = other
    · subst same
      simp [tally]
    · simp [tally, same]

theorem tally_some (counts : Vnode → Nat) (other vn : Vnode) :
    tally counts (some other) vn = counts vn + if other = vn then 1 else 0 := by
  by_cases same : vn = other
  · subst same
    simp [tally]
  · simp [tally, same, Ne.symm same]

theorem World.Inv.create (inv : w.Inv) (here : w.procs p = some d) (count : Nat) (fd : Fd) (vnodes : Vnodes) :
    World.Inv
      { procs := update w.procs p
          (some ⟨update d.fdTable handle (some w.files.allocated), count⟩)
        files :=
          { vnodes := vnodes
            fds := update w.files.fds w.files.allocated (some fd)
            allocated := w.files.allocated + 1 }
        opened := tally w.opened (some fd.file)
        closed := w.closed } where
  live := by
    -- the new pointer and every older one
    have kept (ref : FdRef) (older : w.files.fds ref ≠ none) :
        update w.files.fds w.files.allocated (some fd) ref ≠ none := by
      by_cases same : ref = w.files.allocated
      · simp [same]
      · rwa [update_of_ne same]
    intro q slot ref held
    obtain ⟨rfl, inside, entry⟩ | ⟨_, older⟩ := held.replaced
    · dsimp only at entry
      by_cases same : slot = handle
      · subst same
        rw [update_self] at entry
        cases entry
        simp
      · rw [update_of_ne same] at entry
        exact kept ref (inv.live q slot ref ⟨d, here, inside, entry⟩)
    · exact kept ref (inv.live q slot ref older)
  fresh := by
    intro ref high
    have other : ref ≠ w.files.allocated := (Nat.lt_of_succ_le high).ne'
    dsimp only
    rw [update_of_ne other]
    exact inv.fresh ref (Nat.le_of_succ_le high)
  balance := by
    intro vn
    have prev := inv.balance vn
    dsimp only
    rw [FileState.live_create, tally_some]
    omega

theorem World.Inv.free (inv : w.Inv) (here : w.procs p = some d) (held : w.files.fds ref = some fd)
    (alone : ∀ q other, w.Holds q other ref → q = p ∧ other = slot) (vnodes : Vnodes) :
    World.Inv
      { procs := update w.procs p (some { d with fdTable := update d.fdTable slot none })
        files := { w.files with vnodes := vnodes, fds := update w.files.fds ref none }
        opened := w.opened
        closed := tally w.closed (some fd.file) } where
  live := by
    -- a pointer that is left is one of the older pointers, and not to the freed descriptor
    have kept (q other : Nat) (ptr : FdRef) (older : w.Holds q other ptr)
        (left : ¬ (q = p ∧ other = slot)) :
        update w.files.fds ref none ptr ≠ none := by
      have differ : ptr ≠ ref := by
        rintro rfl
        exact left (alone q other older)
      rw [update_of_ne differ]
      exact inv.live q other ptr older
    intro q other ptr remains
    obtain ⟨rfl, inside, entry⟩ | ⟨apart, older⟩ := remains.replaced
    · dsimp only at entry
      have moved : other ≠ slot := by
        rintro rfl
        rw [update_self] at entry
        cases entry
      rw [update_of_ne moved] at entry
      exact kept q other ptr ⟨d, here, inside, entry⟩ fun both => moved both.2
    · exact kept q other ptr older fun both => apart both.1
  fresh := by
    intro ptr high
    by_cases same : ptr = ref
    · simp [same]
    · dsimp only
      rw [update_of_ne same]
      exact inv.fresh ptr high
  balance := by
    intro vn
    have inside : ref < w.files.allocated := by
      by_contra high
      cases (inv.fresh ref (Nat.le_of_not_lt high)).symm.trans held
    have prev := inv.balance vn
    have freed := FileState.live_free inside held vnodes vn
    dsimp only
    rw [tally_some]
    omega

theorem World.Inv.openFile (inv : w.Inv) (here : w.procs p = some d) {call : OpenCall}
    (safe : call.vfs.result call.flag ≠ 0 → call.flag &&& ~~~oCreat ≠ 0)
    (effect : OpenEffect call as d w.files reply next after) :
    World.Inv
      { w with
        procs := update w.procs p (some next)
        files := after
        opened := tally w.opened (call.opens as d) } := by
  cases effect with
  | refused error | full passed full => exact inv.unchanged here rfl (.of_eq rfl rfl) (tally_grows _ _)
  | failed passed room error =>
    refine inv.unchanged here ?_ ?_ (tally_grows _ _)
    · rfl
    · exact .of_eq rfl rfl
  | @opened handle vn passed room proceeds slot block file =>
    have res : call.vfs.result call.flag = 0 := by
      by_contra failed
      exact safe failed ((openError_none.mp proceeds).2 failed)
    have vnode : (call.vfs.found call.flag).2 = vn :=
      Option.some.inj ((if_pos res).symm.trans file)
    have opens : call.opens as d = some (call.descriptor vn).file := by
      rw [OpenCall.opens, if_pos ⟨passed, room, res⟩, vnode]
      rfl
    rw [opens]
    exact inv.create here _ (call.descriptor vn) _

variable {fd : Int}

theorem Descriptors.ref_of_bad (bad : fd < 0 ∨ maxFdTable ≤ fd ∨ d.fdTable fd.toNat = none) :
    d.ref fd = none := by
  unfold Descriptors.ref
  split
  · exact (bad.resolve_left (by omega)).resolve_left (by omega)
  · rfl

theorem World.Inv.closeFile (inv : w.Inv) (here : w.procs p = some d)
    (safe : (FileOp.closeFile p fd).Safe w) (effect : CloseEffect fd d w.files reply next after) :
    World.Inv
      { w with
        procs := update w.procs p (some next)
        files := after
        closed := tally w.closed (((d.ref fd).bind w.files.fds).map Fd.file) } := by
  cases effect with
  | failed bad =>
    rw [Descriptors.ref_of_bad bad]
    exact inv.unchanged here rfl (.of_eq rfl rfl) fun _ => Nat.le_refl _
  | @closed ref descriptor vnodes low high held allocated _ =>
    have refers : d.ref fd = some ref := (if_pos ⟨low, high⟩).trans held
    have file : ((d.ref fd).bind w.files.fds).map Fd.file = some descriptor.file := by
      rw [refers, bind_some, allocated]
      rfl
    rw [file]
    exact inv.free here allocated (safe d ref here refers) vnodes

theorem World.Inv.fork (inv : w.Inv) (here : w.procs p = some d) :
    World.Inv { w with procs := update w.procs child (some d.fork) } where
  live := by
    intro q slot ref held
    obtain ⟨_, inside, entry⟩ | ⟨_, older⟩ := held.replaced
    · exact inv.live p slot ref ⟨d, here, inside, entry⟩
    · exact inv.live q slot ref older
  fresh := inv.fresh
  balance := inv.balance

theorem SafeWorldStep.inv {next : World} {op : FileOp} (step : SafeWorldStep w op next)
    (inv : w.Inv) : next.Inv := by
  obtain ⟨step, safe⟩ := step
  cases step with
  | openFile here ran => exact inv.openFile here safe (sysOpen_ok.mp ran)
  | closeFile here ran => exact inv.closeFile here safe (sysClose_ok.mp ran)
  | fork here new => exact inv.fork here
  | @transfer p d op as reply moved after here ran =>
    have kept := inv.unchanged here rfl (TransferOp.run_same ran) fun _ => Nat.le_refl _
    rwa [← here, update_eq_self] at kept

theorem closeFile_unshared {next : World} (step : WorldStep w (.closeFile p fd) next)
    (sound : next.Sound) : (FileOp.closeFile p fd).Safe w := by
  intro d ref here refers q slot held
  cases step with
  | closeFile again ran =>
    cases here.symm.trans again
    cases sysClose_ok.mp ran with
    | failed bad => cases (Descriptors.ref_of_bad bad).symm.trans refers
    | closed low high entry allocated _ =>
      cases ((if_pos ⟨low, high⟩).trans entry).symm.trans refers
      by_contra apart
      obtain ⟨e, there, inside, ptr⟩ := held
      refine sound.live q slot ref ?_ (update_self ..)
      by_cases same : q = p
      · subst same
        cases here.symm.trans there
        refine ⟨_, update_self .., inside, ?_⟩
        dsimp only
        rwa [update_of_ne]
        rintro rfl
        exact apart ⟨rfl, rfl⟩
      · exact ⟨e, (update_of_ne same ..).trans there, inside, ptr⟩

/-- No table holds a freed descriptor while no shared one is closed. -/
theorem descriptors_not_freed_iff {start w : World} (fresh : start.Fresh) {ops : List FileOp}
    (reached : Run SafeWorldStep start ops w) :
    w.Sound ∧ ∀ p fd next, WorldStep w (.closeFile p fd) next →
      (next.Sound ↔ (FileOp.closeFile p fd).Safe w) := by
  have inv : w.Inv := reached.invariant
    (fun (state : World) _ _ (before : state.Inv) step => step.inv before) fresh.inv
  refine ⟨inv.sound, fun p fd next step => ⟨closeFile_unshared step, fun safe => ?_⟩⟩
  exact (SafeWorldStep.inv ⟨step, safe⟩ inv).sound

/-- One process without open files. -/
def oneProcess : World where
  procs := update (fun _ => none) 0 (some .empty)
  files := .empty
  opened := fun _ => 0
  closed := fun _ => 0

theorem oneProcess_fresh : oneProcess.Fresh where
  empty := by
    intro p d slot here
    cases p with
    | zero =>
      cases here
      rfl
    | succ p => cases here
  unallocated := fun _ => rfl
  unclosed := fun _ => rfl

/-- The process opens a file and forks. -/
def openAndFork : List FileOp :=
  [.openFile 0 (smallOpen 0 existingFile none) smallLoaded.1, .fork 0 1]

/-- After a fork the tables are sound until the parent closes the file. -/
theorem descriptors_not_freed_fork :
    ∃ w, Run SafeWorldStep oneProcess openAndFork w ∧ w.Sound ∧
      ∀ next, WorldStep w (.closeFile 0 3) next → ¬ next.Sound := by
  have reached : Run SafeWorldStep oneProcess openAndFork _ :=
    .cons ⟨.openFile rfl rfl, fun failed => absurd rfl failed⟩ (.single ⟨.fork rfl rfl, trivial⟩)
  obtain ⟨sound, closes⟩ := descriptors_not_freed_iff oneProcess_fresh reached
  refine ⟨_, reached, sound, fun next step => mt (closes 0 3 next step).mp fun safe => ?_⟩
  have alone := safe _ 0 rfl rfl 1 3 ⟨_, rfl, by decide, rfl⟩
  exact absurd alone.1 (by decide)

/-- After a close by the parent the child holds the freed descriptor. -/
theorem child_holds_freed :
    ∃ w d, Run WorldStep oneProcess (openAndFork ++ [.closeFile 0 3]) w ∧ w.procs 1 = some d ∧
      d.fdTable 3 = some 0 ∧ w.files.fds 0 = none ∧
      sysClose 3 d w.files = .error (.message "Fatal exception in kernel mode") := by
  have reached : Run WorldStep oneProcess (openAndFork ++ [.closeFile 0 3]) _ :=
    .cons (.openFile rfl rfl) (.cons (.fork rfl rfl) (.single (.closeFile rfl rfl)))
  exact ⟨_, _, reached, rfl, rfl, rfl, rfl⟩

end Os161.File

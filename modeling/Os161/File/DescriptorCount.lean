import Os161.File.OpenFile

namespace Os161.File
open Word Vm Outcome Syscall Transition Function Finset

/-- The number of occupied slots. -/
def occupied (fdTable : Nat → Option FdRef) : Nat :=
  ((Finset.range maxFdTable).filter fun slot => fdTable slot ≠ none).card

/-- `open_num` is the number of occupied slots. -/
def Descriptors.Accounted (d : Descriptors) : Prop := d.openNum = occupied d.fdTable

theorem occupied_fill {fdTable : Nat → Option FdRef} (inside : slot < maxFdTable)
    (free : fdTable slot = none) (ref : FdRef) :
    occupied (update fdTable slot (some ref)) = occupied fdTable + 1 := by
  have added : ((Finset.range maxFdTable).filter fun i =>
        update fdTable slot (some ref) i ≠ none) =
      insert slot ((Finset.range maxFdTable).filter fun i => fdTable i ≠ none) := by
    ext i
    by_cases same : i = slot
    · subst same
      simp [inside]
    · simp [same]
  rw [occupied, added, card_insert_of_notMem (by simp [free])]
  rfl

theorem occupied_clear {fdTable : Nat → Option FdRef} (inside : slot < maxFdTable)
    (taken : fdTable slot ≠ none) : occupied (update fdTable slot none) + 1 = occupied fdTable := by
  obtain ⟨ref, held⟩ := Option.ne_none_iff_exists'.mp taken
  have emptied : update fdTable slot none slot = none := update_self ..
  have refilled := occupied_fill inside emptied ref
  rw [update_idem, ← held, update_eq_self] at refilled
  exact refilled.symm

theorem Descriptors.Accounted.not_hasFree {d : Descriptors} (accounted : d.Accounted)
    (full : maxFdTable ≤ d.openNum) : ¬ d.HasFree := by
  rintro ⟨slot, _, inside, free⟩
  have bound : occupied d.fdTable ≤ maxFdTable := by
    have subset := card_filter_le (Finset.range maxFdTable) fun i => d.fdTable i ≠ none
    rwa [card_range] at subset
  have all : occupied d.fdTable = (Finset.range maxFdTable).card := by
    exact Nat.le_antisymm bound (accounted ▸ full)
  exact card_filter_eq_iff.mp all slot (mem_range.mpr inside) free

theorem Descriptors.Accounted.room {d : Descriptors} (accounted : d.Accounted) (free : d.HasFree) :
    d.openNum < maxFdTable :=
  Nat.lt_of_not_le fun full => accounted.not_hasFree full free

/-- A call on the table of a process. -/
inductive TableOp where
  | openFile (call : OpenCall) (as : AddrSpace)
  | closeFile (fd : Int)

def TableOp.run : TableOp → Descriptors → FileState → Kernel (FileReply × Descriptors × FileState)
  | .openFile call as => sysOpen call as
  | .closeFile fd => sysClose fd

/-- What the call should return: an open that passes the argument checks fails with `EMFILE` exactly
when no slot for files is empty, and a handle is an empty slot for files. -/
def TableOp.Right (op : TableOp) (d : Descriptors) (reply : FileReply) : Prop :=
  match op with
  | .openFile call as =>
    (call.argumentError as = none → (reply = .failed eMfile ↔ ¬ d.HasFree)) ∧
      ∀ handle, reply = .returned handle →
        3 ≤ handle ∧ handle < maxFdTable ∧ d.fdTable handle = none
  | .closeFile _ => True

/-- The call returns, returns the right thing and keeps the table accounted for. -/
def TableOp.Keeps (op : TableOp) (d : Descriptors) (f : FileState) : Prop :=
  ∃ reply next after, op.run d f = .ok (reply, next, after) ∧ next.Accounted ∧ op.Right d reply

/-- An open that passes the argument checks meets a table with all slots occupied, or it has an empty
slot for files, no error behind `vfs_open`, memory for the descriptor and a vnode. A close fails. -/
def TableOp.Safe (op : TableOp) (d : Descriptors) : Prop :=
  match op with
  | .openFile call as => call.argumentError as = none → maxFdTable ≤ d.openNum ∨
      (d.HasFree ∧ openError (call.vfs.result call.flag) call.flag = none ∧ call.block = true ∧
        call.newFile ≠ none)
  | .closeFile fd => fd < 0 ∨ maxFdTable ≤ fd ∨ d.fdTable fd.toNat = none

/-- One call that returns. -/
def TableStep (s : Descriptors × FileState) (op : TableOp) (next : Descriptors × FileState) : Prop :=
  ∃ reply, op.run s.1 s.2 = .ok (reply, next)

/-- A step that meets the condition. -/
structure SafeTableStep (s : Descriptors × FileState) (op : TableOp)
    (next : Descriptors × FileState) : Prop where
  step : TableStep s op next
  safe : op.Safe s.1

theorem openFile_keeps_iff {d : Descriptors} (accounted : d.Accounted) (f : FileState)
    (call : OpenCall) (as : AddrSpace) :
    (TableOp.openFile call as).Keeps d f ↔ (TableOp.openFile call as).Safe d := by
  constructor
  · rintro ⟨reply, next, after, ran, kept, right, _⟩ passed
    cases sysOpen_ok.mp ran with
    | refused error => cases passed.symm.trans error
    | full _ full => exact .inl full
    | failed _ room error =>
      -- the failed call has counted a slot that it does not fill
      have miscounted : d.openNum + 1 = occupied d.fdTable := kept
      rw [accounted] at miscounted
      omega
    | opened _ _ proceeds slot block file =>
      exact .inr ⟨d.hasFree_iff.mpr ⟨_, slot⟩, proceeds, block, by simp [file]⟩
  · intro safe
    cases check : call.argumentError as with
    | some code =>
      refine ⟨_, _, _, sysOpen_ok.mpr (.refused check), accounted, ?_, ?_⟩
      · intro passed
        cases check.symm.trans passed
      · rintro _ ⟨⟩
    | none =>
      obtain full | ⟨free, proceeds, block, file⟩ := safe check
      · refine ⟨_, _, _, sysOpen_ok.mpr (.full check full), accounted, fun _ => ?_, ?_⟩
        · exact iff_of_true rfl (accounted.not_hasFree full)
        · rintro _ ⟨⟩
      · obtain ⟨handle, slot⟩ := d.hasFree_iff.mp free
        obtain ⟨vn, held⟩ := Option.ne_none_iff_exists'.mp file
        refine ⟨_, _, _, sysOpen_ok.mpr
          (.opened check (accounted.room free) proceeds slot block held), ?_, fun _ => ?_, ?_⟩
        · have filled := occupied_fill slot.high slot.free f.allocated
          rw [← accounted] at filled
          exact filled.symm
        · exact iff_of_false (by rintro ⟨⟩) (not_not.mpr free)
        · rintro _ ⟨⟩
          exact ⟨slot.low, slot.high, slot.free⟩

theorem closeFile_keeps_iff {d : Descriptors} (accounted : d.Accounted) (f : FileState) (fd : Int) :
    (TableOp.closeFile fd).Keeps d f ↔ (TableOp.closeFile fd).Safe d := by
  constructor
  · rintro ⟨reply, next, after, ran, kept, _⟩
    cases sysClose_ok.mp ran with
    | failed bad => exact bad
    | closed low high held _ _ =>
      have taken : d.fdTable fd.toNat ≠ none := by simp [held]
      have cleared := occupied_clear (by omega) taken
      have uncounted : d.openNum = occupied (update d.fdTable fd.toNat none) := kept
      rw [accounted] at uncounted
      omega
  · intro bad
    exact ⟨_, _, _, sysClose_ok.mpr (.failed bad), accounted, trivial⟩

theorem TableOp.keeps_iff {d : Descriptors} (accounted : d.Accounted) (f : FileState) (op : TableOp) :
    op.Keeps d f ↔ op.Safe d := by
  cases op with
  | openFile call as => exact openFile_keeps_iff accounted f call as
  | closeFile fd => exact closeFile_keeps_iff accounted f fd

theorem SafeTableStep.accounted (step : SafeTableStep s op next) (accounted : s.1.Accounted) :
    next.1.Accounted := by
  obtain ⟨reply, ran⟩ := step.step
  obtain ⟨_, _, _, again, kept, _⟩ := (op.keeps_iff accounted s.2).mpr step.safe
  cases ran.symm.trans again
  exact kept

/-- A call keeps the account of the table exactly when it meets the condition. -/
theorem descriptors_accounted_iff {start s : Descriptors × FileState} (accounted : start.1.Accounted)
    {ops : List TableOp} (reached : Run SafeTableStep start ops s) :
    s.1.Accounted ∧ ∀ op : TableOp, op.Keeps s.1 s.2 ↔ op.Safe s.1 := by
  have kept : s.1.Accounted := reached.invariant
    (fun (state : Descriptors × FileState) _ _ (before : state.1.Accounted) step =>
      step.accounted before) accounted
  exact ⟨kept, fun op => op.keeps_iff kept s.2⟩

theorem Descriptors.empty_accounted : Descriptors.empty.Accounted := rfl

/-- After one open the handle 3 is accounted for. -/
theorem descriptors_accounted_existing :
    ∃ s, Run SafeTableStep (.empty, .empty)
        [.openFile (smallOpen 0 existingFile none) smallLoaded.1] s ∧
      s.1.fdTable 3 = some 0 ∧ s.1.Accounted ∧ ¬ (TableOp.closeFile 3).Keeps s.1 s.2 := by
  have safe : (TableOp.openFile (smallOpen 0 existingFile none) smallLoaded.1).Safe .empty :=
    fun _ => .inr ⟨⟨3, by decide, by decide, rfl⟩, by decide, rfl, by decide⟩
  have reached : Run SafeTableStep (.empty, .empty)
      [.openFile (smallOpen 0 existingFile none) smallLoaded.1] (_, _) :=
    .single ⟨⟨_, rfl⟩, safe⟩
  obtain ⟨accounted, keeps⟩ := descriptors_accounted_iff Descriptors.empty_accounted reached
  refine ⟨_, reached, rfl, accounted, mt (keeps (.closeFile 3)).mp ?_⟩
  rintro (low | high | empty)
  · exact absurd low (by decide)
  · exact absurd high (by decide)
  · cases (show some 0 = none from empty)

/-- An attempt to open a missing file for writing. -/
def failingOpen : TableOp := .openFile (smallOpen 1 missingFile none) smallLoaded.1

theorem failingOpen_counted (d : Descriptors) (f : FileState) (room : d.openNum < maxFdTable) :
    failingOpen.run d f = .ok (.failed eNoEnt, { d with openNum := d.openNum + 1 }, f) := by
  have effect : OpenEffect (smallOpen 1 missingFile none) smallLoaded.1 d f (.failed eNoEnt)
      { d with openNum := d.openNum + 1 } f := .failed (by decide) room (by decide)
  exact sysOpen_ok.mpr effect

theorem failingOpen_run (bound : n ≤ maxFdTable) :
    Run TableStep (.empty, .empty) (List.replicate n failingOpen)
      ({ Descriptors.empty with openNum := n }, .empty) := by
  induction n with
  | zero => exact .nil _
  | succ n ih =>
    rw [List.replicate_succ']
    exact (ih (Nat.le_of_succ_le bound)).append (.single ⟨_, failingOpen_counted _ _ bound⟩)

/-- A close leaves `open_num` as it is, and failed opens use it up. -/
theorem descriptors_miscounted :
    (∃ s, Run TableStep (.empty, .empty)
        [.openFile (smallOpen 0 existingFile none) smallLoaded.1, .closeFile 3] s ∧
      s.1.openNum = 1 ∧ s.1.fdTable 3 = none) ∧
    ∃ s, Run TableStep (.empty, .empty) (List.replicate 64 failingOpen) s ∧
      s.1.openNum = 64 ∧ (∀ slot, s.1.fdTable slot = none) ∧
      sysOpen (smallOpen 0 existingFile none) smallLoaded.1 s.1 s.2 = .ok (.failed eMfile, s) := by
  refine ⟨⟨_, .cons ⟨_, rfl⟩ (.single ⟨_, rfl⟩), rfl, rfl⟩, ?_⟩
  exact ⟨_, failingOpen_run (Nat.le_refl _), rfl, fun _ => rfl, rfl⟩

end Os161.File

import Os161.Process.Pids

namespace Os161.Process
open Word Transition List ProcTable Option

/-- The ways in which `sys_waitpid` returns. -/
inductive WaitReply where
  | failed (code : Errno)
  | own
  | stored (status : Word32)
deriving DecidableEq, Repr

/-- `sys_waitpid` at the moment in which it can return; it is blocked while a process has the pid.
The address check of the status pointer is an argument. -/
def ProcTable.sysWaitpid (t : ProcTable) (curproc : Proc) (pid : Int) (options : Word32)
    (valid : Bool) : Option WaitReply :=
  if options ≠ 0 then some (.failed eInval)
  else if pid = curproc.pid then some .own
  else if valid = false then some (.failed eFault)
  else if t.findProc pid ≠ none then none
  else
    match t.findExitc pid with
    | some c => some (.stored c.exitcode)
    | none => some (.failed eSrch)

/-- A call of `_exit`. -/
structure Exit where
  proc : Proc
  code : Word32
deriving DecidableEq, Repr

/-- The process table with what has happened to it: the processes ever created, the children that
`fork` has returned to their parents and the exits, the latest first. -/
structure History where
  table : ProcTable
  created : List Proc
  forks : List (Proc × Proc)
  exits : List Exit

/-- The calls that processes make. -/
inductive LifeOp where
  | create (address : Nat) (stray : Int)
  | fork (parent : Proc) (address : Nat) (stray : Int)
  | exit (curproc : Proc) (code : Word32)
  | wait (curproc : Proc) (pid : Int) (reply : WaitReply)

/-- No process was ever at this address: `sys__exit` does not free the process. -/
def History.Fresh (h : History) (address : Nat) : Prop :=
  ∀ proc ∈ h.created, proc.address ≠ address

instance (h : History) : DecidablePred h.Fresh :=
  fun address => inferInstanceAs (Decidable (∀ proc ∈ h.created, proc.address ≠ address))

/-- One call of a running process. -/
inductive LifeStep : History → LifeOp → History → Prop where
  | create {h : History} {address : Nat} {stray : Int} (fresh : h.Fresh address) :
      LifeStep h (.create address stray)
        { h with
          table := (h.table.procCreate address stray).2
          created := (h.table.procCreate address stray).1 :: h.created }
  | fork {h : History} {parent child : Proc} {address : Nat} {stray : Int} {table : ProcTable}
      (running : parent ∈ h.table.procarr) (fresh : h.Fresh address)
      (returned : h.table.sysFork address stray = (some child, table)) :
      LifeStep h (.fork parent address stray)
        { h with
          table := table
          created := child :: h.created
          forks := (parent, child) :: h.forks }
  | refused {h : History} {parent : Proc} {address : Nat} {stray : Int} {table : ProcTable}
      (running : parent ∈ h.table.procarr)
      (returned : h.table.sysFork address stray = (none, table)) :
      LifeStep h (.fork parent address stray) { h with table := table }
  | exit {h : History} {curproc : Proc} {code : Word32} (running : curproc ∈ h.table.procarr) :
      LifeStep h (.exit curproc code)
        { h with
          table := h.table.sysExit curproc code
          exits := ⟨curproc, code⟩ :: h.exits }
  | wait {h : History} {curproc : Proc} {pid : Int} {options : Word32} {valid : Bool}
      {reply : WaitReply} (running : curproc ∈ h.table.procarr)
      (returned : h.table.sysWaitpid curproc pid options valid = some reply) :
      LifeStep h (.wait curproc pid reply) h

/-- The last exit of a process with this pid. -/
def History.lastExit (h : History) (pid : Int) : Option Exit :=
  h.exits.find? fun exit => exit.proc.pid = pid

/-- The record that `find_exitc` finds belongs to the last exit under its pid. -/
structure History.Inv (h : History) : Prop where
  address : ∀ proc ∈ h.created, ∀ other ∈ h.created, proc.address = other.address → proc = other
  distinct : h.table.procarr.Nodup
  running : ∀ proc ∈ h.table.procarr, proc ∈ h.created
  exited : ∀ exit ∈ h.exits, exit.proc ∈ h.created ∧ exit.proc ∉ h.table.procarr
  once : ∀ exit ∈ h.exits, ∀ other ∈ h.exits, exit.proc = other.proc → exit = other
  living : ∀ proc ∈ h.created, proc ∈ h.table.procarr ∨ ∃ code, ⟨proc, code⟩ ∈ h.exits
  children : ∀ pair ∈ h.forks, pair.2 ∈ h.created
  recorded : ∀ proc ∈ h.created, h.table.findExitc proc.pid ≠ none
  status : ∀ pid c, h.table.findExitc pid = some c →
    c.exitcode = (h.lastExit pid).elim (-1) fun exit => mkwaitExit exit.code

theorem find_recordExit_self (pid : Int) (exitcode : Word32) (codes : List Exitc) :
    ((recordExit pid exitcode codes).find? fun c => c.pid = pid) =
      (codes.find? fun c => c.pid = pid).map fun c => { c with exitcode := exitcode } := by
  induction codes with
  | nil => rfl
  | cons c rest ih =>
    unfold recordExit
    by_cases here : c.pid = pid
    · rw [if_pos here, List.find?_cons_of_pos (by simpa using here),
        List.find?_cons_of_pos (by simpa using here)]
      rfl
    · rw [if_neg here, List.find?_cons_of_neg (by simpa using here),
        List.find?_cons_of_neg (by simpa using here), ih]

theorem find_recordExit_of_ne (differ : other ≠ pid) (exitcode : Word32) (codes : List Exitc) :
    ((recordExit pid exitcode codes).find? fun c => c.pid = other) =
      codes.find? fun c => c.pid = other := by
  induction codes with
  | nil => rfl
  | cons c rest ih =>
    unfold recordExit
    by_cases here : c.pid = pid
    · have skip : ¬ c.pid = other := fun same => differ (same.symm.trans here)
      rw [if_pos here, List.find?_cons_of_neg (by simpa using skip),
        List.find?_cons_of_neg (by simpa using skip)]
    · rw [if_neg here, List.find?_cons, List.find?_cons, ih]

theorem ProcTable.findExitc_add (t : ProcTable) (proc : Proc) (pid : Int) :
    (t.add proc).findExitc pid = (t.findExitc pid).or
      (if proc.pid = pid then some { pid := proc.pid, exitcode := -1 } else none) := by
  unfold findExitc add
  simp

theorem History.Inv.add {h : History} (inv : h.Inv) {proc : Proc} {forks : List (Proc × Proc)}
    (fresh : h.Fresh proc.address) (children : ∀ pair ∈ forks, pair.2 ∈ proc :: h.created) :
    ({ table := h.table.add proc, created := proc :: h.created, forks := forks, exits := h.exits } :
      History).Inv := by
  have unused : proc ∉ h.created := fun member => fresh proc member rfl
  constructor
  · intro first member second other same
    rcases mem_cons.mp member with rfl | before
    · rcases mem_cons.mp other with rfl | earlier
      · rfl
      · exact absurd same.symm (fresh second earlier)
    · rcases mem_cons.mp other with rfl | earlier
      · exact absurd same (fresh first before)
      · exact inv.address first before second earlier same
  · refine nodup_append.mpr ⟨inv.distinct, nodup_singleton proc, ?_⟩
    intro first member second last same
    rw [mem_singleton.mp last] at same
    exact unused (same ▸ inv.running first member)
  · intro other member
    rcases mem_append.mp member with earlier | last
    · exact mem_cons_of_mem _ (inv.running other earlier)
    · exact mem_cons.mpr (.inl (mem_singleton.mp last))
  · intro exit member
    obtain ⟨before, gone⟩ := inv.exited exit member
    refine ⟨mem_cons_of_mem _ before, ?_⟩
    intro back
    rcases mem_append.mp back with earlier | last
    · exact gone earlier
    · exact unused (mem_singleton.mp last ▸ before)
  · exact inv.once
  · intro other member
    rcases mem_cons.mp member with rfl | earlier
    · exact .inl (mem_append_right _ (mem_singleton_self _))
    · rcases inv.living other earlier with alive | dead
      · exact .inl (mem_append_left _ alive)
      · exact .inr dead
  · exact children
  · intro other member
    rw [findExitc_add]
    rcases mem_cons.mp member with rfl | earlier
    · simp
    · obtain ⟨c, found⟩ := ne_none_iff_exists'.mp (inv.recorded other earlier)
      simp [found]
  · intro pid c found
    rw [findExitc_add] at found
    cases before : h.table.findExitc pid with
    | some old =>
      rw [before] at found
      cases found
      exact inv.status pid _ before
    | none =>
      rw [before] at found
      -- no process with this pid has ever exited, for it would have a record
      have none_left : h.lastExit pid = none := by
        refine List.find?_eq_none.mpr ?_
        intro exit member
        have recorded := inv.recorded exit.proc (inv.exited exit member).1
        intro same
        rw [decide_eq_true_iff] at same
        exact recorded (same ▸ before)
      split at found
      · cases found
        show (-1 : Word32) = (h.lastExit pid).elim (-1) _
        rw [none_left]
        rfl
      · cases found

theorem History.Inv.exit {h : History} (inv : h.Inv) (running : curproc ∈ h.table.procarr) (code : Word32) :
    ({ h with table := h.table.sysExit curproc code, exits := ⟨curproc, code⟩ :: h.exits } :
      History).Inv := by
  have remains {proc : Proc} (member : proc ∈ h.created) (other : proc ≠ curproc) :
      proc ∈ (h.table.sysExit curproc code).procarr ↔ proc ∈ h.table.procarr := by
    refine mem_eraseP_of_neg ?_
    intro same
    rw [decide_eq_true_iff] at same
    exact other (inv.address proc member curproc (inv.running curproc running) same)
  have gone : curproc ∉ (h.table.sysExit curproc code).procarr := by
    obtain ⟨found, prev, after, _, same, split, left⟩ :=
      exists_of_eraseP running (p := fun proc => proc.address = curproc.address)
        (decide_eq_true rfl)
    have here : found = curproc := by
      have member : found ∈ h.table.procarr := split ▸ by simp
      exact inv.address found (inv.running found member) curproc (inv.running curproc running)
        (of_decide_eq_true same)
    have distinct := inv.distinct
    rw [split, here, nodup_middle, nodup_cons] at distinct
    rw [sysExit, left]
    exact distinct.1
  have first : ∀ exit ∈ h.exits, exit.proc ≠ curproc := by
    intro exit member same
    exact (inv.exited exit member).2 (same ▸ running)
  constructor
  · exact inv.address
  · exact inv.distinct.sublist eraseP_sublist
  · intro proc member
    exact inv.running proc (mem_of_mem_eraseP member)
  · intro exit member
    rcases mem_cons.mp member with rfl | earlier
    · exact ⟨inv.running curproc running, gone⟩
    · obtain ⟨prev, away⟩ := inv.exited exit earlier
      exact ⟨prev, fun back => away (mem_of_mem_eraseP back)⟩
  · intro exit member other again same
    rcases mem_cons.mp member with rfl | earlier
    · rcases mem_cons.mp again with rfl | later
      · rfl
      · exact absurd same.symm (first other later)
    · rcases mem_cons.mp again with rfl | later
      · exact absurd same (first exit earlier)
      · exact inv.once exit earlier other later same
  · intro proc member
    by_cases here : proc = curproc
    · exact .inr ⟨code, here ▸ mem_cons_self⟩
    · rcases inv.living proc member with alive | ⟨earlier, dead⟩
      · exact .inl ((remains member here).mpr alive)
      · exact .inr ⟨earlier, mem_cons_of_mem _ dead⟩
  · exact inv.children
  · intro proc member
    have prev := inv.recorded proc member
    unfold findExitc sysExit at *
    by_cases here : proc.pid = curproc.pid
    · rw [here] at prev ⊢
      rw [find_recordExit_self]
      simpa using prev
    · rw [find_recordExit_of_ne here]
      exact prev
  · intro pid c found
    unfold findExitc sysExit at found
    by_cases here : curproc.pid = pid
    · subst here
      rw [find_recordExit_self] at found
      obtain ⟨old, _, rfl⟩ := map_eq_some_iff.mp found
      rw [History.lastExit, List.find?_cons_of_pos (by simp)]
      rfl
    · rw [find_recordExit_of_ne (Ne.symm here)] at found
      rw [History.lastExit, List.find?_cons_of_neg (by simpa using here)]
      exact inv.status pid c found

theorem LifeStep.inv {h next : History} {op : LifeOp} (step : LifeStep h op next) (inv : h.Inv) :
    next.Inv := by
  cases step with
  | create fresh =>
    exact inv.add fresh fun pair member => mem_cons_of_mem _ (inv.children pair member)
  | @fork parent child addr stray table running fresh ran =>
    unfold sysFork at ran
    split at ran
    · cases ran
    · cases ran
      refine inv.add fresh ?_
      intro pair member
      rcases mem_cons.mp member with rfl | earlier
      · exact mem_cons_self
      · exact mem_cons_of_mem _ (inv.children pair earlier)
  | @refused parent addr stray table running ran =>
    unfold sysFork at ran
    split at ran
    · cases ran
      exact inv
    · cases ran
  | exit running => exact inv.exit running _
  | wait running ran => exact inv

/-- The history right after `proc_bootstrap`. -/
def History.boot : History where
  table := bootTable
  created := bootTable.procarr
  forks := []
  exits := []

theorem History.boot_inv : History.boot.Inv where
  address := by decide
  distinct := by decide
  running := fun _ mem => mem
  exited := nofun
  once := nofun
  living := fun _ mem => .inl mem
  children := nofun
  recorded := by decide
  status := by
    intro pid c found
    have members : ∀ c ∈ bootTable.codes, c.exitcode = -1 := by decide
    exact members c (mem_of_find?_eq_some found)

/-- `waitpid` reports the code of the last exit under the pid. -/
theorem waitpid_status_iff {h : History} {ops : List LifeOp}
    (reached : Run LifeStep History.boot ops h) {parent child : Proc}
    (forked : (parent, child) ∈ h.forks) {options : Word32} {valid : Bool} {status : Word32}
    (stored : h.table.sysWaitpid parent child.pid options valid = some (.stored status)) :
    ∃ code last, ⟨child, code⟩ ∈ h.exits ∧ (∀ other, ⟨child, other⟩ ∈ h.exits → other = code) ∧
      h.lastExit child.pid = some last ∧
      (status = mkwaitExit code ↔ mkwaitExit last.code = mkwaitExit code) := by
  have inv : h.Inv := reached.invariant
    (fun (state : History) _ _ (before : state.Inv) moved => moved.inv before) History.boot_inv
  have member := inv.children _ forked
  obtain ⟨unused, c, found, rfl⟩ : h.table.findProc child.pid = none ∧
      ∃ c, h.table.findExitc child.pid = some c ∧ c.exitcode = status := by
    unfold sysWaitpid at stored
    split at stored
    · cases stored
    · split at stored
      · cases stored
      · split at stored
        · cases stored
        · split at stored
          · cases stored
          · rename_i unused
            refine ⟨not_not.mp unused, ?_⟩
            split at stored
            · rename_i c found
              cases stored
              exact ⟨c, found, rfl⟩
            · cases stored
  obtain ⟨code, exited⟩ : ∃ code, ⟨child, code⟩ ∈ h.exits := by
    rcases inv.living child member with alive | dead
    · exact absurd rfl (findProc_eq_none.mp unused child alive)
    · exact dead
  cases latest : h.lastExit child.pid with
  | none =>
    have silent := List.find?_eq_none.mp latest ⟨child, code⟩ exited
    simp at silent
  | some last =>
    refine ⟨code, last, exited, ?_, rfl, ?_⟩
    · intro other again
      exact congrArg Exit.code (inv.once _ again _ exited rfl)
    · rw [inv.status child.pid c found, latest]
      rfl

/-- The first program that the menu runs. -/
def shell : Proc := ⟨1, 3⟩

/-- A child that exits with code 1 before its parent waits. -/
theorem waitpid_status_shell :
    ∃ h code last, Run LifeStep History.boot
        [.create 1 0, .fork shell 2 0, .exit ⟨2, 4⟩ 1] h ∧
      h.table.sysWaitpid shell 4 0 true = some (.stored 4) ∧
      ⟨⟨2, 4⟩, code⟩ ∈ h.exits ∧ h.lastExit 4 = some last ∧
      ((4 : Word32) = mkwaitExit code ↔ mkwaitExit last.code = mkwaitExit code) := by
  have reached : Run LifeStep History.boot [.create 1 0, .fork shell 2 0, .exit ⟨2, 4⟩ 1] _ :=
    .cons (.create (by decide)) (.cons (.fork (by decide) (by decide) rfl)
      (.single (.exit (by decide))))
  obtain ⟨code, last, exited, _, latest, right⟩ := waitpid_status_iff reached
    (show (shell, ⟨2, 4⟩) ∈ _ from mem_cons_self)
    (show sysWaitpid _ shell 4 0 true = some (.stored 4) by rfl)
  exact ⟨_, code, last, reached, rfl, exited, latest, right⟩

/-- A second child gets the pid of the first and overwrites its code. -/
theorem waitpid_reports_other_child :
    ∃ h, Run LifeStep History.boot
        [.create 1 0, .fork shell 2 0, .exit ⟨2, 4⟩ 1, .fork shell 3 0, .exit ⟨3, 4⟩ 2] h ∧
      (shell, ⟨2, 4⟩) ∈ h.forks ∧ ⟨⟨2, 4⟩, 1⟩ ∈ h.exits ∧
      h.table.sysWaitpid shell 4 0 true = some (.stored (mkwaitExit 2)) ∧
      mkwaitExit 2 ≠ mkwaitExit 1 := by
  have reached : Run LifeStep History.boot
      [.create 1 0, .fork shell 2 0, .exit ⟨2, 4⟩ 1, .fork shell 3 0, .exit ⟨3, 4⟩ 2] _ :=
    .cons (.create (by decide)) (.cons (.fork (by decide) (by decide) rfl)
      (.cons (.exit (by decide)) (.cons (.fork (by decide) (by decide) rfl)
        (.single (.exit (by decide))))))
  exact ⟨_, reached, by decide, by decide, rfl, by decide⟩

end Os161.Process

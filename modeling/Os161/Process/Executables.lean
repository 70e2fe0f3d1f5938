import Os161.Syscall.Execv

namespace Os161.Process
open Word Vm File Syscall Outcome Transition Function List AddrSpace

/-- The counts of the vnodes, the machine, and the address spaces of the processes that run -/
structure Programs where
  vnodes : Vnodes
  machine : Machine
  spaces : List AddrSpace

/-- What a call that starts a program finds -/
structure LoadEnv where
  vfs : VfsEnv
  files : Files
  heap : HeapReply

/-- `runprogram` in a new process up to the definition of the stack. A process whose program does not load ends
before it runs. -/
def runprogram (env : LoadEnv) (s : Programs) : Kernel (Errno × Programs) := do
  let (result, v, vnodes) ← vfsOpen env.vfs 0 none s.vnodes
  match v with
  | none => return (result, { s with vnodes := vnodes })
  | some vn =>
    match ← asCreate env.heap with
    | none =>
      let vnodes ← vfsClose vn vnodes
      return (eNoMem, { s with vnodes := vnodes })
    | some as =>
      let (result, _, space, core) ← loadElf env.files vn as s.machine.core
      let machine := { s.machine with core := core }
      if result ≠ 0 then
        let vnodes ← vfsClose vn vnodes
        return (result, { s with vnodes := vnodes, machine := machine })
      return (0, { vnodes := vnodes, machine := machine, spaces := space :: s.spaces })

/-- `sys_execv` from `as_create` to the second `vfs_close`: the new address space, if there is one, with the counts
and the frames -/
def execvLoadSpace (env : ExecEnv) (vn : Vnode) (vnodes : Vnodes) (core : CoreState) :
    Kernel (Option AddrSpace × Vnodes × CoreState) := do
  match ← asCreate env.heap with
  | none =>
    let vnodes ← vfsClose vn vnodes
    return (none, vnodes, core)
  | some new =>
    let (_, _, space, core) ← loadElf env.files vn new core
    let vnodes ← vfsClose vn vnodes
    return (some space, vnodes, core)

/-- `sys_execv` gets the path and opens the file. -/
structure ExecvOpens (env : ExecEnv) (as : Option AddrSpace) (old : UserMem) (progname args : Vaddr) : Prop where
  vector : execvRefuses as args ≠ true
  name : execvRefuses as progname ≠ true
  read : (execvPath env old progname).1 = 0
  filled : (execvPath env old progname).2.head? ≠ some 0
  opened : env.vfs.result 0 = 0

instance (env : ExecEnv) (as : Option AddrSpace) (old : UserMem) (progname args : Vaddr) :
    Decidable (ExecvOpens env as old progname args) :=
  decidable_of_iff (execvRefuses as args ≠ true ∧ execvRefuses as progname ≠ true ∧
      (execvPath env old progname).1 = 0 ∧ (execvPath env old progname).2.head? ≠ some 0 ∧ env.vfs.result 0 = 0)
    ⟨fun ⟨vector, name, read, filled, opened⟩ => ⟨vector, name, read, filled, opened⟩,
      fun opens => ⟨opens.vector, opens.name, opens.read, opens.filled, opens.opened⟩⟩

/-- What `sys_execv` leaves: the address space it has installed, the counts and the frames -/
def execvSpace (env : ExecEnv) (as : Option AddrSpace) (old : UserMem) (progname args : Vaddr) (vnodes : Vnodes)
    (core : CoreState) : Kernel (Option AddrSpace × Vnodes × CoreState) :=
  if ExecvOpens env as old progname args then
    let vn := (env.vfs.found 0).2
    execvLoadSpace env vn ((vnodes.incref vn).incopen vn) core
  else .ok (none, vnodes, core)

def stateAfter : ExecOutcome → ExecState
  | .returned _ s => s
  | .started _ s => s

theorem execvLoad_space {env : ExecEnv} {args : Vaddr} {vn : Vnode} {s : ExecState} {outcome : ExecOutcome}
    (ran : execvLoad env args vn s = .ok outcome) :
    ∃ space, execvLoadSpace env vn s.vnodes s.core =
        .ok (space, (stateAfter outcome).vnodes, (stateAfter outcome).core) ∧
      (stateAfter outcome).installed = (s.installed || space.isSome) := by
  obtain ⟨created, made, rest⟩ := bind_ok.mp ran
  unfold execvLoadSpace
  rw [made, ok_bind]
  cases created with
  | none =>
    obtain ⟨vnodes, closed, done⟩ := bind_ok.mp rest
    cases done
    refine ⟨none, ?_, (Bool.or_false _).symm⟩
    rw [closed]
    rfl
  | some new =>
    obtain ⟨⟨res, entrypoint, space, core⟩, loaded, rest⟩ := bind_ok.mp rest
    obtain ⟨vnodes, closed, rest⟩ := bind_ok.mp rest
    change vfsClose vn s.vnodes = .ok vnodes at closed
    change loadElf env.files vn new s.core = _ at loaded
    have finished : (stateAfter outcome).vnodes = vnodes ∧ (stateAfter outcome).core = core ∧
        (stateAfter outcome).installed = true := by
      split at rest
      · split at rest
        · cases rest
          exact ⟨rfl, rfl, rfl⟩
        · split at rest
          · cases rest
            exact ⟨rfl, rfl, rfl⟩
          · obtain ⟨_, -, checked⟩ := bind_ok.mp rest
            obtain ⟨_, -, done⟩ := bind_ok.mp checked
            cases done
            exact ⟨rfl, rfl, rfl⟩
      · cases rest
        exact ⟨rfl, rfl, rfl⟩
    obtain ⟨sameVnodes, sameCore, installed⟩ := finished
    refine ⟨some space, ?_, ?_⟩
    · dsimp only
      rw [loaded]
      rw [closed, sameVnodes, sameCore]
      rfl
    · rw [installed]
      exact (Bool.or_true _).symm

theorem sysExecv_space {env : ExecEnv} {as : Option AddrSpace} {old : UserMem} {progname args : Vaddr}
    {s : ExecState} {outcome : ExecOutcome} (ran : sysExecv env as old progname args s = .ok outcome) :
    ∃ space, execvSpace env as old progname args s.vnodes s.core =
        .ok (space, (stateAfter outcome).vnodes, (stateAfter outcome).core) ∧
      (stateAfter outcome).installed = (s.installed || space.isSome) := by
  have kept : (if env.path then s.allocate .path else s).vnodes = s.vnodes ∧
      (if env.path then s.allocate .path else s).core = s.core ∧
      (if env.path then s.allocate .path else s).installed = s.installed := by
    split <;> exact ⟨rfl, rfl, rfl⟩
  obtain ⟨sameVnodes, sameCore, sameSpace⟩ := kept
  unfold sysExecv at ran
  generalize (if env.path then s.allocate .path else s) = started at ran sameVnodes sameCore sameSpace
  have early (stays : stateAfter outcome = started) (closed : ¬ ExecvOpens env as old progname args) :
      ∃ space, execvSpace env as old progname args s.vnodes s.core =
          .ok (space, (stateAfter outcome).vnodes, (stateAfter outcome).core) ∧
        (stateAfter outcome).installed = (s.installed || space.isSome) := by
    refine ⟨none, ?_, ?_⟩
    · rw [execvSpace, if_neg closed, stays, sameVnodes, sameCore]
    · rw [stays, sameSpace]
      exact (Bool.or_false _).symm
  dsimp only at ran
  by_cases badArgs : execvRefuses as args = true
  · rw [if_pos badArgs] at ran
    cases ran
    exact early rfl fun opens => opens.vector badArgs
  rw [if_neg badArgs] at ran
  by_cases badPath : execvRefuses as progname = true
  · rw [if_pos badPath] at ran
    cases ran
    exact early rfl fun opens => opens.name badPath
  rw [if_neg badPath] at ran
  by_cases failed : (execvPath env old progname).1 ≠ 0
  · rw [if_pos failed] at ran
    cases ran
    exact early rfl fun opens => failed opens.read
  rw [if_neg failed] at ran
  by_cases empty : (execvPath env old progname).2.head? = some 0
  · rw [if_pos empty] at ran
    cases ran
    exact early rfl fun opens => opens.filled empty
  rw [if_neg empty, vfsOpen_eq] at ran
  by_cases opened : env.vfs.result 0 = 0
  · rw [if_pos opened] at ran
    obtain ⟨space, same, installed⟩ := execvLoad_space ran
    have opens : ExecvOpens env as old progname args := ⟨badArgs, badPath, not_not.mp failed, empty, opened⟩
    refine ⟨space, ?_, ?_⟩
    · rw [execvSpace, if_pos opens, ← sameVnodes, ← sameCore]
      exact same
    · rw [installed, ← sameSpace]
  · rw [if_neg opened] at ran
    cases ran
    exact early rfl fun opens => opened opens.opened

/-- The page tables of the two program segments -/
def programTables (as : AddrSpace) : List PageTable := as.seg1.pt.toList ++ as.seg2.pt.toList

/-- Some page of a program segment has an entry that is not valid. -/
def unloaded (as : AddrSpace) : Bool :=
  (programTables as).any fun table => (List.range table.length).any fun vpn => !(table.entry vpn).valid

inductive ProgramCall where
  | runprogram (env : LoadEnv)
  | execv (env : ExecEnv) (as : AddrSpace) (old : UserMem) (progname args : Vaddr)
  | fork (heap : HeapReply)
  | exit
  | fault

/-- The calls of the processes. A child whose `as_copy` finds no memory gets the address space an uninitialised
pointer names. -/
inductive ProgramStep : Programs → ProgramCall → Programs → Prop where
  | runprogram {s next : Programs} {env : LoadEnv} {result : Errno}
      (returned : runprogram env s = .ok (result, next)) : ProgramStep s (.runprogram env) next
  | execv {s : Programs} {front back : List AddrSpace} {as : AddrSpace} {env : ExecEnv} {old : UserMem}
      {progname args : Vaddr} {space : Option AddrSpace} {vnodes : Vnodes} {core : CoreState}
      (here : s.spaces = front ++ as :: back)
      (left : execvSpace env (some as) old progname args s.vnodes s.machine.core = .ok (space, vnodes, core)) :
      ProgramStep s (.execv env as old progname args)
        { vnodes := vnodes, machine := { s.machine with core := core }, spaces := front ++ space.getD as :: back }
  | fork {s : Programs} {as new : AddrSpace} {heap : HeapReply} (parent : as ∈ s.spaces)
      (copied : asCopy heap as = .ok (0, some new)) :
      ProgramStep s (.fork heap) { s with spaces := new :: s.spaces }
  | forkAstray {s : Programs} {as stray : AddrSpace} {heap : HeapReply} (parent : as ∈ s.spaces)
      (refused : asCopy heap as = .ok (eNoMem, none)) :
      ProgramStep s (.fork heap) { s with spaces := stray :: s.spaces }
  | exit {s : Programs} {front back : List AddrSpace} {as : AddrSpace} (here : s.spaces = front ++ as :: back) :
      ProgramStep s .exit { s with spaces := front ++ back }
  | fault {s : Programs} {front back : List AddrSpace} {as space : AddrSpace} {files : Files} {faulttype : FaultType}
      {faultaddress : Vaddr} {code : Errno} {machine : Machine} (here : s.spaces = front ++ as :: back)
      (returned : vmFault files faulttype faultaddress (some as) s.machine = .ok (code, some space, machine)) :
      ProgramStep s .fault { s with machine := machine, spaces := front ++ space :: back }

/-- Beside the references of the rest of the kernel a vnode has one for every address space that may still read from
it. -/
def Held (others : Vnode → Nat) (s : Programs) : Prop :=
  ∀ vn, others vn + s.spaces.countP (fun as => unloaded as && as.vn == vn) ≤ s.vnodes.refcount vn

/-- No `sys_execv` gets as far as a new address space, and `as_copy` finds memory. -/
def ProgramCall.Keeps : ProgramCall → Prop
  | .execv env as old progname args => ExecvOpens env (some as) old progname args → env.heap.block = none
  | .fork heap => heap.block ≠ none
  | _ => True

/-- Every address space with a table of its program has a reference of its own. -/
def Referenced (others : Vnode → Nat) (s : Programs) : Prop :=
  ∀ vn, others vn + s.spaces.countP (fun as => !(programTables as).isEmpty && as.vn == vn) ≤ s.vnodes.refcount vn

theorem Referenced.held {others : Vnode → Nat} {s : Programs} (referenced : Referenced others s) : Held others s := by
  intro vn
  have fewer : s.spaces.countP (fun as => unloaded as && as.vn == vn) ≤
      s.spaces.countP (fun as => !(programTables as).isEmpty && as.vn == vn) := by
    refine countP_mono_left fun as _ pending => ?_
    rw [Bool.and_eq_true] at pending ⊢
    refine ⟨?_, pending.2⟩
    obtain ⟨table, mem, -⟩ := any_eq_true.mp pending.1
    have some : programTables as ≠ [] := ne_nil_of_mem mem
    simpa using some
  exact (Nat.add_le_add_left fewer _).trans (referenced vn)

theorem recordSegment_vn {vn : Vnode} {i : Nat} {headers : List Phdr} {as space : AddrSpace}
    (applied : Applied (recordSegment vn) i headers as space) :
    (∀ ph ∈ headers, ph.Skipped) ∨ space.vn = vn := by
  induction applied with
  | nil i state => exact .inl nofun
  | skip skipped tail ih =>
    rcases ih with rest | recorded
    · exact .inl (forall_mem_cons.mpr ⟨skipped, rest⟩)
    · exact .inr recorded
  | load loadable done tail ih =>
    rcases ih with rest | recorded
    · rw [tail.skipped rest]
      cases done
      exact .inr rfl
    · exact .inr recorded

theorem loadElf_vn {files : Files} {vn : Vnode} {heap : HeapReply} {as space : AddrSpace} {s core : CoreState}
    {entrypoint : Option Vaddr} (made : asCreate heap = .ok (some as))
    (ran : loadElf files vn as s = .ok (0, entrypoint, space, core)) :
    programTables space = [] ∨ space.vn = vn := by
  obtain ⟨headers, loaded⟩ := loadElf_ok ran
  obtain ⟨middle, defined, noted⟩ := loaded.regions
  rcases recordSegment_vn noted with nothing | stored
  · obtain ⟨-, -, -, first, second⟩ := asCreate_ok made
    have same : middle = as := congrArg Prod.fst (defined.skipped nothing)
    rw [noted.skipped nothing, same]
    exact .inl (by rw [programTables, first, second]; rfl)
  · exact .inr stored

theorem vmFault_program {files : Files} {kind : FaultType} {fault : Vaddr} {as space : AddrSpace}
    {m next : Machine} {code : Errno}
    (ran : vmFault files kind fault (some as) m = .ok (code, some space, next)) :
    space.vn = as.vn ∧ (programTables space).isEmpty = (programTables as).isEmpty := by
  have mapped (region : Region) (vpn : Nat) (paddr : Paddr) : (as.mapPage region vpn paddr).vn = as.vn ∧
      (programTables (as.mapPage region vpn paddr)).isEmpty = (programTables as).isEmpty := by
    cases region with
    | first =>
      refine ⟨rfl, ?_⟩
      simp only [programTables, mapPage, modifyPte, table]
      cases as.seg1.pt <;> rfl
    | second =>
      refine ⟨rfl, ?_⟩
      simp only [programTables, mapPage, modifyPte, setTable, table]
      cases as.seg1.pt <;> cases as.seg2.pt <;> rfl
    | stack => exact ⟨rfl, rfl⟩
  obtain ⟨-, -, same, -⟩ | ⟨-, after, same, -, outcome⟩ := vmFault_outcome ran
  · cases same
    exact ⟨rfl, rfl⟩
  · cases same
    cases outcome with
    | fresh => exact mapped _ _ _
    | _ => exact ⟨rfl, rfl⟩

theorem runprogram_ok {env : LoadEnv} {s next : Programs} {res : Errno}
    (ran : runprogram env s = .ok (res, next)) :
    (next.vnodes = s.vnodes ∧ next.spaces = s.spaces) ∨
      ∃ vn space, next.vnodes = (s.vnodes.incref vn).incopen vn ∧ next.spaces = space :: s.spaces ∧
        (programTables space = [] ∨ space.vn = vn) := by
  unfold runprogram at ran
  rw [vfsOpen_eq] at ran
  by_cases opened : env.vfs.result 0 = 0
  · rw [if_pos opened, ok_bind] at ran
    dsimp only at ran
    obtain ⟨created, made, rest⟩ := bind_ok.mp ran
    cases created with
    | none =>
      rw [vfsClose_opened] at rest
      cases rest
      exact .inl ⟨rfl, rfl⟩
    | some as =>
      obtain ⟨⟨code, entrypoint, space, core⟩, loaded, rest⟩ := bind_ok.mp rest
      by_cases failed : code ≠ 0
      · rw [if_pos failed, vfsClose_opened] at rest
        cases rest
        exact .inl ⟨rfl, rfl⟩
      · rw [if_neg failed] at rest
        cases rest
        obtain rfl : code = 0 := not_not.mp failed
        exact .inr ⟨_, space, rfl, rfl, loadElf_vn made loaded⟩
  · rw [if_neg opened] at ran
    cases ran
    exact .inl ⟨rfl, rfl⟩

theorem execvSpace_kept (keeps : ProgramCall.Keeps (.execv env as old progname args)) :
    execvSpace env (some as) old progname args vnodes core = .ok (none, vnodes, core) := by
  unfold execvSpace
  by_cases opens : ExecvOpens env (some as) old progname args
  · rw [if_pos opens]
    rw [execvLoadSpace, asCreate, keeps opens]
    rw [vfsClose_opened]
    rfl
  · rw [if_neg opens]

theorem Referenced.step {others : Vnode → Nat} {s next : Programs} {call : ProgramCall}
    (referenced : Referenced others s) (keeps : call.Keeps) (step : ProgramStep s call next) :
    Referenced others next := by
  intro vn
  have prev := referenced vn
  cases step with
  | runprogram ran =>
    obtain ⟨vnodes, spaces⟩ | ⟨opened, space, vnodes, spaces, stored⟩ := runprogram_ok ran
    · rw [vnodes, spaces]
      exact prev
    · rw [vnodes, spaces, countP_cons]
      change _ ≤ update s.vnodes.refcount opened (s.vnodes.refcount opened + 1) vn
      by_cases same : vn = opened
      · subst same
        rw [update_self]
        split <;> omega
      · rw [update_of_ne same, if_neg]
        · exact prev
        · rcases stored with empty | stored
          · simp [empty]
          · simp [stored, Ne.symm same]
  | execv here left =>
    rw [execvSpace_kept keeps] at left
    cases left
    rw [here] at prev
    exact prev
  | @fork as new heap parent copied =>
    obtain ⟨-, -, -, missing⟩ := asCopy_ok copied
    have empty : programTables new = [] := by
      rw [programTables, show new.seg1.pt = none from missing .first nofun,
        show new.seg2.pt = none from missing .second nofun]
      rfl
    rw [countP_cons, if_neg (by simp [empty])]
    exact prev
  | @forkAstray as stray heap parent refused =>
    -- without memory `as_create` returns no block
    obtain ⟨reply, made, went⟩ := bind_ok.mp refused
    cases reply with
    | none =>
      rw [asCreate] at made
      cases block : heap.block with
      | none => exact absurd block keeps
      | some block' =>
        rw [block] at made
        dsimp only at made
        split at made
        · cases made
        · cases made
    | some block => cases went
  | exit here =>
    rw [here] at prev
    simp only [countP_append, countP_cons] at prev ⊢
    omega
  | fault here ran =>
    obtain ⟨sameVn, sameTables⟩ := vmFault_program ran
    rw [here] at prev
    simp only [countP_append, countP_cons, sameVn, sameTables] at prev ⊢
    exact prev

/-- While no `sys_execv` replaces an address space, its executable has a reference. -/
theorem executable_stays_open {start s : Programs} {calls : List ProgramCall} (fresh : start.spaces = [])
    (keeps : ∀ call ∈ calls, call.Keeps) (reached : Run ProgramStep start calls s) :
    Held start.vnodes.refcount s ∧ ∀ as ∈ s.spaces, unloaded as = true → 0 < s.vnodes.refcount as.vn := by
  have initially : Referenced start.vnodes.refcount start := by
    intro vn
    rw [fresh]
    exact le_rfl
  have referenced : Referenced start.vnodes.refcount s :=
    (reached.restrict keeps).invariant (fun _ _ _ held step => held.step step.2 step.1) initially
  refine ⟨referenced.held, fun as member pending => ?_⟩
  have held := referenced.held as.vn
  have some : 0 < s.spaces.countP (fun other => unloaded other && other.vn == as.vn) :=
    countP_pos_iff.mpr ⟨as, member, by simp [pending]⟩
  omega

/-- The kernel before the first program -/
def noPrograms : Programs where
  vnodes := { refcount := fun _ => 0, opencount := fun _ => 0 }
  machine := .idle (booted eightFrames fun _ => 0)
  spaces := []

/-- `runprogram` of the small executable behind the given vnode -/
def smallEnv (vn : Vnode) : LoadEnv where
  vfs := { (execOf smallElf).vfs with lookup := (0, vn) }
  files := fileOf smallElf
  heap := (execOf smallElf).heap

/-- The state after that call -/
def smallRun (vn : Vnode) : Programs :=
  match runprogram (smallEnv vn) noPrograms with
  | .ok (_, s) => s
  | .error _ => noPrograms

theorem smallRun_zero : runprogram (smallEnv 0) noPrograms = .ok (0, smallRun 0) := rfl

theorem smallRun_one : runprogram (smallEnv 1) noPrograms = .ok (0, smallRun 1) := rfl

/-- A program forks, and its child exits while it still runs. -/
theorem executable_stays_open_forked : ∃ s,
    Run ProgramStep noPrograms [.runprogram (smallEnv 0), .fork (smallEnv 0).heap, .exit] s ∧
      Held noPrograms.vnodes.refcount s ∧
      ∀ as ∈ s.spaces, unloaded as = true → 0 < s.vnodes.refcount as.vn := by
  obtain ⟨s, reached⟩ : ∃ s,
      Run ProgramStep noPrograms [.runprogram (smallEnv 0), .fork (smallEnv 0).heap, .exit] s := by
    obtain ⟨parent, only⟩ : ∃ parent, (smallRun 0).spaces = [parent] := ⟨_, rfl⟩
    obtain ⟨child, copied⟩ : ∃ child, asCopy (smallEnv 0).heap parent = .ok (0, some child) := by
      cases only
      exact ⟨_, rfl⟩
    have ends (s : Programs) :
        ProgramStep { s with spaces := child :: s.spaces } .exit { s with spaces := [] ++ s.spaces } :=
      .exit rfl
    exact ⟨_, .cons (.runprogram smallRun_zero)
      (.cons (.fork (only ▸ mem_singleton_self parent) copied) (.single (ends _)))⟩
  refine ⟨s, reached, executable_stays_open rfl ?_ reached⟩
  intro call member
  fin_cases member <;> first | trivial | exact nofun

/-- After `sys_execv` a program runs without a reference to its file. -/
theorem execv_closes_executable : ∃ as s,
    Run ProgramStep noPrograms [.runprogram (smallEnv 1), .execv (execOf smallElf) as pathMemory 0x400000 0x7fffff00] s ∧
      ∃ space ∈ s.spaces, unloaded space = true ∧ s.vnodes.refcount space.vn = 0 := by
  have here : (smallRun 1).spaces = [] ++ (smallRun 1).spaces.head nofun :: [] := rfl
  refine ⟨_, _, .cons (.runprogram smallRun_one) (.single (.execv here rfl)), _, mem_cons_self, ?_, ?_⟩
  · rfl
  · rfl

end Os161.Process

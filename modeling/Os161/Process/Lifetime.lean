import Os161.Syscall.LoadedProgram
import Os161.Vm.Accounting

namespace Os161.Process
open Word Vm Syscall Outcome Transition List Machine

/-- How far `runprogram` has come for a process. A process whose program does not load stays in
the process table and never runs. -/
inductive Phase where
  | created
  | loaded
  | failed
  | running
deriving DecidableEq, Repr

/-- A user process and its address space. -/
structure UserProc where
  phase : Phase
  space : Option AddrSpace

/-- The machine, the processes in the table and the pages of the kernel heap. The last two fields
count the processes created and the programs started since the run began. -/
structure World where
  machine : Machine
  procs : List UserProc
  heap : List (Vaddr × Word32)
  created : Nat
  programs : Nat

/-- The number of frames that the kernel heap holds. -/
def World.heapFrames (w : World) : Nat := (w.heap.map fun block => block.2.toNat).sum

/-- What happens between the creation of the first process and the exit of the last. -/
inductive WorldOp where
  | create
  | load
  | argv
  | fault
  | exec
  | fork
  | exit
  | take
  | give
  | user
deriving DecidableEq, Repr

/-- The steps of user processes. Calls that allocate succeed. `read` and `write` are heap requests
of `as_create` and faults on the user buffer. -/
inductive WorldStep (w : World) : WorldOp → World → Prop where
  -- `proc_create_runprogram` adds a process without an address space.
  | create :
      WorldStep w .create
        { w with procs := ⟨.created, none⟩ :: w.procs, created := w.created + 1 }
  -- The first half of `runprogram`.
  | load {front back : List UserProc} {heap : HeapReply} {as space : AddrSpace} {files : Files}
      {vn : Vnode} {code : Errno} {entrypoint : Option Vaddr} {core : CoreState}
      (here : w.procs = front ++ ⟨.created, none⟩ :: back)
      (made : asCreate heap = .ok (some as))
      (returned : loadElf files vn as w.machine.core = .ok (code, entrypoint, space, core)) :
      WorldStep w .load
        { w with
          machine := { w.machine with core := core }
          procs := front ++ ⟨if code = 0 then .loaded else .failed, some space⟩ :: back }
  -- The array `length` of `runprogram` fills a page, and no one frees it.
  | argv {front back : List UserProc} {space : Option AddrSpace} {va : Vaddr} {core : CoreState}
      (here : w.procs = front ++ ⟨.loaded, space⟩ :: back)
      (returned : allocKpages 1 w.machine.core = .ok (va, core)) (nonzero : va ≠ 0) :
      WorldStep w .argv
        { w with
          machine := { w.machine with core := core }
          procs := front ++ ⟨.running, space⟩ :: back
          programs := w.programs + 1 }
  | fault {front back : List UserProc} {phase : Phase} {as space : AddrSpace} {files : Files}
      {faulttype : FaultType} {faultaddress : Vaddr} {code : Errno} {next : Machine}
      (here : w.procs = front ++ ⟨phase, some as⟩ :: back)
      (returned : vmFault files faulttype faultaddress (some as) w.machine =
        .ok (code, some space, next)) :
      WorldStep w .fault
        { w with machine := next, procs := front ++ ⟨phase, some space⟩ :: back }
  -- `sys_execv` drops the old address space and keeps the new one also when the load fails.
  | exec {front back : List UserProc} {old : Option AddrSpace} {heap : HeapReply}
      {as space : AddrSpace} {files : Files} {vn : Vnode} {code : Errno}
      {entrypoint : Option Vaddr} {core : CoreState}
      (here : w.procs = front ++ ⟨.running, old⟩ :: back)
      (made : asCreate heap = .ok (some as))
      (returned : loadElf files vn as w.machine.core = .ok (code, entrypoint, space, core)) :
      WorldStep w .exec
        { w with
          machine := { w.machine with core := core }
          procs := front ++ ⟨.running, some space⟩ :: back }
  | fork {old new : AddrSpace} {heap : HeapReply} (parent : ⟨.running, some old⟩ ∈ w.procs)
      (copied : asCopy heap old = .ok (0, some new)) :
      WorldStep w .fork
        { w with procs := ⟨.running, some new⟩ :: w.procs, created := w.created + 1 }
  -- `sys__exit` takes the process out of the table and frees nothing.
  | exit (here : w.procs = front ++ ⟨.running, space⟩ :: back) :
      WorldStep w .exit { w with procs := front ++ back }
  -- Kernel heap requests on behalf of the processes, and thread stacks.
  | take {npages : Word32} {va : Vaddr} {core : CoreState} (started : 0 < w.created)
      (returned : allocKpages npages w.machine.core = .ok (va, core)) (nonzero : va ≠ 0) :
      WorldStep w .take
        { w with
          machine := { w.machine with core := core }
          heap := (va, npages) :: w.heap }
  | give {block : Vaddr × Word32} {core : CoreState} (started : 0 < w.created)
      (held : block ∈ w.heap) (returned : freeKpages block.1 w.machine.core = .ok core) :
      WorldStep w .give
        { w with
          machine := { w.machine with core := core }
          heap := w.heap.erase block }
  -- User code and context switches change memory and the processor, not the table of frames.
  | user {next : Machine} (frames : next.core = { w.machine.core with mem := mem }) :
      WorldStep w .user { w with machine := next }

/-- The address of the first frame of a heap block, with its size. -/
def heapEntry (block : Vaddr × Word32) : Paddr × Word32 := (block.1 - 0x80000000#32, block.2)

/-- The allocator keeps its invariant, and the heap blocks are different live addresses. -/
def Accounted (ram : RamSize) (core : CoreState) (heap : List (Vaddr × Word32)) : Prop :=
  ∃ live, CoreConf.Inv ram ⟨core, live⟩ ∧ heap.Nodup ∧ ∀ block ∈ heap, heapEntry block ∈ live

/-- The kernel before the first user process is created. -/
structure World.Before (ram : RamSize) (w : World) : Prop where
  accounted : Accounted ram w.machine.core w.heap
  procs : w.procs = []
  created : w.created = 0
  programs : w.programs = 0

/-- Some process has not reached user mode. -/
def Waiting (procs : List UserProc) : Prop := ∃ p ∈ procs, p.phase ≠ .running

variable {front back : List UserProc} {p : UserProc}

theorem waiting_insert :
    Waiting (front ++ p :: back) ↔ p.phase ≠ .running ∨ Waiting (front ++ back) := by
  simp only [Waiting, mem_append]
  grind

/-- The used frames pay for the heap and for one page of each program that was started. -/
structure World.Inv (ram : RamSize) (first w : World) : Prop where
  accounted : Accounted ram w.machine.core w.heap
  balance : first.machine.core.usedFrames.card + w.heapFrames + w.programs ≤
    w.machine.core.usedFrames.card + first.heapFrames
  quiet : w.created = 0 →
    w.procs = [] ∧ w.machine.core.usedFrames = first.machine.core.usedFrames
  started : w.created ≠ 0 → 0 < w.programs ∨ Waiting w.procs

variable {ram : RamSize} {first : World}

theorem World.Before.inv (prev : first.Before ram) :
    World.Inv ram first first where
  accounted := prev.accounted
  balance := by
    rw [prev.programs]
    omega
  quiet := fun _ => ⟨prev.procs, rfl⟩
  started := fun running => absurd prev.created running

variable {core : CoreState}

theorem loadElf_growsTo (ran : loadElf files vn as s = .ok (code, entrypoint, space, core))
    {conf : CoreConf} (grown : conf.GrowsTo ram s) : conf.GrowsTo ram core := by
  obtain ⟨reply, _, went⟩ := bind_ok.mp ran
  cases reply with
  | error refused =>
    cases went
    exact grown
  | ok bytes =>
    dsimp only at went
    split at went
    · cases went
      exact grown
    · obtain ⟨⟨res, middle, after⟩, defined, rest⟩ := bind_ok.mp went
      have kept : conf.GrowsTo ram after := phdrLoop_invariant
        (fun _ _ (state : AddrSpace × CoreState) _ _ (prev : conf.GrowsTo ram state.2) done =>
          prev.asDefineRegion done) defined grown
      split at rest
      · cases rest
        exact kept
      · obtain ⟨⟨noted, last⟩, _, final⟩ := bind_ok.mp rest
        split at final
        · cases final
          exact kept
        · cases final
          exact kept

variable {next : CoreState} {heap : List (Vaddr × Word32)}

theorem Accounted.grow (accounted : Accounted ram core heap)
    (grown : ∀ conf : CoreConf, conf.GrowsTo ram core → conf.GrowsTo ram next) :
    Accounted ram next heap ∧ core.usedFrames ⊆ next.usedFrames := by
  obtain ⟨live, inv, distinct, held⟩ := accounted
  obtain ⟨more, after, kept, used⟩ := grown ⟨core, live⟩ inv.growsTo
  exact ⟨⟨more, after, distinct, fun block mem => kept (held block mem)⟩, used⟩

theorem Accounted.take (accounted : Accounted ram core heap)
    (ran : allocKpages npages core = .ok (va, next)) (nonzero : va ≠ 0) :
    Accounted ram next ((va, npages) :: heap) ∧
      next.usedFrames.card = core.usedFrames.card + npages.toNat := by
  obtain ⟨live, inv, distinct, held⟩ := accounted
  obtain ⟨pa, served, addr⟩ := allocKpages_ok ran
  have granted : pa ≠ 0 := by
    rintro rfl
    exact nonzero addr
  rw [if_neg granted] at addr
  have moved : CoreStep ⟨core, live⟩ _ ⟨next, (pa, npages) :: live⟩ :=
    coreStep_granted served granted
  have after := moved.inv inv
  have entry : heapEntry (va, npages) = (pa, npages) := by
    rw [heapEntry, addr, BitVec.add_sub_cancel]
  refine ⟨⟨_, after, nodup_cons.mpr ⟨?_, distinct⟩, ?_⟩,
    (inv.formed.getppages_usedFrames served).2 granted⟩
  · intro again
    have old := held _ again
    rw [entry] at old
    exact after.newest old
  · intro block mem
    rcases mem_cons.mp mem with rfl | old
    · rw [entry]
      exact mem_cons_self
    · exact mem_cons_of_mem _ (held block old)

theorem heapEntry_injective : Function.Injective heapEntry := by
  intro left right same
  simp only [heapEntry, Prod.mk.injEq] at same
  have addr := congrArg (· + 0x80000000#32) same.1
  simp only [BitVec.sub_add_cancel] at addr
  exact Prod.ext addr same.2

theorem Accounted.give (accounted : Accounted ram core heap) (mem : block ∈ heap)
    (ran : freeKpages block.1 core = .ok next) :
    Accounted ram next (heap.erase block) ∧
      core.usedFrames.card ≤ next.usedFrames.card + block.2.toNat := by
  obtain ⟨live, inv, distinct, held⟩ := accounted
  have here : heapEntry block ∈ live := held block mem
  have moved : CoreStep ⟨core, live⟩ _ ⟨next, live.erase (heapEntry block)⟩ :=
    .freeppages here ran
  refine ⟨⟨_, moved.inv inv, distinct.erase block, ?_⟩, inv.freeppages_usedFrames here ran⟩
  intro other todo
  obtain ⟨differ, old⟩ := distinct.mem_erase_iff.mp todo
  exact (mem_erase_of_ne (heapEntry_injective.ne differ)).mpr (held other old)

variable {w : World}

theorem World.Inv.created_ne (inv : World.Inv ram first w) (here : w.procs = front ++ p :: back) :
    w.created ≠ 0 := by
  intro none
  have empty := (inv.quiet none).1
  rw [here] at empty
  exact absurd empty (append_ne_nil_of_right_ne_nil _ (cons_ne_nil _ _))

theorem World.Inv.change (inv : World.Inv ram first w) {q : UserProc}
    (here : w.procs = front ++ p :: back) {machine : Machine}
    (grown : ∀ conf : CoreConf, conf.GrowsTo ram w.machine.core → conf.GrowsTo ram machine.core)
    (phase : p.phase ≠ .running → q.phase ≠ .running) :
    World.Inv ram first { w with machine := machine, procs := front ++ q :: back } := by
  obtain ⟨accounted, used⟩ := inv.accounted.grow grown
  have more := Finset.card_le_card used
  have balance := inv.balance
  refine ⟨accounted, ?_, fun none => absurd none (inv.created_ne here), ?_⟩
  · change _ + w.heapFrames + w.programs ≤ _
    dsimp only
    omega
  · intro some
    refine (inv.started some).imp_right fun waiting => ?_
    rw [here, waiting_insert] at waiting
    exact waiting_insert.mpr (waiting.imp_left phase)

theorem World.Inv.exit (inv : World.Inv ram first w) (here : w.procs = front ++ ⟨.running, space⟩ :: back) :
    World.Inv ram first { w with procs := front ++ back } := by
  refine ⟨inv.accounted, inv.balance, fun none => absurd none (inv.created_ne here), ?_⟩
  intro some
  refine (inv.started some).imp_right fun waiting => ?_
  rw [here, waiting_insert] at waiting
  exact waiting.resolve_left fun differ => differ rfl

theorem WorldStep.inv {next : World} {op : WorldOp} (step : WorldStep w op next)
    (inv : World.Inv ram first w) : World.Inv ram first next := by
  have balance := inv.balance
  cases step with
  | create =>
    refine ⟨inv.accounted, balance, fun none => absurd none (Nat.succ_ne_zero _), fun _ => ?_⟩
    exact .inr ⟨_, mem_cons_self, by decide⟩
  | load here made ran =>
    refine inv.change here (fun conf grown => loadElf_growsTo ran grown) fun _ => ?_
    dsimp only
    split <;> decide
  | @argv front back space va core here ran nonzero =>
    obtain ⟨accounted, _⟩ :=
      inv.accounted.grow fun conf grown => grown.allocKpages ran
    obtain ⟨_, exactly⟩ := inv.accounted.take ran nonzero
    refine ⟨accounted, ?_, fun none => absurd none (inv.created_ne here),
      fun _ => .inl (Nat.succ_pos _)⟩
    rw [show (1 : Word32).toNat = 1 from rfl] at exactly
    change _ + w.heapFrames + (w.programs + 1) ≤ core.usedFrames.card + _
    omega
  | fault here ran =>
    exact inv.change here (fun conf grown => (vmFault_effect ran).growsTo grown) id
  | exec here made ran =>
    exact inv.change here (fun conf grown => loadElf_growsTo ran grown)
      fun differ => absurd rfl differ
  | fork parent copied =>
    refine ⟨inv.accounted, balance, fun none => absurd none (Nat.succ_ne_zero _), fun _ => ?_⟩
    have some : w.created ≠ 0 := by
      intro none
      rw [(inv.quiet none).1] at parent
      exact not_mem_nil parent
    refine (inv.started some).imp_right fun waiting => ?_
    obtain ⟨p, member, phase⟩ := waiting
    exact ⟨p, mem_cons_of_mem _ member, phase⟩
  | exit here => exact inv.exit here
  | @take npages va core started ran nonzero =>
    obtain ⟨accounted, exactly⟩ := inv.accounted.take ran nonzero
    refine ⟨accounted, ?_, fun none => absurd none (Nat.ne_of_gt started), inv.started⟩
    have larger : World.heapFrames { w with heap := (va, npages) :: w.heap } =
      npages.toNat + w.heapFrames := by simp [World.heapFrames]
    change _ + World.heapFrames { w with heap := (va, npages) :: w.heap } + w.programs ≤
      core.usedFrames.card + _
    omega
  | @give block core started held ran =>
    obtain ⟨accounted, atMost⟩ := inv.accounted.give held ran
    refine ⟨accounted, ?_, fun none => absurd none (Nat.ne_of_gt started), inv.started⟩
    have smaller : w.heapFrames = block.2.toNat +
        World.heapFrames { w with heap := w.heap.erase block } :=
      ((perm_cons_erase held).map fun block : Vaddr × Word32 => block.2.toNat).sum_nat
    change _ + World.heapFrames { w with heap := w.heap.erase block } + w.programs ≤
      core.usedFrames.card + _
    omega
  | @user mem machine frames =>
    have same : machine.core.usedFrames = w.machine.core.usedFrames := by
      rw [frames]
      rfl
    obtain ⟨live, allocator, heap⟩ := inv.accounted
    refine ⟨⟨live, ?_, heap⟩, ?_, ?_, inv.started⟩
    · rw [frames]
      exact allocator.withMem mem
    · rw [same]
      exact balance
    · rw [same]
      exact inv.quiet

/-- The used frames balance only if there was no process or the heap shrank. -/
theorem frames_conserved {ram : RamSize} {first last : World} {ops : List WorldOp}
    (before : first.Before ram) (reached : Run WorldStep first ops last)
    (gone : last.procs = []) :
    (last.created = 0 → last.machine.core.usedFrames = first.machine.core.usedFrames) ∧
    (last.machine.core.usedFrames = first.machine.core.usedFrames →
      last.created = 0 ∨ last.heapFrames < first.heapFrames) := by
  have inv : World.Inv ram first last :=
    reached.invariant (fun (w : World) _ _ (kept : World.Inv ram first w) step => step.inv kept)
      before.inv
  refine ⟨fun none => (inv.quiet none).2, fun same => ?_⟩
  by_cases none : last.created = 0
  · exact .inl none
  · refine .inr ?_
    have programs : 0 < last.programs := by
      refine (inv.started none).resolve_right ?_
      rw [gone]
      rintro ⟨p, member, _⟩
      exact not_mem_nil member
    have balance := inv.balance
    rw [same] at balance
    omega

/-- A kernel that has just booted on the small memory. -/
def bootWorld : World where
  machine := Machine.idle (booted eightFrames fun _ => 0)
  procs := []
  heap := []
  created := 0
  programs := 0

theorem bootWorld_before : bootWorld.Before eightFrames where
  accounted := ⟨[], initialConf_inv eightFrames _, nodup_nil, by simp [bootWorld]⟩
  procs := rfl
  created := rfl
  programs := rfl

/-- The frames after `runprogram` has taken the page of `offsets`. -/
def offsetsCore : CoreState :=
  match allocKpages 1 smallLoaded.2 with
  | .ok (_, core) => core
  | .error _ => smallLoaded.2

theorem offsetsCore_eq : allocKpages 1 smallLoaded.2 = .ok (0x80013000, offsetsCore) := rfl

/-- The frames after `runprogram` has taken the page of `length`. -/
def lengthCore : CoreState :=
  match allocKpages 1 offsetsCore with
  | .ok (_, core) => core
  | .error _ => offsetsCore

theorem lengthCore_eq : allocKpages 1 offsetsCore = .ok (0x80014000, lengthCore) := rfl

/-- `runprogram` copies the arguments to the stack. -/
def stackFaulted : AddrSpace × Machine :=
  match vmFault (fileOf smallElf) .write 0x7ffffff0 (some smallLoaded.1) (Machine.idle lengthCore) with
  | .ok (_, some space, next) => (space, next)
  | _ => (smallLoaded.1, Machine.idle lengthCore)

theorem stackFaulted_eq : vmFault (fileOf smallElf) .write 0x7ffffff0 (some smallLoaded.1)
    (idle lengthCore) = .ok (0, some stackFaulted.1, stackFaulted.2) := rfl

/-- The page of `offsets`. -/
def offsetsBlock : Vaddr × Word32 := (0x80013000, 1)

/-- `runprogram` frees `offsets`. -/
def offsetsFreed : CoreState :=
  match freeKpages offsetsBlock.1 stackFaulted.2.core with
  | .ok core => core
  | .error _ => stackFaulted.2.core

theorem offsetsFreed_eq : freeKpages offsetsBlock.1 stackFaulted.2.core = .ok offsetsFreed := rfl

/-- The program fetches its first instruction. -/
def codeFaulted : AddrSpace × Machine :=
  match vmFault (fileOf smallElf) .read 0x400000 (some stackFaulted.1)
      { stackFaulted.2 with core := offsetsFreed } with
  | .ok (_, some space, next) => (space, next)
  | _ => stackFaulted

theorem codeFaulted_eq : vmFault (fileOf smallElf) .read 0x400000 (some stackFaulted.1)
    { stackFaulted.2 with core := offsetsFreed } = .ok (0, some codeFaulted.1, codeFaulted.2) := rfl

theorem codeFaulted_used :
    codeFaulted.2.core.usedFrames = ([0, 1, 2, 3, 4] : List Nat).toFinset := by
  decide +kernel

-- from here on the states are known by their equations
attribute [irreducible] offsetsCore lengthCore stackFaulted offsetsFreed codeFaulted

/-- `runprogram` of the small program, its start and its call of `_exit`. -/
def programRun : List WorldOp := [.create, .load, .take, .argv, .fault, .give, .fault, .exit]

/-- The kernel with one process. -/
def oneProcess (machine : Machine) (phase : Phase) (space : Option AddrSpace)
    (heap : List (Vaddr × Word32)) (programs : Nat) : World where
  machine := machine
  procs := [⟨phase, space⟩]
  heap := heap
  created := 1
  programs := programs

/-- The kernel after the only process has exited. -/
def exitedWorld : World where
  machine := codeFaulted.2
  procs := []
  heap := []
  created := 1
  programs := 1

theorem exitedWorld_reached : Run WorldStep bootWorld programRun exitedWorld := by
  have only (machine : Machine) (phase : Phase) (space : Option AddrSpace)
      (heap : List (Vaddr × Word32)) (programs : Nat) :
      (oneProcess machine phase space heap programs).procs = [] ++ ⟨phase, space⟩ :: [] := rfl
  have made : WorldStep bootWorld .create
      (oneProcess (idle (booted eightFrames fun _ => 0)) .created none [] 0) := .create
  have loaded : WorldStep
      (oneProcess (idle (booted eightFrames fun _ => 0)) .created none [] 0) .load
      (oneProcess (idle smallLoaded.2) .loaded (some smallLoaded.1) [] 0) :=
    .load (only (idle (booted eightFrames fun _ => 0)) .created none [] 0)
      (show asCreate ⟨some newSpace, true⟩ = .ok (some newSpace) from rfl) smallLoaded_eq
  have offsets : WorldStep
      (oneProcess (idle smallLoaded.2) .loaded (some smallLoaded.1) [] 0) .take
      (oneProcess (idle offsetsCore) .loaded (some smallLoaded.1) [offsetsBlock] 0) :=
    .take Nat.one_pos offsetsCore_eq (by decide)
  have len : WorldStep
      (oneProcess (idle offsetsCore) .loaded (some smallLoaded.1) [offsetsBlock] 0) .argv
      (oneProcess (idle lengthCore) .running (some smallLoaded.1) [offsetsBlock] 1) :=
    .argv (only ..) lengthCore_eq (by decide)
  have copied : WorldStep
      (oneProcess (idle lengthCore) .running (some smallLoaded.1) [offsetsBlock] 1) .fault
      (oneProcess stackFaulted.2 .running (some stackFaulted.1) [offsetsBlock] 1) :=
    .fault (only ..) stackFaulted_eq
  have freed : WorldStep
      (oneProcess stackFaulted.2 .running (some stackFaulted.1) [offsetsBlock] 1) .give
      (oneProcess { stackFaulted.2 with core := offsetsFreed } .running (some stackFaulted.1) [] 1) :=
    .give (w := oneProcess stackFaulted.2 .running (some stackFaulted.1) [offsetsBlock] 1)
      Nat.one_pos mem_cons_self offsetsFreed_eq
  have fetched : WorldStep
      (oneProcess { stackFaulted.2 with core := offsetsFreed } .running (some stackFaulted.1) [] 1)
      .fault (oneProcess codeFaulted.2 .running (some codeFaulted.1) [] 1) :=
    .fault (only ..) codeFaulted_eq
  have left : WorldStep (oneProcess codeFaulted.2 .running (some codeFaulted.1) [] 1) .exit
      exitedWorld := .exit (only ..)
  exact .cons made (.cons loaded (.cons offsets (.cons len (.cons copied (.cons freed
    (.cons fetched (.single left)))))))

theorem frames_conserved_bootWorld :
    Run WorldStep bootWorld programRun exitedWorld ∧
      (exitedWorld.machine.core.usedFrames = bootWorld.machine.core.usedFrames →
        exitedWorld.created = 0 ∨ exitedWorld.heapFrames < bootWorld.heapFrames) :=
  ⟨exitedWorld_reached, (frames_conserved bootWorld_before exitedWorld_reached rfl).2⟩

/-- Page tables, two pages and the array `length` stay used after the exit. -/
theorem frames_lost :
    bootWorld.Before eightFrames ∧ Run WorldStep bootWorld programRun exitedWorld ∧
      exitedWorld.procs = [] ∧ exitedWorld.heap = bootWorld.heap ∧
      bootWorld.machine.core.usedFrames = ∅ ∧
      exitedWorld.machine.core.usedFrames = ([0, 1, 2, 3, 4] : List Nat).toFinset :=
  ⟨bootWorld_before, exitedWorld_reached, rfl, rfl, rfl, codeFaulted_used⟩

end Os161.Process

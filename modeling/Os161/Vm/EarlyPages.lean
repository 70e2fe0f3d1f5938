import Os161.Vm.Accounting

namespace Os161.Vm
open Word Outcome Transition CoreState

/-- The frame allocator with the addresses that callers hold from before and from after `vm_bootstrap` -/
structure BootConf where
  state : CoreState
  early : List (Paddr × Word32)
  late : List (Paddr × Word32)

/-- The calls before and after `vm_bootstrap`; an early address can be freed and its pages written at any
time. -/
inductive BootOp where
  | steal (npages : Word32) (owner : FrameOwner)
  | bootstrap
  | late (op : CoreOp)
  | freeEarly (paddr : Paddr)
  | storeEarly (address : Nat) (byte : Byte)

inductive BootStep : BootConf → BootOp → BootConf → Prop where
  | steal {conf : BootConf} {npages : Word32} {owner : FrameOwner} {addr : Paddr} {next : CoreState}
      (before : conf.state.afterInit = false) (returned : getppages npages owner conf.state = .ok (addr, next)) :
      BootStep conf (.steal npages owner)
        ⟨next, if addr = 0 then conf.early else (addr, npages) :: conf.early, conf.late⟩
  | bootstrap {conf : BootConf} (before : conf.state.afterInit = false) :
      BootStep conf .bootstrap ⟨vmBootstrap conf.state, conf.early, conf.late⟩
  | late {conf : BootConf} {op : CoreOp} {next : CoreConf} (after : conf.state.afterInit = true)
      (step : CoreStep ⟨conf.state, conf.late⟩ op next) :
      BootStep conf (.late op) ⟨next.state, conf.early, next.live⟩
  | freeEarly {conf : BootConf} {entry : Paddr × Word32} {next : CoreState} (held : entry ∈ conf.early)
      (returned : freeppages entry.1 conf.state = .ok next) :
      BootStep conf (.freeEarly entry.1) ⟨next, conf.early.erase entry, conf.late⟩
  | storeEarly {conf : BootConf} {entry : Paddr × Word32} {address : Nat} {byte : Byte}
      (held : entry ∈ conf.early) (above : entry.1.toNat ≤ address)
      (below : address < entry.1.toNat + entry.2.toNat * pageSize) :
      BootStep conf (.storeEarly address byte)
        ⟨{ conf.state with mem := Function.update conf.state.mem address byte }, conf.early, conf.late⟩

/-- The state before `vm_bootstrap`, with the memory below `first` given away -/
def stolen (ram : RamSize) (first : Paddr) (mem : Nat → Byte) : CoreState :=
  { beforeBoot ram mem with firstpaddr := first }

/-- What holds as long as no early address is freed: memory is given away from the bottom, then the frame table
is set up, or no memory is left for it. -/
inductive BootConf.Sound (ram : RamSize) (conf : BootConf) : Prop where
  | before {first : Paddr} {mem : Nat → Byte} (state : conf.state = stolen ram first mem)
      (aligned : Aligned first) (low : first ≤ ram.hi) (none : conf.late = [])
  | after {rest : RamSize} (inv : CoreConf.Inv rest ⟨conf.state, conf.late⟩)
  | full (after : conf.state.afterInit = true) (unlocked : conf.state.stealmemLock = false)
      (size : conf.state.coremapSize = 0) (cursor : conf.state.ref = -1) (none : conf.late = [])

variable {ram : RamSize} {conf next : BootConf} {op : BootOp}

theorem getppages_stolen (ram : RamSize) (first : Paddr) (mem : Nat → Byte) (npages : Word32) (owner : FrameOwner) :
    getppages npages owner (stolen ram first mem) = .ok ((stolen ram first mem).ramStealmem npages) := by
  let locked : CoreState := { stolen ram first mem with stealmemLock := true }
  have searched : findFreeFrame npages.toInt owner locked = .ok (0, locked) := rfl
  have guarded : ¬ (npages ≠ 0 ∧ locked.paddrMax - 4096#32 ≤ (0 : Paddr)) := by
    intro both
    exact absurd (show (0 : Paddr) - 4096#32 ≤ 0 from both.2) (by decide)
  have initialised : locked.afterInit = false := rfl
  unfold getppages
  rw [show (stolen ram first mem).spinlockAcquire = .ok locked from rfl, ok_bind]
  dsimp only
  rw [searched, ok_bind, ite_self, if_neg guarded, if_pos ⟨rfl, initialised⟩]
  unfold ramStealmem
  dsimp only
  split_ifs <;> rfl

theorem BootConf.Sound.steal (sound : conf.Sound ram) (prev : conf.state.afterInit = false) {npages : Word32}
    {owner : FrameOwner} {addr : Paddr} {state : CoreState}
    (ran : getppages npages owner conf.state = .ok (addr, state)) (early : List (Paddr × Word32)) :
    BootConf.Sound ram ⟨state, early, conf.late⟩ := by
  cases sound with
  | after inv => exact absurd (inv.formed.initialised.symm.trans prev) nofun
  | full after => exact absurd (after.symm.trans prev) nofun
  | @before first mem start aligned low none =>
    rw [start, getppages_stolen, ramStealmem] at ran
    split_ifs at ran with refused
    · cases ran
      exact .before rfl aligned low none
    · cases ran
      refine .before (show _ = stolen ram (first + npages * 4096#32) mem from rfl) ?_ (BitVec.not_lt.mp refused) none
      have step : (npages * 4096#32).toNat % 4096 = 0 := by
        rw [BitVec.toNat_mul, BitVec.toNat_ofNat]
        omega
      simp only [Aligned, BitVec.toNat_add] at aligned ⊢
      omega

theorem BootConf.Sound.bootstrap (sound : conf.Sound ram) (prev : conf.state.afterInit = false) :
    BootConf.Sound ram ⟨vmBootstrap conf.state, conf.early, conf.late⟩ := by
  cases sound with
  | after inv => exact absurd (inv.formed.initialised.symm.trans prev) nofun
  | full after => exact absurd (after.symm.trans prev) nofun
  | @before first mem start aligned low none =>
    rw [start, none]
    by_cases some : first < ram.hi
    · let rest : RamSize := ⟨first, ram.hi, aligned, ram.hiAligned, some, ram.capped⟩
      exact .after (show CoreConf.Inv rest _ from initialConf_inv rest mem)
    · obtain rfl : first = ram.hi := BitVec.le_antisymm low (BitVec.not_lt.mp some)
      refine .full rfl rfl ?_ rfl rfl
      change ((ram.hi - ram.hi) / 4096#32).toNat = 0
      rw [BitVec.sub_self]
      rfl

theorem getppages_full {s : CoreState} (after : s.afterInit = true) (unlocked : s.stealmemLock = false)
    (size : s.coremapSize = 0) (cursor : s.ref = -1) (ran : getppages npages owner s = .ok (addr, s')) :
    addr = 0 ∧ s' = s := by
  obtain ⟨coremaps, coremapSize, pageStart, paddrMax, freeaddr, ref, afterInit, pvictim, stealmemLock, firstpaddr,
    lastpaddr, mem⟩ := s
  cases after
  cases unlocked
  cases size
  cases cursor
  by_cases zero : npages = 0
  · subst npages
    cases ran
    exact ⟨rfl, rfl⟩
  · simp only [getppages, if_neg zero] at ran
    cases ran

theorem BootConf.Sound.late {step : CoreOp} {after : CoreConf} (sound : conf.Sound ram)
    (initialised : conf.state.afterInit = true) (moved : CoreStep ⟨conf.state, conf.late⟩ step after)
    (early : List (Paddr × Word32)) : BootConf.Sound ram ⟨after.state, early, after.live⟩ := by
  cases sound with
  | before state =>
    rw [state] at initialised
    cases initialised
  | after inv => exact .after (moved.inv inv)
  | full init unlocked size cursor none =>
    rw [none] at moved
    cases moved with
    | getppages ran =>
      obtain ⟨rfl, rfl⟩ := getppages_full init unlocked size cursor ran
      exact .full init unlocked size cursor rfl
    | freeppages held _ => cases held
    | store held _ _ => cases held

theorem BootConf.Sound.withMem (sound : conf.Sound ram) (mem : Nat → Byte) :
    BootConf.Sound ram ⟨{ conf.state with mem := mem }, conf.early, conf.late⟩ := by
  cases sound with
  | before state aligned low none =>
    rw [state]
    exact .before rfl aligned low none
  | after inv => exact .after (inv.withMem mem)
  | full init unlocked size cursor none => exact .full init unlocked size cursor none

theorem BootStep.sound (step : BootStep conf op next) (kept : ∀ paddr, op ≠ .freeEarly paddr)
    (sound : conf.Sound ram) : next.Sound ram := by
  cases step with
  | steal prev ran => exact sound.steal prev ran _
  | bootstrap prev => exact sound.bootstrap prev
  | late after step => exact sound.late after step _
  | freeEarly held ran => exact absurd rfl (kept _)
  | storeEarly held above below => exact sound.withMem _

theorem freeppages_badIndex {s : CoreState}
    (out : s.coremapSize ≤ ((paddr - s.pageStart) / 4096#32).toNat) :
    ∃ index : Nat, s.coremapSize ≤ index ∧ freeppages paddr s = .error (.badIndex index) := by
  refine ⟨_, out, ?_⟩
  rw [freeppages, coremapAt, if_neg (by omega)]
  rfl

theorem CoreState.WellFormed.below {s : CoreState} (formed : s.WellFormed ram) {paddr : Paddr}
    (below : paddr < s.pageStart) : s.coremapSize ≤ ((paddr - s.pageStart) / 4096#32).toNat := by
  obtain ⟨layout, _, frames, _, _, top, table⟩ := ram.layout
  have start := formed.start
  have under := BitVec.lt_def.mp below
  rw [formed.size, BitVec.toNat_udiv, BitVec.toNat_sub, show (4096#32).toNat = 4096 from rfl]
  simp only [pageSize] at layout start
  omega

theorem BootConf.Sound.freeEarly (sound : conf.Sound ram) {paddr : Paddr}
    (below : conf.state.afterInit = false ∨ paddr < conf.state.pageStart) :
    ∃ index : Nat, conf.state.coremapSize ≤ index ∧ freeppages paddr conf.state = .error (.badIndex index) := by
  apply freeppages_badIndex
  cases sound with
  | before state =>
    rw [state]
    exact Nat.zero_le _
  | after inv =>
    rcases below with prev | below
    · exact absurd (inv.formed.initialised.symm.trans prev) nofun
    · exact inv.formed.below below
  | full _ _ size =>
    rw [size]
    exact Nat.zero_le _

theorem BootConf.Sound.freeLate (sound : conf.Sound ram) (held : entry ∈ conf.late) :
    ∃ state, freeppages entry.1 conf.state = .ok state := by
  cases sound with
  | before _ _ _ none | full _ _ _ _ none => exact absurd (none ▸ held) List.not_mem_nil
  | after inv => exact ⟨_, inv.freeppages_eq held⟩

theorem freeKpages_kvaddr (paddr : Paddr) (s : CoreState) :
    freeKpages (paddr + 0x80000000#32) s = freeppages paddr s := by
  rw [freeKpages, BitVec.add_sub_cancel]

/-- Frees of addresses from after `vm_bootstrap` stay inside the table. -/
theorem free_inside_coremap {mem : Nat → Byte} {ops : List BootOp}
    (reached : Run BootStep ⟨beforeBoot ram mem, [], []⟩ ops conf)
    (kept : ∀ op ∈ ops, ∀ paddr, op ≠ .freeEarly paddr) :
    (∀ entry ∈ conf.late, ∃ state, freeppages entry.1 conf.state = .ok state ∧
      freeKpages (entry.1 + 0x80000000#32) conf.state = .ok state) ∧
    ∀ entry ∈ conf.early, conf.state.afterInit = false ∨ entry.1 < conf.state.pageStart →
      ∃ index : Nat, conf.state.coremapSize ≤ index ∧
        freeppages entry.1 conf.state = .error (.badIndex index) := by
  have start : BootConf.Sound ram ⟨beforeBoot ram mem, [], []⟩ :=
    .before (show _ = stolen ram ram.lo mem from rfl) ram.loAligned (BitVec.le_of_lt ram.nonempty) rfl
  have sound : conf.Sound ram :=
    (reached.restrict kept).invariant (fun _ _ _ sound step => step.1.sound step.2 sound) start
  refine ⟨?_, fun _ _ below => sound.freeEarly below⟩
  intro entry held
  obtain ⟨state, freed⟩ := sound.freeLate held
  exact ⟨state, freed, (freeKpages_kvaddr _ _).trans freed⟩

theorem free_inside_coremap_eightFrames :
    ∃ conf, Run BootStep ⟨beforeBoot eightFrames fun _ => 0, [], []⟩ [.bootstrap, .late (.getppages 1 .user)] conf ∧
      conf.late = [(0x11000, 1)] ∧ ∀ entry ∈ conf.late, ∃ state, freeppages entry.1 conf.state = .ok state ∧
        freeKpages (entry.1 + 0x80000000#32) conf.state = .ok state := by
  have reached : Run BootStep ⟨beforeBoot eightFrames fun _ => 0, [], []⟩
      [.bootstrap, .late (.getppages 1 .user)] _ :=
    .cons (.bootstrap rfl) (.single (.late rfl (.getppages rfl)))
  exact ⟨_, reached, rfl, (free_inside_coremap reached (by simp)).1⟩

/-- One page of the small memory is given away before `vm_bootstrap`. -/
def oneStolen : BootConf := ⟨vmBootstrap (stolen eightFrames 0x11000 fun _ => 0), [(0x10000, 1)], []⟩

theorem oneStolen_reached :
    Run BootStep ⟨beforeBoot eightFrames fun _ => 0, [], []⟩ [.steal 1 .kernel, .bootstrap] oneStolen := by
  let start := beforeBoot eightFrames fun _ => 0
  have ran := getppages_stolen eightFrames eightFrames.lo (fun _ => 0) 1 .kernel
  have stole : BootStep ⟨start, [], []⟩ (.steal 1 .kernel) _ := .steal rfl ran
  exact .cons stole (.single (.bootstrap rfl))

/-- The page is freed after `vm_bootstrap`. -/
theorem free_stolen_leaves_coremap :
    Run BootStep ⟨beforeBoot eightFrames fun _ => 0, [], []⟩ [.steal 1 .kernel, .bootstrap] oneStolen ∧
      (0x10000, 1) ∈ oneStolen.early ∧ oneStolen.state.coremapSize = 7 ∧
      freeppages 0x10000 oneStolen.state = .error (.badIndex 1048574) := by
  have index : ((0x10000 - oneStolen.state.pageStart) / 4096#32).toNat = 1048574 := by decide
  have size : oneStolen.state.coremapSize = 7 := by decide
  refine ⟨oneStolen_reached, List.mem_cons_self, size, ?_⟩
  rfl

end Os161.Vm

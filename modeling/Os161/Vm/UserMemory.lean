import Os161.Vm.Ownership

namespace Os161.Vm
open Word Outcome Transition Function List

/-- A process on the processor. -/
structure UserState where
  space : AddrSpace
  machine : Machine

/-- A user program writes memory; the kernel handles faults and switches address spaces. -/
inductive UserOp where
  | store (va : Vaddr) (byte : Byte)
  | fault (faulttype : FaultType) (faultaddress : Vaddr)
  | activate
deriving DecidableEq

/-- The hardware translates an address through a valid entry for its page. -/
structure Machine.Translates (m : Machine) (slot : Nat) (va : Vaddr) (pa : Nat) : Prop where
  inside : slot < numTlb
  valid : (m.tlb slot).Valid
  matched : (m.tlb slot).ehi = pageMask va
  address : pa = (pageMask (m.tlb slot).elo).toNat + va.toNat % pageSize

/-- A user store needs a writable translation of an address below the kernel. Faults return. -/
inductive UserStep : UserState → UserOp → UserState → Prop where
  | store {s : UserState} {va : Vaddr} {byte : Byte} {slot pa : Nat} (user : va < userStack)
      (translated : s.machine.Translates slot va pa) (writable : (s.machine.tlb slot).Dirty) :
      UserStep s (.store va byte)
        ⟨s.space, s.machine.setMem (update s.machine.core.mem pa byte)⟩
  | fault {s : UserState} {files : Files} {faulttype : FaultType} {faultaddress : Vaddr}
      {code : Errno} {space : AddrSpace} {next : Machine}
      (returned : vmFault files faulttype faultaddress (some s.space) s.machine =
        .ok (code, some space, next)) : UserStep s (.fault faulttype faultaddress) ⟨space, next⟩
  | activate : UserStep s .activate ⟨s.space, asActivate (some s.space) s.machine⟩

/-- Every translation of the buffer leads from its page to the frame of the valid entry. -/
def UserState.Translated (s : UserState) : Prop :=
  ∀ slot < numTlb, (s.machine.tlb slot).Valid →
    s.space.Usable ∧ Aligned (s.machine.tlb slot).ehi ∧
      ∃ region vpn entry, s.space.locate (s.machine.tlb slot).ehi = some (region, vpn) ∧
        s.space.pteAt region vpn = .ok entry ∧ entry.valid = true ∧
        pageMask (s.machine.tlb slot).elo = entry.pfn

/-- The invariant of a running process. -/
structure UserState.Inv (ram : RamSize) (mem : Nat → Byte) (s : UserState) : Prop where
  owns : ∃ live, s.space.Owns ram mem live s.machine.core
  translated : s.Translated
  buffer : s.machine.TlbInv

/-- A process that has not run: no page is in memory and the buffer is empty. -/
structure UserState.Fresh (ram : RamSize) (mem : Nat → Byte) (s : UserState) : Prop where
  allocator : ∃ live, CoreConf.Reachable ram mem ⟨s.machine.core, live⟩
  untouched : s.space.Untouched
  empty : ∀ slot < numTlb, ¬ (s.machine.tlb slot).Valid
  cursor : s.machine.nextVictim < numTlb

variable {ram : RamSize} {mem : Nat → Byte} {s : UserState}

theorem UserState.Fresh.inv (fresh : s.Fresh ram mem) : s.Inv ram mem := by
  have bad {region : Region} {vpn : Nat} {entry : Pte}
      (found : s.space.pteAt region vpn = .ok entry) : entry.valid ≠ true := by
    rw [fresh.untouched _ _ _ found]
    decide
  obtain ⟨live, allocator⟩ := fresh.allocator
  refine ⟨⟨live, allocator, ?_, ?_⟩, ?_, ⟨0, TlbShape.empty fresh.empty⟩, fresh.cursor⟩
  · intro region vpn entry found valid
    exact absurd valid (bad found)
  · intro region vpn entry other place second found _ valid
    exact absurd valid (bad found)
  · intro slot inside valid
    exact absurd valid (fresh.empty slot inside)

theorem UserState.Inv.translation (inv : s.Inv ram mem) {slot pa : Nat} {va : Vaddr}
    (translates : s.machine.Translates slot va pa) :
    s.space.Usable ∧ ∃ region vpn entry, s.space.locate (pageMask va) = some (region, vpn) ∧
      s.space.pteAt region vpn = .ok entry ∧ entry.valid = true ∧
      pa = entry.pfn.toNat + va.toNat % pageSize := by
  obtain ⟨usable, _, region, vpn, entry, spot, found, valid, frame⟩ :=
    inv.translated slot translates.inside translates.valid
  rw [translates.matched] at spot
  refine ⟨usable, region, vpn, entry, spot, found, valid, ?_⟩
  rw [translates.address, frame]

theorem UserStep.inv {t : UserState} {op : UserOp} (step : UserStep s op t) (inv : s.Inv ram mem) :
    t.Inv ram mem := by
  obtain ⟨live, owns⟩ := inv.owns
  cases step with
  | @store va byte slot pa user translated writable =>
    obtain ⟨_, region, vpn, entry, _, found, valid, rfl⟩ := inv.translation translated
    have inside : va.toNat % pageSize < pageSize := Nat.mod_lt _ (by decide)
    refine ⟨⟨live, ?_⟩, inv.translated, inv.buffer⟩
    exact owns.stores found valid (va.toNat % pageSize) [byte] inside
  | @fault files kind faultaddress code space next ran =>
    have effect := vmFault_effect ran
    have older {slot : Nat} (inside : slot < numTlb) (valid : (s.machine.tlb slot).Valid) :
        space.Usable ∧ Aligned (s.machine.tlb slot).ehi ∧
          ∃ region vpn entry, space.locate (s.machine.tlb slot).ehi = some (region, vpn) ∧
            space.pteAt region vpn = .ok entry ∧ entry.valid = true ∧
            pageMask (s.machine.tlb slot).elo = entry.pfn := by
      obtain ⟨usable, aligned, region, vpn, entry, spot, found, present, frame⟩ :=
        inv.translated slot inside valid
      exact ⟨usable.layout effect.layout.symm, aligned, region, vpn, entry,
        (AddrSpace.locate_layout effect.layout _).trans spot, effect.kept found present, present,
        frame⟩
    refine ⟨effect.owns owns, ?_, ?_⟩
    · intro slot inside valid
      obtain same | ⟨elo, region, vpn, entry, new, usable, spot, found, present, frame, _⟩ :=
        vmFault_slot ran slot
      · rw [same] at valid ⊢
        exact older inside valid
      · rw [new]
        exact ⟨usable, pageMask_aligned _, region, vpn, entry, spot, found, present, frame⟩
    · exact TlbStep.inv (.fault ran) inv.buffer
  | activate =>
    have buffer := TlbStep.inv (.activate (some s.space) s.machine) inv.buffer
    refine ⟨⟨live, ?_⟩, ?_, buffer⟩
    · rw [asActivate_core]
      exact owns
    · intro slot inside valid
      rw [asActivate_tlb s.space s.machine inside] at valid
      exact absurd valid (invalid_slot slot)

/-- The fault hits a stack page that is in memory, that no slot translates and that is not zero. -/
structure UserState.Wipes (s : UserState) (faulttype : FaultType) (faultaddress : Vaddr) : Prop where
  handled : faulttype.Handled
  missed : ∀ slot < numTlb, (s.machine.tlb slot).Valid →
    (s.machine.tlb slot).ehi ≠ pageMask faultaddress
  page : ∃ vpn entry, s.space.locate (pageMask faultaddress) = some (.stack, vpn) ∧
    s.space.pteAt .stack vpn = .ok entry ∧ entry.valid = true ∧
    ∃ offset < pageSize, s.machine.core.mem (entry.pfn.toNat + offset) ≠ 0

theorem CoreState.WellFormed.getppages_mem {s : CoreState} (formed : s.WellFormed ram)
    (served : getppages 1 owner s = .ok (paddr, core)) : core.mem = s.mem := by
  obtain ⟨start, _, _, ran⟩ | ⟨_, failed⟩ :=
    getppages_cases formed (show (1 : Word32) ≠ 0 by decide) owner
  · rw [ran] at served
    cases served
    rfl
  · rw [failed] at served
    cases served

variable {region : Region} {vpn : Nat} {entry : Pte}

theorem UserState.Inv.fault_keeps (inv : s.Inv ram mem) {files : Files} {kind : FaultType}
    {fault : Vaddr} {code : Errno} {space : AddrSpace} {next : Machine}
    (ran : vmFault files kind fault (some s.space) s.machine =
      .ok (code, some space, next)) (harmless : region ≠ .stack ∨ ¬ s.Wipes kind fault)
    (found : s.space.pteAt region vpn = .ok entry) (valid : entry.valid = true) {offset : Nat}
    (small : offset < pageSize) :
    next.core.mem (entry.pfn.toNat + offset) =
      s.machine.core.mem (entry.pfn.toNat + offset) := by
  obtain ⟨live, owns⟩ := inv.owns
  have held := owns.held _ _ _ found valid
  have formed := owns.allocator.inv.formed
  obtain ⟨_, _, _, rfl⟩ | ⟨handled, _⟩ := vmFault_outcome ran
  · rfl
  · have effect := vmFault_effect ran
    generalize next.core = core at effect ⊢
    cases effect with
    | unchanged => rfl
    | refused refused => rw [formed.getppages_mem refused]
    | @cleared place second spot present loaded missed =>
      dsimp only
      unfold bzeroPage
      split
      · have same : second.pfn = entry.pfn := by
          by_contra differ
          have here := owns.held _ _ _ present loaded
          have apart := owns.allocator.inv.frames_apart here held differ
            (show entry.pfn.toNat + offset - second.pfn.toNat < pageSize by omega) small
          omega
        by_contra changed
        have place := owns.separate _ _ _ _ _ _ found present valid loaded same.symm
        apply harmless.resolve_left (fun program => program (congrArg Prod.fst place))
        refine ⟨handled, ?_, _, second, spot, present, loaded, offset, small, ?_⟩
        · intro slot bound translates matched
          obtain ⟨⟨count, shape⟩, _⟩ := inv.buffer
          exact missed ((shape.probe_hit_iff _).mpr ⟨slot, bound, translates, matched⟩)
        · rw [same]
          exact fun zero => changed zero.symm
      · rfl
    | @loaded _ _ _ paddr core _ _ _ served nonzero _ data contents =>
      have unused := owns.allocator.fresh served nonzero
      have granted := (owns.allocator.step (coreStep_granted served nonzero)).inv
      have differ : paddr ≠ entry.pfn := by
        intro same
        rw [same] at unused
        exact unused held
      have short : data.length ≤ pageSize := by
        rw [contents]
        split
        · exact Nat.zero_le _
        · exact regionLoad_length files _ _ _ _
      dsimp only
      rw [Bytes.store_outside, formed.getppages_mem served]
      by_contra overlap
      have apart := granted.frames_apart mem_cons_self (mem_cons_of_mem _ held) differ
        (show entry.pfn.toNat + offset - paddr.toNat < pageSize by omega) small
      omega

theorem UserState.Wipes.changes {kind : FaultType} {fault : Vaddr}
    (wipes : s.Wipes kind fault) {files : Files} {code : Errno} {space : AddrSpace}
    {next : Machine} (ran : vmFault files kind fault (some s.space) s.machine =
      .ok (code, some space, next))
    (spot : s.space.locate (pageMask fault) = some (region, vpn))
    (found : s.space.pteAt region vpn = .ok entry) :
    ∃ offset < pageSize, next.core.mem (entry.pfn.toNat + offset) ≠
      s.machine.core.mem (entry.pfn.toNat + offset) := by
  obtain ⟨place, second, again, present, valid, offset, small, nonzero⟩ := wipes.page
  rw [spot] at again
  cases again
  rw [found, Except.ok.injEq] at present
  subst second
  refine ⟨offset, small, ?_⟩
  have missed : probe s.machine.tlb (pageMask fault) numTlb 0 ≠ .hit := by
    intro hit
    obtain ⟨slot, _, inside, valid, matched⟩ := probe_hit hit
    exact wipes.missed slot (by omega) valid matched
  have cleared : next.core.mem = bzeroPage entry.pfn s.machine.core.mem := by
    obtain ⟨rejected, _⟩ | ⟨_, _, _, _, outcome⟩ := vmFault_outcome ran
    · exact absurd wipes.handled rejected
    · obtain ⟨_, ⟨program, _⟩ | filled⟩ := outcome.of_valid spot found valid
      · exact absurd rfl program
      · rw [fillTlb_core filled, bzeroPage_store]
        exact if_pos ⟨rfl, missed⟩
  rw [cleared, bzeroPage, if_pos ⟨Nat.le_add_right _ _, by omega⟩]
  exact nonzero.symm

/-- The flat memory that a program believes in remembers its last write to each address. -/
def UserOp.record (written : Vaddr → Option Byte) : UserOp → Vaddr → Option Byte
  | .store va byte => update written va (some byte)
  | .fault _ _ => written
  | .activate => written

/-- The last byte that a run writes to an address. -/
def lastWritten (ops : List UserOp) : Vaddr → Option Byte :=
  ops.foldl UserOp.record fun _ => none

/-- The frames hold what the flat memory remembers. -/
def UserState.Remembers (s : UserState) (written : Vaddr → Option Byte) : Prop :=
  ∀ va byte, written va = some byte →
    ∃ region vpn entry, s.space.locate (pageMask va) = some (region, vpn) ∧
      s.space.pteAt region vpn = .ok entry ∧ entry.valid = true ∧
      s.machine.core.mem (entry.pfn.toNat + va.toNat % pageSize) = byte

/-- A step that wipes no stack page. -/
def CarefulStep (s : UserState) (op : UserOp) (t : UserState) : Prop :=
  UserStep s op t ∧
    ∀ faulttype faultaddress, op = .fault faulttype faultaddress → ¬ s.Wipes faulttype faultaddress

theorem UserState.Inv.addresses_apart (inv : s.Inv ram mem) (usable : s.space.Usable)
    (differ : left ≠ right) (leftLocated : s.space.locate (pageMask left) = some (region, vpn))
    (rightLocated : s.space.locate (pageMask right) = some (other, place))
    (leftFound : s.space.pteAt region vpn = .ok entry) (rightFound : s.space.pteAt other place = .ok second)
    (leftValid : entry.valid = true) (rightValid : second.valid = true) :
    entry.pfn.toNat + left.toNat % pageSize ≠ second.pfn.toNat + right.toNat % pageSize := by
  obtain ⟨live, owns⟩ := inv.owns
  have leftSmall : left.toNat % pageSize < pageSize := Nat.mod_lt _ (by decide)
  have rightSmall : right.toNat % pageSize < pageSize := Nat.mod_lt _ (by decide)
  by_cases same : entry.pfn = second.pfn
  · have place := owns.separate _ _ _ _ _ _ leftFound rightFound leftValid rightValid same
    cases place
    have leftPage := s.space.locate_toNat usable.aligned1 usable.aligned2 (pageMask_aligned left)
      leftLocated
    have rightPage := s.space.locate_toNat usable.aligned1 usable.aligned2 (pageMask_aligned right)
      rightLocated
    rw [pageMask_toNat] at leftPage rightPage
    intro equal
    apply differ
    apply BitVec.eq_of_toNat_eq
    rw [same] at equal
    simp only [pageSize] at *
    omega
  · have leftHeld := owns.held _ _ _ leftFound leftValid
    have rightHeld := owns.held _ _ _ rightFound rightValid
    exact owns.allocator.inv.frames_apart leftHeld rightHeld same leftSmall rightSmall

theorem CarefulStep.remembers {t : UserState} {op : UserOp} (step : CarefulStep s op t)
    (inv : s.Inv ram mem) {written : Vaddr → Option Byte} (remembers : s.Remembers written) :
    t.Remembers (op.record written) := by
  obtain ⟨moved, harmless⟩ := step
  intro va byte noted
  cases moved with
  | @store target value slot pa user translated writable =>
    obtain ⟨usable, region, vpn, entry, spot, found, valid, rfl⟩ := inv.translation translated
    by_cases here : va = target
    · subst here
      obtain rfl : value = byte := by simpa [UserOp.record] using noted
      exact ⟨region, vpn, entry, spot, found, valid, update_self _ _ _⟩
    · rw [UserOp.record, update_of_ne here] at noted
      obtain ⟨other, place, second, there, present, loaded, same⟩ := remembers va byte noted
      have apart := inv.addresses_apart usable here there spot present found loaded valid
      exact ⟨other, place, second, there, present, loaded,
        (update_of_ne apart _ _).trans same⟩
  | @fault files kind faultaddress code space next ran =>
    obtain ⟨region, vpn, entry, spot, found, valid, same⟩ := remembers va byte noted
    have effect := vmFault_effect ran
    have kept := inv.fault_keeps ran (.inr (harmless kind faultaddress rfl)) found valid
      (Nat.mod_lt va.toNat (show 0 < pageSize by decide))
    exact ⟨region, vpn, entry, (AddrSpace.locate_layout effect.layout _).trans spot,
      effect.kept found valid, valid, kept.trans same⟩
  | activate =>
    obtain ⟨region, vpn, entry, spot, found, valid, same⟩ := remembers va byte noted
    refine ⟨region, vpn, entry, spot, found, valid, ?_⟩
    exact same

/-- The flat memory takes the writes of a run and ignores everything else. -/
def FlatStep (written : Vaddr → Option Byte) (op : UserOp) (next : Vaddr → Option Byte) : Prop :=
  next = op.record written

theorem flatRun_eq (run : Run FlatStep written ops last) : last = ops.foldl UserOp.record written := by
  induction run with
  | nil written => rfl
  | cons moved rest ih =>
    rw [moved] at ih
    exact ih

theorem careful_refines {start : UserState} {ops : List UserOp} (fresh : start.Fresh ram mem)
    (run : Run CarefulStep start ops s) : s.Inv ram mem ∧ s.Remembers (lastWritten ops) := by
  have initially : start.Inv ram mem ∧ start.Remembers fun _ => none :=
    ⟨fresh.inv, fun va byte none => by cases none⟩
  obtain ⟨last, flat, inv, remembers⟩ := Run.simulate FlatStep
    (fun s written => s.Inv ram mem ∧ s.Remembers written) id
    (fun s written op t related step =>
      ⟨op.record written, rfl, UserStep.inv step.1 related.1, step.remembers related.1 related.2⟩)
    run (fun _ => none) initially
  rw [map_id] at flat
  rw [flatRun_eq flat] at remembers
  exact ⟨inv, remembers⟩

/-- Memory survives exactly the faults that do not clear a stack page. -/
theorem user_memory_survives {ram : RamSize} {mem : Nat → Byte} {start : UserState}
    (fresh : start.Fresh ram mem) :
    (∀ ops s, Run UserStep start ops s →
      ∀ files faulttype faultaddress code space next region vpn entry,
        vmFault files faulttype faultaddress (some s.space) s.machine = .ok (code, some space, next) →
        s.space.locate (pageMask faultaddress) = some (region, vpn) →
        s.space.pteAt region vpn = .ok entry → entry.valid = true →
          ((∀ offset < pageSize, next.core.mem (entry.pfn.toNat + offset) =
              s.machine.core.mem (entry.pfn.toNat + offset)) ↔ ¬ s.Wipes faulttype faultaddress)) ∧
      ∀ ops s, Run CarefulStep start ops s → ∀ va byte slot pa, lastWritten ops va = some byte →
        s.machine.Translates slot va pa → s.machine.core.mem pa = byte := by
  constructor
  · intro ops s reached files faulttype faultaddress code space next region vpn entry returned
      located found valid
    have inv := reached.invariant (fun _ _ _ inv step => UserStep.inv step inv) fresh.inv
    constructor
    · intro kept wipes
      obtain ⟨offset, small, changed⟩ := wipes.changes returned located found
      exact changed (kept offset small)
    · intro harmless offset small
      exact inv.fault_keeps returned (.inr harmless) found valid small
  · intro ops s run va byte slot pa recorded translates
    obtain ⟨inv, remembers⟩ := careful_refines fresh run
    obtain ⟨_, region, vpn, entry, located, found, _, rfl⟩ := inv.translation translates
    obtain ⟨other, place, second, there, present, _, same⟩ := remembers va byte recorded
    rw [located] at there
    cases there
    rw [found, Except.ok.injEq] at present
    rw [present]
    exact same

/-- The small program before its first fault on the booted small memory. -/
def smallStart : UserState := ⟨smallProgram, Machine.idle (booted eightFrames fun _ => 0)⟩

theorem smallStart_fresh : smallStart.Fresh eightFrames fun _ => 0 where
  allocator := ⟨[], [], .nil _⟩
  untouched := by
    intro region vpn entry found
    obtain ⟨table, present, _, rfl⟩ := AddrSpace.pteAt_ok.mp found
    cases region <;> cases present <;> rfl
  empty := fun slot _ => invalid_slot slot
  cursor := by decide

/-- The small program keeps a stack page that it never loses. -/
theorem user_memory_survives_smallProgram :
    ∃ s, Run CarefulStep smallStart [.fault .write 0x7fffff00, .store 0x7fffff00 7] s ∧
      s.machine.Translates 0 0x7fffff00 0x11f00 ∧ s.machine.core.mem 0x11f00 = 7 := by
  have harmless : ¬ smallStart.Wipes .write 0x7fffff00 := by
    intro wipes
    obtain ⟨vpn, entry, _, found, valid, _⟩ := wipes.page
    rw [smallStart_fresh.untouched _ _ _ found] at valid
    cases valid
  have first : vmFault zeroFiles .write 0x7fffff00 (some smallStart.space) smallStart.machine =
    .ok (0, some _, _) := rfl
  have run : Run CarefulStep smallStart [.fault .write 0x7fffff00, .store 0x7fffff00 7] _ :=
    .cons ⟨.fault first, fun _ _ same => by cases same; exact harmless⟩
      (.cons ⟨.store (show (0x7fffff00 : Vaddr) < userStack by decide)
        (show Machine.Translates _ 0 0x7fffff00 0x11f00 from ⟨by decide, by decide, rfl, rfl⟩)
        (by decide), fun _ _ same => by cases same⟩ (.nil _))
  have survives := (user_memory_survives smallStart_fresh).2 _ _ run 0x7fffff00 7 0 0x11f00 rfl
    ⟨by decide, by decide, rfl, rfl⟩
  exact ⟨_, run, ⟨by decide, by decide, rfl, rfl⟩, survives⟩

/-- After a switch the stack page reads zero instead of 7. -/
theorem stack_page_lost :
    ∃ s slot pa, Run UserStep smallStart
        [.fault .write 0x7fffff00, .store 0x7fffff00 7, .activate, .fault .read 0x7fffff00] s ∧
      lastWritten [.fault .write 0x7fffff00, .store 0x7fffff00 7, .activate,
        .fault .read 0x7fffff00] 0x7fffff00 = some 7 ∧
      s.machine.Translates slot 0x7fffff00 pa ∧ s.machine.core.mem pa = 0 := by
  have first : vmFault zeroFiles .write 0x7fffff00 (some smallStart.space) smallStart.machine =
    .ok (0, some _, _) := rfl
  have run : Run UserStep smallStart
      [.fault .write 0x7fffff00, .store 0x7fffff00 7, .activate, .fault .read 0x7fffff00] _ :=
    .cons (.fault first) (.cons
      (.store (show (0x7fffff00 : Vaddr) < userStack by decide)
        (show Machine.Translates _ 0 0x7fffff00 0x11f00 from ⟨by decide, by decide, rfl, rfl⟩)
        (by decide))
      (.cons .activate (.cons
        (.fault (show vmFault zeroFiles .read 0x7fffff00 _ _ = .ok (0, some _, _) from rfl))
        (.nil _))))
  exact ⟨_, 0, 0x11f00, run, rfl, ⟨by decide, by decide, rfl, rfl⟩, rfl⟩

end Os161.Vm

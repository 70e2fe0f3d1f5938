import Os161.Vm.TlbInvariant
import Os161.Vm.FrameBounds
import Os161.Vm.AddrSpaceSpec

namespace Os161.Vm
open Word Outcome Transition

/-- The lowest free frame exists and lies below the limit of `getppages`. -/
def CoreState.FrameAvailable (s : CoreState) : Prop :=
  ∃ start, s.FreeRun start 1 ∧ (∀ other, s.FreeRun other 1 → start ≤ other) ∧
    (s.coremaps start).pa < s.paddrMax - 4096#32

theorem CoreState.WellFormed.frameAvailable_iff {s : CoreState} (formed : s.WellFormed ram)
    (owner : FrameOwner) :
    s.FrameAvailable ↔ ∃ paddr core, getppages 1 owner s = .ok (paddr, core) ∧ paddr ≠ 0 := by
  obtain ⟨start, run, lowest, served⟩ | ⟨gone, failed⟩ :=
    getppages_cases formed (show (1 : Word32) ≠ 0 by decide) owner
  · have inside : start < s.coremapSize := run.1
    constructor
    · rintro ⟨other, otherRun, otherLowest, below⟩
      obtain rfl : start = other := Nat.le_antisymm (lowest other otherRun) (otherLowest start run)
      refine ⟨_, _, served, ?_⟩
      rw [formed.granted_iff inside]
      have guard := mt (formed.guard_iff inside).mpr (BitVec.not_le.mpr below)
      omega
    · rintro ⟨paddr, core, ran, nonzero⟩
      rw [served] at ran
      cases ran
      refine ⟨start, run, lowest, ?_⟩
      have room := (formed.granted_iff inside).mp nonzero
      apply BitVec.not_le.mp
      rw [formed.guard_iff inside]
      omega
  · constructor
    · rintro ⟨start, run, _⟩
      exact absurd run (gone start)
    · rintro ⟨paddr, core, ran, _⟩
      rw [failed] at ran
      cases ran

/-- The fault brings a page of the address space into a new frame. -/
def LoadsFrame (faulttype : FaultType) (page : Vaddr) (current : Option AddrSpace)
    (core : CoreState) : Prop :=
  faulttype.Handled ∧ core.FrameAvailable ∧
    ∃ as region vpn entry, current = some as ∧ as.locate page = some (region, vpn) ∧
      as.pteAt region vpn = .ok entry ∧ entry.valid = false

theorem fillTlb_code (filled : fillTlb files region vpn page paddr load as m = .ok (code, next)) :
    code = 0 ∨ (load = true ∧ code = (regionLoad files as region vpn page).code) := by
  obtain ⟨res, last, same, found⟩ := fillTlb_cases files region vpn page paddr load as m
  rw [filled] at same
  cases same
  obtain ⟨_, zero, _⟩ | ⟨slot, victim, _, entry⟩ := found
  · exact .inl zero
  · cases load with
    | false => exact .inl entry.result
    | true => exact .inr ⟨rfl, entry.result⟩

theorem present_code (filled : fillTlb files region vpn page paddr (decide (region = .stack)) as m =
      .ok (code, next)) : code = 0 := by
  obtain zero | ⟨stack, same⟩ := fillTlb_code filled
  · exact zero
  · obtain rfl : region = .stack := by simpa using stack
    exact same

/-- A failed fault leaves no trace exactly when it loads no frame. -/
theorem failed_fault_traceless_iff {ram : RamSize} {mem : Nat → Byte} {ops : List CoreOp}
    {conf : CoreConf} (reached : Run CoreStep (initialConf ram mem) ops conf) {m : Machine}
    (allocator : m.core = conf.state) {files : Files} {faulttype : FaultType} {faultaddress : Vaddr}
    {current after : Option AddrSpace} {next : Machine} {code : Errno}
    (returned : vmFault files faulttype faultaddress current m = .ok (code, after, next))
    (failed : code ≠ 0) :
    (after = current ∧ next.tlb = m.tlb ∧ next.curspl = m.curspl) ↔
      ¬ LoadsFrame faulttype (pageMask faultaddress) current m.core := by
  have formed : m.core.WellFormed ram := allocator ▸ (reached_inv reached).formed
  cases current with
  | none =>
    obtain ⟨_, rfl, rfl⟩ := vmFault_none returned
    refine iff_of_true ⟨rfl, rfl, rfl⟩ ?_
    rintro ⟨_, _, as, _, _, _, missing, _⟩
    cases missing
  | some as =>
    obtain ⟨rejected, _, rfl, rfl⟩ | ⟨handled, space, rfl, usable, outcome⟩ :=
      vmFault_outcome returned
    · exact iff_of_true ⟨rfl, rfl, rfl⟩ fun loads => rejected loads.1
    · cases outcome with
      | unmapped nowhere =>
        refine iff_of_true ⟨rfl, rfl, rfl⟩ ?_
        rintro ⟨_, _, _, _, _, _, same, located, _⟩
        cases same
        rw [nowhere] at located
        cases located
      | readOnly located found valid program clean write =>
        refine iff_of_true ⟨rfl, rfl, rfl⟩ ?_
        rintro ⟨_, _, _, _, _, other, same, again, entry, invalid⟩
        cases same
        rw [located] at again
        cases again
        rw [found] at entry
        cases entry
        rw [valid] at invalid
        cases invalid
      | noMemory located found invalid resident refused =>
        refine iff_of_true ⟨rfl, rfl, rfl⟩ ?_
        rintro ⟨_, available, _⟩
        obtain ⟨paddr, core, served, nonzero⟩ := (formed.frameAvailable_iff .user).mp available
        rw [refused] at served
        cases served
        exact nonzero rfl
      | present located found valid allowed nonzero aligned filled =>
        exact absurd (present_code filled) failed
      | fresh located found invalid resident served nonzero aligned filled =>
        refine iff_of_false ?_ ?_
        · rintro ⟨same, _⟩
          exact AddrSpace.mapPage_ne found invalid _ (Option.some.inj same)
        · intro traceless
          apply traceless
          have available := (formed.frameAvailable_iff .user).mpr ⟨_, _, served, nonzero⟩
          exact ⟨handled, available, as, _, _, _, rfl, located, found, invalid⟩

/-- A file system on which every read stops at once. -/
def emptyFiles : Files where
  read := fun _ _ _ => { result := 0, data := [] }
  write := fun _ _ _ => 0
  swapfile := 1
  strayOffset := 0

/-- A fault outside every region leaves no trace on the small memory. -/
theorem failed_fault_traceless_smallProgram :
    ∃ after next, vmFault zeroFiles .read 0x1000 (some smallProgram)
        (Machine.idle (booted eightFrames fun _ => 0)) = .ok (eFault, after, next) ∧
      ((after = some smallProgram ∧ next.tlb = (Machine.idle (booted eightFrames fun _ => 0)).tlb ∧
          next.curspl = .none) ↔
        ¬ LoadsFrame .read (pageMask 0x1000) (some smallProgram) (booted eightFrames fun _ => 0)) := by
  have returned : vmFault zeroFiles .read 0x1000 (some smallProgram)
    (Machine.idle (booted eightFrames fun _ => 0)) = .ok (eFault, _, _) := rfl
  exact ⟨_, _, returned, failed_fault_traceless_iff (.nil (initialConf eightFrames fun _ => 0)) rfl
    returned (by decide)⟩

/-- A truncated executable leaves a valid entry over an unloaded frame. -/
theorem truncated_load_leaves_trace :
    ∃ after next again, vmFault emptyFiles .read 0x400004 (some smallProgram)
        (Machine.idle (booted eightFrames fun _ => 0)) = .ok (eNoExec, some after, next) ∧
      after.pteAt .first 0 = .ok { pfn := 0x11000, valid := true, dirty := false, sw := -1 } ∧
      (next.tlb 0).Valid ∧ (next.tlb 0).Dirty ∧ next.curspl = .high ∧
      vmFault zeroFiles .read 0x400004 (some after) next = .ok (0, some after, again) ∧
      again.core = next.core ∧ again.stats 7 = next.stats 7 := by
  refine ⟨_, _, _, rfl, rfl, ?_, ?_, rfl, rfl, rfl, rfl⟩
  · decide
  · decide

end Os161.Vm

import Os161.Vm.Ownership

namespace Os161.Vm
open Word Outcome Transition CoreState AddrSpace

/-- Every free frame is zero. -/
def CoreState.FreeZero (s : CoreState) : Prop :=
  ∀ index < s.coremapSize, s.IsFree index → ∀ offset < pageSize,
    s.mem ((s.coremaps index).pa.toNat + offset) = 0

variable {ram : RamSize}

theorem CoreState.WellFormed.frame_address {s : CoreState} (formed : s.WellFormed ram) {index : Nat}
    (inside : index < s.coremapSize) :
    (s.coremaps index).pa.toNat = ram.base + index * pageSize := by
  rw [formed.address index inside, formed.start, RamSize.base]

variable {conf : CoreConf} {offset : Nat}

theorem CoreConf.Inv.live_not_free (inv : conf.Inv ram) {entry : Paddr × Word32}
    (held : entry ∈ conf.live) {addr : Nat} (above : entry.1.toNat ≤ addr)
    (below : addr < entry.1.toNat + entry.2.toNat * pageSize) {index : Nat}
    (inside : index < conf.state.coremapSize) (free : conf.state.IsFree index)
    (small : offset < pageSize) : (conf.state.coremaps index).pa.toNat + offset ≠ addr := by
  intro same
  have start := inv.address held
  have frame := inv.formed.frame_address inside
  have used := inv.used held (show index - ram.index entry.1 < entry.2.toNat by
    simp only [pageSize] at *
    omega)
  apply used
  rwa [show ram.index entry.1 + (index - ram.index entry.1) = index by
    simp only [pageSize] at *
    omega]

theorem CoreStep.freeZero {next : CoreConf} {op : CoreOp} (step : CoreStep conf op next)
    (inv : conf.Inv ram) (zero : conf.state.FreeZero) : next.state.FreeZero := by
  cases step with
  | @getppages npages owner addr state ran =>
    by_cases none : npages = 0
    · subst npages
      rw [getppages_zero inv.formed] at ran
      cases ran
      exact zero
    · have pos : 0 < npages.toNat := by
        by_contra empty
        exact none (BitVec.eq_of_toNat_eq (by simpa using empty))
      obtain ⟨start, run, _, served⟩ | ⟨_, failed⟩ := getppages_cases inv.formed none owner
      · rw [served] at ran
        cases ran
        intro index inside free offset small
        rw [claim_pa]
        apply zero index inside _ offset small
        by_contra used
        exact conf.state.claim_used pos owner used free
      · rw [failed] at ran
        cases ran
  | @freeppages paddr npages state held ran =>
    rw [inv.freeppages_eq held] at ran
    cases ran
    split
    · intro index inside free offset small
      have frame : ((conf.state.freeFrame (ram.index paddr)).coremaps index).pa =
          (conf.state.coremaps index).pa := by
        by_cases here : index = ram.index paddr
        · simp [freeFrame, here]
        · simp [freeFrame, here]
      rw [frame]
      change bzeroPage (conf.state.coremaps (ram.index paddr)).pa conf.state.mem _ = 0
      unfold bzeroPage
      split
      · rfl
      · rename_i out
        have differ : index ≠ ram.index paddr := by
          intro here
          rw [here] at out
          omega
        apply zero index inside _ offset small
        simpa [CoreState.IsFree, freeFrame, differ] using free
    · exact zero
  | @store paddr npages address byte held above below =>
    intro index inside free offset small
    have apart := inv.live_not_free held above below inside free small
    exact (Function.update_of_ne apart _ _).trans (zero index inside free offset small)

theorem CoreConf.Reachable.freeZero (reachable : conf.Reachable ram fun _ => 0) :
    conf.state.FreeZero := by
  obtain ⟨ops, run⟩ := reachable
  have preserved (conf : CoreConf) (op : CoreOp) (next : CoreConf)
      (both : conf.Inv ram ∧ conf.state.FreeZero) (step : CoreStep conf op next) :
      next.Inv ram ∧ next.state.FreeZero :=
    ⟨step.inv both.1, step.freeZero both.1 both.2⟩
  have both := run.invariant preserved
    ⟨initialConf_inv ram _, fun index inside free offset small => rfl⟩
  exact both.2

theorem CoreConf.Reachable.granted_zero (reachable : conf.Reachable ram fun _ => 0)
    (served : getppages 1 .user conf.state = .ok (paddr, core)) (nonzero : paddr ≠ 0)
    (small : offset < pageSize) : core.mem (paddr.toNat + offset) = 0 := by
  obtain ⟨start, run, _, ran⟩ | ⟨_, failed⟩ :=
    getppages_cases reachable.inv.formed (show (1 : Word32) ≠ 0 by decide) .user
  · rw [ran] at served
    cases served
    rw [granted_eq nonzero]
    exact reachable.freeZero start run.1 (run.2 0 (by decide)) offset small
  · rw [failed] at served
    cases served

/-- The recorded place of a segment in the executable, which has the bytes for its pages. -/
structure Segment.Recorded (segment : Segment) (file : List Byte) (start : Nat) : Prop where
  offset : segment.offset = start
  long : segment.filesz.toNat = 0 ∨
    start + min segment.filesz.toNat (segment.npages.toNat * pageSize) ≤ file.length

/-- The executable has the bytes of one page of the segment. -/
def Segment.Readable (segment : Segment) (file : List Byte) (start vpn : Nat) : Prop :=
  vpn * pageSize < segment.filesz.toNat →
    start + min segment.filesz.toNat ((vpn + 1) * pageSize) ≤ file.length

/-- The byte that a page of a segment should have. -/
def Segment.pageByte (segment : Segment) (file : List Byte) (start vpn j : Nat) : Byte :=
  if vpn * pageSize + j < segment.filesz.toNat then file.getD (start + vpn * pageSize + j) 0 else 0

variable {files : Files} {file : List Byte}

theorem fileLoad_honest {vn : Vnode} (honest : files.Honest vn file) {len : Nat}
    (inside : offset + len ≤ file.length) :
    (fileLoad files vn offset len).code = 0 ∧ ∀ j,
      (fileLoad files vn offset len).data[j]?.getD 0 =
        if j < len then file.getD (offset + j) 0 else 0 := by
  have whole : ((file.drop offset).take len).length = len := by
    rw [List.length_take, List.length_drop]
    omega
  have data : (fileLoad files vn offset len).data = (file.drop offset).take len := by
    simp only [fileLoad, honest offset len, List.take_take, Nat.min_self]
  constructor
  · simp only [fileLoad, honest offset len, List.take_take, Nat.min_self, whole, ne_eq,
      not_true_eq_false, if_false, if_true]
  · intro j
    rw [data]
    split
    · rename_i small
      rw [List.getElem?_take_of_lt small, List.getElem?_drop, List.getD_eq_getElem?_getD]
    · rw [List.getElem?_eq_none (by omega), Option.getD_none]

theorem fileLoad_inside {vn : Vnode} (honest : files.Honest vn file) {len : Nat} (some : len ≠ 0)
    (loads : (fileLoad files vn offset len).code = 0) : offset + len ≤ file.length := by
  simp only [fileLoad, honest offset len, List.take_take, Nat.min_self, ne_eq, not_true_eq_false, if_false,
    List.length_take, List.length_drop] at loads
  split at loads
  · omega
  · cases loads

variable {start vpn : Nat} {page : Vaddr}

theorem Segment.Recorded.readable {seg : Segment} (noted : seg.Recorded file start)
    (inside : vpn < seg.npages.toNat) : seg.Readable file start vpn := by
  intro filled
  have long := noted.long
  simp only [pageSize] at *
  omega

theorem segmentLoad_offset {seg : Segment} (offset : seg.offset = start)
    (place : page.toNat = seg.vbase.toNat + vpn * pageSize) :
    (page.toNat - seg.vbase.toNat + seg.offset : Int) = ((start + vpn * pageSize : Nat) : Int) := by
  rw [place, offset]
  push_cast
  ring

theorem segmentLoad_readable {vn : Vnode} (honest : files.Honest vn file) {seg : Segment}
    (offset : seg.offset = start) (place : page.toNat = seg.vbase.toNat + vpn * pageSize)
    (loads : (segmentLoad files vn seg vpn page).code = 0) : seg.Readable file start vpn := by
  intro filled
  simp only [segmentLoad, segmentLoad_offset offset place] at loads
  split at loads
  · have inside := fileLoad_inside honest (by decide) loads
    simp only [pageSize] at *
    omega
  · split at loads
    · rename_i part
      have inside := fileLoad_inside honest part.2 loads
      simp only [pageSize] at *
      omega
    · simp only [pageSize] at *
      omega

theorem segmentLoad_honest {vn : Vnode} (honest : files.Honest vn file) {seg : Segment}
    (offset : seg.offset = start) (readable : seg.Readable file start vpn)
    (place : page.toNat = seg.vbase.toNat + vpn * pageSize) :
    (segmentLoad files vn seg vpn page).code = 0 ∧ ∀ j < pageSize,
      (segmentLoad files vn seg vpn page).data[j]?.getD 0 = seg.pageByte file start vpn j := by
  unfold Segment.Readable at readable
  simp only [segmentLoad, segmentLoad_offset offset place, Segment.pageByte]
  split
  · obtain ⟨code, data⟩ := fileLoad_honest honest
      (show start + vpn * pageSize + pageSize ≤ file.length by simp only [pageSize] at *; omega)
    refine ⟨code, ?_⟩
    intro j small
    rw [data, if_pos small, if_pos (by simp only [pageSize] at *; omega)]
  · split
    · obtain ⟨code, data⟩ := fileLoad_honest honest
        (show start + vpn * pageSize + seg.filesz.toNat % pageSize ≤ file.length by
          simp only [pageSize] at *; omega)
      refine ⟨code, ?_⟩
      intro j small
      have same : (j < seg.filesz.toNat % pageSize) ↔
          (vpn * pageSize + j < seg.filesz.toNat) := by
        simp only [pageSize] at *
        omega
      rw [data]
      simp only [same]
    · refine ⟨rfl, ?_⟩
      intro j small
      have out : ¬ vpn * pageSize + j < seg.filesz.toNat := by
        simp only [pageSize] at *
        omega
      rw [if_neg out, zeroLoad, List.getElem?_replicate_of_lt small, Option.getD_some]

/-- The program segment of a region. -/
def AddrSpace.segment (as : AddrSpace) : Region → Option Segment
  | .first => some as.seg1
  | .second => some as.seg2
  | .stack => none

variable {as : AddrSpace} {region : Region}

theorem AddrSpace.locate_inside (spot : as.locate page = some (region, vpn)) {seg : Segment}
    (program : as.segment region = some seg) : vpn < seg.npages.toNat := by
  unfold locate at spot
  split at spot
  · rename_i inside
    cases spot
    cases program
    exact inside.vpn_lt
  · split at spot
    · rename_i inside
      cases spot
      cases program
      exact inside.vpn_lt
    · split at spot
      · cases spot
        cases program
      · cases spot

theorem regionLoad_honest (honest : files.Honest as.vn file) (usable : as.Usable)
    (aligned : Aligned page) (spot : as.locate page = some (region, vpn)) {seg : Segment}
    (program : as.segment region = some seg) (noted : seg.Recorded file start) :
    (regionLoad files as region vpn page).code = 0 ∧ ∀ j < pageSize,
      (regionLoad files as region vpn page).data[j]?.getD 0 = seg.pageByte file start vpn j := by
  have place := as.locate_toNat usable.aligned1 usable.aligned2 aligned spot
  have inside := locate_inside spot program
  cases region with
  | first | second =>
    cases program
    exact segmentLoad_honest honest noted.offset (noted.readable inside) place
  | stack => cases program

variable {entry : Pte} {space : AddrSpace}

/-- The fault gives a page the bytes of its load and zeros. -/
theorem fault_loads_region (reachable : conf.Reachable ram fun _ => 0) {m : Machine}
    (allocator : m.core = conf.state) (spot : as.locate (pageMask fault) = some (region, vpn))
    (found : as.pteAt region vpn = .ok entry) (bad : entry.valid = false)
    (missed : ∀ slot < numTlb, (m.tlb slot).Valid → (m.tlb slot).ehi ≠ pageMask fault)
    (ran : vmFault files kind fault (some as) m = .ok (0, some space, next)) :
    as.Usable ∧ (regionLoad files as region vpn (pageMask fault)).code = 0 ∧
      ∃ loaded, space.pteAt region vpn = .ok loaded ∧ loaded.valid = true ∧ ∀ j < pageSize,
        next.core.mem (loaded.pfn.toNat + j) =
          (regionLoad files as region vpn (pageMask fault)).data[j]?.getD 0 := by
  obtain ⟨_, failed, _⟩ | ⟨_, _, same, usable, outcome⟩ := vmFault_outcome ran
  · cases failed
  cases same
  obtain ⟨failed, _⟩ | ⟨paddr, core, served, nonzero, rfl, filled⟩ :=
    outcome.of_invalid spot found bad
  · cases failed
  have miss : probe m.tlb (pageMask fault) numTlb 0 ≠ .hit := by
    intro hit
    obtain ⟨slot, _, inside, valid, matched⟩ := probe_hit hit
    exact missed slot (by omega) valid matched
  have layout := regionLoad_layout files (as.layout_mapPage region vpn paddr)
  refine ⟨usable, ?_, _, pteAt_mapPage found paddr, rfl, ?_⟩
  · obtain ⟨code, last, res, cases⟩ := fillTlb_cases files region vpn (pageMask fault) paddr
      true (as.mapPage region vpn paddr) { m with core := core }
    rw [filled] at res
    cases res
    obtain ⟨hit, _⟩ | ⟨_, _, _, inserted⟩ := cases
    · exact absurd hit miss
    · rw [← layout]
      exact inserted.result.symm
  · have mem : next.core.mem = Bytes.store paddr.toNat
        (regionLoad files as region vpn (pageMask fault)).data core.mem := by
      rw [fillTlb_core filled, layout]
      exact if_pos ⟨rfl, miss⟩
    rw [allocator] at served
    intro j small
    rw [mem, Bytes.store_apply, if_pos (Nat.le_add_right _ _), Nat.add_sub_cancel_left,
      reachable.granted_zero served nonzero small]

/-- The fault gives a program page the bytes of the executable. -/
theorem fault_loads_page (reachable : conf.Reachable ram fun _ => 0) {m : Machine}
    (allocator : m.core = conf.state) (honest : files.Honest as.vn file) {kind : FaultType}
    {fault : Vaddr} (spot : as.locate (pageMask fault) = some (region, vpn))
    (found : as.pteAt region vpn = .ok entry) (bad : entry.valid = false) {seg : Segment}
    (program : as.segment region = some seg) (noted : seg.Recorded file start)
    (missed : ∀ slot < numTlb, (m.tlb slot).Valid → (m.tlb slot).ehi ≠ pageMask fault)
    {next : Machine}
    (ran : vmFault files kind fault (some as) m = .ok (0, some space, next)) :
    ∃ loaded, space.pteAt region vpn = .ok loaded ∧ loaded.valid = true ∧ ∀ j < pageSize,
      next.core.mem (loaded.pfn.toNat + j) = seg.pageByte file start vpn j := by
  obtain ⟨usable, _, loaded, mapped, valid, bytes⟩ :=
    fault_loads_region reachable allocator spot found bad missed ran
  have loads := regionLoad_honest honest usable (pageMask_aligned fault) spot program
    noted
  exact ⟨loaded, mapped, valid, fun j small => (bytes j small).trans (loads.2 j small)⟩

/-- A fault on the address space at any time, on any machine, with an honest file system. The label
is the address and the result. -/
inductive SpaceStep (file : List Byte) : AddrSpace → Vaddr × Errno → AddrSpace → Prop where
  | fault {files : Files} {faulttype : FaultType} {faultaddress : Vaddr} {as space : AddrSpace}
      {m next : Machine} {code : Errno} (honest : files.Honest as.vn file)
      (returned : vmFault files faulttype faultaddress (some as) m = .ok (code, some space, next)) :
      SpaceStep file as (faultaddress, code) space

theorem SpaceStep.keeps_entry {call : Vaddr × Errno} (step : SpaceStep file as call space)
    (aligned : Aligned page) (unsuccessful : pageMask call.1 = page → call.2 ≠ 0)
    (spot : as.locate page = some (region, vpn)) {seg : Segment}
    (program : as.segment region = some seg) (noted : seg.Recorded file start) :
    space.pteAt region vpn = as.pteAt region vpn := by
  cases step with
  | @fault files kind faultaddress _ _ m next code honest ran =>
    obtain ⟨_, _, same, _⟩ | ⟨_, _, same, usable, outcome⟩ := vmFault_outcome ran
    · cases same
      rfl
    · cases same
      cases outcome with
      | unmapped | readOnly | noMemory | present => rfl
      | @fresh other place _ paddr _ _ _ here present _ resident served nonzero _ filled =>
        have apart : (region, vpn) ≠ (other, place) := by
          intro same
          cases same
          have target := as.locate_toNat usable.aligned1 usable.aligned2 aligned spot
          have faulted := as.locate_toNat usable.aligned1 usable.aligned2
            (pageMask_aligned faultaddress) here
          have equal : pageMask faultaddress = page :=
            BitVec.eq_of_toNat_eq (faulted.trans target.symm)
          obtain zero | ⟨_, code⟩ := fillTlb_code filled
          · exact unsuccessful equal zero
          · have loads := regionLoad_honest honest usable (pageMask_aligned faultaddress) here
              program noted
            rw [regionLoad_layout files (as.layout_mapPage region vpn paddr), loads.1] at code
            exact unsuccessful equal code
        exact pteAt_modifyPte_of_ne as _ apart

theorem SpaceStep.layout (step : SpaceStep file as call space) : space.layout = as.layout := by
  cases step with
  | fault honest ran => exact (vmFault_effect ran).layout

theorem AddrSpace.segment_layout {other : AddrSpace} (same : as.layout = other.layout)
    {seg : Segment} (program : as.segment region = some seg) :
    ∃ table, other.segment region = some { seg with pt := table } := by
  rw [eq_of_layout same]
  cases region with
  | first | second => cases program; exact ⟨_, rfl⟩
  | stack => cases program

theorem absent_until_first_fault {start : AddrSpace} {calls : List (Vaddr × Errno)}
    (untouched : start.Untouched) (prior : Run (SpaceStep file) start calls as)
    (aligned : Aligned page) (first : ∀ call ∈ calls, pageMask call.1 = page → call.2 ≠ 0)
    (spot : as.locate page = some (region, vpn)) {seg : Segment}
    (program : as.segment region = some seg) {base : Nat}
    (noted : seg.Recorded file base) (found : as.pteAt region vpn = .ok entry) :
    entry.valid = false := by
  have sameLayout (current : AddrSpace) (call : Vaddr × Errno) (next : AddrSpace)
      (same : current.layout = start.layout) (step : SpaceStep file current call next) :
      next.layout = start.layout := step.layout.trans same
  have layout := prior.invariant sameLayout rfl
  have preserved (current : AddrSpace) (call : Vaddr × Errno) (next : AddrSpace)
      (same : current.layout = start.layout ∧ current.pteAt region vpn = start.pteAt region vpn)
      (step : SpaceStep file current call next ∧ (pageMask call.1 = page → call.2 ≠ 0)) :
      next.layout = start.layout ∧ next.pteAt region vpn = start.pteAt region vpn := by
    have shared := layout.trans same.1.symm
    obtain ⟨table, here⟩ := segment_layout shared program
    rw [locate_layout shared] at spot
    have kept := step.1.keeps_entry aligned step.2 spot here ⟨noted.offset, noted.long⟩
    exact ⟨step.1.layout.trans same.1, kept.trans same.2⟩
  have unchanged := ((prior.restrict first).invariant preserved ⟨rfl, rfl⟩).2
  rw [found] at unchanged
  rw [untouched region vpn entry unchanged.symm]
  rfl

/-- After the first fault a page has the bytes of the file and zeros. -/
theorem first_fault_loads {file : List Byte} {start as : AddrSpace} {calls : List (Vaddr × Errno)}
    (untouched : start.Untouched) (earlier : Run (SpaceStep file) start calls as)
    {faultaddress : Vaddr}
    (first : ∀ call ∈ calls, pageMask call.1 = pageMask faultaddress → call.2 ≠ 0)
    {region : Region} {vpn : Nat} (located : as.locate (pageMask faultaddress) = some (region, vpn))
    {segment : Segment} (program : as.segment region = some segment) {offset : Nat}
    (recorded : segment.Recorded file offset) {ram : RamSize} {conf : CoreConf}
    (reachable : conf.Reachable ram fun _ => 0) {m : Machine} (allocator : m.core = conf.state)
    (missed : ∀ slot < numTlb, (m.tlb slot).Valid → (m.tlb slot).ehi ≠ pageMask faultaddress)
    {files : Files} (honest : files.Honest as.vn file) {faulttype : FaultType} {space : AddrSpace}
    {next : Machine}
    (returned : vmFault files faulttype faultaddress (some as) m = .ok (0, some space, next)) :
    ∃ entry, space.pteAt region vpn = .ok entry ∧ entry.valid = true ∧ ∀ j < pageSize,
      next.core.mem (entry.pfn.toNat + j) =
        if vpn * pageSize + j < segment.filesz.toNat then file.getD (offset + vpn * pageSize + j) 0
        else 0 := by
  obtain ⟨entry, found⟩ : ∃ entry, as.pteAt region vpn = .ok entry := by
    obtain ⟨_, failed, _⟩ | ⟨_, _, _, _, outcome⟩ := vmFault_outcome returned
    · cases failed
    · obtain ⟨entry, found, _⟩ := outcome.of_located located
      exact ⟨entry, found⟩
  have invalid := absent_until_first_fault untouched earlier (pageMask_aligned faultaddress) first
    located program recorded found
  exact fault_loads_page reachable allocator honest located found invalid program recorded missed
    returned

/-- A file system with one honest file. -/
def fileOf (file : List Byte) : Files where
  read := fun _ offset length => { result := 0, data := (file.drop offset.toNat).take length }
  write := fun _ _ _ => 0
  swapfile := 1
  strayOffset := 0

theorem fileOf_honest (file : List Byte) (vn : Vnode) : (fileOf file).Honest vn file := by
  intro offset len
  rfl

/-- The code page of the small program, loaded by its first fault. -/
theorem first_fault_loads_smallProgram :
    ∃ space next entry, vmFault (fileOf (List.replicate 16 7)) .read 0x400004 (some smallProgram)
        (Machine.idle (booted eightFrames fun _ => 0)) = .ok (0, some space, next) ∧
      space.pteAt .first 0 = .ok entry ∧ entry.valid = true ∧ ∀ j < pageSize,
        next.core.mem (entry.pfn.toNat + j) =
          if 0 * pageSize + j < 16 then (List.replicate 16 (7 : Byte)).getD (0 + 0 * pageSize + j) 0
          else 0 := by
  have untouched : smallProgram.Untouched := by
    intro region vpn entry found
    obtain ⟨table, present, _, rfl⟩ := pteAt_ok.mp found
    cases region <;> cases present <;> rfl
  have recorded : smallProgram.seg1.Recorded (List.replicate 16 7) 0 := ⟨rfl, by decide⟩
  have returned : vmFault (fileOf (List.replicate 16 7)) .read 0x400004 (some smallProgram)
    (Machine.idle (booted eightFrames fun _ => 0)) = .ok (0, some _, _) := rfl
  have loads := first_fault_loads untouched (.nil _) (fun call none => absurd none List.not_mem_nil)
    (show smallProgram.locate (pageMask 0x400004) = some (.first, 0) by decide) rfl recorded
    (show CoreConf.Reachable eightFrames (fun _ => 0) (initialConf eightFrames fun _ => 0) from
      ⟨[], .nil _⟩) rfl (fun slot _ valid => absurd valid (invalid_slot slot))
    (fileOf_honest _ _) returned
  obtain ⟨entry, found, valid, bytes⟩ := loads
  exact ⟨_, _, entry, returned, found, valid, bytes⟩

/-- A program whose second segment begins inside the first one. -/
def overlappingProgram : AddrSpace where
  seg1 :=
    { vbase := 0x400000, npages := 2, flag := pfR ||| pfX, offset := 0, filesz := 0
      pt := some (PageTable.create 2) }
  seg2 :=
    { vbase := 0x401000, npages := 1, flag := pfR ||| pfW, offset := 0, filesz := 1
      pt := some (PageTable.create 1) }
  vn := 0
  pt3 := some (PageTable.create stackPages)

/-- The fault brings in page 1 of the first segment instead. -/
theorem overlap_loads_first_segment :
    ∃ space next, vmFault (fileOf [7]) .read 0x401000 (some overlappingProgram)
        (Machine.idle (booted eightFrames fun _ => 0)) = .ok (0, some space, next) ∧
      overlappingProgram.seg2.vbase = 0x401000 ∧ overlappingProgram.seg2.Recorded [7] 0 ∧
      (next.tlb 0).Valid ∧ (next.tlb 0).ehi = 0x401000 ∧ pageMask (next.tlb 0).elo = 0x11000 ∧
      next.core.mem 0x11000 = 0 ∧ overlappingProgram.seg2.pageByte [7] 0 0 0 = 7 := by
  refine ⟨_, _, rfl, rfl, ⟨rfl, by decide⟩, by decide, rfl, rfl, rfl, rfl⟩

end Os161.Vm

import Os161.Vm.AddrSpaceSpec
import Os161.Vm.TlbInvariant

namespace Os161.Vm
open Word Outcome AddrSpace Function

/-- A write of the field `dirty` through `PTEAddr` -/
def AddrSpace.setDirty (as : AddrSpace) (region : Region) (vpn : Nat) (dirty : Bool) : AddrSpace :=
  as.modifyPte region vpn fun pte => { pte with dirty := dirty }

/-- `vm_fault` behind its search for a slot, with the invalid slot `i`. A page of zeros for the second segment also
counts in `counter`, which nothing reads. -/
def insertFree (files : Files) (region : Region) (vpn : Nat) (page : Vaddr) (paddr : Paddr) (load : Bool) (i : Nat)
    (spl : Ipl) (as : AddrSpace) (m : Machine) : Kernel (Errno × AddrSpace × Machine) := do
  let m := (m.vmstatsInc 0).vmstatsInc 1
  let elo := finalElo as region paddr
  if load then
    let m := m.tlbWrite page (paddr ||| tlbloDirty ||| tlbloValid) i
    match region with
    | .first =>
      let d := (← as.pteAt .first vpn).dirty
      let as := as.setDirty .first vpn true
      let (result, m) ← loadPage files as.vn as.seg1 vpn page paddr m
      let as := as.setDirty .first vpn d
      if result ≠ 0 then return (result, as, m)
      else return (0, as, (m.tlbWrite page elo i).splx spl)
    | .second =>
      let d := (← as.pteAt .second vpn).dirty
      let as := as.setDirty .second vpn true
      let (result, m) ← loadPage files as.vn as.seg2 vpn page paddr m
      let as := as.setDirty .second vpn d
      if result ≠ 0 then return (result, as, m)
      else return (0, as, (m.tlbWrite page elo i).splx spl)
    | .stack =>
      let m := (m.vmstatsInc 5).setMem (bzeroPage paddr m.core.mem)
      return (0, as, (m.tlbWrite page elo i).splx spl)
  else return (0, as, ((m.vmstatsInc 4).tlbWrite page elo i).splx spl)

/-- `vm_fault` behind its search for a slot, with valid entries in all slots -/
def insertFull (files : Files) (region : Region) (vpn : Nat) (page : Vaddr) (paddr : Paddr) (load : Bool)
    (spl : Ipl) (as : AddrSpace) (m : Machine) : Kernel (Errno × AddrSpace × Machine) := do
  let m := (m.vmstatsInc 0).vmstatsInc 2
  let (victim, m) := m.tlbGetRrVictim
  let elo := finalElo as region paddr
  if load then
    let m := m.tlbWrite page (paddr ||| tlbloDirty ||| tlbloValid) victim
    match region with
    | .first =>
      let d := (← as.pteAt .first vpn).dirty
      let as := as.setDirty .first vpn true
      let (result, m) ← loadPage files as.vn as.seg1 vpn page paddr m
      let as := as.setDirty .first vpn d
      if result ≠ 0 then return (result, as, m)
      else return (0, as, (m.tlbWrite page elo victim).splx spl)
    | .second =>
      let d := (← as.pteAt .second vpn).dirty
      let as := as.setDirty .second vpn true
      let (result, m) ← loadPage files as.vn as.seg2 vpn page paddr m
      let as := as.setDirty .second vpn d
      if result ≠ 0 then return (result, as, m)
      else return (0, as, (m.tlbWrite page elo victim).splx spl)
    | .stack =>
      let m := (m.vmstatsInc 5).setMem (bzeroPage paddr m.core.mem)
      return (0, as, (m.tlbWrite page elo victim).splx spl)
  else return (0, as, ((m.vmstatsInc 4).tlbWrite page elo victim).splx spl)

/-- The machines agree up to their translation buffers and statistics. -/
structure Machine.Alike (m m' : Machine) : Prop where
  core : m.core = m'.core
  curspl : m.curspl = m'.curspl
  swapPartition : m.swapPartition = m'.swapPartition

/-- Two faults end with the same result, address space and memory, and with the same new entry, one in `slot` and the
other in place of `victim`, or none. -/
inductive Agree {S : Type} (slot victim : Nat) (tlb tlb' : Nat → TlbEntry) :
    Kernel (Errno × S × Machine) → Kernel (Errno × S × Machine) → Prop where
  | stops (problem : Panic) : Agree slot victim tlb tlb' (.error problem) (.error problem)
  | returns {code : Errno} {space : S} {next next' : Machine} (alike : next.Alike next')
      (entry : next.tlb = tlb ∧ next'.tlb = tlb' ∨
        ∃ entry, next.tlb = update tlb slot entry ∧ next'.tlb = update tlb' victim entry) :
      Agree slot victim tlb tlb' (.ok (code, space, next)) (.ok (code, space, next'))

variable {files : Files} {region : Region} {vpn : Nat} {page : Vaddr} {paddr : Paddr} {load : Bool} {slot : Nat}
  {spl : Ipl} {entry : Pte} {as : AddrSpace} {m m' : Machine}

theorem AddrSpace.setDirty_restore (found : as.pteAt region vpn = .ok entry) (dirty : Bool) :
    (as.setDirty region vpn dirty).setDirty region vpn entry.dirty = as := by
  obtain ⟨table, present, -, rfl⟩ := pteAt_ok.mp found
  cases region with
  | first | second | stack =>
    simp only [AddrSpace.table] at present
    simp only [setDirty, modifyPte, AddrSpace.table, setTable, present, Option.map_some, update_self,
      update_idem]
    rw [update_eq_self, ← present]

theorem insertFree_insertFull (found : as.pteAt region vpn = .ok entry) (alike : m.Alike m') :
    Agree slot m'.nextVictim m.tlb m'.tlb (insertFree files region vpn page paddr load slot spl as m)
      (insertFull files region vpn page paddr load spl as m') := by
  obtain ⟨core, tlb, victim, level, stats, swap⟩ := m
  obtain ⟨core', tlb', victim', level', stats', swap'⟩ := m'
  obtain ⟨rfl, rfl, rfl⟩ : core = core' ∧ level = level' ∧ swap = swap' := ⟨alike.1, alike.2, alike.3⟩
  have loaded := loadRegion_eq files region vpn page paddr (as.setDirty region vpn true)
  cases load with
  | false => exact .returns ⟨rfl, rfl, rfl⟩ (.inr ⟨_, rfl, rfl⟩)
  | true =>
    cases region with
    | stack => exact .returns ⟨rfl, rfl, rfl⟩ (.inr ⟨_, update_idem .., update_idem ..⟩)
    | first | second =>
      simp only [loadRegion] at loaded
      simp only [insertFree, insertFull, if_true, found, ok_bind, loaded]
      split
      · exact .returns ⟨rfl, rfl, rfl⟩ (.inr ⟨_, rfl, rfl⟩)
      · exact .returns ⟨rfl, rfl, rfl⟩ (.inr ⟨_, update_idem .., update_idem ..⟩)

theorem fillTlb_copies (found : as.pteAt region vpn = .ok entry) :
    (do let (code, next) ← fillTlb files region vpn page paddr load as m; return (code, as, next)) =
      match probe m.tlb page numTlb 0 with
      | .hit => .ok (0, as, m.splhigh.2.vmstatsInc 4)
      | .free slot => insertFree files region vpn page paddr load slot m.curspl as m.splhigh.2
      | .full => insertFull files region vpn page paddr load m.curspl as m.splhigh.2 := by
  have loaded := loadRegion_eq files region vpn page paddr (as.setDirty region vpn true)
  have same : loadRegion files region vpn page paddr as =
      loadRegion files region vpn page paddr (as.setDirty region vpn true) := by cases region <;> rfl
  simp only [fillTlb, Machine.splhigh]
  cases probe m.tlb page numTlb 0 with
  | hit => rfl
  | free slot | full =>
    cases load with
    | false => rfl
    | true =>
      cases region with
      | stack => rfl
      | first | second =>
        simp only [insertFree, insertFull, install, if_true, found, ok_bind, setDirty_restore found]
        rw [same, loaded]
        simp only [loadRegion] at loaded
        rw [loaded]
        dsimp only [ok_bind]
        split <;> rfl

variable {faulttype : FaultType}

theorem resolvePage_core (files : Files) (faulttype : FaultType) (region : Region) (vpn : Nat) (as : AddrSpace)
    (core : CoreState) :
    (∃ problem, ∀ m : Machine, m.core = core → resolvePage files faulttype region vpn as m = .error problem) ∨
      ∃ resolved space after entry, space.pteAt region vpn = .ok entry ∧ ∀ m : Machine, m.core = core →
        resolvePage files faulttype region vpn as m = .ok (resolved, space, { m with core := after }) := by
  simp only [resolvePage_eq]
  cases found : as.pteAt region vpn with
  | error problem => exact .inl ⟨problem, fun m _ => rfl⟩
  | ok entry =>
    simp only [ok_bind]
    by_cases bad : entry.valid = false
    · simp only [if_pos bad]
      cases served : getppages 1 .user core with
      | error problem => exact .inl ⟨problem, fun m same => by rw [pageIn, same, served]; rfl⟩
      | ok pair =>
        obtain ⟨paddr, after⟩ := pair
        by_cases resident : entry.sw = -1
        · by_cases refused : paddr = 0
          · refine .inr ⟨.error eNoMem, as, after, entry, found, fun m same => ?_⟩
            rw [pageIn_ok.mpr ⟨resident, paddr, after, same ▸ served, rfl, .inl ⟨refused, rfl, rfl⟩⟩]
            rfl
          · refine .inr ⟨.ok (paddr, true), _, after, _, pteAt_mapPage found paddr, fun m same => ?_⟩
            rw [pageIn_ok.mpr ⟨resident, paddr, after, same ▸ served, rfl, .inr ⟨refused, rfl, rfl⟩⟩]
            rfl
        · refine .inl ⟨.assertion "uio->uio_rw==UIO_READ", fun m same => ?_⟩
          rw [pageIn, same, served]
          simp only [ok_bind, ne_eq, resident, not_false_eq_true, if_true, swapIn_panics, error_bind]
    · simp only [if_neg bad]
      split
      · exact .inr ⟨_, as, core, entry, found, fun m same => by subst same; rfl⟩
      · exact .inr ⟨_, as, core, entry, found, fun m same => by subst same; rfl⟩

theorem handleFault_agree (alike : m.Alike m') (free : probe m.tlb page numTlb 0 = .free slot)
    (full : probe m'.tlb page numTlb 0 = .full) :
    Agree slot m'.nextVictim m.tlb m'.tlb (handleFault files faulttype page as m)
      (handleFault files faulttype page as m') := by
  unfold handleFault
  cases as.check with
  | error problem => exact .stops problem
  | ok checked =>
    simp only [ok_bind]
    cases as.locate page with
    | none => exact .returns alike (.inl ⟨rfl, rfl⟩)
    | some place =>
      obtain ⟨problem, stops⟩ | ⟨resolved, space, core, entry, found, resolves⟩ :=
        resolvePage_core files faulttype place.1 place.2 as m'.core
      · dsimp only
        rw [stops m alike.core, stops m' rfl]
        exact .stops problem
      · dsimp only
        rw [resolves m alike.core, resolves m' rfl]
        dsimp only [ok_bind]
        have after : Machine.Alike { m with core := core } { m' with core := core } :=
          ⟨rfl, alike.curspl, alike.swapPartition⟩
        have high : Machine.Alike (Machine.splhigh { m with core := core }).2
            (Machine.splhigh { m' with core := core }).2 := ⟨rfl, rfl, alike.swapPartition⟩
        cases resolved with
        | error code => exact .returns after (.inl ⟨rfl, rfl⟩)
        | ok frame =>
          dsimp only
          cases kassert (frame.1 ≠ 0) "paddr != 0" with
          | error problem => exact .stops problem
          | ok nonzero =>
            cases kassert (pageMask frame.1 = frame.1) "(paddr & PAGE_FRAME) == paddr" with
            | error problem => exact .stops problem
            | ok aligned =>
              rw [fillTlb_copies found, fillTlb_copies found]
              dsimp only
              rw [free, full, alike.curspl]
              exact insertFree_insertFull found high

theorem Agree.current {victim : Nat} {tlb tlb' : Nat → TlbEntry} {left right : Kernel (Errno × AddrSpace × Machine)}
    (agree : Agree slot victim tlb tlb' left right) :
    Agree slot victim tlb tlb' (do let (code, as, m) ← left; return (code, some as, m))
      (do let (code, as, m) ← right; return (code, some as, m)) := by
  cases agree with
  | stops problem => exact .stops problem
  | returns alike entry => exact .returns alike entry

/-- Faults on the same address space with an invalid slot and without one agree. -/
theorem insertion_paths_agree {faultaddress : Vaddr} {current : Option AddrSpace} (alike : m.Alike m')
    (free : probe m.tlb (pageMask faultaddress) numTlb 0 = .free slot)
    (full : probe m'.tlb (pageMask faultaddress) numTlb 0 = .full) :
    Agree slot m'.nextVictim m.tlb m'.tlb (vmFault files faulttype faultaddress current m)
      (vmFault files faulttype faultaddress current m') := by
  cases faulttype with
  | readonly | other => exact .returns alike (.inl ⟨rfl, rfl⟩)
  | read | write =>
    cases current with
    | none => exact .returns alike (.inl ⟨rfl, rfl⟩)
    | some as =>
      exact (handleFault_agree alike free full).current

/-- A machine with entries for kernel pages in all slots -/
def crowdedMachine : Machine :=
  { Machine.idle (booted eightFrames fun _ => 0) with
    tlb := fun slot => { ehi := tlbhiInvalid slot, elo := tlbloValid }
    nextVictim := 5 }

/-- A program reads its first page with and without a free slot. -/
theorem insertion_paths_agree_smallProgram : ∃ space next next',
    vmFault zeroFiles .read 0x400004 (some smallProgram) (Machine.idle (booted eightFrames fun _ => 0)) =
        .ok (0, some space, next) ∧
      vmFault zeroFiles .read 0x400004 (some smallProgram) crowdedMachine = .ok (0, some space, next') ∧
      Agree 0 5 (Machine.idle (booted eightFrames fun _ => 0)).tlb crowdedMachine.tlb
        (vmFault zeroFiles .read 0x400004 (some smallProgram) (Machine.idle (booted eightFrames fun _ => 0)))
        (vmFault zeroFiles .read 0x400004 (some smallProgram) crowdedMachine) := by
  have alike : (Machine.idle (booted eightFrames fun _ => 0)).Alike crowdedMachine := ⟨rfl, rfl, rfl⟩
  have free : probe (Machine.idle (booted eightFrames fun _ => 0)).tlb (pageMask 0x400004) numTlb 0 = .free 0 := rfl
  have full : probe crowdedMachine.tlb (pageMask 0x400004) numTlb 0 = .full := rfl
  exact ⟨_, _, _, rfl, rfl, insertion_paths_agree alike free full⟩

end Os161.Vm

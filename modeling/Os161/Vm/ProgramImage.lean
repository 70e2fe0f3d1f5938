import Os161.Vm.DemandLoad
import Os161.Vm.UserMemory

namespace Os161.Vm
open Word Outcome Transition AddrSpace

/-- The kernel faults pages in and switches address spaces before the program writes anything. -/
inductive LoadStep (files : Files) : UserState → UserOp → UserState → Prop where
  | fault {s : UserState} {faulttype : FaultType} {faultaddress : Vaddr} {code : Errno}
      {space : AddrSpace} {next : Machine}
      (returned : vmFault files faulttype faultaddress (some s.space) s.machine =
        .ok (code, some space, next)) :
      LoadStep files s (.fault faulttype faultaddress) ⟨space, next⟩
  | activate : LoadStep files s .activate ⟨s.space, asActivate (some s.space) s.machine⟩

variable {files : Files} {s : UserState}

theorem LoadStep.user (step : LoadStep files s op t) : UserStep s op t := by
  cases step with
  | fault ran => exact .fault ran
  | activate => exact .activate

/-- Every page that `vm_fault` locates has an entry, and no page was swapped out. -/
structure AddrSpace.Complete (as : AddrSpace) : Prop where
  entries : ∀ page region vpn, as.locate page = some (region, vpn) →
    ∃ entry, as.pteAt region vpn = .ok entry
  resident : ∀ region vpn entry, as.pteAt region vpn = .ok entry → entry.sw = -1

variable {as space : AddrSpace}

theorem FaultEffect.complete (effect : FaultEffect files page as m space core) (complete : as.Complete) :
    space.Complete := by
  cases effect with
  | unchanged | refused | cleared => exact complete
  | @loaded region vpn entry paddr core spot found bad served nonzero aligned data contents =>
    have mapped := pteAt_mapPage found paddr
    have others {other : Region} {place : Nat} (apart : (other, place) ≠ (region, vpn)) :
        (as.mapPage region vpn paddr).pteAt other place = as.pteAt other place :=
      pteAt_modifyPte_of_ne as _ apart
    refine ⟨?_, ?_⟩
    · intro target other place there
      rw [locate_layout (as.layout_mapPage region vpn paddr)] at there
      by_cases here : (other, place) = (region, vpn)
      · cases here
        exact ⟨_, mapped⟩
      · rw [others here]
        exact complete.entries target other place there
    · intro other place second present
      by_cases here : (other, place) = (region, vpn)
      · cases here
        rw [mapped, Except.ok.injEq] at present
        rw [← present]
        exact complete.resident region vpn entry found
      · rw [others here] at present
        exact complete.resident other place second present

/-- Every program page in memory that can be loaded has the bytes of its load. -/
def UserState.HoldsLoads (s : UserState) (files : Files) : Prop :=
  ∀ page region vpn entry, Aligned page → s.space.locate page = some (region, vpn) → region ≠ .stack →
    s.space.pteAt region vpn = .ok entry → entry.valid = true →
    (regionLoad files s.space region vpn page).code = 0 → ∀ j < pageSize,
      s.machine.core.mem (entry.pfn.toNat + j) = (regionLoad files s.space region vpn page).data[j]?.getD 0

/-- The invariant of a process whose pages come from a file. -/
structure UserState.Loading (ram : RamSize) (files : Files) (s : UserState) : Prop where
  inv : s.Inv ram fun _ => 0
  complete : s.space.Complete
  image : s.HoldsLoads files

variable {region : Region}

variable {ram : RamSize} {vpn : Nat} {entry : Pte}

theorem UserState.Inv.untranslated (inv : s.Inv ram mem)
    (spot : s.space.locate page = some (region, vpn)) (found : s.space.pteAt region vpn = .ok entry)
    (bad : entry.valid = false) :
    ∀ slot < numTlb, (s.machine.tlb slot).Valid → (s.machine.tlb slot).ehi ≠ page := by
  intro slot inside valid same
  obtain ⟨_, _, other, place, second, there, present, loaded, _⟩ := inv.translated slot inside valid
  rw [same, spot] at there
  cases there
  rw [found, Except.ok.injEq] at present
  rw [present, loaded] at bad
  cases bad

variable {faultaddress : Vaddr}

theorem vmFault_mapped {kind : FaultType} {code : Errno} {next : Machine}
    (ran : vmFault files kind faultaddress (some s.space) s.machine = .ok (code, some space, next))
    (spot : s.space.locate (pageMask faultaddress) = some (region, vpn))
    (found : s.space.pteAt region vpn = .ok entry) (bad : entry.valid = false) (changed : space ≠ s.space) :
    s.space.Usable ∧
      ((regionLoad files s.space region vpn (pageMask faultaddress)).code = 0 → code = 0) := by
  obtain ⟨_, _, same, _⟩ | ⟨_, _, same, usable, outcome⟩ := vmFault_outcome ran
  · cases same
    exact absurd rfl changed
  · cases same
    refine ⟨usable, fun loads => ?_⟩
    obtain ⟨_, same⟩ | ⟨paddr, core, _, _, rfl, filled⟩ := outcome.of_invalid spot found bad
    · exact absurd same changed
    · obtain zero | ⟨_, code⟩ := fillTlb_code filled
      · exact zero
      · rw [code, regionLoad_layout files (s.space.layout_mapPage region vpn paddr)]
        exact loads

theorem UserState.Loading.fault_image (loading : s.Loading ram files) {kind : FaultType}
    {code : Errno} {next : Machine}
    (ran : vmFault files kind faultaddress (some s.space) s.machine =
      .ok (code, some space, next)) : UserState.HoldsLoads ⟨space, next⟩ files := by
  intro page region vpn entry aligned located program present valid loads j small
  have effect := vmFault_effect ran
  have layout := effect.layout
  rw [locate_layout layout] at located
  rw [regionLoad_layout files layout] at loads ⊢
  obtain found | ⟨gone, spot, found, bad, changed⟩ := effect.origin present
  · change next.core.mem (entry.pfn.toNat + j) = _
    rw [loading.inv.fault_keeps ran (.inl program) found valid small]
    exact loading.image page region vpn entry aligned located program found valid loads j small
  · -- the page has been mapped by this fault, so it is the page of the fault
    obtain ⟨usable, succeeds⟩ := vmFault_mapped ran spot found bad changed
    obtain rfl : pageMask faultaddress = page := BitVec.eq_of_toNat_eq
      ((s.space.locate_toNat usable.aligned1 usable.aligned2 (pageMask_aligned faultaddress) spot).trans
        (s.space.locate_toNat usable.aligned1 usable.aligned2 aligned located).symm)
    obtain rfl := succeeds loads
    obtain ⟨live, owns⟩ := loading.inv.owns
    obtain ⟨_, _, loaded, again, _, bytes⟩ := fault_loads_region owns.allocator rfl spot found bad
      (loading.inv.untranslated spot found bad) ran
    rw [again, Except.ok.injEq] at present
    subst present
    exact bytes j small

theorem LoadStep.loading (step : LoadStep files s op t) (loading : s.Loading ram files) :
    t.Loading ram files := by
  have inv := step.user.inv loading.inv
  cases step with
  | @fault kind faultaddress code space next ran =>
    exact ⟨inv, (vmFault_effect ran).complete loading.complete, loading.fault_image ran⟩
  | activate =>
    refine ⟨inv, loading.complete, ?_⟩
    intro page region vpn entry aligned located program present valid loads j small
    exact loading.image page region vpn entry aligned located program present valid loads j small

theorem LoadStep.layout (step : LoadStep files s op t) : t.space.layout = s.space.layout := by
  cases step with
  | fault ran => exact (vmFault_effect ran).layout
  | activate => rfl

theorem UserState.Loading.run {ops : List UserOp} {t : UserState} (loading : s.Loading ram files)
    (reached : Run (LoadStep files) s ops t) : t.Loading ram files ∧ t.space.layout = s.space.layout := by
  have preserved (current : UserState) (op : UserOp) (next : UserState)
      (before : current.Loading ram files ∧ current.space.layout = s.space.layout)
      (step : LoadStep files current op next) :
      next.Loading ram files ∧ next.space.layout = s.space.layout :=
    ⟨step.loading before.1, step.layout.trans before.2⟩
  exact reached.invariant preserved ⟨loading, rfl⟩

/-- A read fault maps a new frame when the load succeeds. -/
theorem UserState.Inv.page_in (inv : s.Inv ram mem) (usable : s.space.Usable)
    (available : s.machine.core.FrameAvailable)
    (spot : s.space.locate (pageMask faultaddress) = some (region, vpn))
    (found : s.space.pteAt region vpn = .ok entry) (bad : entry.valid = false)
    (resident : entry.sw = -1)
    (loads : (regionLoad files s.space region vpn (pageMask faultaddress)).code = 0) :
    ∃ paddr core next, paddr ≠ 0 ∧ Aligned paddr ∧
      fillTlb files region vpn (pageMask faultaddress) paddr true (s.space.mapPage region vpn paddr)
        { s.machine with core := core } = .ok (0, next) ∧
      vmFault files .read faultaddress (some s.space) s.machine =
        .ok (0, some (s.space.mapPage region vpn paddr), next) := by
  obtain ⟨live, owns⟩ := inv.owns
  obtain ⟨paddr, core, served, nonzero⟩ :=
    (owns.allocator.inv.formed.frameAvailable_iff .user).mp available
  have granted := owns.allocator.step (coreStep_granted served nonzero)
  have page := granted.inv.live_page List.mem_cons_self
  obtain ⟨code, next, filled, _⟩ := fillTlb_cases files region vpn (pageMask faultaddress)
    paddr true (s.space.mapPage region vpn paddr) { s.machine with core := core }
  have good : code = 0 := by
    obtain zero | ⟨_, code⟩ := fillTlb_code filled
    · exact zero
    · rw [code, regionLoad_layout files (s.space.layout_mapPage region vpn paddr)]
      exact loads
  subst good
  have outcome : FaultOutcome files .read (pageMask faultaddress) s.space s.machine 0
      (s.space.mapPage region vpn paddr) next :=
    .fresh spot found bad resident served nonzero page.2 filled
  exact ⟨paddr, core, next, nonzero, page.2, filled, outcome.vmFault usable (.inl rfl)⟩

theorem UserState.Loading.fault_succeeds (loading : s.Loading ram files)
    (usable : s.space.Usable) (available : s.machine.core.FrameAvailable)
    (spot : s.space.locate (pageMask faultaddress) = some (region, vpn))
    (loads : (regionLoad files s.space region vpn (pageMask faultaddress)).code = 0) :
    ∃ space next entry, vmFault files .read faultaddress (some s.space) s.machine =
        .ok (0, some space, next) ∧
      space.pteAt region vpn = .ok entry ∧ entry.valid = true := by
  obtain ⟨entry, found⟩ := loading.complete.entries _ _ _ spot
  obtain ⟨live, owns⟩ := loading.inv.owns
  cases valid : entry.valid with
  | true =>
    have page := owns.allocator.inv.live_page (owns.held _ _ _ found valid)
    obtain ⟨code, next, filled, _⟩ := fillTlb_cases files region vpn (pageMask faultaddress)
      entry.pfn (decide (region = .stack)) s.space s.machine
    obtain rfl := present_code filled
    have outcome : FaultOutcome files .read (pageMask faultaddress) s.space s.machine 0 s.space next :=
      .present spot found valid (.inr (by simp)) page.1 page.2 filled
    exact ⟨s.space, next, entry, outcome.vmFault usable (.inl rfl), found, valid⟩
  | false =>
    obtain ⟨paddr, _, next, _, _, _, ran⟩ := loading.inv.page_in usable available spot found
      valid (loading.complete.resident _ _ _ found) loads
    exact ⟨_, next, _, ran, pteAt_mapPage found paddr, rfl⟩

end Os161.Vm

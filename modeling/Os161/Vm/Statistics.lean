import Os161.Vm.TlbInvariant

namespace Os161.Vm
open Word Outcome Transition Machine

abbrev vmstatTlbFault : Nat := 0
abbrev vmstatTlbFaultFree : Nat := 1
abbrev vmstatTlbFaultReplace : Nat := 2
abbrev vmstatTlbReload : Nat := 4
abbrev vmstatPageFaultZero : Nat := 5
abbrev vmstatPageFaultDisk : Nat := 6
abbrev vmstatElfFileRead : Nat := 7
abbrev vmstatSwapFileRead : Nat := 8

/-- The sums that `_vmstats_print` compares, in 32 bits -/
structure AddsUp (stats : Nat → Word32) : Prop where
  slots : stats vmstatTlbFault = stats vmstatTlbFaultFree + stats vmstatTlbFaultReplace
  kinds : stats vmstatTlbFault =
    stats vmstatPageFaultDisk + stats vmstatPageFaultZero + stats vmstatTlbReload
  reads : stats vmstatPageFaultDisk = stats vmstatElfFileRead + stats vmstatSwapFileRead

/-- One counter goes up. -/
def inc (stats : Nat → Word32) (index : Nat) : Nat → Word32 :=
  Function.update stats index (stats index + 1)

/-- The fault is not answered by an entry of the buffer, and it reads no page from the program file. -/
def Steady (page : Vaddr) (as : AddrSpace) (m : Machine) : Prop :=
  probe m.tlb page numTlb 0 ≠ .hit ∧
    ∀ region vpn entry, as.locate page = some (region, vpn) → as.pteAt region vpn = .ok entry →
      entry.valid = false → ¬ as.InFile vpn region

section

variable {stats : Nat → Word32}

theorem AddsUp.hit (adds : AddsUp stats) : ¬ AddsUp (inc stats vmstatTlbReload) := by
  intro after
  have kinds := after.kinds
  simp [inc] at kinds
  have prev := adds.kinds
  bv_omega

theorem AddsUp.insert (adds : AddsUp stats)
    (taken : slot = vmstatTlbFaultFree ∨ slot = vmstatTlbFaultReplace)
    (counted : kind = vmstatTlbReload ∨ kind = vmstatPageFaultZero ∨ kind = vmstatElfFileRead) :
    AddsUp (inc (inc (inc stats vmstatTlbFault) slot) kind) ↔ kind ≠ vmstatElfFileRead := by
  obtain ⟨slots, kinds, reads⟩ := adds
  constructor
  · rintro ⟨_, _, after⟩ rfl
    rcases taken with rfl | rfl
    · simp [inc] at after
      bv_omega
    · simp [inc] at after
      bv_omega
  · intro known
    rcases counted with rfl | rfl | rfl
    · rcases taken with rfl | rfl
      · constructor <;> simp [inc] <;> bv_omega
      · constructor <;> simp [inc] <;> bv_omega
    · rcases taken with rfl | rfl
      · constructor <;> simp [inc] <;> bv_omega
      · constructor <;> simp [inc] <;> bv_omega
    · exact absurd rfl known

end

section

variable {files : Files} {faulttype : FaultType} {page : Vaddr} {as space : AddrSpace} {m next : Machine}
  {code : Errno} {region : Region} {vpn : Nat} {paddr : Paddr} {load : Bool}

theorem regionLoad_counter (files : Files) (as : AddrSpace) (region : Region) (vpn : Nat) (page : Vaddr) :
    as.InFile vpn region ∧ (regionLoad files as region vpn page).counter = vmstatElfFileRead ∨
      ¬ as.InFile vpn region ∧ (regionLoad files as region vpn page).counter = vmstatPageFaultZero := by
  have seg (s : Segment) : vpn * pageSize < s.filesz.toNat ∧
        (segmentLoad files as.vn s vpn page).counter = vmstatElfFileRead ∨
      ¬ vpn * pageSize < s.filesz.toNat ∧
        (segmentLoad files as.vn s vpn page).counter = vmstatPageFaultZero := by
    unfold segmentLoad
    split_ifs with whole rest
    · refine .inl ⟨?_, rfl⟩
      simp only [pageSize] at whole ⊢
      omega
    · refine .inl ⟨?_, rfl⟩
      simp only [pageSize] at rest ⊢
      omega
    · refine .inr ⟨?_, rfl⟩
      simp only [pageSize] at whole rest ⊢
      omega
  cases region with
  | first => exact seg as.seg1
  | second => exact seg as.seg2
  | stack => exact .inr ⟨id, rfl⟩

/-- The counter that an insertion increments -/
def insertKind (files : Files) (as : AddrSpace) (region : Region) (vpn : Nat) (page : Vaddr) (load : Bool) : Nat :=
  if load then (regionLoad files as region vpn page).counter else vmstatTlbReload

theorem install_stats (ran : install files region vpn page paddr load slot spl as m = .ok (code, next)) :
    next.stats = inc m.stats (insertKind files as region vpn page load) := by
  cases load with
  | false =>
    cases ran
    rfl
  | true =>
    simp only [install, loadRegion_eq, ok_bind] at ran
    by_cases failed : (regionLoad files as region vpn page).code ≠ 0
    · rw [if_pos failed] at ran
      cases ran
      rfl
    · rw [if_neg failed] at ran
      cases ran
      rfl

theorem fillTlb_stats (ran : fillTlb files region vpn page paddr load as m = .ok (code, next)) :
    (probe m.tlb page numTlb 0 = .hit ∧ next.stats = inc m.stats vmstatTlbReload) ∨
      probe m.tlb page numTlb 0 ≠ .hit ∧
        ∃ slot, (slot = vmstatTlbFaultFree ∨ slot = vmstatTlbFaultReplace) ∧
          next.stats = inc (inc (inc m.stats vmstatTlbFault) slot) (insertKind files as region vpn page load) := by
  cases found : probe m.tlb page numTlb 0 with
  | hit =>
    simp only [fillTlb, splhigh, found] at ran
    cases ran
    exact .inl ⟨rfl, rfl⟩
  | free slot =>
    simp only [fillTlb, splhigh, found] at ran
    exact .inr ⟨by simp, vmstatTlbFaultFree, .inl rfl, install_stats ran⟩
  | full =>
    simp only [fillTlb, splhigh, found] at ran
    exact .inr ⟨by simp, vmstatTlbFaultReplace, .inr rfl, install_stats ran⟩

theorem fillTlb_addsUp (adds : AddsUp m.stats)
    (ran : fillTlb files region vpn page paddr load as m = .ok (code, next)) :
    AddsUp next.stats ↔ probe m.tlb page numTlb 0 ≠ .hit ∧ ¬ (load = true ∧ as.InFile vpn region) := by
  rcases fillTlb_stats ran with ⟨hit, stats⟩ | ⟨miss, slot, taken, stats⟩
  · rw [stats]
    exact iff_of_false adds.hit fun steady => steady.1 hit
  · have kind := regionLoad_counter files as region vpn page
    rw [stats]
    cases load with
    | false =>
      refine (adds.insert taken (.inl rfl)).trans ?_
      exact iff_of_true (by decide) ⟨miss, fun reads => Bool.false_ne_true reads.1⟩
    | true =>
      rcases kind with ⟨inside, counter⟩ | ⟨out, counter⟩
      · rw [insertKind, counter]
        refine (adds.insert taken (.inr (.inr rfl))).trans ?_
        exact iff_of_false (fun other => other rfl) fun steady => steady.2 ⟨rfl, inside⟩
      · rw [insertKind, counter]
        refine (adds.insert taken (.inr (.inl rfl))).trans ?_
        exact iff_of_true (by decide) ⟨miss, fun reads => out reads.2⟩

theorem mapPage_inFile (as : AddrSpace) (region other : Region) (vpn place : Nat) (paddr : Paddr) :
    (as.mapPage region place paddr).InFile vpn other ↔ as.InFile vpn other := by
  cases region <;> cases other <;> rfl

theorem steady_iff (spot : as.locate page = some (region, vpn)) (found : as.pteAt region vpn = .ok entry) :
    Steady page as m ↔ probe m.tlb page numTlb 0 ≠ .hit ∧ ¬ (entry.valid = false ∧ as.InFile vpn region) := by
  refine and_congr_right fun _ => ⟨?_, ?_⟩
  · rintro steady ⟨bad, inside⟩
    exact steady region vpn entry spot found bad inside
  · intro steady region' vpn' entry' located' found' bad inside
    cases spot.symm.trans located'
    cases found.symm.trans found'
    exact steady ⟨bad, inside⟩

theorem FaultOutcome.addsUp (outcome : FaultOutcome files faulttype page as m code space next) (good : code = 0)
    (adds : AddsUp m.stats) : AddsUp next.stats ↔ Steady page as m := by
  cases outcome with
  | unmapped | readOnly | noMemory => cases good
  | @present region vpn entry _ _ spot found valid allowed nonzero aligned filled =>
    rw [fillTlb_addsUp adds filled, steady_iff spot found, valid]
    refine and_congr_right fun _ => not_congr (iff_of_false ?_ fun reads => Bool.true_eq_false.mp reads.1)
    rintro ⟨stack, inside⟩
    rw [decide_eq_true_eq] at stack
    subst stack
    exact inside
  | @fresh region vpn entry paddr core _ _ spot found bad resident served nonzero aligned filled =>
    have kept := fillTlb_addsUp (m := { m with core := core }) adds filled
    rw [kept, steady_iff spot found, mapPage_inFile]
    simp only [bad]

end

/-- The calls that count, with what each sees, and the rest of the kernel -/
inductive StatOp where
  | fault (files : Files) (faulttype : FaultType) (faultaddress : Vaddr) (current : Option AddrSpace)
  | activate (current : Option AddrSpace)
  | kernel

/-- Each `vm_fault` returns 0. The rest of the kernel may change everything but the counters. -/
inductive StatStep : Machine → StatOp → Machine → Prop where
  | fault {files : Files} {faulttype : FaultType} {faultaddress : Vaddr} {current after : Option AddrSpace}
      {m next : Machine} (returned : vmFault files faulttype faultaddress current m = .ok (0, after, next)) :
      StatStep m (.fault files faulttype faultaddress current) next
  | activate (current : Option AddrSpace) (m : Machine) : StatStep m (.activate current) (asActivate current m)
  | kernel {m next : Machine} (stats : next.stats = m.stats) : StatStep m .kernel next

/-- Faults are steady. -/
def StatOp.Meets (m : Machine) : StatOp → Prop
  | .fault _ _ faultaddress current => ∀ as ∈ current, Steady (pageMask faultaddress) as m
  | .activate _ => True
  | .kernel => True

theorem asActivate_addsUp {m : Machine} (adds : AddsUp m.stats) : AddsUp (asActivate current m).stats := by
  cases current with
  | none => exact adds
  | some as =>
    exact ⟨adds.slots, adds.kinds, adds.reads⟩

theorem StatStep.addsUp (step : StatStep m op next) (adds : AddsUp m.stats) :
    AddsUp next.stats ↔ op.Meets m := by
  cases step with
  | @fault files faulttype faultaddress current after _ _ ran =>
    cases current with
    | none => exact absurd rfl (vmFault_none ran).1
    | some as =>
      rcases vmFault_outcome ran with ⟨_, failed, _⟩ | ⟨_, space, _, _, outcome⟩
      · cases failed
      · rw [outcome.addsUp rfl adds]
        simp [StatOp.Meets]
  | activate current => exact iff_of_true (asActivate_addsUp adds) trivial
  | kernel stats => exact iff_of_true (stats ▸ adds) trivial

/-- The counters add up exactly while every fault is steady. -/
theorem vmstats_add_up {first last : Machine} {ops : List StatOp} (zero : ∀ index, first.stats index = 0)
    (reached : Run (fun m op next => StatStep m op next ∧ op.Meets m) first ops last) :
    AddsUp last.stats ∧ ∀ op next, StatStep last op next → (AddsUp next.stats ↔ op.Meets last) := by
  have start : AddsUp first.stats := by
    constructor <;> simp [zero]
  have adds : AddsUp last.stats :=
    reached.invariant (fun _ _ _ adds step => (step.1.addsUp adds).mpr step.2) start
  exact ⟨adds, fun op next step => step.addsUp adds⟩

theorem vmstats_add_up_smallProgram :
    ∃ last, Run (fun m op next => StatStep m op next ∧ op.Meets m) (Machine.idle (booted eightFrames fun _ => 0))
        [.fault zeroFiles .write 0x7fffff00 (some smallProgram)] last ∧
      last.stats vmstatTlbFault = 1 ∧ AddsUp last.stats := by
  have stack : vmFault zeroFiles .write 0x7fffff00 (some smallProgram)
      (idle (booted eightFrames fun _ => 0)) = .ok (0, _, _) := rfl
  have steady : Steady (pageMask 0x7fffff00) smallProgram (idle (booted eightFrames fun _ => 0)) := by
    refine ⟨by decide, ?_⟩
    intro region vpn entry located
    cases located
    exact fun _ _ => id
  have reached : Run (fun m op next => StatStep m op next ∧ op.Meets m)
      (idle (booted eightFrames fun _ => 0))
      [.fault zeroFiles .write 0x7fffff00 (some smallProgram)] _ :=
    .single ⟨.fault stack, by rintro as ⟨⟩; exact steady⟩
  exact ⟨_, reached, rfl, (vmstats_add_up (fun _ => rfl) reached).1⟩

/-- The first page of a program is read from its file. -/
theorem elf_read_breaks_sums :
    ∃ last, StatStep (Machine.idle (booted eightFrames fun _ => 0))
        (.fault zeroFiles .read 0x400004 (some smallProgram)) last ∧
      last.stats vmstatTlbFault = 1 ∧ last.stats vmstatElfFileRead = 1 ∧ last.stats vmstatPageFaultDisk = 0 ∧
      last.stats vmstatPageFaultZero = 0 ∧ last.stats vmstatTlbReload = 0 := by
  have code : vmFault zeroFiles .read 0x400004 (some smallProgram)
      (idle (booted eightFrames fun _ => 0)) = .ok (0, _, _) := rfl
  exact ⟨_, .fault code, rfl, rfl, rfl, rfl, rfl⟩

end Os161.Vm

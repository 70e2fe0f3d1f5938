import Os161.Vm.FaultErrors

namespace Os161.Vm
open Word Outcome Transition Function AddrSpace BitVec

/-- The effect of a fault on the page tables and on physical memory. -/
inductive FaultEffect (files : Files) (page : Vaddr) (as : AddrSpace) (m : Machine) :
    AddrSpace → CoreState → Prop where
  | unchanged : FaultEffect files page as m as m.core
  | refused (refused : getppages 1 .user m.core = .ok (0, core)) : FaultEffect files page as m as core
  | cleared (located : as.locate page = some (.stack, vpn)) (found : as.pteAt .stack vpn = .ok entry)
      (valid : entry.valid = true) (missed : probe m.tlb page numTlb 0 ≠ .hit) :
      FaultEffect files page as m as { m.core with mem := bzeroPage entry.pfn m.core.mem }
  | loaded {region : Region} {vpn : Nat} {entry : Pte} {paddr : Paddr} {core : CoreState}
      (located : as.locate page = some (region, vpn)) (found : as.pteAt region vpn = .ok entry)
      (invalid : entry.valid = false) (served : getppages 1 .user m.core = .ok (paddr, core))
      (nonzero : paddr ≠ 0) (aligned : Aligned paddr) {data : List Byte}
      (contents : data = if probe m.tlb page numTlb 0 = .hit then []
        else (regionLoad files as region vpn page).data) :
      FaultEffect files page as m (as.mapPage region vpn paddr)
        { core with mem := Bytes.store paddr.toNat data core.mem }

variable {as : AddrSpace}

theorem regionLoad_layout (files : Files) {other : AddrSpace} (same : as.layout = other.layout)
    (region : Region) (vpn : Nat) (page : Vaddr) :
    regionLoad files as region vpn page = regionLoad files other region vpn page := by
  rw [eq_of_layout same]
  cases region <;> rfl

theorem AddrSpace.Usable.layout {other : AddrSpace} (usable : as.Usable)
    (same : as.layout = other.layout) : other.Usable := by
  rw [eq_of_layout same]
  exact { usable with }

variable {files : Files} {region : Region} {vpn : Nat} {page : Vaddr} {m next : Machine}
  {code : Errno}

theorem fillTlb_core (filled : fillTlb files region vpn page paddr load as m = .ok (code, next)) :
    next.core = { m.core with
      mem := if load ∧ probe m.tlb page numTlb 0 ≠ .hit then
          Bytes.store paddr.toNat (regionLoad files as region vpn page).data m.core.mem
        else m.core.mem } := by
  obtain ⟨res, last, same, found⟩ := fillTlb_cases files region vpn page paddr load as m
  rw [filled] at same
  cases same
  obtain ⟨hit, _, _, core, _⟩ | ⟨slot, victim, chosen, entry⟩ := found
  · rw [core, if_neg (by simp [hit])]
  · have missed : probe m.tlb page numTlb 0 ≠ .hit := by
      cases chosen with
      | free found => simp [found]
      | full found => simp [found]
    rw [entry.core]
    simp only [missed, ne_eq, not_false_eq_true, and_true]

variable {faulttype : FaultType} {faultaddress : Vaddr} {space : AddrSpace}

/-- Every fault that returns has one of these effects. -/
theorem vmFault_effect
    (ran : vmFault files faulttype faultaddress (some as) m = .ok (code, some space, next)) :
    FaultEffect files (pageMask faultaddress) as m space next.core := by
  obtain ⟨_, _, same, rfl⟩ | ⟨_, _, same, _, outcome⟩ := vmFault_outcome ran
  · cases same
    exact .unchanged
  · cases same
    cases outcome with
    | unmapped | readOnly => exact .unchanged
    | noMemory spot found bad resident refused => exact .refused refused
    | @present region vpn entry code next spot found valid allowed nonzero aligned filled =>
      have core := fillTlb_core filled
      by_cases cleared : decide (region = .stack) = true ∧
          probe m.tlb (pageMask faultaddress) numTlb 0 ≠ .hit
      · obtain rfl : region = .stack := by simpa using cleared.1
        rw [if_pos cleared] at core
        rw [core, show regionLoad files as .stack vpn (pageMask faultaddress) = zeroLoad from rfl,
          show zeroLoad.data = List.replicate pageSize 0 from rfl, ← bzeroPage_store]
        exact .cleared spot found valid cleared.2
      · rw [if_neg cleared] at core
        rw [core]
        exact .unchanged
    | @fresh region vpn entry paddr core code next spot found bad resident served nonzero
        aligned filled =>
        have written := fillTlb_core filled
        rw [regionLoad_layout files (as.layout_mapPage region vpn paddr)] at written
        have contents : next.core = { core with
            mem := Bytes.store paddr.toNat
              (if probe m.tlb (pageMask faultaddress) numTlb 0 = .hit then []
                else (regionLoad files as region vpn (pageMask faultaddress)).data) core.mem } := by
          rw [written]
          by_cases hit : probe m.tlb (pageMask faultaddress) numTlb 0 = .hit
          · simp [hit, Bytes.store]
          · simp [hit]
        rw [contents]
        exact .loaded spot found bad served nonzero aligned rfl

theorem pageMask_flags (aligned : Aligned paddr) :
    pageMask (paddr ||| tlbloValid) = paddr ∧
      pageMask (paddr ||| tlbloDirty ||| tlbloValid) = paddr := by
  have valid : pageMask tlbloValid = 0#32 := by decide
  have dirty : pageMask tlbloDirty = 0#32 := by decide
  constructor
  · rw [pageMask_or, valid, pageMask_of_aligned aligned, or_zero]
  · rw [pageMask_or, pageMask_or, valid, dirty, pageMask_of_aligned aligned, or_zero,
      or_zero]

/-- The translation that a fault leaves agrees with the page table. -/
theorem vmFault_translation
    (ran : vmFault files faulttype faultaddress (some as) m = .ok (code, some space, next)) :
    next.tlb = m.tlb ∨ ∃ slot elo region vpn entry, as.Usable ∧
      as.locate (pageMask faultaddress) = some (region, vpn) ∧
      space.pteAt region vpn = .ok entry ∧ entry.valid = true ∧ pageMask elo = entry.pfn ∧
      (code = 0 → elo = finalElo as region entry.pfn) ∧
      next.tlb = update m.tlb slot { ehi := pageMask faultaddress, elo := elo } := by
  have inserted {region : Region} {vpn : Nat} {paddr : Paddr} {load : Bool} {space : AddrSpace}
      {core : CoreState} (aligned : Aligned paddr)
      (filled : fillTlb files region vpn (pageMask faultaddress) paddr load space
        { m with core := core } = .ok (code, next)) :
      next.tlb = m.tlb ∨ ∃ slot elo, pageMask elo = paddr ∧
        (code = 0 → elo = finalElo space region paddr) ∧
        next.tlb = update m.tlb slot { ehi := pageMask faultaddress, elo := elo } := by
    obtain ⟨res, last, same, found⟩ := fillTlb_cases files region vpn (pageMask faultaddress)
      paddr load space { m with core := core }
    rw [filled] at same
    cases same
    obtain ⟨_, _, tlb, _⟩ | ⟨slot, victim, _, entry⟩ := found
    · exact .inl tlb
    · refine .inr ⟨slot, _, ?_, fun good => if_pos good, entry.tlb⟩
      have flags := pageMask_flags aligned
      unfold finalElo
      split
      · split
        · exact flags.1
        · exact flags.2
      · exact flags.2
  obtain ⟨_, _, same, rfl⟩ | ⟨_, _, same, usable, outcome⟩ := vmFault_outcome ran
  · exact .inl rfl
  · cases same
    cases outcome with
    | unmapped | readOnly | noMemory => exact .inl rfl
    | present spot found valid allowed nonzero aligned filled =>
      obtain same | ⟨slot, elo, frame, final, tlb⟩ := inserted aligned filled
      · exact .inl same
      · exact .inr ⟨slot, elo, _, _, _, usable, spot, found, valid, frame, final, tlb⟩
    | @fresh region vpn entry paddr core code next spot found bad resident served nonzero
        aligned filled =>
        obtain same | ⟨slot, elo, frame, final, tlb⟩ := inserted aligned filled
        · exact .inl same
        · refine .inr ⟨slot, elo, region, vpn, _, usable, spot, pteAt_mapPage found paddr,
            rfl, frame, ?_, tlb⟩
          rw [finalElo, ← flag_layout (as.layout_mapPage region vpn paddr)]
          exact final

variable {core : CoreState}

theorem FaultEffect.layout (effect : FaultEffect files page as m space core) :
    space.layout = as.layout := by
  cases effect with
  | unchanged | refused | cleared => rfl
  | loaded spot found bad served nonzero aligned contents => exact as.layout_mapPage _ _ _

theorem vmFault_slot
    (ran : vmFault files faulttype faultaddress (some as) m = .ok (code, some space, next))
    (slot : Nat) :
    next.tlb slot = m.tlb slot ∨ ∃ elo region vpn entry,
      next.tlb slot = { ehi := pageMask faultaddress, elo := elo } ∧ space.Usable ∧
      space.locate (pageMask faultaddress) = some (region, vpn) ∧
      space.pteAt region vpn = .ok entry ∧ entry.valid = true ∧ pageMask elo = entry.pfn ∧
      (code = 0 → elo = finalElo as region entry.pfn) := by
  have layout := (vmFault_effect ran).layout
  obtain same | ⟨place, elo, region, vpn, entry, usable, spot, found, present, frame, final, tlb⟩ :=
    vmFault_translation ran
  · exact .inl (congrFun same slot)
  · by_cases here : slot = place
    · refine .inr ⟨elo, region, vpn, entry, ?_, usable.layout layout.symm, ?_, found, present, frame,
        final⟩
      · rw [tlb, here, update_self]
      · exact (locate_layout layout _).trans spot
    · rw [tlb, update_of_ne here]
      exact .inl rfl

/-- An entry that was valid stays as it was. -/
theorem FaultEffect.kept (effect : FaultEffect files page as m space core)
    (found : as.pteAt region vpn = .ok entry) (valid : entry.valid = true) :
    space.pteAt region vpn = .ok entry := by
  cases effect with
  | unchanged | refused | cleared => exact found
  | @loaded other place old _ _ spot here bad served nonzero aligned data contents =>
    have apart : (region, vpn) ≠ (other, place) := by
      intro same
      cases same
      rw [found, Except.ok.injEq] at here
      rw [← here, valid] at bad
      cases bad
    exact (pteAt_modifyPte_of_ne as _ apart).trans found

theorem FaultEffect.origin (effect : FaultEffect files page as m space core)
    (present : space.pteAt region vpn = .ok entry) :
    as.pteAt region vpn = .ok entry ∨ ∃ old, as.locate page = some (region, vpn) ∧
      as.pteAt region vpn = .ok old ∧ old.valid = false ∧ space ≠ as := by
  cases effect with
  | unchanged | refused | cleared => exact .inl present
  | @loaded other place old paddr _ spot found bad served nonzero aligned data contents =>
    by_cases here : (region, vpn) = (other, place)
    · cases here
      exact .inr ⟨old, spot, found, bad, mapPage_ne found bad paddr⟩
    · exact .inl ((pteAt_modifyPte_of_ne as _ here).symm.trans present)

end Os161.Vm

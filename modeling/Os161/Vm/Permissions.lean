import Os161.Vm.Copy

namespace Os161.Vm
open Word Outcome Transition AddrSpace

/-- Calls of `vm_fault` that succeed and of `as_activate` for one address space. Between them the
rest of the kernel may change everything but the page tables and the translation buffer. -/
inductive SuccessStep : UserState → TlbOp → UserState → Prop where
  | fault {s : UserState} {files : Files} {faulttype : FaultType} {faultaddress : Vaddr}
      {space : AddrSpace} {next : Machine}
      (returned : vmFault files faulttype faultaddress (some s.space) s.machine =
        .ok (0, some space, next)) : SuccessStep s (.fault faulttype faultaddress) ⟨space, next⟩
  | activate : SuccessStep s .activate ⟨s.space, asActivate (some s.space) s.machine⟩
  | kernel {s : UserState} {next : Machine} (tlb : next.tlb = s.machine.tlb) :
      SuccessStep s .kernel ⟨s.space, next⟩

/-- The write permission of a region reaches its valid entries and their translations. -/
structure UserState.Permitted (s : UserState) : Prop where
  pages : ∀ region vpn entry, s.space.pteAt region vpn = .ok entry → entry.valid = true →
    (entry.dirty = true ↔ s.space.flag region &&& 2 ≠ 0)
  translations : ∀ slot < numTlb, (s.machine.tlb slot).Valid →
    s.space.Usable ∧
      ∃ region vpn entry, s.space.locate (s.machine.tlb slot).ehi = some (region, vpn) ∧
        s.space.pteAt region vpn = .ok entry ∧ entry.valid = true ∧
        ((s.machine.tlb slot).Dirty ↔ s.space.flag region &&& 2 ≠ 0)

theorem dirty_of_aligned (aligned : Aligned paddr) : paddr &&& tlbloDirty = 0 := by
  rw [← pageMask_of_aligned aligned, pageMask, BitVec.and_assoc]
  simp

theorem finalElo_dirty_iff (as : AddrSpace) (region : Region) (aligned : Aligned paddr) :
    finalElo as region paddr &&& tlbloDirty ≠ 0 ↔ as.flag region &&& 2 ≠ 0 := by
  have clean := dirty_of_aligned aligned
  unfold finalElo
  split
  · rename_i readOnly
    rw [BitVec.and_or_distrib_right, clean, readOnly]
    decide
  · rename_i writable
    rw [BitVec.and_or_distrib_right, BitVec.and_or_distrib_right, clean]
    exact iff_of_true (by decide) writable

theorem FaultEffect.permitted (effect : FaultEffect files page as m space core)
    (permitted : ∀ region vpn entry, as.pteAt region vpn = .ok entry → entry.valid = true →
      (entry.dirty = true ↔ as.flag region &&& 2 ≠ 0)) :
    ∀ region vpn entry, space.pteAt region vpn = .ok entry → entry.valid = true →
      (entry.dirty = true ↔ space.flag region &&& 2 ≠ 0) := by
  intro region vpn entry present valid
  rw [flag_layout effect.layout]
  cases effect with
  | unchanged | refused refused | cleared spot found loaded missed =>
    exact permitted region vpn entry present valid
  | @loaded other place old paddr core spot found bad served nonzero aligned data contents =>
    by_cases here : (region, vpn) = (other, place)
    · cases here
      rw [pteAt_mapPage found, Except.ok.injEq] at present
      rw [← present]
      exact decide_eq_true_iff
    · rw [mapPage, pteAt_modifyPte_of_ne as _ here] at present
      exact permitted region vpn entry present valid

theorem SuccessStep.permitted (step : SuccessStep s op t) (permitted : UserState.Permitted s) :
    UserState.Permitted t := by
  cases step with
  | @fault files kind faultaddress space next ran =>
    have effect := vmFault_effect ran
    have older {slot : Nat} (inside : slot < numTlb) (valid : (s.machine.tlb slot).Valid) :
        space.Usable ∧
          ∃ region vpn entry, space.locate (s.machine.tlb slot).ehi = some (region, vpn) ∧
            space.pteAt region vpn = .ok entry ∧ entry.valid = true ∧
            ((s.machine.tlb slot).Dirty ↔ space.flag region &&& 2 ≠ 0) := by
      obtain ⟨usable, region, vpn, entry, spot, found, present, dirty⟩ :=
        permitted.translations slot inside valid
      refine ⟨usable.layout effect.layout.symm, region, vpn, entry, ?_, effect.kept found present,
        present, ?_⟩
      · exact (locate_layout effect.layout _).trans spot
      · rw [flag_layout effect.layout]
        exact dirty
    refine ⟨effect.permitted permitted.pages, ?_⟩
    intro slot inside valid
    obtain same | ⟨elo, region, vpn, entry, new, usable, spot, found, present, frame, final⟩ :=
      vmFault_slot ran slot
    · rw [same] at valid ⊢
      exact older inside valid
    · have aligned : Aligned entry.pfn := frame ▸ pageMask_aligned elo
      rw [new]
      refine ⟨usable, region, vpn, entry, spot, found, present, ?_⟩
      rw [flag_layout effect.layout, TlbEntry.Dirty, final rfl]
      exact finalElo_dirty_iff _ region aligned
  | activate =>
    refine ⟨permitted.pages, ?_⟩
    intro slot inside valid
    exact absurd valid (asActivate_empty s.space s.machine slot inside)
  | kernel tlb =>
    refine ⟨permitted.pages, ?_⟩
    rw [tlb]
    exact permitted.translations

theorem SuccessStep.layout (step : SuccessStep s op t) : t.space.layout = s.space.layout := by
  cases step with
  | fault ran => exact (vmFault_effect ran).layout
  | activate => rfl
  | kernel tlb => rfl

end Os161.Vm

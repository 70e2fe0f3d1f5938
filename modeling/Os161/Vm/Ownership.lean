import Os161.Vm.FaultEffect

namespace Os161.Vm
open Word Outcome Transition

variable {ram : RamSize} {conf : CoreConf}

theorem CoreConf.Inv.frames_apart (inv : conf.Inv ram) (leftLive : (left, 1) ∈ conf.live)
    (rightLive : (right, 1) ∈ conf.live) (differ : left ≠ right) (leftSmall : i < pageSize)
    (rightSmall : j < pageSize) : left.toNat + i ≠ right.toNat + j := by
  have leftAddress := inv.address leftLive
  have rightAddress := inv.address rightLive
  intro same
  apply differ
  apply BitVec.eq_of_toNat_eq
  simp only [pageSize] at *
  omega

theorem CoreConf.Inv.live_page (inv : conf.Inv ram) (member : entry ∈ conf.live) :
    entry.1 ≠ 0 ∧ Aligned entry.1 := by
  have addr := inv.address member
  have aligned := ram.loAligned
  obtain ⟨_, _, _, table, _, _, _⟩ := ram.layout
  simp only [RamSize.base, Aligned, pageSize] at *
  constructor
  · intro zero
    rw [zero, show (0 : Paddr).toNat = 0 from rfl] at addr
    omega
  · omega

variable {core : CoreState} {live : List (Paddr × Word32)}

theorem CoreConf.Inv.newest (inv : CoreConf.Inv ram ⟨core, entry :: live⟩) : entry ∉ live := by
  intro member
  have pos := (inv.holds entry List.mem_cons_self).positive
  have apart := (List.pairwise_cons.mp inv.ranges_apart).1 entry member
  simp only [pageSize] at apart
  omega

variable {mem : Nat → Byte}

theorem CoreConf.Reachable.fresh (reachable : conf.Reachable ram mem)
    (served : getppages 1 .user conf.state = .ok (paddr, core)) (nonzero : paddr ≠ 0) :
    (paddr, 1) ∉ conf.live := by
  have inv := (reachable.step (coreStep_granted served nonzero)).inv
  exact inv.newest

/-- The valid entries of an address space own different live frames. -/
structure AddrSpace.Owns (ram : RamSize) (mem : Nat → Byte) (live : List (Paddr × Word32))
    (as : AddrSpace) (core : CoreState) : Prop where
  allocator : CoreConf.Reachable ram mem ⟨core, live⟩
  held : ∀ region vpn entry, as.pteAt region vpn = .ok entry → entry.valid = true →
    (entry.pfn, 1) ∈ live
  separate : ∀ region vpn entry other place second, as.pteAt region vpn = .ok entry →
    as.pteAt other place = .ok second → entry.valid = true → second.valid = true →
      entry.pfn = second.pfn → (region, vpn) = (other, place)

variable {as : AddrSpace}

/-- A new frame of a page belongs to no other entry. -/
theorem AddrSpace.Owns.mapPage (owns : as.Owns ram mem live core) (found : as.pteAt region vpn = .ok entry)
    (served : getppages 1 .user core = .ok (paddr, next)) (nonzero : paddr ≠ 0) :
    (as.mapPage region vpn paddr).Owns ram mem ((paddr, 1) :: live) next := by
  have unused := owns.allocator.fresh served nonzero
  have mapped := AddrSpace.pteAt_mapPage found paddr
  have others {other : Region} {place : Nat} (apart : (other, place) ≠ (region, vpn)) :
      (as.mapPage region vpn paddr).pteAt other place = as.pteAt other place :=
    AddrSpace.pteAt_modifyPte_of_ne as _ apart
  refine ⟨owns.allocator.step (coreStep_granted served nonzero), ?_, ?_⟩
  · intro other place second present valid
    by_cases here : (other, place) = (region, vpn)
    · cases here
      rw [mapped, Except.ok.injEq] at present
      rw [← present]
      exact List.mem_cons_self
    · rw [others here] at present
      exact List.mem_cons_of_mem _ (owns.held _ _ _ present valid)
  · intro left leftPlace leftEntry right rightPlace rightEntry leftFound rightFound leftValid
      rightValid same
    by_cases leftHere : (left, leftPlace) = (region, vpn)
    · by_cases rightHere : (right, rightPlace) = (region, vpn)
      · exact leftHere.trans rightHere.symm
      · cases leftHere
        rw [mapped, Except.ok.injEq] at leftFound
        rw [others rightHere] at rightFound
        have live := owns.held _ _ _ rightFound rightValid
        rw [← same, ← leftFound] at live
        exact absurd live unused
    · by_cases rightHere : (right, rightPlace) = (region, vpn)
      · cases rightHere
        rw [mapped, Except.ok.injEq] at rightFound
        rw [others leftHere] at leftFound
        have live := owns.held _ _ _ leftFound leftValid
        rw [same, ← rightFound] at live
        exact absurd live unused
      · rw [others leftHere] at leftFound
        rw [others rightHere] at rightFound
        exact owns.separate _ _ _ _ _ _ leftFound rightFound leftValid rightValid same

theorem AddrSpace.Owns.stores (owns : as.Owns ram mem live core) (found : as.pteAt region vpn = .ok entry)
    (valid : entry.valid = true) (offset : Nat) (data : List Byte) (fits : offset + data.length ≤ pageSize) :
    as.Owns ram mem live
      { core with mem := Bytes.store (entry.pfn.toNat + offset) data core.mem } where
  allocator := by
    have held := owns.held _ _ _ found valid
    refine owns.allocator.stores held (Nat.le_add_right _ _) ?_
    rw [show (1 : Word32).toNat = 1 from rfl]
    omega
  held := owns.held
  separate := owns.separate

theorem FaultEffect.owns (effect : FaultEffect files page as m space core)
    (owns : as.Owns ram mem live m.core) : ∃ live, space.Owns ram mem live core := by
  cases effect with
  | unchanged => exact ⟨live, owns⟩
  | refused refused =>
    have moved := owns.allocator.step (.getppages refused)
    exact ⟨live, moved, owns.held, owns.separate⟩
  | cleared spot found valid missed =>
    rw [bzeroPage_store]
    exact ⟨live, owns.stores found valid 0 _ (by simp)⟩
  | @loaded region vpn entry paddr core spot found bad served nonzero aligned data contents =>
    have mapped := owns.mapPage found served nonzero
    have short : data.length ≤ pageSize := by
      rw [contents]
      split
      · exact Nat.zero_le _
      · exact regionLoad_length files as region vpn page
    exact ⟨_, mapped.stores (AddrSpace.pteAt_mapPage found paddr) rfl 0 data (by simpa using short)⟩

end Os161.Vm

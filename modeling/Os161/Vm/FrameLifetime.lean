import Os161.Vm.Allocation

namespace Os161.Vm
open Word Outcome Intervals Transition

theorem CoreConf.Inv.address {conf : CoreConf} (inv : conf.Inv ram) (mem : entry ∈ conf.live) :
    entry.1.toNat = ram.base + ram.index entry.1 * pageSize := by
  have held := inv.holds entry mem
  have pos := held.positive
  have bound := held.inside
  have addr := inv.formed.address (ram.index entry.1) (by omega)
  rw [held.address, inv.formed.start] at addr
  exact addr

theorem CoreConf.Inv.ranges_apart {conf : CoreConf} (inv : conf.Inv ram) :
    conf.live.Pairwise fun left right =>
      left.1.toNat + left.2.toNat * pageSize ≤ right.1.toNat ∨
        right.1.toNat + right.2.toNat * pageSize ≤ left.1.toNat := by
  refine (List.pairwise_map.mp inv.tenancy.apart).imp_of_mem ?_
  intro left right leftLive rightLive apart
  have leftAddress := inv.address leftLive
  have rightAddress := inv.address rightLive
  simp only [Interval.Apart, RamSize.interval, pageSize] at *
  omega

/-- No two live allocations share a byte. -/
theorem live_ranges_apart {ram : RamSize} {mem : Nat → Byte} {ops : List CoreOp} {conf : CoreConf}
    (reached : Run CoreStep (initialConf ram mem) ops conf) :
    conf.live.Pairwise fun left right =>
      left.1.toNat + left.2.toNat * pageSize ≤ right.1.toNat ∨
        right.1.toNat + right.2.toNat * pageSize ≤ left.1.toNat := by
  have inv := reached_inv reached
  exact inv.ranges_apart

/-- A memory of eight frames whose table takes one page. -/
def eightFrames : RamSize where
  lo := 0x10000
  hi := 0x18000
  loAligned := by decide
  hiAligned := by decide
  nonempty := by decide
  capped := by decide

/-- Two requests on the small memory hold separate ranges. -/
theorem live_ranges_apart_eightFrames :
    ∃ conf, Run CoreStep (initialConf eightFrames fun _ => 0)
        [.getppages 2 .kernel, .getppages 1 .user] conf ∧
      conf.live = [(0x13000, 1), (0x11000, 2)] ∧
      conf.live.Pairwise fun left right =>
        left.1.toNat + left.2.toNat * pageSize ≤ right.1.toNat ∨
          right.1.toNat + right.2.toNat * pageSize ≤ left.1.toNat := by
  have reached : Run CoreStep (initialConf eightFrames fun _ => 0)
      [.getppages 2 .kernel, .getppages 1 .user] _ :=
    .cons (.getppages rfl) (.cons (.getppages rfl) (.nil _))
  exact ⟨_, reached, rfl, live_ranges_apart reached⟩

theorem live_kept (later : Run CoreStep conf ops last) (mem : entry ∈ conf.live)
    (untouched : CoreOp.freeppages entry.1 ∉ ops) : entry ∈ last.live := by
  induction later with
  | nil state => exact mem
  | cons moved rest ih =>
    apply ih
    · cases moved with
      | getppages ran =>
        split
        · exact mem
        · exact List.mem_cons_of_mem _ mem
      | @freeppages paddr npages next held ran =>
        have differ : entry ≠ (paddr, npages) := by
          rintro rfl
          exact untouched List.mem_cons_self
        exact (List.mem_erase_of_ne differ).mpr mem
      | store held above below => exact mem
    · exact fun later => untouched (List.mem_cons_of_mem _ later)

/-- Freeing the address sets exactly its frames to free. -/
def FreesExactly (paddr : Paddr) (npages : Word32) (s : CoreState) : Prop :=
  ∃ next, freeppages paddr s = .ok next ∧ next.coremapSize = s.coremapSize ∧
    ∀ index < s.coremapSize, (next.coremaps index).state =
      if paddr.toNat ≤ (s.coremaps index).pa.toNat ∧
          (s.coremaps index).pa.toNat < paddr.toNat + npages.toNat * pageSize then .free
      else (s.coremaps index).state

theorem CoreConf.Inv.freesExactly_iff {conf : CoreConf} (inv : conf.Inv ram) (mem : entry ∈ conf.live) :
    FreesExactly entry.1 entry.2 conf.state ↔ entry.2 = 1 := by
  have held := inv.holds entry mem
  have pos := held.positive
  have bound := held.inside
  have addr := inv.address mem
  have freed := inv.freeppages_eq mem
  constructor
  · rintro ⟨next, ran, _, exactly⟩
    by_contra several
    rw [freed, if_neg several] at ran
    cases ran
    have first := exactly (ram.index entry.1) (by omega)
    rw [held.address, if_pos (by simp only [pageSize]; omega)] at first
    exact inv.used mem pos first
  · intro single
    rw [if_pos single] at freed
    refine ⟨_, freed, rfl, ?_⟩
    intro index inside
    have frame := inv.formed.address index inside
    rw [inv.formed.start] at frame
    change _ = ram.base + index * pageSize at frame
    by_cases same : index = ram.index entry.1
    · rw [if_pos]
      · simp [CoreState.freeFrame, same]
      · rw [frame, addr, same, single]
        simp [pageSize]
    · rw [if_neg]
      · simp [CoreState.freeFrame, same]
      · rw [frame, addr, single]
        rw [show (1 : Word32).toNat = 1 from rfl]
        simp only [pageSize]
        omega

theorem coreStep_granted {conf : CoreConf} (served : getppages npages owner conf.state = .ok (addr, next))
    (nonzero : addr ≠ 0) : CoreStep conf (.getppages npages owner) ⟨next, (addr, npages) :: conf.live⟩ := by
  have moved := CoreStep.getppages served
  rwa [if_neg nonzero] at moved

/-- An allocation is given back exactly when it has one frame. -/
theorem freeppages_restores_iff {ram : RamSize} {mem : Nat → Byte} {before between : List CoreOp}
    {conf middle : CoreConf} (reached : Run CoreStep (initialConf ram mem) before conf)
    {npages : Word32} {owner : FrameOwner} {addr : Paddr} {granted : CoreState}
    (served : getppages npages owner conf.state = .ok (addr, granted)) (nonzero : addr ≠ 0)
    (later : Run CoreStep ⟨granted, (addr, npages) :: conf.live⟩ between middle)
    (untouched : CoreOp.freeppages addr ∉ between) :
    FreesExactly addr npages middle.state ↔ npages = 1 := by
  have inv := reached_inv (reached.append (.cons (coreStep_granted served nonzero) later))
  have member : (addr, npages) ∈ middle.live := live_kept later List.mem_cons_self untouched
  have exactly := inv.freesExactly_iff member
  exact exactly

/-- The condition applies to a request for two frames on the small memory. -/
theorem freeppages_restores_eightFrames :
    ∃ granted, getppages 2 .kernel (booted eightFrames fun _ => 0) = .ok (0x11000, granted) ∧
      (FreesExactly 0x11000 2 granted ↔ (2 : Word32) = 1) := by
  have served : getppages 2 .kernel (initialConf eightFrames fun _ => 0).state =
    .ok (0x11000, _) := rfl
  have exactly := freeppages_restores_iff (.nil _) served (by decide) (.nil _) List.not_mem_nil
  exact ⟨_, served, exactly⟩

/-- Two frames stay used when their address is freed. -/
theorem freeppages_leaks_two :
    ∃ granted next, getppages 2 .kernel (booted eightFrames fun _ => 0) = .ok (0x11000, granted) ∧
      freeppages 0x11000 granted = .ok next ∧ (next.coremaps 0).state = .used ∧
      (next.coremaps 1).state = .used ∧ ¬ FreesExactly 0x11000 2 granted := by
  refine ⟨_, _, rfl, rfl, rfl, rfl, ?_⟩
  rintro ⟨next, returned, _, exactly⟩
  cases returned
  have first := exactly 0 (by decide)
  exact absurd first (by decide)

end Os161.Vm

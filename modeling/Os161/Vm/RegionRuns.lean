import Os161.Vm.Regions

namespace Os161.Vm
open Word Outcome Transition

/-- A call of `as_define_region` that has returned 0, with the slot that it has filled -/
structure DefinedRegion where
  vaddr : Vaddr
  sz : Word32
  slot : Region

/-- The pages of the segment contain the region, and their end does not wrap around. -/
structure Segment.Covers (segment : Segment) (vaddr : Vaddr) (sz : Word32) : Prop where
  low : segment.vbase.toNat ≤ vaddr.toNat
  high : vaddr.toNat + sz.toNat ≤ segment.vbase.toNat + segment.npages.toNat * pageSize
  straight : segment.vbase.toNat + segment.npages.toNat * pageSize < 2 ^ 32

/-- An address space and the regions that have been defined in it -/
structure Regions where
  space : AddrSpace
  defined : List DefinedRegion

/-- The address, the size and the permissions that a call asks for -/
structure RegionCall where
  vaddr : Vaddr
  sz : Word32
  readable : Word32
  writeable : Word32
  executable : Word32

def RegionCall.run (call : RegionCall) (as : AddrSpace) (s : CoreState) : Kernel (Errno × AddrSpace × CoreState) :=
  asDefineRegion as call.vaddr call.sz call.readable call.writeable call.executable s

/-- A call that returns, whatever the frame allocator has done before it -/
inductive RegionStep (r : Regions) (call : RegionCall) : Regions → Prop where
  | defined {s core : CoreState} {next : AddrSpace}
      (returned : call.run r.space s = .ok (0, next, core)) :
      RegionStep r call
        ⟨next, ⟨call.vaddr, call.sz, if r.space.seg1.vbase = 0 then .first else .second⟩ :: r.defined⟩
  | refused {s core : CoreState} {next : AddrSpace} {code : Errno} (failed : code ≠ 0)
      (returned : call.run r.space s = .ok (code, next, core)) : RegionStep r call ⟨next, r.defined⟩

/-- The region is recorded: its slot covers it and has one invalid entry for each page. -/
def DefinedRegion.Recorded (d : DefinedRegion) (as : AddrSpace) : Prop :=
  ∃ segment, as.segment d.slot = some segment ∧ segment.Covers d.vaddr d.sz ∧ segment.Prepared

/-- Every region that has been defined is recorded, each in a slot of its own. -/
structure Regions.Sound (r : Regions) : Prop where
  apart : (r.defined.map DefinedRegion.slot).Nodup
  recorded : ∀ d ∈ r.defined, d.Recorded r.space

/-- The region lies above the first page and ends below the last one. -/
def RegionCall.Regular (call : RegionCall) : Prop :=
  4096 ≤ call.vaddr.toNat ∧ call.vaddr.toNat + call.sz.toNat ≤ 0xfffff000

def RegularStep (r : Regions) (call : RegionCall) (next : Regions) : Prop := RegionStep r call next ∧ call.Regular

/-- Every slot that has been given away has a base. -/
structure Regions.Inv (r : Regions) : Prop extends r.Sound where
  based : ∀ d ∈ r.defined, r.space.base d.slot ≠ 0

variable {r next : Regions} {call : RegionCall} {calls : List RegionCall}

theorem Segment.covers_iff {seg : Segment} (base : seg.vbase = pageMask vaddr)
    (pages : seg.npages = regionPages vaddr sz) :
    seg.Covers vaddr sz ↔ vaddr.toNat + sz.toNat ≤ 0xfffff000 := by
  have start : seg.vbase.toNat = vaddr.toNat / 4096 * 4096 := by rw [base, pageMask_toNat]
  constructor
  · rintro ⟨_, high, straight⟩
    simp only [pageSize] at high straight
    omega
  · intro bounded
    have count := @regionPages_toNat vaddr sz (by simp only [pageSize]; omega)
    rw [← pages] at count
    constructor
    all_goals
      simp only [start, count, pageSize]
      omega

theorem RegionCall.run_slot (ran : call.run as s = .ok (0, space, core)) :
    ∃ slot seg, slot = (if as.seg1.vbase = 0 then Region.first else .second) ∧ as.base slot = 0 ∧
      space.base slot = pageMask call.vaddr ∧ space.segment slot = some seg ∧ seg.Prepared ∧
      (seg.Covers call.vaddr call.sz ↔ call.vaddr.toNat + call.sz.toNat ≤ 0xfffff000) ∧
      ∀ other ≠ slot, space.segment other = as.segment other ∧ space.base other = as.base other := by
  obtain ⟨seg, prepared, base, pages, _, placed, _⟩ := asDefineRegion_ok ran
  have covers := Segment.covers_iff base pages
  rcases placed with ⟨unused, rfl⟩ | ⟨used, unused, rfl⟩
  · refine ⟨.first, seg, (if_pos unused).symm, unused, base, rfl, prepared, covers, ?_⟩
    rintro (_ | _ | _) apart
    · exact absurd rfl apart
    · exact ⟨rfl, rfl⟩
    · exact ⟨rfl, rfl⟩
  · refine ⟨.second, seg, (if_neg used).symm, unused, base, rfl, prepared, covers, ?_⟩
    rintro (_ | _ | _) apart
    · exact ⟨rfl, rfl⟩
    · exact absurd rfl apart
    · exact ⟨rfl, rfl⟩

theorem RegionCall.run_refused (failed : code ≠ 0) (ran : call.run as s = .ok (code, space, core)) :
    space = as := by
  unfold RegionCall.run asDefineRegion at ran
  split_ifs at ran
  · obtain ⟨_, _, same⟩ := bind_ok.mp ran
    cases same
    exact absurd rfl failed
  · obtain ⟨_, _, same⟩ := bind_ok.mp ran
    cases same
    exact absurd rfl failed
  · cases ran
    rfl

theorem Regions.Inv.step (inv : r.Inv) (moved : RegionStep r call next) (regular : call.Regular) : next.Inv := by
  cases moved with
  | defined ran =>
    obtain ⟨slot, seg, named, unused, base, found, prepared, covers, others⟩ := RegionCall.run_slot ran
    rw [← named]
    have fresh (d : DefinedRegion) (old : d ∈ r.defined) : d.slot ≠ slot := fun same =>
      inv.based d old (same ▸ unused)
    have above : pageMask call.vaddr ≠ 0 := by
      intro zero
      have same := congrArg BitVec.toNat zero
      rw [pageMask_toNat, show (0 : Word32).toNat = 0 from rfl] at same
      have := regular.1
      omega
    refine ⟨⟨List.nodup_cons.mpr ⟨?_, inv.apart⟩, ?_⟩, ?_⟩
    · intro mem
      obtain ⟨d, old, same⟩ := List.mem_map.mp mem
      exact fresh d old same
    · rintro d (_ | ⟨_, old⟩)
      · exact ⟨seg, found, covers.mpr regular.2, prepared⟩
      · obtain ⟨prev, there, rest⟩ := inv.recorded d old
        exact ⟨prev, (others _ (fresh d old)).1.trans there, rest⟩
    · rintro d (_ | ⟨_, old⟩)
      · exact fun zero => above (base.symm.trans zero)
      · exact fun zero => inv.based d old ((others _ (fresh d old)).2.symm.trans zero)
  | refused failed ran =>
    obtain rfl := RegionCall.run_refused failed ran
    exact inv

/-- Regular calls record their regions, and a further one below the last page. -/
theorem regions_recorded {as : AddrSpace} (reached : Run RegularStep ⟨as, []⟩ calls r) :
    r.Sound ∧ ∀ (call : RegionCall) s space core, call.run r.space s = .ok (0, space, core) →
        (DefinedRegion.Recorded ⟨call.vaddr, call.sz, if r.space.seg1.vbase = 0 then .first else .second⟩ space ↔
          call.vaddr.toNat + call.sz.toNat ≤ 0xfffff000) := by
  have start : Regions.Inv ⟨as, []⟩ := ⟨⟨List.nodup_nil, nofun⟩, nofun⟩
  have inv : r.Inv := reached.invariant (fun _ _ _ before moved => before.step moved.1 moved.2) start
  refine ⟨inv.toSound, fun call s space core returned => ?_⟩
  obtain ⟨slot, segment, named, _, _, found, prepared, covers, _⟩ := RegionCall.run_slot returned
  rw [← named, ← covers]
  constructor
  · rintro ⟨other, there, covered, _⟩
    cases found.symm.trans there
    exact covered
  · exact fun covered => ⟨segment, found, covered, prepared⟩

/-- A new address space -/
def emptySpace : AddrSpace :=
  ⟨⟨0, 0, 0, 0, 0, none⟩, ⟨0, 0, 0, 0, 0, none⟩, 0, some (PageTable.create stackPages)⟩

/-- A code and a data region of a small program -/
theorem regions_recorded_twoRegions : asCreate ⟨some emptySpace, true⟩ = .ok (some emptySpace) ∧
    ∃ r, Run RegularStep ⟨emptySpace, []⟩ [⟨0x400000, 0x1234, 4, 0, 1⟩, ⟨0x10000000, 0x10, 4, 2, 0⟩] r ∧
      r.Sound ∧ r.defined.length = 2 := by
  have first : RegularStep ⟨emptySpace, []⟩ ⟨0x400000, 0x1234, 4, 0, 1⟩ _ :=
    ⟨.defined (s := booted eightFrames fun _ => 0) rfl, by decide, by decide⟩
  have reached : Run RegularStep _ [_, ⟨0x10000000, 0x10, 4, 2, 0⟩] _ :=
    .cons first (.single ⟨.defined (s := booted eightFrames fun _ => 0) rfl, by decide, by decide⟩)
  exact ⟨rfl, _, reached, (regions_recorded reached).1, rfl⟩

/-- A region on the first page leaves its slot to the next call. -/
theorem region_overwritten : ∃ first second third core core' core'',
    asDefineRegion emptySpace 0x100 0x100 4 0 1 (booted eightFrames fun _ => 0) = .ok (0, first, core) ∧
    asDefineRegion first 0x400000 0x1000 4 2 0 core = .ok (0, second, core') ∧
    first.seg1.npages = 1 ∧ second.seg1.vbase = 0x400000 ∧ second.seg2.npages = 0 ∧
    asDefineRegion second 0xfffff000 0x1000 4 2 0 core' = .ok (0, third, core'') ∧
    third.locate 0xfffff000 = none :=
  ⟨_, _, _, _, _, _, rfl, rfl, rfl, rfl, rfl, rfl, rfl⟩

end Os161.Vm

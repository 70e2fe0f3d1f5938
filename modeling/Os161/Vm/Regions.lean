import Os161.Vm.ProgramImage

namespace Os161.Vm
open Word Outcome Transition BitVec

variable {npages : Word32} {s core : CoreState}

theorem allocKpages_ok (ran : allocKpages npages s = .ok (va, core)) :
    ∃ pa, getppages npages .kernel s = .ok (pa, core) ∧
      va = if pa = 0 then 0 else pa + 0x80000000#32 := by
  obtain ⟨⟨pa, after⟩, served, rest⟩ := bind_ok.mp ran
  dsimp only at rest
  split at rest
  · rename_i refused
    cases rest
    exact ⟨pa, served, (if_pos refused).symm⟩
  · rename_i granted
    obtain ⟨addr, rfl⟩ := Prod.mk.inj (Except.ok.inj rest)
    exact ⟨pa, served, addr.symm.trans (if_neg granted).symm⟩

theorem allocKpages_reachable (reachable : CoreConf.Reachable ram mem ⟨s, live⟩)
    (ran : allocKpages npages s = .ok (va, core)) : ∃ live, CoreConf.Reachable ram mem ⟨core, live⟩ := by
  obtain ⟨pa, served, _⟩ := allocKpages_ok ran
  exact ⟨_, reachable.step (.getppages served)⟩

/-- The table of a segment has a new entry for each page. Only an empty segment may lack a table. -/
def Segment.Prepared (segment : Segment) : Prop :=
  segment.pt = some (PageTable.create segment.npages.toNat) ∨
    (segment.pt = none ∧ segment.npages = 0)

variable {vaddr : Vaddr}

theorem Segment.define_ok {seg next : Segment} {flag : Word32}
    (ran : seg.define vaddr npages flag s = .ok (next, core)) :
    next.Prepared ∧ next.vbase = vaddr ∧ next.npages = npages ∧ next.flag = flag ∧
      ∃ pnum va, allocKpages pnum s = .ok (va, core) := by
  obtain ⟨⟨pt, after⟩, allocated, rest⟩ := bind_ok.mp ran
  dsimp only at rest
  split at rest
  · split at rest
    · rename_i empty
      cases rest
      exact ⟨.inr ⟨rfl, empty⟩, rfl, rfl, rfl, _, _, allocated⟩
    · cases rest
  · cases rest
    exact ⟨.inl rfl, rfl, rfl, rfl, _, _, allocated⟩

/-- The number of pages of a region as `as_define_region` computes it. -/
def regionPages (vaddr : Vaddr) (sz : Word32) : Word32 :=
  pageMask (sz + (vaddr &&& ~~~0xfffff000#32) + 4096#32 - 1#32) / 4096#32

variable {sz : Word32}

theorem regionPages_toNat (fits : vaddr.toNat % pageSize + sz.toNat ≤ 0xfffff000) :
    (regionPages vaddr sz).toNat = (vaddr.toNat % pageSize + sz.toNat + (pageSize - 1)) / pageSize := by
  have offset := pageOffset_toNat vaddr
  rw [regionPages, toNat_udiv, pageMask_toNat, toNat_sub, toNat_add,
    toNat_add]
  simp only [toNat_ofNat, Nat.reducePow, Nat.reduceMod, pageSize] at *
  omega

variable {as : AddrSpace}

theorem asDefineRegion_ok {next : AddrSpace} {readable writeable executable : Word32}
    (ran : asDefineRegion as vaddr sz readable writeable executable s = .ok (0, next, core)) :
    ∃ seg : Segment, seg.Prepared ∧ seg.vbase = pageMask vaddr ∧
      seg.npages = regionPages vaddr sz ∧ seg.flag = readable ||| writeable ||| executable ∧
      ((as.seg1.vbase = 0 ∧ next = { as with seg1 := seg }) ∨
        (as.seg1.vbase ≠ 0 ∧ as.seg2.vbase = 0 ∧ next = { as with seg2 := seg })) ∧
      ∃ pnum va, allocKpages pnum s = .ok (va, core) := by
  unfold asDefineRegion at ran
  split at ran
  · rename_i unused
    obtain ⟨⟨seg, after⟩, defined, same⟩ := bind_ok.mp ran
    cases same
    obtain ⟨prepared, base, pages, flag, allocated⟩ := Segment.define_ok defined
    exact ⟨seg, prepared, base, pages, flag, .inl ⟨unused, rfl⟩, allocated⟩
  · rename_i used
    split at ran
    · rename_i unused
      obtain ⟨⟨seg, after⟩, defined, same⟩ := bind_ok.mp ran
      cases same
      obtain ⟨prepared, base, pages, flag, allocated⟩ := Segment.define_ok defined
      exact ⟨seg, prepared, base, pages, flag, .inr ⟨used, unused, rfl⟩, allocated⟩
    · cases ran

/-- The tables of an address space whose pages have never been in memory. -/
structure AddrSpace.Prepared (as : AddrSpace) : Prop where
  first : as.seg1.Prepared
  second : as.seg2.Prepared
  stack : as.pt3 = some (PageTable.create stackPages)

theorem asCreate_ok (made : asCreate heap = .ok (some as)) :
    as.Prepared ∧ as.seg1.vbase = 0 ∧ as.seg2.vbase = 0 ∧ as.seg1.pt = none ∧ as.seg2.pt = none := by
  unfold asCreate at made
  split at made
  · cases made
  · split at made
    · cases made
      exact ⟨⟨.inr ⟨rfl, rfl⟩, .inr ⟨rfl, rfl⟩, rfl⟩, rfl, rfl, rfl, rfl⟩
    · cases made

theorem AddrSpace.Prepared.define (prepared : as.Prepared)
    (ran : asDefineRegion as vaddr sz readable writeable executable s = .ok (0, next, core)) :
    next.Prepared := by
  obtain ⟨seg, filled, _, _, _, ⟨_, rfl⟩ | ⟨_, _, rfl⟩, _⟩ := asDefineRegion_ok ran
  · exact ⟨filled, prepared.second, prepared.stack⟩
  · exact ⟨prepared.first, filled, prepared.stack⟩

theorem AddrSpace.Prepared.table (prepared : as.Prepared) {region : Region} {table : PageTable}
    (present : as.table region = some table) : table = PageTable.create table.length := by
  have filled {seg : Segment} (ready : seg.Prepared) (here : seg.pt = some table) :
      table = PageTable.create table.length := by
    obtain made | ⟨missing, _⟩ := ready
    · rw [here] at made
      cases made
      rfl
    · rw [here] at missing
      cases missing
  cases region with
  | first => exact filled prepared.first present
  | second => exact filled prepared.second present
  | stack =>
    have made := prepared.stack
    rw [show as.pt3 = some table from present] at made
    cases made
    rfl

theorem AddrSpace.Prepared.untouched (prepared : as.Prepared) : as.Untouched := by
  intro region vpn entry found
  obtain ⟨table, present, _, rfl⟩ := pteAt_ok.mp found
  rw [prepared.table present]
  rfl

theorem AddrSpace.Prepared.complete (prepared : as.Prepared) : as.Complete where
  entries := by
    intro page region vpn spot
    have filled {seg : Segment} (ready : seg.Prepared) (inside : seg.Contains page) :
        ∃ table, seg.pt = some table ∧
          ((page - seg.vbase) / 4096#32).toNat < table.length := by
      have small := inside.vpn_lt
      obtain made | ⟨_, empty⟩ := ready
      · exact ⟨_, made, small⟩
      · rw [empty] at small
        exact absurd small (Nat.not_lt_zero _)
    unfold locate at spot
    split at spot
    · rename_i inside
      cases spot
      obtain ⟨table, present, small⟩ := filled prepared.first inside
      exact ⟨_, pteAt_ok.mpr ⟨table, present, small, rfl⟩⟩
    · split at spot
      · rename_i inside
        cases spot
        obtain ⟨table, present, small⟩ := filled prepared.second inside
        exact ⟨_, pteAt_ok.mpr ⟨table, present, small, rfl⟩⟩
      · split at spot
        · rename_i inside
          cases spot
          refine ⟨_, pteAt_ok.mpr ⟨_, prepared.stack, ?_, rfl⟩⟩
          obtain ⟨above, below⟩ := inside
          rw [toNat_udiv, toNat_sub_of_le above]
          change (page.toNat - 0x7fff4000) / 4096 < 12
          change page.toNat < 0x80000000 at below
          omega
        · cases spot
  resident := by
    intro region vpn entry found
    rw [prepared.untouched region vpn entry found]
    rfl

end Os161.Vm

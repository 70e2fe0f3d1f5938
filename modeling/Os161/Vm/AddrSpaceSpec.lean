import Os161.Vm.AddrSpace

namespace Os161.Vm
open Word Function BitVec

variable {as : AddrSpace} {region : Region} {vpn : Nat} {entry : Pte}

theorem AddrSpace.pteAt_ok :
    as.pteAt region vpn = .ok entry ↔
      ∃ table, as.table region = some table ∧ vpn < table.length ∧ table.entry vpn = entry := by
  unfold pteAt
  split
  · rename_i missing
    simp [missing]
  · rename_i table present
    split
    · rename_i inside
      simp [present, inside]
    · rename_i out
      simp [present, out]

theorem AddrSpace.table_setTable (as : AddrSpace) (table : Option PageTable)
    (region other : Region) :
    (as.setTable table region).table other = if other = region then table else as.table other := by
  cases region <;> cases other <;> rfl

/-- The address space without its page tables. -/
def AddrSpace.layout (as : AddrSpace) : Segment × Segment × Vnode :=
  ({ as.seg1 with pt := none }, { as.seg2 with pt := none }, as.vn)

@[simp] theorem AddrSpace.layout_modifyPte (as : AddrSpace) (region : Region) (vpn : Nat)
    (change : Pte → Pte) : (as.modifyPte region vpn change).layout = as.layout := by
  cases region <;> rfl

@[simp] theorem AddrSpace.layout_mapPage (as : AddrSpace) (region : Region) (vpn : Nat)
    (paddr : Paddr) : (as.mapPage region vpn paddr).layout = as.layout :=
  as.layout_modifyPte region vpn _

variable {other : AddrSpace}

theorem AddrSpace.eq_of_layout (same : as.layout = other.layout) :
    other =
      { as with
        seg1 := { as.seg1 with pt := other.seg1.pt }
        seg2 := { as.seg2 with pt := other.seg2.pt }
        pt3 := other.pt3 } := by
  obtain ⟨seg1, seg2, vn, pt3⟩ := as
  obtain ⟨seg1', seg2', vn', pt3'⟩ := other
  cases seg1; cases seg2; cases seg1'; cases seg2'
  cases same
  rfl

theorem AddrSpace.locate_layout (same : as.layout = other.layout) (page : Vaddr) :
    as.locate page = other.locate page := by
  rw [eq_of_layout same]
  rfl

theorem AddrSpace.flag_layout (same : as.layout = other.layout) (region : Region) :
    as.flag region = other.flag region := by
  rw [eq_of_layout same]
  cases region <;> rfl

theorem AddrSpace.pteAt_modifyPte (found : as.pteAt region vpn = .ok entry) (change : Pte → Pte) :
    (as.modifyPte region vpn change).pteAt region vpn = .ok (change entry) := by
  obtain ⟨table, present, inside, rfl⟩ := pteAt_ok.mp found
  have changed : (as.modifyPte region vpn change).table region = some
      { table with entry := update table.entry vpn (change (table.entry vpn)) } := by
    rw [modifyPte, table_setTable, if_pos rfl, present, Option.map_some]
  exact pteAt_ok.mpr ⟨_, changed, inside, update_self vpn _ table.entry⟩

theorem AddrSpace.pteAt_modifyPte_of_ne (as : AddrSpace) {other : Region} {place : Nat}
    (change : Pte → Pte) (differ : (other, place) ≠ (region, vpn)) :
    (as.modifyPte region vpn change).pteAt other place = as.pteAt other place := by
  by_cases same : other = region
  · have apart : place ≠ vpn := fun equal => differ (by rw [same, equal])
    subst other
    unfold pteAt
    rw [modifyPte, table_setTable, if_pos rfl]
    cases as.table region with
    | none => rfl
    | some table =>
      simp only [Option.map_some]
      rw [update_of_ne apart]
  · unfold pteAt
    rw [modifyPte, table_setTable, if_neg same]

theorem AddrSpace.pteAt_mapPage (found : as.pteAt region vpn = .ok entry) (paddr : Paddr) :
    (as.mapPage region vpn paddr).pteAt region vpn =
      .ok { entry with pfn := paddr, valid := true, dirty := as.flag region &&& 2 ≠ 0 } :=
  pteAt_modifyPte found _

theorem AddrSpace.mapPage_ne (found : as.pteAt region vpn = .ok entry)
    (bad : entry.valid = false) (paddr : Paddr) : as.mapPage region vpn paddr ≠ as := by
  intro same
  have mapped := pteAt_mapPage found paddr
  rw [same, found, Except.ok.injEq] at mapped
  rw [mapped] at bad
  cases bad

/-- No page of the address space has been in memory. -/
def AddrSpace.Untouched (as : AddrSpace) : Prop :=
  ∀ region vpn entry, as.pteAt region vpn = .ok entry → entry = pteCreate 0 false false

/-- The lowest address of a region. -/
def AddrSpace.base (as : AddrSpace) : Region → Vaddr
  | .first => as.seg1.vbase
  | .second => as.seg2.vbase
  | .stack => stackBase

variable {page : Vaddr}

theorem vpn_toNat (baseAligned : Aligned base) (aligned : Aligned page) (above : base ≤ page) :
    page.toNat = base.toNat + ((page - base) / 4096#32).toNat * pageSize := by
  rw [toNat_udiv, toNat_sub_of_le above]
  rw [le_def] at above
  change page.toNat = base.toNat + (page.toNat - base.toNat) / 4096 * 4096
  simp only [Aligned] at *
  omega

theorem AddrSpace.locate_toNat (aligned1 : Aligned as.seg1.vbase) (aligned2 : Aligned as.seg2.vbase)
    (aligned : Aligned page) (spot : as.locate page = some (region, vpn)) :
    page.toNat = (as.base region).toNat + vpn * pageSize := by
  unfold locate at spot
  split at spot
  · rename_i inside
    cases spot
    exact vpn_toNat aligned1 aligned inside.1
  · split at spot
    · rename_i inside
      cases spot
      exact vpn_toNat aligned2 aligned inside.1
    · split at spot
      · rename_i inside
        cases spot
        exact vpn_toNat (show Aligned stackBase by decide) aligned inside.1
      · cases spot

theorem Segment.Contains.vpn_lt {seg : Segment} (inside : seg.Contains page) :
    ((page - seg.vbase) / 4096#32).toNat < seg.npages.toNat := by
  obtain ⟨above, below⟩ := inside
  rw [toNat_udiv, toNat_sub_of_le above]
  rw [lt_def, toNat_add, toNat_mul] at below
  rw [le_def] at above
  simp only [toNat_ofNat, Nat.reducePow, Nat.reduceMod] at below ⊢
  omega

end Os161.Vm

import Os161.Vm.Regions

namespace Os161.Vm
open Word Outcome Transition Function AddrSpace

/-- A process reads a page after the switch to its address space: the frame of a page in memory,
and otherwise the frame that a read fault fills. -/
inductive Shows (files : Files) (as : AddrSpace) (m : Machine) (page : Vaddr)
    (contents : Nat → Byte) (writable : Bool) : Prop where
  | present {region : Region} {vpn : Nat} {entry : Pte}
      (located : as.locate (pageMask page) = some (region, vpn))
      (found : as.pteAt region vpn = .ok entry) (valid : entry.valid = true)
      (permission : writable = entry.dirty)
      (bytes : ∀ j < pageSize, contents j = m.core.mem (entry.pfn.toNat + j))
  | faulted {region : Region} {vpn : Nat} {old entry : Pte} {space : AddrSpace} {next : Machine}
      (located : as.locate (pageMask page) = some (region, vpn))
      (found : as.pteAt region vpn = .ok old) (invalid : old.valid = false)
      (returned : vmFault files .read page (some as) (asActivate (some as) m) =
        .ok (0, some space, next))
      (loaded : space.pteAt region vpn = .ok entry) (permission : writable = entry.dirty)
      (bytes : ∀ j < pageSize, contents j = next.core.mem (entry.pfn.toNat + j))

/-- Nothing that a process does changes what the other address space shows. -/
def Unseen (one other : AddrSpace) (m : Machine) : Prop :=
  ∀ ops s, Run UserStep ⟨one, asActivate (some one) m⟩ ops s →
    ∀ files page before after writable changed, Shows files other m page before writable →
      Shows files other s.machine page after changed → ∀ j < pageSize, after j = before j

/-- The copy shows every page of the original with the same bytes and permissions, and neither
process sees what the other one does. -/
structure ExactCopy (m : Machine) (old new : AddrSpace) : Prop where
  pages : ∀ files page contents writable, Shows files old m page contents writable →
    Shows files new m page contents writable
  original : Unseen new old m
  copy : Unseen old new m

variable {heap : HeapReply} {new : AddrSpace}

theorem asCopy_ok (copied : asCopy heap old = .ok (0, some new)) :
    (∀ page, new.locate page = old.locate page) ∧ (new.Usable → old.Usable) ∧ new.Untouched ∧
      ∀ region, region ≠ .stack → new.table region = none := by
  obtain ⟨reply, made, went⟩ := bind_ok.mp copied
  cases reply with
  | none => cases went
  | some block =>
    cases went
    obtain ⟨prepared, _, _, missing1, missing2⟩ := asCreate_ok made
    refine ⟨fun page => rfl, fun usable => ?_, ?_, ?_⟩
    · exact ⟨usable.base1, usable.size1, usable.base2, usable.size2, usable.aligned1,
        usable.aligned2⟩
    · intro region vpn entry found
      obtain ⟨table, present, inside, here⟩ := pteAt_ok.mp found
      apply prepared.untouched region vpn entry
      refine pteAt_ok.mpr ⟨table, ?_, inside, here⟩
      cases region with
      | first | second | stack => exact present
    · intro region program
      cases region with
      | first => exact missing1
      | second => exact missing2
      | stack => exact absurd rfl program

variable {files : Files} {m : Machine} {page : Vaddr}

theorem Shows.of_untouched {contents : Nat → Byte} (shown : Shows files as m page contents writable)
    (untouched : as.Untouched) :
    as.Usable ∧ ∃ region vpn entry paddr core next,
      as.locate (pageMask page) = some (region, vpn) ∧ as.pteAt region vpn = .ok entry ∧
      getppages 1 .user m.core = .ok (paddr, core) ∧ paddr ≠ 0 ∧
      fillTlb files region vpn (pageMask page) paddr true (as.mapPage region vpn paddr)
        { asActivate (some as) m with core := core } = .ok (0, next) ∧
      ∀ j < pageSize, contents j = next.core.mem (paddr.toNat + j) := by
  cases shown with
  | @present region vpn entry spot found valid permission bytes =>
    rw [untouched region vpn entry found] at valid
    cases valid
  | @faulted region vpn old entry space next spot found bad ran loaded permission bytes =>
    obtain ⟨_, failed, _⟩ | ⟨_, _, same, usable, outcome⟩ := vmFault_outcome ran
    · cases failed
    cases same
    obtain ⟨failed, _⟩ | ⟨paddr, core, served, nonzero, rfl, filled⟩ :=
      outcome.of_invalid spot found bad
    · cases failed
    rw [asActivate_core] at served
    rw [pteAt_mapPage found paddr, Except.ok.injEq] at loaded
    refine ⟨usable, region, vpn, old, paddr, core, next, spot, found, served, nonzero, filled, ?_⟩
    rw [← loaded] at bytes
    exact bytes

theorem probe_empty {tlb : Nat → TlbEntry} (empty : ∀ slot < numTlb, ¬ (tlb slot).Valid)
    (page : Vaddr) : probe tlb page numTlb 0 = .free 0 := by
  rw [probe, if_neg (empty 0 (by decide))]

theorem asActivate_empty (as : AddrSpace) (m : Machine) :
    ∀ slot < numTlb, ¬ ((asActivate (some as) m).tlb slot).Valid := by
  intro slot inside
  rw [asActivate_tlb as m inside]
  exact invalid_slot slot

theorem asCopy_shows (copied : asCopy heap old = .ok (0, some new)) {contents : Nat → Byte}
    (shown : Shows files new m page contents writable) :
    (∃ vpn, old.locate (pageMask page) = some (.stack, vpn)) ∧ ∀ j < pageSize, contents j = 0 := by
  obtain ⟨bounds, _, untouched, missing⟩ := asCopy_ok copied
  obtain ⟨_, region, vpn, entry, paddr, core, next, spot, found, _, _, filled, bytes⟩ :=
    shown.of_untouched untouched
  obtain ⟨table, present, _⟩ := pteAt_ok.mp found
  have stack : region = .stack := by
    by_contra program
    rw [missing region program] at present
    cases present
  subst stack
  refine ⟨⟨vpn, (bounds _).symm.trans spot⟩, ?_⟩
  intro j small
  have slot := probe_empty (asActivate_empty new m) (pageMask page)
  rw [bytes j small, fillTlb_core filled]
  dsimp only
  rw [if_pos ⟨rfl, by rw [slot]; decide⟩]
  have len : (regionLoad files (new.mapPage .stack vpn paddr) .stack vpn (pageMask page)).data =
    List.replicate pageSize 0 := rfl
  rw [len, Bytes.store_inside _ _ (by rw [List.length_replicate]; exact small),
    List.getElem_replicate]

variable {ram : RamSize}

theorem CoreState.WellFormed.refused {s : CoreState} (formed : s.WellFormed ram)
    (refused : getppages 1 .user s = .ok (0, core)) : core.WellFormed ram ∧ ¬ core.FrameAvailable := by
  obtain ⟨start, run, lowest, served⟩ | ⟨_, failed⟩ :=
    getppages_cases formed (show (1 : Word32) ≠ 0 by decide) .user
  · rw [served, Except.ok.injEq, Prod.mk.injEq] at refused
    obtain ⟨blocked, rfl⟩ := refused
    have claimed := formed.claim Nat.one_pos run .user
    refine ⟨claimed, ?_⟩
    rintro ⟨other, free, _, below⟩
    have prior : s.FreeRun other 1 := by
      refine ⟨free.1, ?_⟩
      intro offset small
      by_contra used
      exact s.claim_used Nat.one_pos .user used (free.2 offset small)
    have order := lowest other prior
    have guard := mt (claimed.guard_iff free.1).mpr (BitVec.not_le.mpr below)
    have room := mt (formed.granted_iff run.1).mpr (not_not.mpr blocked)
    omega
  · rw [failed] at refused
    cases refused

/-- A process of which no page can be in memory: every fault fails and nothing is translated. -/
structure UserState.Dormant (ram : RamSize) (start : AddrSpace) (s : UserState) : Prop where
  space : s.space = start
  formed : s.machine.core.WellFormed ram
  closed : ¬ (start.Usable ∧ s.machine.core.FrameAvailable)
  empty : ∀ slot < numTlb, ¬ (s.machine.tlb slot).Valid

variable {s : UserState}

theorem UserStep.dormant {start : AddrSpace} (untouched : start.Untouched) (step : UserStep s op t)
    (dormant : s.Dormant ram start) : t.Dormant ram start := by
  obtain ⟨rfl, formed, closed, empty⟩ := dormant
  have bad {region : Region} {vpn : Nat} {entry : Pte}
      (found : s.space.pteAt region vpn = .ok entry) : entry.valid ≠ true := by
    rw [untouched region vpn entry found]
    decide
  cases step with
  | store user translated writable => exact absurd translated.valid (empty _ translated.inside)
  | @fault files kind faultaddress code space next ran =>
    obtain ⟨_, _, same, rfl⟩ | ⟨_, _, same, usable, outcome⟩ := vmFault_outcome ran
    · cases same
      exact ⟨rfl, formed, closed, empty⟩
    · cases same
      cases outcome with
      | unmapped nowhere => exact ⟨rfl, formed, closed, empty⟩
      | readOnly spot found valid program clean write => exact absurd valid (bad found)
      | noMemory spot found gone resident refused =>
        obtain ⟨kept, unavailable⟩ := formed.refused refused
        exact ⟨rfl, kept, fun both => unavailable both.2, empty⟩
      | present spot found valid allowed nonzero aligned filled =>
        exact absurd valid (bad found)
      | fresh spot found gone resident served nonzero aligned filled =>
        have available := (formed.frameAvailable_iff .user).mpr ⟨_, _, served, nonzero⟩
        exact absurd ⟨usable, available⟩ closed
  | activate =>
    refine ⟨rfl, ?_, ?_, asActivate_empty s.space s.machine⟩
    · rw [asActivate_core]
      exact formed
    · rw [asActivate_core]
      exact closed

theorem UserState.Dormant.exactCopy (dormant : s.Dormant ram start) (untouched : start.Untouched)
    (copied : asCopy heap s.space = .ok (0, some new)) : ExactCopy s.machine s.space new := by
  obtain ⟨rfl, formed, closed, _⟩ := dormant
  obtain ⟨_, usable, fresh, _⟩ := asCopy_ok copied
  have hidden {as : AddrSpace} (blank : as.Untouched) (bounds : as.Usable → s.space.Usable)
      {files : Files} {page : Vaddr} {contents : Nat → Byte} {writable : Bool} :
      ¬ Shows files as s.machine page contents writable := by
    intro shown
    obtain ⟨passed, _, _, _, paddr, core, _, _, _, served, nonzero, _⟩ := shown.of_untouched blank
    exact closed ⟨bounds passed, (formed.frameAvailable_iff .user).mpr ⟨paddr, core, served, nonzero⟩⟩
  refine ⟨?_, ?_, ?_⟩
  · intro files page contents writable shown
    exact absurd shown (hidden untouched id)
  · intro ops t run files page prev after writable changed shown
    exact absurd shown (hidden untouched id)
  · intro ops t run files page prev after writable changed shown
    exact absurd shown (hidden fresh usable)

theorem regionLoad_zeroFiles (as : AddrSpace) (region : Region) (vpn : Nat) (page : Vaddr) :
    (regionLoad zeroFiles as region vpn page).code = 0 := by
  have filed (offset : Int) (len : Nat) : (fileLoad zeroFiles as.vn offset len).code = 0 := by
    simp [fileLoad, zeroFiles]
  have paged (seg : Segment) : (segmentLoad zeroFiles as.vn seg vpn page).code = 0 := by
    simp only [segmentLoad]
    split
    · exact filed _ _
    · split
      · exact filed _ _
      · rfl
  cases region with
  | first => exact paged as.seg1
  | second => exact paged as.seg2
  | stack => rfl

theorem AddrSpace.locate_stackBase (as : AddrSpace) :
    ∃ region vpn, as.locate (pageMask stackBase) = some (region, vpn) := by
  have base : pageMask stackBase = stackBase := by decide
  unfold locate
  split
  · exact ⟨_, _, rfl⟩
  · split
    · exact ⟨_, _, rfl⟩
    · exact ⟨_, _, rfl⟩

theorem finalElo_stack (as : AddrSpace) (paddr : Paddr) :
    finalElo as .stack paddr = paddr ||| tlbloDirty ||| tlbloValid :=
  if_neg (show ¬ (pfR ||| pfW) &&& 2 = 0 by decide)

theorem finalElo_stack_dirty (page : Vaddr) (as : AddrSpace) (paddr : Paddr) :
    ({ ehi := page, elo := finalElo as .stack paddr } : TlbEntry).Dirty := by
  have kept : (paddr ||| tlbloDirty ||| tlbloValid) &&& tlbloDirty = tlbloDirty := by
    ext index small
    simp only [BitVec.getElem_and, BitVec.getElem_or]
    cases paddr[index] <;> cases tlbloDirty[index] <;> cases tlbloValid[index] <;> rfl
  rw [TlbEntry.Dirty, finalElo_stack, kept]
  decide

theorem stack_translated (filled : fillTlb files .stack vpn (pageMask page) paddr true as m = .ok (0, next))
    (empty : ∀ slot < numTlb, ¬ (m.tlb slot).Valid) (aligned : Aligned paddr) :
    next.Translates 0 page (paddr.toNat + page.toNat % pageSize) ∧ (next.tlb 0).Dirty := by
  obtain ⟨code, last, again, found⟩ := fillTlb_cases files .stack vpn (pageMask page) paddr true as m
  rw [filled] at again
  cases again
  have free := probe_empty empty (pageMask page)
  obtain ⟨hit, _⟩ | ⟨slot, victim, chosen, inserted⟩ := found
  · rw [free] at hit
    cases hit
  · have first : slot = 0 := by
      cases chosen with
      | free found =>
        rw [free] at found
        cases found
        rfl
      | full found =>
        rw [free] at found
        cases found
    subst first
    have entry : next.tlb 0 = { ehi := pageMask page, elo := finalElo as .stack paddr } := by
      rw [inserted.tlb, update_self, if_pos rfl]
    have frame : pageMask (finalElo as .stack paddr) = paddr := by
      rw [finalElo_stack]
      exact (pageMask_flags aligned).2
    refine ⟨⟨by decide, ?_, ?_, ?_⟩, ?_⟩
    · rw [entry]
      exact finalElo_valid _ as .stack paddr
    · rw [entry]
    · rw [entry, frame]
    · rw [entry]
      exact finalElo_stack_dirty _ as paddr

theorem UserState.Fresh.copy_differs (fresh : s.Fresh ram mem) (prepared : s.space.Prepared)
    (usable : s.space.Usable) (available : s.machine.core.FrameAvailable) :
    ∃ ops t heap new contents writable, Run UserStep s ops t ∧
      asCopy heap t.space = .ok (0, some new) ∧
      Shows zeroFiles t.space t.machine stackBase contents writable ∧
      ¬ Shows zeroFiles new t.machine stackBase contents writable := by
  obtain ⟨region, vpn, spot⟩ := s.space.locate_stackBase
  obtain ⟨entry, found⟩ := prepared.complete.entries _ _ _ spot
  have blank := fresh.untouched _ _ _ found
  obtain ⟨paddr, core, next, nonzero, aligned, filled, ran⟩ := fresh.inv.page_in usable available
    spot found (by rw [blank]; rfl) (by rw [blank]; rfl) (regionLoad_zeroFiles _ _ _ _)
  have mapped := pteAt_mapPage found paddr
  have place : (s.space.mapPage region vpn paddr).locate (pageMask stackBase) = some (region, vpn) :=
    (locate_layout (s.space.layout_mapPage region vpn paddr) _).trans spot
  have copied : asCopy ⟨some s.space, true⟩ (s.space.mapPage region vpn paddr) = .ok (0, some _) := rfl
  by_cases stack : region = .stack
  · subst stack
    obtain ⟨translates, writable⟩ := stack_translated filled fresh.empty aligned
    refine ⟨[.fault .read stackBase, .store stackBase 7], _, _, _, _, _,
      .cons (.fault ran) (.single (.store (by decide) translates writable)), copied,
      .present place mapped rfl rfl (fun j _ => rfl), ?_⟩
    intro shown
    have zero : update next.core.mem (paddr.toNat + stackBase.toNat % pageSize) (7 : Byte)
        (paddr.toNat + 0) = 0 := (asCopy_shows copied shown).2 0 (by decide)
    rw [show stackBase.toNat % pageSize = 0 from rfl, update_self] at zero
    exact absurd zero (by decide)
  · refine ⟨[.fault .read stackBase], _, _, _, _, _, .single (.fault ran), copied,
      .present place mapped rfl rfl (fun j _ => rfl), ?_⟩
    intro shown
    obtain ⟨⟨other, there⟩, _⟩ := asCopy_shows copied shown
    rw [place] at there
    cases there
    exact stack rfl

theorem UserState.Fresh.copies_exact_iff (fresh : s.Fresh ram mem) (prepared : s.space.Prepared) :
    (∀ ops t heap new, Run UserStep s ops t → asCopy heap t.space = .ok (0, some new) →
      ExactCopy t.machine t.space new) ↔
    ¬ (s.space.Usable ∧ s.machine.core.FrameAvailable) := by
  constructor
  · rintro exact ⟨usable, available⟩
    obtain ⟨ops, t, heap, new, contents, writable, run, copied, shown, hidden⟩ :=
      fresh.copy_differs prepared usable available
    exact hidden ((exact ops t heap new run copied).pages _ _ _ _ shown)
  · intro closed ops t heap new run copied
    obtain ⟨live, allocator⟩ := fresh.allocator
    have dormant : s.Dormant ram s.space := ⟨rfl, allocator.inv.formed, closed, fresh.empty⟩
    have still := run.invariant
      (fun _ _ _ prev step => UserStep.dormant fresh.untouched step prev) dormant
    exact still.exactCopy fresh.untouched copied

end Os161.Vm

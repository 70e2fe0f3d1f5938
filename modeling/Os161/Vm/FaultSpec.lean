import Os161.Vm.Fault

namespace Os161.Vm
open Word Outcome Machine

/-- The address space passes the assertions of `vm_fault`. -/
structure AddrSpace.Usable (as : AddrSpace) : Prop where
  base1 : as.seg1.vbase ≠ 0
  size1 : as.seg1.npages ≠ 0
  base2 : as.seg2.vbase ≠ 0
  size2 : as.seg2.npages ≠ 0
  aligned1 : Aligned as.seg1.vbase
  aligned2 : Aligned as.seg2.vbase

theorem AddrSpace.check_ok (as : AddrSpace) : as.check = .ok () ↔ as.Usable := by
  simp only [check, kassert_bind, kassert_ok, pageMask_eq_self_iff]
  constructor
  · rintro ⟨base1, size1, base2, size2, aligned1, aligned2⟩
    exact ⟨base1, size1, base2, size2, aligned1, aligned2⟩
  · intro usable
    exact ⟨usable.base1, usable.size1, usable.base2, usable.size2, usable.aligned1, usable.aligned2⟩

/-- The result of a load, the bytes that it puts into the frame and the counter it increments. -/
structure PageLoad where
  code : Errno
  data : List Byte
  counter : Nat

/-- The load of some bytes of the file. -/
def fileLoad (files : Files) (vn : Vnode) (offset : Int) (length : Nat) : PageLoad :=
  let reply := files.read vn offset length
  let moved := reply.data.take length
  { code := if reply.result ≠ 0 then reply.result else if moved.length = length then 0 else eNoExec
    data := moved
    counter := 7 }

/-- The load of a page of zeros. -/
def zeroLoad : PageLoad := { code := 0, data := List.replicate pageSize 0, counter := 5 }

/-- The load of one page of a program segment. -/
def segmentLoad (files : Files) (vn : Vnode) (segment : Segment) (vpn : Nat) (page : Vaddr) :
    PageLoad :=
  let off : Int := page.toNat - segment.vbase.toNat + segment.offset
  if vpn < segment.filesz.toNat / pageSize then fileLoad files vn off pageSize
  else if segment.filesz.toNat / pageSize = vpn ∧ segment.filesz.toNat % pageSize ≠ 0 then
    fileLoad files vn off (segment.filesz.toNat % pageSize)
  else zeroLoad

/-- The load of one page of a region. -/
def regionLoad (files : Files) (as : AddrSpace) (region : Region) (vpn : Nat) (page : Vaddr) :
    PageLoad :=
  match region with
  | .first => segmentLoad files as.vn as.seg1 vpn page
  | .second => segmentLoad files as.vn as.seg2 vpn page
  | .stack => zeroLoad

/-- The page has bytes in the program file. -/
def AddrSpace.InFile (as : AddrSpace) (vpn : Nat) : Region → Prop
  | .first => vpn * pageSize < as.seg1.filesz.toNat
  | .second => vpn * pageSize < as.seg2.filesz.toNat
  | .stack => False

instance (as : AddrSpace) (vpn : Nat) (region : Region) : Decidable (as.InFile vpn region) :=
  match region with
  | .first => Nat.decLt _ _
  | .second => Nat.decLt _ _
  | .stack => instDecidableFalse

/-- The machine after a load into the frame. -/
def Machine.loaded (m : Machine) (load : PageLoad) (paddr : Paddr) : Machine :=
  (m.vmstatsInc load.counter).setMem (Bytes.store paddr.toNat load.data m.core.mem)

theorem bzeroPage_store (pa : Paddr) (mem : Nat → Byte) :
    bzeroPage pa mem = Bytes.store pa.toNat (List.replicate pageSize 0) mem := by
  funext addr
  unfold bzeroPage
  split
  · have place : addr = pa.toNat + (addr - pa.toNat) := by omega
    rw [place, Bytes.store_inside _ _ (by rw [List.length_replicate]; omega), List.getElem_replicate]
  · rw [Bytes.store_outside _ (by rw [List.length_replicate]; omega)]

theorem loadSegment_eq (files : Files) (vn : Vnode) (offset : Int) (paddr : Paddr)
    (fits : len ≤ pageSize) (m : Machine) :
    loadSegment files vn offset paddr pageSize len (m.vmstatsInc 7) =
      .ok ((fileLoad files vn offset len).code,
        m.loaded (fileLoad files vn offset len) paddr) := by
  have clamp : (if pageSize < len then pageSize else len) = len := if_neg (by omega)
  have moved : ((files.read vn offset len).data.take len).length ≤ len := by
    rw [List.length_take]
    omega
  simp only [loadSegment, clamp, vopRead, kassert, if_true, ok_bind, pure_ok, fileLoad]
  by_cases failed : (files.read vn offset len).result = 0
  · by_cases whole : ((files.read vn offset len).data.take len).length = len
    · simp only [failed, whole, ne_eq, if_true, Nat.sub_self]
      rfl
    · have short : len - ((files.read vn offset len).data.take len).length ≠ 0 := by omega
      simp only [failed, whole, ne_eq, short]
      rfl
  · simp only [failed, ne_eq]
    rfl

theorem loadRegion_eq (files : Files) (region : Region) (vpn : Nat) (page : Vaddr) (paddr : Paddr)
    (as : AddrSpace) (m : Machine) :
    loadRegion files region vpn page paddr as m =
      .ok ((regionLoad files as region vpn page).code,
        m.loaded (regionLoad files as region vpn page) paddr) := by
  have zeroed : (.ok (0, (m.vmstatsInc 5).setMem (bzeroPage paddr m.core.mem)) :
      Kernel (Errno × Machine)) = .ok (zeroLoad.code, m.loaded zeroLoad paddr) := by
    rw [bzeroPage_store]
    rfl
  have paged (seg : Segment) : loadPage files as.vn seg vpn page paddr m =
      .ok ((segmentLoad files as.vn seg vpn page).code,
        m.loaded (segmentLoad files as.vn seg vpn page) paddr) := by
    simp only [loadPage, segmentLoad]
    split
    · exact loadSegment_eq files as.vn _ paddr (Nat.le_refl _) m
    · split
      · exact loadSegment_eq files as.vn _ paddr (Nat.le_of_lt (Nat.mod_lt _ (by decide))) m
      · exact zeroed
  cases region with
  | first => exact paged as.seg1
  | second => exact paged as.seg2
  | stack => exact zeroed

theorem regionLoad_length (files : Files) (as : AddrSpace) (region : Region) (vpn : Nat)
    (page : Vaddr) : (regionLoad files as region vpn page).data.length ≤ pageSize := by
  have filed (offset : Int) {len : Nat} (fits : len ≤ pageSize) :
      (fileLoad files as.vn offset len).data.length ≤ pageSize := by
    simp only [fileLoad, List.length_take]
    omega
  have paged (seg : Segment) :
      (segmentLoad files as.vn seg vpn page).data.length ≤ pageSize := by
    simp only [segmentLoad]
    split
    · exact filed _ (Nat.le_refl _)
    · split
      · exact filed _ (Nat.le_of_lt (Nat.mod_lt _ (by decide)))
      · simp [zeroLoad]
  cases region with
  | first => exact paged as.seg1
  | second => exact paged as.seg2
  | stack => simp [regionLoad, zeroLoad]

/-- The low word of the final entry has the permissions of the region. -/
def finalElo (as : AddrSpace) (region : Region) (paddr : Paddr) : Word32 :=
  if as.flag region &&& 2 = 0 then paddr ||| tlbloValid else paddr ||| tlbloDirty ||| tlbloValid

/-- The effect of an insertion: one slot, the frame of the page when it is loaded, and the level
when the load succeeds. -/
structure Inserted (files : Files) (region : Region) (vpn : Nat) (page : Vaddr) (paddr : Paddr)
    (load : Bool) (slot : Nat) (spl : Ipl) (as : AddrSpace) (m : Machine) (code : Errno)
    (next : Machine) : Prop where
  result : code = if load then (regionLoad files as region vpn page).code else 0
  tlb : next.tlb = Function.update m.tlb slot
    { ehi := page
      elo := if code = 0 then finalElo as region paddr else paddr ||| tlbloDirty ||| tlbloValid }
  core : next.core = { m.core with
    mem := if load then Bytes.store paddr.toNat (regionLoad files as region vpn page).data m.core.mem
      else m.core.mem }
  victim : next.nextVictim = m.nextVictim
  level : next.curspl = if code = 0 then spl else m.curspl

theorem install_inserted (files : Files) (region : Region) (vpn : Nat) (page : Vaddr)
    (paddr : Paddr) (load : Bool) (slot : Nat) (spl : Ipl) (as : AddrSpace) (m : Machine) :
    ∃ code next, install files region vpn page paddr load slot spl as m = .ok (code, next) ∧
      Inserted files region vpn page paddr load slot spl as m code next := by
  cases load with
  | false => exact ⟨0, _, rfl, rfl, rfl, rfl, rfl, rfl⟩
  | true =>
    by_cases failed : (regionLoad files as region vpn page).code = 0
    · refine ⟨0, ((((m.tlbWrite page (paddr ||| tlbloDirty ||| tlbloValid) slot).loaded
        (regionLoad files as region vpn page) paddr).tlbWrite page (finalElo as region paddr)
          slot).splx spl), ?_, ?_, ?_, rfl, rfl, rfl⟩
      · simp only [install, loadRegion_eq, failed]
        rfl
      · simp [failed]
      · simp [splx, tlbWrite, loaded, setMem, vmstatsInc]
    · refine ⟨(regionLoad files as region vpn page).code,
        (m.tlbWrite page (paddr ||| tlbloDirty ||| tlbloValid) slot).loaded
          (regionLoad files as region vpn page) paddr, ?_, rfl, ?_, rfl, rfl, ?_⟩
      · simp only [install, if_true, loadRegion_eq, ok_bind, failed, ne_eq, not_false_eq_true,
          pure_ok]
      · simp [failed, tlbWrite, loaded, setMem, vmstatsInc]
      · simp [failed, tlbWrite, loaded, setMem, vmstatsInc]

/-- The insertion takes the first invalid slot, or the round-robin victim when there is none. -/
inductive SlotChoice (m : Machine) (page : Vaddr) : (slot nextVictim : Nat) → Prop where
  | free (found : probe m.tlb page numTlb 0 = .free slot) : SlotChoice m page slot m.nextVictim
  | full (found : probe m.tlb page numTlb 0 = .full) :
      SlotChoice m page m.nextVictim ((m.nextVictim + 1) % numTlb)

/-- The second half of `vm_fault` finds an entry or inserts one. -/
theorem fillTlb_cases (files : Files) (region : Region) (vpn : Nat) (page : Vaddr) (paddr : Paddr)
    (load : Bool) (as : AddrSpace) (m : Machine) :
    ∃ code next, fillTlb files region vpn page paddr load as m = .ok (code, next) ∧
      ((probe m.tlb page numTlb 0 = .hit ∧ code = 0 ∧ next.tlb = m.tlb ∧ next.core = m.core ∧
          next.nextVictim = m.nextVictim ∧ next.curspl = .high) ∨
        ∃ slot victim, SlotChoice m page slot victim ∧
          Inserted files region vpn page paddr load slot m.curspl as
            { m with curspl := .high, nextVictim := victim } code next) := by
  cases found : probe m.tlb page numTlb 0 with
  | hit =>
    refine ⟨0, ({ m with curspl := .high } : Machine).vmstatsInc 4, ?_, ?_⟩
    · simp [fillTlb, splhigh, found]
    · exact .inl ⟨rfl, rfl, rfl, rfl, rfl, rfl⟩
  | free slot =>
    obtain ⟨code, next, ran, inserted⟩ := install_inserted files region vpn page paddr load
      slot m.curspl as (({ m with curspl := .high } : Machine).vmstatsInc 0 |>.vmstatsInc 1)
    refine ⟨code, next, ?_, .inr ⟨slot, m.nextVictim, .free found, ?_⟩⟩
    · simpa [fillTlb, splhigh, found] using ran
    · exact ⟨inserted.result, inserted.tlb, inserted.core, inserted.victim, inserted.level⟩
  | full =>
    obtain ⟨code, next, ran, inserted⟩ := install_inserted files region vpn page paddr load
      m.nextVictim m.curspl as
      (({ m with curspl := .high } : Machine).vmstatsInc 0 |>.vmstatsInc 2).tlbGetRrVictim.2
    refine ⟨code, next, ?_, .inr ⟨m.nextVictim, _, .full found, ?_⟩⟩
    · simp only [fillTlb, splhigh, found]
      exact ran
    · exact ⟨inserted.result, inserted.tlb, inserted.core, inserted.victim, inserted.level⟩

/-- The ways in which `vm_fault` returns once the address space has passed its assertions. -/
inductive FaultOutcome (files : Files) (faulttype : FaultType) (page : Vaddr) (as : AddrSpace)
    (m : Machine) : Errno → AddrSpace → Machine → Prop where
  | unmapped (nowhere : as.locate page = none) : FaultOutcome files faulttype page as m eFault as m
  | readOnly (located : as.locate page = some (region, vpn)) (found : as.pteAt region vpn = .ok entry)
      (valid : entry.valid = true) (program : region ≠ .stack) (clean : entry.dirty = false)
      (write : faulttype = .write) : FaultOutcome files faulttype page as m ePerm as m
  | noMemory {region : Region} {vpn : Nat} {entry : Pte} {core : CoreState}
      (located : as.locate page = some (region, vpn)) (found : as.pteAt region vpn = .ok entry)
      (invalid : entry.valid = false) (resident : entry.sw = -1)
      (refused : getppages 1 .user m.core = .ok (0, core)) :
      FaultOutcome files faulttype page as m eNoMem as { m with core := core }
  | present (located : as.locate page = some (region, vpn)) (found : as.pteAt region vpn = .ok entry)
      (valid : entry.valid = true)
      (allowed : region = .stack ∨ ¬ (entry.dirty = false ∧ faulttype = .write)) (nonzero : entry.pfn ≠ 0)
      (aligned : Aligned entry.pfn)
      (filled : fillTlb files region vpn page entry.pfn (decide (region = .stack)) as m =
        .ok (code, next)) : FaultOutcome files faulttype page as m code as next
  | fresh {region : Region} {vpn : Nat} {entry : Pte} {paddr : Paddr} {core : CoreState}
      {code : Errno} {next : Machine} (located : as.locate page = some (region, vpn))
      (found : as.pteAt region vpn = .ok entry) (invalid : entry.valid = false)
      (resident : entry.sw = -1) (served : getppages 1 .user m.core = .ok (paddr, core))
      (nonzero : paddr ≠ 0) (aligned : Aligned paddr)
      (filled : fillTlb files region vpn page paddr true (as.mapPage region vpn paddr)
        { m with core := core } = .ok (code, next)) :
      FaultOutcome files faulttype page as m code (as.mapPage region vpn paddr) next

variable {files : Files} {region : Region} {vpn : Nat} {entry : Pte} {as space : AddrSpace}
  {m next : Machine}

theorem pageIn_ok :
    pageIn files region vpn entry as m = .ok (resolved, space, next) ↔
      entry.sw = -1 ∧ ∃ paddr core, getppages 1 .user m.core = .ok (paddr, core) ∧
        next = { m with core := core } ∧
        ((paddr = 0 ∧ resolved = .error eNoMem ∧ space = as) ∨
          (paddr ≠ 0 ∧ resolved = .ok paddr ∧ space = as.mapPage region vpn paddr)) := by
  by_cases resident : entry.sw = -1
  · simp only [pageIn, resident, ne_eq, not_true_eq_false, if_false, pure_ok, ok_bind, bind_ok,
      Prod.exists, true_and]
    refine exists_congr fun paddr => exists_congr fun core => and_congr_right fun _ => ?_
    by_cases refused : paddr = 0
    · simp only [refused, if_true, Except.ok.injEq, Prod.mk.injEq, true_and, not_true_eq_false,
        false_and, or_false]
      constructor
      · rintro ⟨rfl, rfl, rfl⟩
        exact ⟨rfl, rfl, rfl⟩
      · rintro ⟨rfl, rfl, rfl⟩
        exact ⟨rfl, rfl, rfl⟩
    · simp only [refused, if_false, Except.ok.injEq, Prod.mk.injEq, false_and, not_false_eq_true,
        true_and, false_or]
      constructor
      · rintro ⟨rfl, rfl, rfl⟩
        exact ⟨rfl, rfl, rfl⟩
      · rintro ⟨rfl, rfl, rfl⟩
        exact ⟨rfl, rfl, rfl⟩
  · simp [pageIn, resident, swapIn_panics, bind_ok]

theorem resolvePage_eq (files : Files) (faulttype : FaultType) (region : Region) (vpn : Nat)
    (as : AddrSpace) (m : Machine) :
    resolvePage files faulttype region vpn as m = (do
      let entry ← as.pteAt region vpn
      if entry.valid = false then
        let (paddr, as, m) ← pageIn files region vpn entry as m
        return (paddr.map (·, true), as, m)
      else if region ≠ .stack ∧ entry.dirty = false ∧ faulttype = .write then
        return (.error ePerm, as, m)
      else return (.ok (entry.pfn, decide (region = .stack)), as, m)) := by
  cases region with
  | first | second => simp [resolvePage, segmentPage]
  | stack => simp [resolvePage, stackPage]

variable {page : Vaddr} {code : Errno}

theorem finish_ok :
    (do
      kassert (paddr ≠ 0) "paddr != 0"
      kassert (pageMask paddr = paddr) "(paddr & PAGE_FRAME) == paddr"
      let (code, m) ← fillTlb files region vpn page paddr load as m
      return (code, as, m) : Kernel (Errno × AddrSpace × Machine)) = .ok (code, space, next) ↔
      paddr ≠ 0 ∧ Aligned paddr ∧ fillTlb files region vpn page paddr load as m = .ok (code, next) ∧
        space = as := by
  rw [kassert_bind, kassert_bind, bind_ok, pageMask_eq_self_iff]
  constructor
  · rintro ⟨nonzero, aligned, ⟨res, last⟩, filled, same⟩
    cases same
    exact ⟨nonzero, aligned, filled, rfl⟩
  · rintro ⟨nonzero, aligned, filled, rfl⟩
    exact ⟨nonzero, aligned, (code, next), filled, rfl⟩

variable {faulttype : FaultType}

theorem handleFault_outcome
    (ran : handleFault files faulttype page as m = .ok (code, space, next)) :
    as.Usable ∧ FaultOutcome files faulttype page as m code space next := by
  obtain ⟨_, checked, went⟩ := bind_ok.mp ran
  refine ⟨as.check_ok.mp checked, ?_⟩
  cases located : as.locate page with
  | none =>
    rw [located] at went
    cases went
    exact .unmapped located
  | some place =>
    obtain ⟨region, vpn⟩ := place
    rw [located] at went
    obtain ⟨⟨resolved, middle, m'⟩, resolution, done⟩ := bind_ok.mp went
    rw [resolvePage_eq] at resolution
    obtain ⟨entry, found, branch⟩ := bind_ok.mp resolution
    by_cases bad : entry.valid = false
    · rw [if_pos bad] at branch
      obtain ⟨⟨outcome, middle', m''⟩, paged, same⟩ := bind_ok.mp branch
      cases same
      obtain ⟨resident, paddr, core, served, rfl, ⟨rfl, rfl, rfl⟩ | ⟨nonzero, rfl, rfl⟩⟩ :=
        pageIn_ok.mp paged
      · cases done
        exact .noMemory located found bad resident served
      · obtain ⟨_, aligned, filled, rfl⟩ := finish_ok.mp done
        exact .fresh located found bad resident served nonzero aligned filled
    · rw [if_neg bad] at branch
      have valid : entry.valid = true := by simpa using bad
      by_cases forbidden : region ≠ .stack ∧ entry.dirty = false ∧ faulttype = .write
      · rw [if_pos forbidden] at branch
        cases branch
        cases done
        exact .readOnly located found valid forbidden.1 forbidden.2.1 forbidden.2.2
      · rw [if_neg forbidden] at branch
        cases branch
        obtain ⟨nonzero, aligned, filled, rfl⟩ := finish_ok.mp done
        refine .present located found valid ?_ nonzero aligned filled
        by_cases stack : region = .stack
        · exact .inl stack
        · exact .inr fun write => forbidden ⟨stack, write⟩

section

variable (outcome : FaultOutcome files faulttype page as m code space next)
  (located : as.locate page = some (region, vpn))
include outcome located

/-- A located page has an entry, which decides the outcome. -/
theorem FaultOutcome.of_located :
    ∃ entry, as.pteAt region vpn = .ok entry ∧
      ((entry.valid = true ∧ space = as ∧ ((region ≠ .stack ∧ code = ePerm ∧ next = m) ∨
          fillTlb files region vpn page entry.pfn (decide (region = .stack)) as m =
            .ok (code, next))) ∨
        (entry.valid = false ∧ ((code = eNoMem ∧ space = as) ∨
          ∃ paddr core, getppages 1 .user m.core = .ok (paddr, core) ∧ paddr ≠ 0 ∧
            space = as.mapPage region vpn paddr ∧
            fillTlb files region vpn page paddr true (as.mapPage region vpn paddr)
              { m with core := core } = .ok (code, next)))) := by
  cases outcome with
  | unmapped nowhere =>
    rw [nowhere] at located
    cases located
  | @readOnly other place entry here present valid program clean write =>
    rw [here] at located
    cases located
    exact ⟨entry, present, .inl ⟨valid, rfl, .inl ⟨program, rfl, rfl⟩⟩⟩
  | @noMemory other place entry core here present bad resident refused =>
    rw [here] at located
    cases located
    exact ⟨entry, present, .inr ⟨bad, .inl ⟨rfl, rfl⟩⟩⟩
  | @present other place entry code next here present valid allowed nonzero aligned filled =>
    rw [here] at located
    cases located
    exact ⟨entry, present, .inl ⟨valid, rfl, .inr filled⟩⟩
  | @fresh other place entry paddr core code next here present bad resident served nonzero aligned
      filled =>
      rw [here] at located
      cases located
      exact ⟨entry, present, .inr ⟨bad, .inr ⟨paddr, core, served, nonzero, rfl, filled⟩⟩⟩

theorem FaultOutcome.of_valid (found : as.pteAt region vpn = .ok entry) (valid : entry.valid = true) :
    space = as ∧ ((region ≠ .stack ∧ code = ePerm ∧ next = m) ∨
      fillTlb files region vpn page entry.pfn (decide (region = .stack)) as m = .ok (code, next)) := by
  obtain ⟨second, present, res⟩ := outcome.of_located located
  rw [found, Except.ok.injEq] at present
  subst second
  obtain ⟨_, went⟩ | ⟨bad, _⟩ := res
  · exact went
  · rw [valid] at bad
    cases bad

theorem FaultOutcome.of_invalid (found : as.pteAt region vpn = .ok entry) (bad : entry.valid = false) :
    (code = eNoMem ∧ space = as) ∨
      ∃ paddr core, getppages 1 .user m.core = .ok (paddr, core) ∧ paddr ≠ 0 ∧
        space = as.mapPage region vpn paddr ∧
        fillTlb files region vpn page paddr true (as.mapPage region vpn paddr)
          { m with core := core } = .ok (code, next) := by
  obtain ⟨second, present, res⟩ := outcome.of_located located
  rw [found, Except.ok.injEq] at present
  subst second
  obtain ⟨valid, _⟩ | ⟨_, went⟩ := res
  · rw [valid] at bad
    cases bad
  · exact went

end

theorem FaultOutcome.returns (usable : as.Usable)
    (outcome : FaultOutcome files faulttype page as m code space next) :
    handleFault files faulttype page as m = .ok (code, space, next) := by
  rw [handleFault, as.check_ok.mpr usable, ok_bind]
  cases outcome with
  | unmapped nowhere => rw [nowhere, pure_ok]
  | readOnly located found valid program clean write =>
    simp only [located, resolvePage_eq, found, ok_bind, valid, Bool.true_eq_false, if_false,
      program, clean, write, ne_eq, not_false_eq_true, and_self, if_true, pure_ok]
  | @noMemory region vpn entry core located found bad resident refused =>
    have paged : pageIn files region vpn entry as m =
        .ok (.error eNoMem, as, { m with core := core }) :=
      pageIn_ok.mpr ⟨resident, 0, core, refused, rfl, .inl ⟨rfl, rfl, rfl⟩⟩
    simp only [located, resolvePage_eq, found, ok_bind, bad, if_true, paged, pure_ok,
      Except.map]
  | @present region vpn entry code next located found valid allowed nonzero aligned filled =>
    have permitted : ¬ (region ≠ .stack ∧ entry.dirty = false ∧ faulttype = .write) := by
      rintro ⟨program, write⟩
      exact allowed.elim program (fun none => none write)
    simp only [located, resolvePage_eq, found, ok_bind, valid,
      permitted]
    exact finish_ok.mpr ⟨nonzero, aligned, filled, rfl⟩
  | @fresh region vpn entry paddr core code next located found bad resident served nonzero
      aligned filled =>
      have paged : pageIn files region vpn entry as m =
          .ok (.ok paddr, as.mapPage region vpn paddr, { m with core := core }) :=
        pageIn_ok.mpr ⟨resident, paddr, core, served, rfl, .inr ⟨nonzero, rfl, rfl⟩⟩
      simp only [located, resolvePage_eq, found, ok_bind, bad, paged]
      exact finish_ok.mpr ⟨nonzero, aligned, filled, rfl⟩

/-- The two fault types that `vm_fault` handles. -/
def FaultType.Handled (faulttype : FaultType) : Prop := faulttype = .read ∨ faulttype = .write

variable {faultaddress : Vaddr}

theorem vmFault_outcome
    (ran : vmFault files faulttype faultaddress (some as) m = .ok (code, current, next)) :
    (¬ faulttype.Handled ∧ code = eInval ∧ current = some as ∧ next = m) ∨
      (faulttype.Handled ∧ ∃ space, current = some space ∧ as.Usable ∧
        FaultOutcome files faulttype (pageMask faultaddress) as m code space next) := by
  cases faulttype with
  | readonly | other =>
    cases ran
    exact .inl ⟨by simp [FaultType.Handled], rfl, rfl, rfl⟩
  | read =>
    obtain ⟨⟨code, space, next⟩, inner, same⟩ := bind_ok.mp ran
    cases same
    exact .inr ⟨.inl rfl, space, rfl, handleFault_outcome inner⟩
  | write =>
    obtain ⟨⟨code, space, next⟩, inner, same⟩ := bind_ok.mp ran
    cases same
    exact .inr ⟨.inr rfl, space, rfl, handleFault_outcome inner⟩

theorem FaultOutcome.vmFault (usable : as.Usable) (handled : faulttype.Handled)
    (outcome : FaultOutcome files faulttype (pageMask faultaddress) as m code space next) :
    vmFault files faulttype faultaddress (some as) m = .ok (code, some space, next) := by
  have ran := outcome.returns usable
  rcases handled with rfl | rfl
  · simp only [Os161.Vm.vmFault, ran, ok_bind, pure_ok]
  · simp only [Os161.Vm.vmFault, ran, ok_bind, pure_ok]

theorem vmFault_none (ran : vmFault files faulttype faultaddress none m = .ok (code, current, next)) :
    code ≠ 0 ∧ current = none ∧ next = m := by
  cases faulttype with
  | readonly | other | read | write => cases ran; exact ⟨by decide, rfl, rfl⟩

end Os161.Vm

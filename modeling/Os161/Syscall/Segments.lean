import Os161.Syscall.LoadedProgram
import Os161.Vm.FaultSafety
import Os161.Vm.Permissions

namespace Os161.Syscall
open Word Vm Outcome Transition List

/-- A loadable header keeps its slot unless its base rounds to zero, the value of an unused slot. -/
def Phdr.Placed (ph : Phdr) : Prop := ph.ptype = ptLoad ∧ pageMask ph.vaddr ≠ 0

instance : DecidablePred Phdr.Placed := fun _ => inferInstanceAs (Decidable (_ ∧ _))

/-- The headers that keep a slot, in the order of the table. -/
def placedHeaders (headers : List Phdr) : List Phdr := headers.filter fun ph => ph.Placed

/-- The slot holds the region that `as_define_region` computes from the header. -/
structure Defines (ph : Phdr) (segment : Segment) : Prop where
  base : segment.vbase = pageMask ph.vaddr
  pages : segment.npages = regionPages ph.vaddr ph.memsz
  flag : segment.flag = ph.flags &&& pfR ||| ph.flags &&& pfW ||| ph.flags &&& pfX

/-- The two slots after some headers have been placed. -/
inductive Slots (as : AddrSpace) : List Phdr → Prop where
  | unused (base1 : as.seg1.vbase = 0) (base2 : as.seg2.vbase = 0) : Slots as []
  | single {first : Phdr} (placed : first.Placed) (defined : Defines first as.seg1)
      (base2 : as.seg2.vbase = 0) : Slots as [first]
  | full {first second : Phdr} (placed1 : first.Placed) (defined1 : Defines first as.seg1)
      (placed2 : second.Placed) (defined2 : Defines second as.seg2) : Slots as [first, second]

variable {ph : Phdr}

theorem Defines.base_ne {seg : Segment} (defined : Defines ph seg) (placed : ph.Placed) :
    seg.vbase ≠ 0 := by
  rw [defined.base]
  exact placed.2

variable {as : AddrSpace} {i : Nat}

theorem Slots.define {placed : List Phdr} (slots : Slots as placed) (loadable : ph.ptype = ptLoad)
    {s core : CoreState} {next : AddrSpace} (done : defineRegion i ph (as, s) = .ok (0, next, core)) :
    Slots next (placed ++ placedHeaders [ph]) := by
  obtain ⟨seg, _, base, pages, flag, slot, _⟩ := asDefineRegion_ok done
  have defined : Defines ph seg := ⟨base, pages, flag⟩
  by_cases here : ph.Placed
  · rw [placedHeaders, filter_cons_of_pos (by simpa using here)]
    cases slots with
    | unused base1 base2 =>
      obtain ⟨_, rfl⟩ | ⟨used, _⟩ := slot
      · exact .single here defined base2
      · exact absurd base1 used
    | single prior first base2 =>
      obtain ⟨empty, _⟩ | ⟨_, _, rfl⟩ := slot
      · exact absurd empty (first.base_ne prior)
      · exact .full prior first here defined
    | full placed1 first placed2 second =>
      obtain ⟨empty, _⟩ | ⟨_, empty, _⟩ := slot
      · exact absurd empty (first.base_ne placed1)
      · exact absurd empty (second.base_ne placed2)
  · rw [placedHeaders, filter_cons_of_neg (by simpa using here)]
    have zero : seg.vbase = 0 := by
      rw [base]
      by_contra placed
      exact here ⟨loadable, placed⟩
    cases slots with
    | unused base1 base2 =>
      obtain ⟨_, rfl⟩ | ⟨used, _⟩ := slot
      · exact .unused zero base2
      · exact absurd base1 used
    | single prior first base2 =>
      obtain ⟨empty, _⟩ | ⟨_, _, rfl⟩ := slot
      · exact absurd empty (first.base_ne prior)
      · exact .single prior first zero
    | full placed1 first placed2 second =>
      obtain ⟨empty, _⟩ | ⟨_, empty, _⟩ := slot
      · exact absurd empty (first.base_ne placed1)
      · exact absurd empty (second.base_ne placed2)

theorem Phdr.Skipped.not_placed (skipped : ph.Skipped) : ¬ ph.Placed :=
  fun placed => Phdr.not_skipped placed.1 skipped

variable {headers : List Phdr}

theorem Slots.applied {state last : AddrSpace × CoreState}
    (applied : Applied defineRegion i headers state last) {placed : List Phdr}
    (slots : Slots state.1 placed) : Slots last.1 (placed ++ placedHeaders headers) := by
  induction applied generalizing placed with
  | nil i state => simpa [placedHeaders] using slots
  | @skip i ph rest state last skipped tail ih =>
    have dropped : placedHeaders (ph :: rest) = placedHeaders rest :=
      filter_cons_of_neg (by simpa using skipped.not_placed)
    rw [dropped]
    exact ih slots
  | @load i ph rest state next last loadable done tail ih =>
    have split : placedHeaders (ph :: rest) = placedHeaders [ph] ++ placedHeaders rest :=
      filter_append [ph] rest
    rw [split, ← append_assoc]
    exact ih (slots.define loadable done)

theorem Slots.record (slots : Slots as placed) (noted : recordSegment vn i ph as = .ok (0, space)) :
    Slots space placed := by
  have same : space.seg1.vbase = as.seg1.vbase ∧ space.seg1.npages = as.seg1.npages ∧
      space.seg1.flag = as.seg1.flag ∧ space.seg2.vbase = as.seg2.vbase ∧
      space.seg2.npages = as.seg2.npages ∧ space.seg2.flag = as.seg2.flag := by
    cases noted
    split
    · exact ⟨rfl, rfl, rfl, rfl, rfl, rfl⟩
    · split
      · exact ⟨rfl, rfl, rfl, rfl, rfl, rfl⟩
      · exact ⟨rfl, rfl, rfl, rfl, rfl, rfl⟩
  obtain ⟨vbase1, npages1, flag1, vbase2, npages2, flag2⟩ := same
  cases slots with
  | unused base1 base2 => exact .unused (vbase1.trans base1) (vbase2.trans base2)
  | single placed defined base2 =>
    exact .single placed ⟨vbase1.trans defined.base, npages1.trans defined.pages,
      flag1.trans defined.flag⟩ (vbase2.trans base2)
  | full placed1 defined1 placed2 defined2 =>
    exact .full placed1 ⟨vbase1.trans defined1.base, npages1.trans defined1.pages,
        flag1.trans defined1.flag⟩
      placed2 ⟨vbase2.trans defined2.base, npages2.trans defined2.pages,
        flag2.trans defined2.flag⟩

theorem Loaded.placed (loaded : Loaded files vn as s headers space core)
    (made : asCreate heap = .ok (some as)) : Slots space (placedHeaders headers) := by
  obtain ⟨_, base1, base2, _⟩ := asCreate_ok made
  obtain ⟨middle, defined, noted⟩ := loaded.regions
  have slots : Slots middle (placedHeaders headers) :=
    Slots.applied defined (Slots.unused base1 base2)
  exact noted.invariant
    (fun _ _ _ _ (prev : Slots _ _) done => prev.record done) slots

theorem Slots.usable_iff {placed : List Phdr} (slots : Slots as placed) :
    as.Usable ↔ ∃ first second, placed = [first, second] ∧
      regionPages first.vaddr first.memsz ≠ 0 ∧ regionPages second.vaddr second.memsz ≠ 0 := by
  cases slots with
  | unused base1 base2 =>
    refine iff_of_false (fun usable => usable.base1 base1) ?_
    rintro ⟨_, _, missing, _⟩
    cases missing
  | single placed defined base2 =>
    refine iff_of_false (fun usable => usable.base2 base2) ?_
    rintro ⟨_, _, missing, _⟩
    cases missing
  | @full first second placed1 defined1 placed2 defined2 =>
    constructor
    · intro usable
      exact ⟨first, second, rfl, defined1.pages ▸ usable.size1, defined2.pages ▸ usable.size2⟩
    · rintro ⟨_, _, same, pages1, pages2⟩
      cases same
      exact ⟨defined1.base_ne placed1, defined1.pages ▸ pages1, defined2.base_ne placed2,
        defined2.pages ▸ pages2, defined1.base ▸ pageMask_aligned _,
        defined2.base ▸ pageMask_aligned _⟩

/-- The header that defined a program segment. -/
def segmentHeader (headers : List Phdr) : Region → Option Phdr
  | .first => (placedHeaders headers)[0]?
  | .second => (placedHeaders headers)[1]?
  | .stack => none

theorem Defines.writable_iff {seg : Segment} (defined : Defines ph seg) :
    seg.flag &&& 2 ≠ 0 ↔ ph.flags &&& pfW ≠ 0 := by
  have bit : seg.flag &&& 2 = ph.flags &&& pfW := by
    rw [defined.flag, BitVec.and_or_distrib_right, BitVec.and_or_distrib_right, BitVec.and_assoc,
      BitVec.and_assoc, BitVec.and_assoc]
    simp
  rw [bit]

theorem Slots.located (slots : Slots as (placedHeaders headers)) (usable : as.Usable)
    {region : Region} (program : region ≠ .stack) : ∃ ph, segmentHeader headers region = some ph ∧
      (as.flag region &&& 2 ≠ 0 ↔ ph.flags &&& pfW ≠ 0) := by
  generalize shape : placedHeaders headers = placed at slots
  cases slots with
  | unused base1 base2 => exact absurd base1 usable.base1
  | single placed defined base2 => exact absurd base2 usable.base2
  | @full first second placed1 defined1 placed2 defined2 =>
    cases region with
    | first => exact ⟨first, by rw [segmentHeader, shape]; rfl, defined1.writable_iff⟩
    | second => exact ⟨second, by rw [segmentHeader, shape]; rfl, defined2.writable_iff⟩
    | stack => exact absurd rfl program

/-- A translation is writable exactly when the header of its segment is. -/
theorem translations_keep_permission {heap : HeapReply} {as start : AddrSpace}
    (created : asCreate heap = .ok (some as)) {s core : CoreState} {files : Files} {vn : Vnode}
    {entrypoint : Option Vaddr}
    (returned : loadElf files vn as s = .ok (0, entrypoint, start, core)) {m : Machine}
    (empty : ∀ slot < numTlb, ¬ (m.tlb slot).Valid) {ops : List TlbOp} {t : UserState}
    (reached : Run SuccessStep ⟨start, m⟩ ops t) :
    ∃ headers, Loaded files vn as s headers start core ∧
      ∀ slot < numTlb, (t.machine.tlb slot).Valid → ∀ region vpn,
        t.space.locate (t.machine.tlb slot).ehi = some (region, vpn) → region ≠ .stack →
          ∃ ph entry, segmentHeader headers region = some ph ∧
            t.space.pteAt region vpn = .ok entry ∧ entry.valid = true ∧
            ((t.machine.tlb slot).Dirty ↔ ph.flags &&& pfW ≠ 0) ∧
            (entry.dirty = true ↔ ph.flags &&& pfW ≠ 0) := by
  obtain ⟨headers, loaded⟩ := loadElf_ok returned
  refine ⟨headers, loaded, ?_⟩
  have untouched := (loaded.prepared (asCreate_ok created).1).untouched
  have permitted : UserState.Permitted t := by
    refine reached.invariant (fun _ _ _ before step => SuccessStep.permitted step before) ⟨?_, ?_⟩
    · intro region vpn entry found valid
      rw [untouched region vpn entry found] at valid
      cases valid
    · intro slot inside valid
      exact absurd valid (empty slot inside)
  have layout : t.space.layout = start.layout :=
    reached.invariant (fun (state : UserState) _ _ (before : state.space.layout = start.layout) step =>
      (SuccessStep.layout step).trans before) rfl
  intro slot inside valid region vpn located program
  obtain ⟨usable, other, place, entry, here, found, present, dirty⟩ :=
    permitted.translations slot inside valid
  rw [located] at here
  cases here
  obtain ⟨ph, header, writable⟩ := (loaded.placed created).located (usable.layout layout) program
  rw [AddrSpace.flag_layout layout] at dirty
  have clean := permitted.pages region vpn entry found present
  rw [AddrSpace.flag_layout layout] at clean
  exact ⟨ph, entry, header, found, present, dirty.trans writable, clean.trans writable⟩

/-- A read of the small executable's code leaves a read-only translation. -/
theorem translations_keep_permission_smallElf :
    ∃ t headers, Run SuccessStep ⟨smallLoaded.1, Machine.idle smallLoaded.2⟩
        [.activate, .fault .read 0x400000] t ∧
      Loaded (fileOf smallElf) 0 newSpace (booted eightFrames fun _ => 0) headers smallLoaded.1
        smallLoaded.2 ∧
      (t.machine.tlb 0).Valid ∧ ¬ (t.machine.tlb 0).Dirty ∧
      ∃ ph, segmentHeader headers .first = some ph ∧ ¬ ph.flags &&& pfW ≠ 0 := by
  have code : vmFault (fileOf smallElf) .read 0x400000 (some smallLoaded.1)
    (asActivate (some smallLoaded.1) (Machine.idle smallLoaded.2)) = .ok (0, some _, _) := rfl
  have reached : Run SuccessStep ⟨smallLoaded.1, Machine.idle smallLoaded.2⟩
      [.activate, .fault .read 0x400000] ⟨_, _⟩ :=
    (Run.single SuccessStep.activate).append (Run.single (SuccessStep.fault code))
  obtain ⟨headers, loaded, kept⟩ := translations_keep_permission
    (show asCreate ⟨some newSpace, true⟩ = .ok (some newSpace) from rfl) smallLoaded_eq
    (fun slot _ => invalid_slot slot) reached
  obtain ⟨ph, _, header, _, _, dirty, _⟩ := kept 0 (by decide) (by decide) .first 0 rfl (by decide)
  exact ⟨_, headers, reached, loaded, by decide, by decide, ph, header, mt dirty.mpr (by decide)⟩

/-- The handler is safe exactly when two headers that are not empty were placed. -/
theorem fault_handler_safe_iff {heap : HeapReply} {as start : AddrSpace}
    (created : asCreate heap = .ok (some as)) {ram : RamSize} {mem : Nat → Byte}
    {live : List (Paddr × Word32)} {s core : CoreState}
    (allocator : CoreConf.Reachable ram mem ⟨s, live⟩) {files : Files} {vn : Vnode}
    {entrypoint : Option Vaddr}
    (returned : loadElf files vn as s = .ok (0, entrypoint, start, core)) {m : Machine}
    (state : m.core = core) (empty : ∀ slot < numTlb, ¬ (m.tlb slot).Valid)
    (cursor : m.nextVictim < numTlb) :
    ∃ headers, Loaded files vn as s headers start core ∧
      ((∀ ops t, Run UserStep ⟨start, m⟩ ops t → t.HandlerSafe) ↔
        ∃ first second, placedHeaders headers = [first, second] ∧
          regionPages first.vaddr first.memsz ≠ 0 ∧ regionPages second.vaddr second.memsz ≠ 0) := by
  obtain ⟨headers, loaded⟩ := loadElf_ok returned
  refine ⟨headers, loaded, ?_⟩
  subst state
  have prepared := loaded.prepared (asCreate_ok created).1
  have fresh : UserState.Fresh ram mem ⟨start, m⟩ :=
    ⟨loaded.reachable allocator, prepared.untouched, empty, cursor⟩
  rw [← (loaded.placed created).usable_iff]
  constructor
  · intro safe
    exact (fresh.inv.handlerSafe_iff prepared.complete).mp (safe [] _ (.nil _))
  · intro usable ops t reached
    have inv : t.Inv ram mem :=
      reached.invariant (fun (state : UserState) _ _ (before : state.Inv ram mem) step =>
        step.inv before) fresh.inv
    have complete : t.space.Complete :=
      reached.invariant (fun (state : UserState) _ _ (before : state.space.Complete) step =>
        step.complete before) prepared.complete
    have layout : t.space.layout = start.layout :=
      reached.invariant (fun (state : UserState) _ _ (before : state.space.layout = start.layout)
        step => step.layout.trans before) rfl
    exact (inv.handlerSafe_iff complete).mpr (usable.layout layout.symm)

/-- In every run of the small executable the fault handler is safe. -/
theorem fault_handler_safe_smallElf :
    loadElf (fileOf smallElf) 0 newSpace (booted eightFrames fun _ => 0) =
        .ok (0, some 0x400000, smallLoaded.1, smallLoaded.2) ∧
      ∃ headers, Loaded (fileOf smallElf) 0 newSpace (booted eightFrames fun _ => 0) headers
          smallLoaded.1 smallLoaded.2 ∧
        ((∀ ops t, Run UserStep ⟨smallLoaded.1, Machine.idle smallLoaded.2⟩ ops t → t.HandlerSafe) ↔
          ∃ first second, placedHeaders headers = [first, second] ∧
            regionPages first.vaddr first.memsz ≠ 0 ∧
            regionPages second.vaddr second.memsz ≠ 0) :=
  ⟨smallLoaded_eq, fault_handler_safe_iff
    (show asCreate ⟨some newSpace, true⟩ = .ok (some newSpace) from rfl) eightFrames_reachable
    smallLoaded_eq (show (Machine.idle smallLoaded.2).core = smallLoaded.2 from rfl)
    (fun slot _ => invalid_slot slot) (by decide)⟩

/-- The small executable without its data. -/
def codeElf : List Byte :=
  elfFile 0x400000 [reginfo, { smallCode with offset := 116 }] [1, 2, 3, 4]

/-- After a load with a single segment the first fault fails an assertion. -/
theorem fault_handler_crashes :
    ∃ start core, loadElf (fileOf codeElf) 0 newSpace (booted eightFrames fun _ => 0) =
        .ok (0, some 0x400000, start, core) ∧
      vmFault (fileOf codeElf) .read 0x400000 (some start) (Machine.idle core) =
        .error (.assertion "as->as_vbase2 != 0") := by
  have returned : loadElf (fileOf codeElf) 0 newSpace (booted eightFrames fun _ => 0) =
    .ok (0, some 0x400000, _, _) := rfl
  exact ⟨_, _, returned, rfl⟩

end Os161.Syscall

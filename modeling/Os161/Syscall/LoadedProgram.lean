import Os161.Syscall.ElfFile
import Os161.Vm.Copy

namespace Os161.Syscall
open Word Vm Outcome Transition

theorem Loaded.reachable (loaded : Loaded files vn as s headers space core)
    (reachable : CoreConf.Reachable ram mem ⟨s, live⟩) : ∃ live, CoreConf.Reachable ram mem ⟨core, live⟩ := by
  have preserved (i : Nat) (ph : Phdr) (state next : AddrSpace × CoreState)
      (prev : ∃ live, CoreConf.Reachable ram mem ⟨state.2, live⟩)
      (defined : defineRegion i ph state = .ok (0, next)) :
      ∃ live, CoreConf.Reachable ram mem ⟨next.2, live⟩ := by
    obtain ⟨live, reachable⟩ := prev
    obtain ⟨_, _, _, _, _, _, pnum, va, allocated⟩ := asDefineRegion_ok defined
    exact allocKpages_reachable reachable allocated
  obtain ⟨middle, defined, _⟩ := loaded.regions
  exact defined.invariant preserved ⟨live, reachable⟩

theorem recordSegment_prepared {as : AddrSpace} (prepared : as.Prepared)
    (noted : recordSegment vn i ph as = .ok (0, space)) : space.Prepared := by
  cases noted
  split
  · exact ⟨prepared.first, prepared.second, prepared.stack⟩
  · split
    · exact ⟨prepared.first, prepared.second, prepared.stack⟩
    · exact ⟨prepared.first, prepared.second, prepared.stack⟩

theorem Loaded.prepared (loaded : Loaded files vn as s headers space core) (prepared : as.Prepared) :
    space.Prepared := by
  obtain ⟨middle, defined, noted⟩ := loaded.regions
  have ready := defined.invariant
    (fun i ph (state next : AddrSpace × CoreState) (prev : state.1.Prepared)
      (done : defineRegion i ph state = .ok (0, next)) => prev.define done) prepared
  exact noted.invariant
    (fun _ _ _ _ prev done => recordSegment_prepared prev done) ready

/-- Copies of a loaded program are exact only when no page enters memory. -/
theorem loaded_copies_exact_iff {heap : HeapReply} {as start : AddrSpace}
    (created : asCreate heap = .ok (some as)) {ram : RamSize} {mem : Nat → Byte}
    {live : List (Paddr × Word32)} {s core : CoreState}
    (allocator : CoreConf.Reachable ram mem ⟨s, live⟩) {files : Files} {vn : Vnode}
    {entrypoint : Option Vaddr}
    (returned : loadElf files vn as s = .ok (0, entrypoint, start, core)) {m : Machine}
    (state : m.core = core) (empty : ∀ slot < numTlb, ¬ (m.tlb slot).Valid)
    (cursor : m.nextVictim < numTlb) :
    (∀ ops t reply new, Run UserStep ⟨start, m⟩ ops t → asCopy reply t.space = .ok (0, some new) →
      ExactCopy t.machine t.space new) ↔ ¬ (start.Usable ∧ core.FrameAvailable) := by
  obtain ⟨headers, loaded⟩ := loadElf_ok returned
  subst state
  have prepared := loaded.prepared (asCreate_ok created).1
  have fresh : UserState.Fresh ram mem ⟨start, m⟩ :=
    ⟨loaded.reachable allocator, prepared.untouched, empty, cursor⟩
  exact fresh.copies_exact_iff prepared

/-- The header of the register information, which `load_elf` skips. -/
def reginfo : Phdr :=
  { ptype := 0x70000000, offset := 0, vaddr := 0, filesz := 0, memsz := 0, flags := pfR }

/-- A header for four bytes of code at the end of three program headers. -/
def smallCode : Phdr :=
  { ptype := ptLoad, offset := 148, vaddr := 0x400000, filesz := 4, memsz := 4, flags := pfR ||| pfX }

/-- A header for sixteen bytes of data without file contents. -/
def smallData : Phdr :=
  { ptype := ptLoad, offset := 152, vaddr := 0x10000000, filesz := 0, memsz := 16
    flags := pfR ||| pfW }

/-- An executable with one page of code and one page of data. -/
def smallElf : List Byte := elfFile 0x400000 [reginfo, smallCode, smallData] [1, 2, 3, 4]

/-- The address space that `as_create` returns on a heap of zeros. -/
def newSpace : AddrSpace where
  seg1 := { vbase := 0, npages := 0, flag := 0, offset := 0, filesz := 0, pt := none }
  seg2 := { vbase := 0, npages := 0, flag := 0, offset := 0, filesz := 0, pt := none }
  vn := 0
  pt3 := some (PageTable.create stackPages)

/-- The address space and the allocator after `load_elf` of the small executable. -/
def smallLoaded : AddrSpace × CoreState :=
  match loadElf (fileOf smallElf) 0 newSpace (booted eightFrames fun _ => 0) with
  | .ok (_, _, space, core) => (space, core)
  | .error _ => (newSpace, booted eightFrames fun _ => 0)

theorem smallLoaded_eq : loadElf (fileOf smallElf) 0 newSpace (booted eightFrames fun _ => 0) =
    .ok (0, some 0x400000, smallLoaded.1, smallLoaded.2) := rfl

theorem eightFrames_reachable :
    CoreConf.Reachable eightFrames (fun _ => 0) ⟨booted eightFrames fun _ => 0, []⟩ :=
  ⟨[], .nil _⟩

theorem smallLoaded_available : smallLoaded.2.FrameAvailable := by
  obtain ⟨headers, loaded⟩ := loadElf_ok smallLoaded_eq
  obtain ⟨live, reachable⟩ := loaded.reachable eightFrames_reachable
  have served : getppages 1 .user smallLoaded.2 = .ok (0x13000, _) := rfl
  exact (reachable.inv.formed.frameAvailable_iff .user).mpr ⟨_, _, served, by decide⟩

/-- Some run of the small executable has a copy that is not exact. -/
theorem loaded_copies_exact_smallElf :
    loadElf (fileOf smallElf) 0 newSpace (booted eightFrames fun _ => 0) =
        .ok (0, some 0x400000, smallLoaded.1, smallLoaded.2) ∧
      ¬ ∀ ops t reply new, Run UserStep ⟨smallLoaded.1, Machine.idle smallLoaded.2⟩ ops t →
        asCopy reply t.space = .ok (0, some new) → ExactCopy t.machine t.space new := by
  have usable : smallLoaded.1.Usable :=
    ⟨by decide, by decide, by decide, by decide, by decide, by decide⟩
  have exact := loaded_copies_exact_iff
    (show asCreate ⟨some newSpace, true⟩ = .ok (some newSpace) from rfl) eightFrames_reachable
    smallLoaded_eq (show (Machine.idle smallLoaded.2).core = smallLoaded.2 from rfl)
    (fun slot _ => invalid_slot slot) (by decide)
  refine ⟨smallLoaded_eq, ?_⟩
  rw [exact]
  exact not_not.mpr ⟨usable, smallLoaded_available⟩

/-- A fault on the code page of the copy finds no page table. -/
theorem copy_loses_code :
    ∃ space next new, vmFault (fileOf smallElf) .read 0x400000 (some smallLoaded.1)
        (Machine.idle smallLoaded.2) = .ok (0, some space, next) ∧
      Shows (fileOf smallElf) space next 0x400000 (fun j => next.core.mem (0x13000 + j)) false ∧
      next.core.mem 0x13000 = 1 ∧
      asCopy ⟨some newSpace, true⟩ space = .ok (0, some new) ∧
      vmFault (fileOf smallElf) .read 0x400000 (some new) (asActivate (some new) next) =
        .error .nullPointer := by
  refine ⟨_, _, _, rfl, ?_, rfl, rfl, rfl⟩
  exact .present (show _ = some (Region.first, 0) from rfl) rfl rfl rfl (fun j _ => rfl)

end Os161.Syscall

import Os161.Process.ExitStatus
import Os161.Syscall.Segments

namespace Os161.Syscall
open Word Vm Process Transition

/-- `valid_address_check` of the process calls -/
def Procops.validAddressCheck (as : AddrSpace) (addr : Vaddr) : Bool :=
  as.seg1.Contains addr ∨ as.seg2.Contains addr ∨ (stackBase ≤ addr ∧ addr < userStack)

/-- `valid_address_check` of the file calls -/
def Filesystem.validAddressCheck (as : AddrSpace) (addr : Vaddr) : Bool :=
  addr < userStack ∧ (as.seg1.Contains addr ∨ as.seg2.Contains addr ∨ stackBase ≤ addr)

/-- `as_define_region` puts a header in the first slot whose base is zero. -/
def placeHeader (slots : Option Phdr × Option Phdr) (ph : Phdr) : Option Phdr × Option Phdr :=
  if slots.1.all fun first => pageMask first.vaddr = 0 then (some ph, slots.2)
  else if slots.2.all fun second => pageMask second.vaddr = 0 then (slots.1, some ph)
  else slots

/-- The headers whose regions the two slots hold after the first loop of `load_elf`. -/
def slotHeaders (headers : List Phdr) : Option Phdr × Option Phdr :=
  (headers.filter fun ph => ph.ptype = ptLoad).foldl placeHeader (none, none)

/-- The region of the header ends at or below the user addresses, or is empty after the 32-bit
addition. -/
def Phdr.BelowKernel (ph : Phdr) : Prop :=
  pageMask ph.vaddr + regionPages ph.vaddr ph.memsz * 4096#32 ≤ userStack ∨
    pageMask ph.vaddr + regionPages ph.vaddr ph.memsz * 4096#32 ≤ pageMask ph.vaddr

instance : DecidablePred Phdr.BelowKernel := fun _ => inferInstanceAs (Decidable (_ ∨ _))

/-- The slot is as `as_create` has made it, or holds the region of the header. -/
inductive Holds : Option Phdr → Segment → Prop where
  | unused {segment : Segment} (base : segment.vbase = 0) (pages : segment.npages = 0) :
      Holds none segment
  | defined {ph : Phdr} {segment : Segment} (defined : Defines ph segment) : Holds (some ph) segment

theorem Holds.base_iff {slot : Option Phdr} {seg : Segment} (holds : Holds slot seg) :
    (slot.all fun ph => pageMask ph.vaddr = 0) = true ↔ seg.vbase = 0 := by
  cases holds with
  | unused base pages => simpa using base
  | defined defined => simp [defined.base]

/-- Both slots hold their headers. -/
structure HoldsBoth (slots : Option Phdr × Option Phdr) (as : AddrSpace) : Prop where
  first : Holds slots.1 as.seg1
  second : Holds slots.2 as.seg2

theorem HoldsBoth.define {slots : Option Phdr × Option Phdr} {as next : AddrSpace}
    (holds : HoldsBoth slots as) {i : Nat} {ph : Phdr} {s core : CoreState}
    (done : defineRegion i ph (as, s) = .ok (0, next, core)) :
    HoldsBoth (placeHeader slots ph) next := by
  obtain ⟨seg, _, base, pages, flag, slot, _⟩ := asDefineRegion_ok done
  have defined : Holds (some ph) seg := .defined ⟨base, pages, flag⟩
  obtain ⟨unused, rfl⟩ | ⟨used, unused, rfl⟩ := slot
  · rw [placeHeader, if_pos (holds.first.base_iff.mpr unused)]
    exact ⟨defined, holds.second⟩
  · rw [placeHeader, if_neg (mt holds.first.base_iff.mp used),
      if_pos (holds.second.base_iff.mpr unused)]
    exact ⟨holds.first, defined⟩

theorem HoldsBoth.applied (applied : Applied defineRegion i headers state last)
    (holds : HoldsBoth slots state.1) :
    HoldsBoth ((headers.filter fun ph => ph.ptype = ptLoad).foldl placeHeader slots) last.1 := by
  induction applied generalizing slots with
  | nil i state => exact holds
  | @skip i ph rest state last skipped tail ih =>
    rw [List.filter_cons_of_neg]
    · exact ih holds
    · intro loadable
      exact Phdr.not_skipped (of_decide_eq_true loadable) skipped
  | @load i ph rest state next last loadable done tail ih =>
    rw [List.filter_cons_of_pos (by simpa using loadable)]
    exact ih (holds.define done)

theorem HoldsBoth.record (holds : HoldsBoth slots as) (noted : recordSegment vn i ph as = .ok (0, space)) :
    HoldsBoth slots space := by
  have keep {slot : Option Phdr} {seg : Segment} (held : Holds slot seg) (offset : Int)
      (filesz : Word32) : Holds slot { seg with offset := offset, filesz := filesz } := by
    cases held with
    | unused base pages => exact .unused base pages
    | defined defined => exact .defined ⟨defined.base, defined.pages, defined.flag⟩
  cases noted
  split
  · exact ⟨keep holds.first _ _, holds.second⟩
  · split
    · exact ⟨holds.first, keep holds.second _ _⟩
    · exact ⟨holds.first, holds.second⟩

theorem Loaded.holds {files : Files} {vn : Vnode} {as space : AddrSpace} {s core : CoreState}
    {headers : List Phdr} (loaded : Loaded files vn as s headers space core) {heap : HeapReply}
    (made : asCreate heap = .ok (some as)) : HoldsBoth (slotHeaders headers) space := by
  have empty : HoldsBoth (none, none) as := by
    unfold asCreate at made
    split at made
    · cases made
    · split at made
      · cases made
        exact ⟨.unused rfl rfl, .unused rfl rfl⟩
      · cases made
  obtain ⟨middle, defined, noted⟩ := loaded.regions
  exact noted.invariant (fun _ _ _ _ (prev : HoldsBoth _ _) done => prev.record done)
    (HoldsBoth.applied defined empty)

theorem Segment.below_iff (seg : Segment) :
    (∀ addr, seg.Contains addr → addr < userStack) ↔
      seg.vbase + seg.npages * 4096#32 ≤ userStack ∨
        seg.vbase + seg.npages * 4096#32 ≤ seg.vbase := by
  unfold Segment.Contains
  generalize seg.vbase + seg.npages * 4096#32 = top
  constructor
  · intro below
    by_contra out
    have base : seg.vbase ≤ top - 1#32 := by bv_omega
    have last : top - 1#32 < userStack := below (top - 1#32) ⟨base, by bv_omega⟩
    bv_omega
  · rintro ends addr ⟨base, inside⟩
    bv_omega

theorem Holds.below_iff {slot : Option Phdr} {seg : Segment} (holds : Holds slot seg) :
    (∀ addr, seg.Contains addr → addr < userStack) ↔ ∀ ph ∈ slot, ph.BelowKernel := by
  rw [Segment.below_iff]
  cases holds with
  | unused base pages => simp [pages]
  | defined defined => simp [Phdr.BelowKernel, defined.base, defined.pages]

theorem Filesystem.validAddressCheck_user {as : AddrSpace} {addr : Vaddr}
    (accepted : Filesystem.validAddressCheck as addr = true) : addr < userStack :=
  (of_decide_eq_true accepted).1

theorem validAddressCheck_agree {as : AddrSpace} {addr : Vaddr} (user : addr < userStack) :
    Procops.validAddressCheck as addr = Filesystem.validAddressCheck as addr := by
  unfold Procops.validAddressCheck Filesystem.validAddressCheck
  simp only [user, and_true, true_and]

theorem Procops.validAddressCheck_user_iff {as : AddrSpace} :
    (∀ addr, Procops.validAddressCheck as addr = true → addr < userStack) ↔
      (∀ addr, as.seg1.Contains addr → addr < userStack) ∧
        ∀ addr, as.seg2.Contains addr → addr < userStack := by
  constructor
  · intro user
    exact ⟨fun addr here => user addr (decide_eq_true (.inl here)),
      fun addr here => user addr (decide_eq_true (.inr (.inl here)))⟩
  · rintro ⟨first, second⟩ addr accepted
    obtain here | here | here := of_decide_eq_true accepted
    · exact first addr here
    · exact second addr here
    · exact here.2

theorem sysWaitpid_valid {t : ProcTable} {curproc : Proc} {pid : Int} {options status : Word32}
    {valid : Bool} (stored : t.sysWaitpid curproc pid options valid = some (.stored status)) :
    valid = true := by
  unfold ProcTable.sysWaitpid at stored
  split at stored
  · cases stored
  · split at stored
    · cases stored
    · split at stored
      · cases stored
      · rename_i accepted
        exact Bool.eq_true_of_not_eq_false accepted

/-- The two checks are right exactly when both headers end in user space. -/
theorem user_pointer_checks_iff {heap : HeapReply} {as start : AddrSpace}
    (created : asCreate heap = .ok (some as)) {s core : CoreState} {files : Files} {vn : Vnode}
    {entrypoint : Option Vaddr}
    (returned : loadElf files vn as s = .ok (0, entrypoint, start, core)) :
    ∃ headers, Loaded files vn as s headers start core ∧
      (((∀ addr, Procops.validAddressCheck start addr = Filesystem.validAddressCheck start addr) ∧
        (∀ addr, userStack ≤ addr → Procops.validAddressCheck start addr = false ∧
          Filesystem.validAddressCheck start addr = false) ∧
        ∀ (t : ProcTable) (curproc : Proc) (pid : Int) (options status : Word32) (addr : Vaddr),
          t.sysWaitpid curproc pid options (Procops.validAddressCheck start addr) =
            some (.stored status) → addr < userStack) ↔
        (∀ ph ∈ (slotHeaders headers).1, ph.BelowKernel) ∧
          ∀ ph ∈ (slotHeaders headers).2, ph.BelowKernel) := by
  obtain ⟨headers, loaded⟩ := loadElf_ok returned
  have holds := loaded.holds created
  refine ⟨headers, loaded, ?_⟩
  rw [← holds.first.below_iff, ← holds.second.below_iff, ← Procops.validAddressCheck_user_iff]
  constructor
  · rintro ⟨agree, _, _⟩ addr accepted
    exact Filesystem.validAddressCheck_user ((agree addr).symm.trans accepted)
  · intro user
    have refuse (addr : Vaddr) (kernel : userStack ≤ addr) :
        Procops.validAddressCheck start addr = false ∧
          Filesystem.validAddressCheck start addr = false := by
      constructor
      · exact Bool.eq_false_iff.mpr fun accepted =>
          BitVec.not_lt.mpr kernel (user addr accepted)
      · exact Bool.eq_false_iff.mpr fun accepted =>
          BitVec.not_lt.mpr kernel (Filesystem.validAddressCheck_user accepted)
    refine ⟨fun addr => ?_, refuse, fun t curproc pid options status addr stored => ?_⟩
    · by_cases inside : addr < userStack
      · exact validAddressCheck_agree inside
      · obtain ⟨left, right⟩ := refuse addr (BitVec.not_lt.mp inside)
        rw [left, right]
    · exact user addr (sysWaitpid_valid stored)

/-- The small executable loads, and the two checks agree on every address of it. -/
theorem user_pointer_checks_smallElf :
    asCreate ⟨some newSpace, true⟩ = .ok (some newSpace) ∧
      loadElf (fileOf smallElf) 0 newSpace (booted eightFrames fun _ => 0) =
        .ok (0, some 0x400000, smallLoaded.1, smallLoaded.2) ∧
      ∀ addr, Procops.validAddressCheck smallLoaded.1 addr =
        Filesystem.validAddressCheck smallLoaded.1 addr := by
  have created : asCreate ⟨some newSpace, true⟩ = .ok (some newSpace) := rfl
  obtain ⟨headers, loaded, checks⟩ := user_pointer_checks_iff created smallLoaded_eq
  have holds := loaded.holds created
  have first := holds.first.below_iff.mp ((Segment.below_iff _).mpr (.inl (by decide)))
  have second := holds.second.below_iff.mp ((Segment.below_iff _).mpr (.inl (by decide)))
  exact ⟨created, smallLoaded_eq, (checks.mpr ⟨first, second⟩).1⟩

/-- The small executable with its data at the first address of the kernel. -/
def kernelDataElf : List Byte :=
  elfFile 0x400000 [reginfo, smallCode, { smallData with vaddr := 0x80000000 }] [1, 2, 3, 4]

/-- After a load into kernel memory `sys_waitpid` stores a status there. -/
theorem kernel_address_accepted :
    ∃ start core, loadElf (fileOf kernelDataElf) 0 newSpace (booted eightFrames fun _ => 0) =
        .ok (0, some 0x400000, start, core) ∧
      Procops.validAddressCheck start 0x80000000 = true ∧
      Filesystem.validAddressCheck start 0x80000000 = false ∧
      ProcTable.sysWaitpid ⟨[⟨0, 2⟩, shell], [⟨2, -1⟩, ⟨3, -1⟩, ⟨4, 4⟩]⟩ shell 4 0
        (Procops.validAddressCheck start 0x80000000) = some (.stored 4) := by
  have returned : loadElf (fileOf kernelDataElf) 0 newSpace (booted eightFrames fun _ => 0) =
    .ok (0, some 0x400000, _, _) := rfl
  exact ⟨_, _, returned, by decide, by decide, rfl⟩

end Os161.Syscall

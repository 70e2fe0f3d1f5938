import Os161.Vm.Coremap
import Os161.Lib.FirstRun

namespace Os161.Vm
open Word Outcome

/-- The frame is free. -/
def CoreState.IsFree (s : CoreState) (index : Nat) : Prop := (s.coremaps index).state = .free

instance (s : CoreState) : DecidablePred s.IsFree := fun _ => inferInstanceAs (Decidable (_ = _))

/-- The requested number of consecutive free frames starts at this index of the table. -/
def CoreState.FreeRun (s : CoreState) (start length : Nat) : Prop :=
  start + length ≤ s.coremapSize ∧ FirstRun.IsRun s.IsFree start length

/-- The number of frames that `vm_bootstrap` counts. -/
def RamSize.frames (ram : RamSize) : Nat := (ram.hi.toNat - ram.lo.toNat) / pageSize

/-- The number of pages that the table itself takes. -/
def RamSize.tablePages (ram : RamSize) : Nat := (ram.frames * 20 + 4095) / pageSize

theorem RamSize.layout (ram : RamSize) :
    ram.lo.toNat + ram.frames * pageSize = ram.hi.toNat ∧ 1 ≤ ram.frames ∧
      ram.frames ≤ 130048 ∧ 1 ≤ ram.tablePages ∧ ram.tablePages ≤ ram.frames ∧
      ram.hi.toNat ≤ 532676608 ∧ ram.tablePages ≤ 1000 := by
  have low := ram.loAligned
  have high := ram.hiAligned
  have below := BitVec.lt_def.mp ram.nonempty
  have cap := ram.capped
  simp only [Aligned, RamSize.frames, RamSize.tablePages, pageSize] at *
  omega

variable {ram : RamSize}

theorem RamSize.tablePages_of_full (full : ram.frames * 20 % 4096 = 0) :
    ram.tablePages = ram.frames * 20 / 4096 := by
  simp only [RamSize.tablePages, pageSize]
  omega

theorem RamSize.tablePages_of_rest (rest : ram.frames * 20 % 4096 ≠ 0) :
    ram.tablePages = ram.frames * 20 / 4096 + 1 := by
  simp only [RamSize.tablePages, pageSize]
  omega

/-- The state keeps the layout of the booted table and every frame it has released is clean. -/
structure CoreState.WellFormed (ram : RamSize) (s : CoreState) : Prop where
  size : s.coremapSize = ram.frames
  start : s.pageStart.toNat = ram.lo.toNat + ram.tablePages * pageSize
  origin : s.freeaddr = s.pageStart
  top : s.paddrMax = ram.hi
  address : ∀ index < s.coremapSize,
    (s.coremaps index).pa.toNat = s.pageStart.toNat + index * pageSize
  initialised : s.afterInit = true
  unlocked : s.stealmemLock = false
  cursor : s.ref = -1 ∨ (0 ≤ s.ref ∧ s.ref < s.coremapSize)
  clear : ∀ index < s.coremapSize, s.IsFree index → (s.coremaps index).pageNum = 0

theorem booted_size (ram : RamSize) (mem : Nat → Byte) :
    (booted ram mem).coremapSize = ram.frames := by
  change ((ram.hi - ram.lo) / 4096#32).toNat = _
  rw [BitVec.toNat_udiv, BitVec.toNat_sub_of_le (BitVec.le_of_lt ram.nonempty)]
  rfl

theorem booted_pageStart (ram : RamSize) (mem : Nat → Byte) :
    (booted ram mem).pageStart.toNat = ram.lo.toNat + ram.tablePages * pageSize := by
  obtain ⟨total, one, many, _, fits, top, _⟩ := ram.layout
  have inside : ram.lo.toNat + ram.tablePages * pageSize < 2 ^ 32 := by
    simp only [pageSize] at *
    omega
  have count : ((ram.hi - ram.lo) / 4096#32).toNat = ram.frames := booted_size ram mem
  have bytes : ((ram.hi - ram.lo) / 4096#32 * coremapBytes).toNat = ram.frames * 20 := by
    rw [BitVec.toNat_mul, count]
    change ram.frames * 20 % 2 ^ 32 = _
    omega
  change (if (ram.hi - ram.lo) / 4096#32 * coremapBytes % 4096#32 ≠ 0 then
      ram.lo + (4096#32 + pageMask ((ram.hi - ram.lo) / 4096#32 * coremapBytes))
    else ram.lo + pageMask ((ram.hi - ram.lo) / 4096#32 * coremapBytes)).toNat = _
  by_cases rest : (ram.hi - ram.lo) / 4096#32 * coremapBytes % 4096#32 = 0
  · have remainder : ram.frames * 20 % 4096 = 0 := by
      have zero := congrArg BitVec.toNat rest
      rw [BitVec.toNat_umod, bytes] at zero
      exact zero
    have masked : (pageMask ((ram.hi - ram.lo) / 4096#32 * coremapBytes)).toNat =
        ram.tablePages * pageSize := by
      rw [pageMask_toNat, bytes, RamSize.tablePages_of_full remainder]
    rw [if_neg (not_not.mpr rest), BitVec.toNat_add, masked, Nat.mod_eq_of_lt inside]
  · have remainder : ram.frames * 20 % 4096 ≠ 0 := by
      intro zero
      apply rest
      apply BitVec.eq_of_toNat_eq
      rw [BitVec.toNat_umod, bytes]
      exact zero
    have inner : (4096#32 + pageMask ((ram.hi - ram.lo) / 4096#32 * coremapBytes)).toNat =
        ram.tablePages * pageSize := by
      rw [BitVec.toNat_add, pageMask_toNat, bytes, BitVec.toNat_ofNat,
        RamSize.tablePages_of_rest remainder]
      simp only [pageSize]
      omega
    rw [if_pos rest, BitVec.toNat_add, inner, Nat.mod_eq_of_lt inside]

theorem frame_toNat {base : Paddr} (start : base.toNat = ram.lo.toNat + ram.tablePages * pageSize)
    (inside : index < ram.frames) :
    (base + BitVec.ofNat 32 (index * pageSize)).toNat = base.toNat + index * pageSize := by
  obtain ⟨total, one, many, _, _, top, _⟩ := ram.layout
  rw [BitVec.toNat_add, BitVec.toNat_ofNat]
  simp only [pageSize] at *
  omega

theorem booted_frame (ram : RamSize) (mem : Nat → Byte) (index : Nat)
    (inside : index < (booted ram mem).coremapSize) :
    (booted ram mem).coremaps index =
      { pa := (booted ram mem).pageStart + BitVec.ofNat 32 (index * pageSize),
        state := .free, owner := .no, pageNum := 0 } :=
  if_pos inside

theorem booted_free (ram : RamSize) (mem : Nat → Byte) (index : Nat)
    (inside : index < (booted ram mem).coremapSize) : (booted ram mem).IsFree index := by
  rw [CoreState.IsFree, booted_frame ram mem index inside]

theorem booted_wellFormed (ram : RamSize) (mem : Nat → Byte) :
    (booted ram mem).WellFormed ram where
  size := booted_size ram mem
  start := booted_pageStart ram mem
  origin := rfl
  top := rfl
  address := by
    intro index inside
    have start := booted_pageStart ram mem
    have small := booted_size ram mem ▸ inside
    rw [booted_frame ram mem index inside, frame_toNat start small]
  initialised := rfl
  unlocked := rfl
  cursor := .inl rfl
  clear := by
    intro index inside _
    rw [booted_frame ram mem index inside]

theorem scanLoop_scan (s : CoreState) (length todo i count : Nat) (rpa : Paddr)
    (within : count ≤ i) (remembered : count ≠ 0 → rpa = (s.coremaps (i - count)).pa) :
    (scanLoop s.coremaps length todo i count rpa).1 =
        FirstRun.scan s.IsFree length todo i count ∧
      ∀ last, FirstRun.scan s.IsFree length todo i count = some last →
        (scanLoop s.coremaps length todo i count rpa).2 =
          (s.coremaps (last + 1 - length)).pa := by
  induction todo generalizing i count rpa with
  | zero => simp [scanLoop, FirstRun.scan]
  | succ todo ih =>
    have first : (if count = 0 then (s.coremaps i).pa else rpa) = (s.coremaps (i - count)).pa := by
      split
      · rename_i none
        rw [none, Nat.sub_zero]
      · rename_i some
        exact remembered some
    by_cases hit : s.IsFree i
    · have state : (s.coremaps i).state = .free := hit
      by_cases complete : count + 1 = length
      · simp only [scanLoop, FirstRun.scan, hit, state, complete, if_true]
        refine ⟨trivial, ?_⟩
        intro last found
        obtain rfl : i = last := by simpa using found
        rw [first, ← complete, Nat.add_sub_add_right]
      · simp only [scanLoop, FirstRun.scan, Nat.cast_inj, hit, state, complete]
        refine ih (i + 1) (count + 1) _ (by omega) ?_
        intro _
        rw [first, Nat.add_sub_add_right]
    · have state : (s.coremaps i).state ≠ .free := hit
      simp only [scanLoop, FirstRun.scan, hit, state]
      exact ih (i + 1) 0 rpa (Nat.zero_le _) (fun impossible => absurd rfl impossible)

theorem scanLoop_negative (coremaps : Nat → Coremap) (negative : npages < 0) (todo i count : Nat)
    (rpa : Paddr) : (scanLoop coremaps npages todo i count rpa).1 = none := by
  induction todo generalizing i count rpa with
  | zero => rfl
  | succ todo ih =>
    have differ : ((count + 1 : Nat) : Int) ≠ npages := by omega
    simp only [scanLoop]
    split
    · exact ih _ _ _
    · exact ih _ _ _

theorem markLoop_entry (npages : Int) (owner : FrameOwner) (i todo j : Nat)
    (coremaps : Nat → Coremap) (bound : j + todo ≤ i + 1) (k : Nat) :
    markLoop npages owner i todo j coremaps k =
      { pa := (coremaps k).pa
        state := if k + j ≤ i ∧ i < k + j + todo then .used else (coremaps k).state
        owner := if k = i ∧ 0 < todo then owner else (coremaps k).owner
        pageNum := if k = i ∧ 0 < todo then npages else (coremaps k).pageNum } := by
  induction todo generalizing j coremaps with
  | zero =>
    have out : ¬ (k + j ≤ i ∧ i < k + j) := by omega
    simp [markLoop, out]
  | succ todo ih =>
    rw [markLoop, ih (j + 1) _ (by omega)]
    by_cases last : k = i
    · subst k
      by_cases now : j = 0
      · subst j
        simp
      · have away : i ≠ i - j := by omega
        have late : ¬ i + j ≤ i := by omega
        have later : ¬ i + (j + 1) ≤ i := by omega
        simp [away, late]
    · by_cases here : k = i - j
      · subst k
        have now : i - j + j ≤ i ∧ i < i - j + j + (todo + 1) := by omega
        have past : ¬ (i - j + (j + 1) ≤ i ∧ i < i - j + (j + 1) + todo) := by omega
        simp [last, now]
      · have same : (k + (j + 1) ≤ i ∧ i < k + (j + 1) + todo) ↔
            (k + j ≤ i ∧ i < k + j + (todo + 1)) := by omega
        simp [last, here, same]

/-- The effect of a served request on the table and the cursor. -/
def CoreState.claim (s : CoreState) (start length : Nat) (owner : FrameOwner) : CoreState :=
  { s with
    coremaps := markLoop length owner (start + length - 1) length 0 s.coremaps
    ref := if s.ref = -1 then ((start + length - 1 : Nat) : Int) else s.ref }

variable {start length : Nat}

theorem CoreState.claim_state (s : CoreState) (pos : 0 < length) (owner : FrameOwner) (k : Nat) :
    ((s.claim start length owner).coremaps k).state =
      if start ≤ k ∧ k < start + length then .used else (s.coremaps k).state := by
  have same : (k + 0 ≤ start + length - 1 ∧ start + length - 1 < k + 0 + length) ↔
      (start ≤ k ∧ k < start + length) := by omega
  dsimp only [claim]
  rw [markLoop_entry _ _ _ _ _ _ (by omega)]
  simp only [same]

theorem CoreState.claim_pageNum (s : CoreState) (pos : 0 < length) (owner : FrameOwner)
    (k : Nat) :
    ((s.claim start length owner).coremaps k).pageNum =
      if k = start + length - 1 then (length : Int) else (s.coremaps k).pageNum := by
  dsimp only [claim]
  rw [markLoop_entry _ _ _ _ _ _ (by omega)]
  simp only [pos, and_true]

@[simp] theorem CoreState.claim_pa (s : CoreState) (start length : Nat) (owner : FrameOwner)
    (k : Nat) :
    ((s.claim start length owner).coremaps k).pa = (s.coremaps k).pa := by
  dsimp only [claim]
  rw [markLoop_entry _ _ _ _ _ _ (by omega)]

/-- The guard at the end of `getppages` looks only at the first frame of the run. -/
def CoreState.granted (s : CoreState) (start : Nat) : Paddr :=
  if s.paddrMax - 4096#32 ≤ (s.coremaps start).pa then 0 else (s.coremaps start).pa

variable {s : CoreState}

theorem CoreState.WellFormed.index (formed : s.WellFormed ram) {index : Nat}
    (inside : index < s.coremapSize) :
    (((s.coremaps index).pa - s.pageStart) / 4096#32).toNat = index := by
  have addr := formed.address index inside
  have ordered : s.pageStart ≤ (s.coremaps index).pa := by
    rw [BitVec.le_def]
    omega
  rw [BitVec.toNat_udiv, BitVec.toNat_sub_of_le ordered, addr]
  change (s.pageStart.toNat + index * 4096 - s.pageStart.toNat) / 4096 = index
  omega

theorem findFreeFrame_replacement (formed : s.WellFormed ram) {npages : Int} (owner : FrameOwner)
    (gone : (scanLoop s.coremaps npages s.coremapSize 0 0 0).1 = none) :
    findFreeFrame npages owner { s with stealmemLock := true } =
      .error (if s.ref = -1 then .badIndex (-1) else .deadlock) := by
  have missed : scanLoop s.coremaps npages s.coremapSize 0 0 0 =
      (none, (scanLoop s.coremaps npages s.coremapSize 0 0 0).2) := Prod.ext gone rfl
  unfold findFreeFrame
  rw [missed]
  simp only [formed.initialised]
  rcases formed.cursor with unset | ⟨lower, upper⟩
  · simp [CoreState.coremapAt, unset]
  · have set : s.ref ≠ -1 := by omega
    have inside : s.ref.toNat < s.coremapSize := by omega
    have index := formed.index inside
    have entry : 0 ≤ ((s.ref.toNat : Nat) : Int) ∧ ((s.ref.toNat : Nat) : Int) < s.coremapSize := by omega
    simp only [CoreState.coremapAt, lower, upper, and_self, if_true, ok_bind, set, if_false,
      freeppages, index, entry, CoreState.spinlockAcquire, error_bind]

theorem findFreeFrame_cases (s : CoreState) (pos : 0 < length) (owner : FrameOwner) :
    (∃ start, s.FreeRun start length ∧ (∀ other, s.FreeRun other length → start ≤ other) ∧
      findFreeFrame length owner s = .ok ((s.coremaps start).pa, s.claim start length owner)) ∨
    ((∀ start, ¬ s.FreeRun start length) ∧
      (scanLoop s.coremaps length s.coremapSize 0 0 0).1 = none) := by
  have counted := FirstRun.Counted.start s.IsFree pos
  obtain ⟨same, remembered⟩ := scanLoop_scan s length s.coremapSize 0 0 0 (Nat.le_refl 0)
    (fun impossible => absurd rfl impossible)
  cases found : FirstRun.scan s.IsFree length s.coremapSize 0 0 with
  | none =>
    right
    refine ⟨?_, same.trans found⟩
    rintro start ⟨bound, run⟩
    exact FirstRun.scan_none counted found start (by omega) run
  | some last =>
    left
    obtain ⟨long, prev, run, lowest⟩ := FirstRun.scan_some counted found
    have scanned : scanLoop s.coremaps length s.coremapSize 0 0 0 =
        (some last, (s.coremaps (last + 1 - length)).pa) :=
      Prod.ext (same.trans found) (remembered last found)
    refine ⟨last + 1 - length, ⟨by omega, run⟩, ?_, ?_⟩
    · rintro other ⟨_, otherRun⟩
      by_contra lower
      have := lowest other otherRun (by omega)
      omega
    · have final : last + 1 - length + length - 1 = last := by omega
      rw [findFreeFrame, scanned]
      simp only [Int.toNat_natCast, CoreState.claim, final]

section

variable (formed : s.WellFormed ram)
include formed

theorem getppages_cases (pos : npages ≠ 0) (owner : FrameOwner) :
    (∃ start, s.FreeRun start npages.toNat ∧
      (∀ other, s.FreeRun other npages.toNat → start ≤ other) ∧
      getppages npages owner s = .ok (s.granted start, s.claim start npages.toNat owner)) ∨
    ((∀ start, ¬ s.FreeRun start npages.toNat) ∧
      getppages npages owner s = .error (if s.ref = -1 then .badIndex (-1) else .deadlock)) := by
  have length : 0 < npages.toNat := by
    by_contra zero
    exact pos (BitVec.eq_of_toNat_eq (by simpa using zero))
  have acquired : s.spinlockAcquire = .ok { s with stealmemLock := true } := by
    simp [CoreState.spinlockAcquire, formed.unlocked]
  have replaced (gone : (scanLoop s.coremaps npages.toInt s.coremapSize 0 0 0).1 = none) :
      getppages npages owner s = .error (if s.ref = -1 then .badIndex (-1) else .deadlock) := by
    rw [getppages, acquired, ok_bind, if_neg pos,
      findFreeFrame_replacement formed owner gone, error_bind]
  obtain ⟨_, _, frames, _⟩ := ram.layout
  have size := formed.size
  by_cases small : npages.toNat < 2 ^ 31
  · have signed : npages.toInt = npages.toNat := by
      rw [BitVec.toInt_eq_toNat_of_lt (by omega)]
    rw [signed] at replaced
    rcases findFreeFrame_cases { s with stealmemLock := true } length owner with
      ⟨start, run, lowest, found⟩ | ⟨gone, missed⟩
    · refine .inl ⟨start, run, lowest, ?_⟩
      rw [getppages, acquired, ok_bind, signed, found]
      simp only [ok_bind, CoreState.spinlockRelease, pure_ok, CoreState.granted, CoreState.claim,
        formed.initialised, pos, ne_eq, not_false_eq_true, true_and, and_false, if_false,
        Bool.true_eq_false]
      split <;> simp only [formed.unlocked]
    · exact .inr ⟨gone, replaced missed⟩
  · right
    have negative : npages.toInt < 0 := by
      rw [BitVec.toInt_eq_toNat_cond]
      split <;> omega
    refine ⟨?_, replaced (scanLoop_negative _ negative _ _ _ _)⟩
    rintro start ⟨bound, _⟩
    omega

theorem getppages_zero (owner : FrameOwner) : getppages 0 owner s = .ok (0, s) := by
  have unlocked := formed.unlocked
  have ready := formed.initialised
  simp only [getppages, CoreState.spinlockAcquire, unlocked, Bool.false_eq_true, if_false, ok_bind,
    if_true, CoreState.spinlockRelease, pure_ok, ne_eq, not_true_eq_false, false_and, ready,
    Bool.true_eq_false, and_false]
  rw [← unlocked, ← ready]

theorem freeppages_empty {index : Nat} (inside : index < s.coremapSize)
    (length : (s.coremaps index).pageNum = 0) : freeppages (s.coremaps index).pa s = .ok s := by
  have unlocked := formed.unlocked
  simp only [freeppages, formed.index inside, CoreState.coremapAt, Nat.cast_nonneg, Nat.cast_lt,
    inside, and_self, if_true, ok_bind, Int.toNat_natCast, length, Int.toNat_zero, freeLoop,
    CoreState.spinlockAcquire, unlocked, Bool.false_eq_true, if_false, CoreState.spinlockRelease,
    pure_ok]
  rw [← unlocked]

theorem freeppages_single {index : Nat} (inside : index < s.coremapSize)
    (length : (s.coremaps index).pageNum = 1) :
    freeppages (s.coremaps index).pa s = .ok (s.freeFrame index) := by
  have unlocked := formed.unlocked
  simp only [freeppages, formed.index inside, CoreState.coremapAt, Nat.cast_nonneg, Nat.cast_lt,
    inside, and_self, if_true, ok_bind, Int.toNat_natCast, length, Int.toNat_one, freeLoop,
    CoreState.spinlockAcquire, unlocked, Bool.false_eq_true, if_false, CoreState.spinlockRelease,
    pure_ok, Nat.zero_add, CoreState.freeFrame]

theorem CoreState.WellFormed.claim (positive : 0 < length) (run : s.FreeRun start length) (owner : FrameOwner) :
    (s.claim start length owner).WellFormed ram :=
  { formed with
    address := by
      intro index inside
      rw [claim_pa]
      exact formed.address index inside
    cursor := by
      have bound := run.1
      by_cases unset : s.ref = -1
      · right
        simp only [CoreState.claim]
        omega
      · simp only [CoreState.claim, unset, if_false, false_or]
        exact formed.cursor.resolve_left unset
    clear := by
      intro index inside free
      rw [IsFree, claim_state s positive] at free
      rw [claim_pageNum s positive]
      split at free
      · cases free
      · rw [if_neg (by omega)]
        exact formed.clear index inside free }

theorem CoreState.WellFormed.freeFrame (freed : Nat) : (s.freeFrame freed).WellFormed ram :=
  { formed with
    address := by
      intro index inside
      have address := formed.address index inside
      by_cases same : index = freed
      · subst freed
        simpa [CoreState.freeFrame] using address
      · simpa [CoreState.freeFrame, same] using address
    clear := by
      intro index inside free
      by_cases same : index = freed
      · subst freed
        simp [CoreState.freeFrame]
      · simp only [CoreState.freeFrame, IsFree, Function.update_of_ne same] at free ⊢
        exact formed.clear index inside free }

end

end Os161.Vm

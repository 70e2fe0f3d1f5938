import Os161.Vm.CoremapSpec
import Os161.Lib.Bytes
import Os161.Lib.Intervals
import Os161.Lib.Transition

namespace Os161.Vm
open Word Outcome Intervals Transition List

/-- The first address that the allocator manages. -/
def RamSize.base (ram : RamSize) : Nat := ram.lo.toNat + ram.tablePages * pageSize

/-- The frame number of an address. -/
def RamSize.index (ram : RamSize) (paddr : Paddr) : Nat := (paddr.toNat - ram.base) / pageSize

/-- The frames of one live address. -/
def RamSize.interval (ram : RamSize) (entry : Paddr × Word32) : Interval :=
  ⟨ram.index entry.1, entry.2.toNat⟩

/-- A live address is the first frame of its run, and the entry there records a length only for
a single frame. -/
structure CoreState.Holds (ram : RamSize) (s : CoreState) (entry : Paddr × Word32) : Prop where
  positive : 0 < entry.2.toNat
  inside : ram.index entry.1 + entry.2.toNat ≤ s.coremapSize
  address : (s.coremaps (ram.index entry.1)).pa = entry.1
  length : (s.coremaps (ram.index entry.1)).pageNum = if entry.2 = 1 then 1 else 0

/-- The invariant ties the frame states to the ghost list of live addresses. -/
structure CoreConf.Inv (ram : RamSize) (conf : CoreConf) : Prop where
  formed : conf.state.WellFormed ram
  holds : ∀ entry ∈ conf.live, conf.state.Holds ram entry
  tenancy : Tenancy (fun index => ¬ conf.state.IsFree index) (conf.live.map ram.interval)

/-- The allocator as `vm_bootstrap` leaves it, before any request. -/
def initialConf (ram : RamSize) (mem : Nat → Byte) : CoreConf := ⟨booted ram mem, []⟩

theorem initialConf_inv (ram : RamSize) (mem : Nat → Byte) : (initialConf ram mem).Inv ram where
  formed := booted_wellFormed ram mem
  holds := by simp [initialConf]
  tenancy := Tenancy.empty _

variable {ram : RamSize} {s : CoreState}

theorem CoreState.WellFormed.ramIndex (formed : s.WellFormed ram) {index : Nat}
    (inside : index < s.coremapSize) : ram.index (s.coremaps index).pa = index := by
  have addr := formed.address index inside
  have start := formed.start
  simp only [RamSize.index, RamSize.base, pageSize] at *
  omega

variable {conf : CoreConf} {entry : Paddr × Word32}

theorem CoreConf.Inv.used (inv : conf.Inv ram) (member : entry ∈ conf.live) {offset : Nat}
    (small : offset < entry.2.toNat) : ¬ conf.state.IsFree (ram.index entry.1 + offset) := by
  apply inv.tenancy.within (ram.interval entry) (mem_map_of_mem member)
  constructor
  · exact Nat.le_add_right _ _
  · exact Nat.add_lt_add_left small _

variable {start : Nat}

theorem CoreState.Holds.claim (held : s.Holds ram entry) (used : ¬ s.IsFree (ram.index entry.1))
    {length : Nat} (positive : 0 < length) (run : s.FreeRun start length) (owner : FrameOwner) :
    (s.claim start length owner).Holds ram entry where
  positive := held.positive
  inside := held.inside
  address := by
    rw [claim_pa]
    exact held.address
  length := by
    rw [claim_pageNum s positive, if_neg]
    · exact held.length
    · intro last
      apply used
      rw [last, show start + length - 1 = start + (length - 1) by omega]
      exact run.2 (length - 1) (by omega)

theorem CoreState.WellFormed.holds_claim (formed : s.WellFormed ram) {npages : Word32}
    (pos : 0 < npages.toNat) (run : s.FreeRun start npages.toNat) (owner : FrameOwner) :
    (s.claim start npages.toNat owner).Holds ram ((s.coremaps start).pa, npages) := by
  have bound := run.1
  have here : ram.index (s.coremaps start).pa = start := formed.ramIndex (by omega)
  refine ⟨pos, ?_, ?_, ?_⟩
  · rw [here]
    exact bound
  · rw [here, claim_pa]
  · have clear := formed.clear start (by omega) (run.2 0 pos)
    rw [here, claim_pageNum s pos]
    by_cases single : npages = 1
    · subst npages
      simp
    · have differ : npages.toNat ≠ 1 := fun one => single (BitVec.eq_of_toNat_eq one)
      rw [if_neg (by omega), if_neg single, clear]

theorem CoreState.claim_used (s : CoreState) {len : Nat} (pos : 0 < len)
    (owner : FrameOwner) {index : Nat} (used : ¬ s.IsFree index) :
    ¬ (s.claim start len owner).IsFree index := by
  intro free
  rw [IsFree, claim_state s pos] at free
  split at free
  · cases free
  · exact used free

theorem CoreState.granted_eq (accepted : s.granted start ≠ 0) :
    s.granted start = (s.coremaps start).pa := by
  unfold granted at accepted ⊢
  split at accepted
  · exact absurd rfl accepted
  · rename_i passed
    rw [if_neg passed]

section

variable (inv : conf.Inv ram)
include inv

theorem CoreConf.Inv.claim {npages : Word32} (positive : 0 < npages.toNat)
    (run : conf.state.FreeRun start npages.toNat) (owner : FrameOwner) :
    CoreConf.Inv ram ⟨conf.state.claim start npages.toNat owner,
      if conf.state.granted start = 0 then conf.live
      else (conf.state.granted start, npages) :: conf.live⟩ := by
  have formed := inv.formed.claim positive run owner
  have kept : ∀ entry ∈ conf.live,
      (conf.state.claim start npages.toNat owner).Holds ram entry := by
    intro entry member
    have held := inv.holds entry member
    exact held.claim (inv.used member held.positive) positive run owner
  have grown : ∀ index, ¬ conf.state.IsFree index →
      ¬ (conf.state.claim start npages.toNat owner).IsFree index :=
    fun index used => conf.state.claim_used positive owner used
  by_cases refused : conf.state.granted start = 0
  · rw [if_pos refused]
    exact ⟨formed, kept, inv.tenancy.grow grown⟩
  · have bound := run.1
    have here : ram.index (conf.state.coremaps start).pa = start := inv.formed.ramIndex (by omega)
    rw [if_neg refused, CoreState.granted_eq refused]
    refine ⟨formed, ?_, ?_⟩
    · intro entry member
      rcases mem_cons.mp member with rfl | old
      · exact inv.formed.holds_claim positive run owner
      · exact kept entry old
    · refine inv.tenancy.grant positive ?_ ?_
      · intro pos covered
        simp only [RamSize.interval, Interval.Covers] at covered
        have free := run.2 (pos - start) (by omega)
        rw [show start + (pos - start) = pos by omega] at free
        exact not_not.mpr free
      · intro pos occupied free
        rcases occupied with used | covered
        · exact grown pos used free
        · simp only [RamSize.interval, Interval.Covers, here] at covered
          rw [CoreState.IsFree, CoreState.claim_state _ positive, if_pos covered] at free
          cases free

section

variable (member : entry ∈ conf.live)
include member

theorem CoreConf.Inv.freeppages_eq :
    freeppages entry.1 conf.state =
      .ok (if entry.2 = 1 then conf.state.freeFrame (ram.index entry.1) else conf.state) := by
  have held := inv.holds entry member
  have pos := held.positive
  have bound := held.inside
  have len := held.length
  have inside : ram.index entry.1 < conf.state.coremapSize := by omega
  by_cases single : entry.2 = 1
  · rw [if_pos single] at len ⊢
    rw [← freeppages_single inv.formed inside len, held.address]
  · rw [if_neg single] at len ⊢
    rw [← freeppages_empty inv.formed inside len, held.address]

theorem CoreConf.Inv.tenancy_erase :
    Tenancy (fun index => ¬ conf.state.IsFree index)
      (ram.interval entry :: (conf.live.erase entry).map ram.interval) :=
  inv.tenancy.perm ((perm_cons_erase member).map ram.interval)

theorem CoreConf.Inv.erase_index_ne (todo : other ∈ conf.live.erase entry) :
    ram.index other.1 ≠ ram.index entry.1 := by
  have apart := (pairwise_cons.mp (inv.tenancy_erase member).apart).1 (ram.interval other)
    (mem_map_of_mem todo)
  have entryPositive := (inv.holds entry member).positive
  have otherPositive := (inv.holds other (mem_of_mem_erase todo)).positive
  simp only [Interval.Apart, RamSize.interval] at apart
  omega

theorem CoreConf.Inv.release :
    CoreConf.Inv ram
      ⟨if entry.2 = 1 then conf.state.freeFrame (ram.index entry.1) else conf.state,
        conf.live.erase entry⟩ := by
  have tenancy := inv.tenancy_erase member
  by_cases single : entry.2 = 1
  · rw [if_pos single]
    refine ⟨inv.formed.freeFrame _, ?_, ?_⟩
    · intro other todo
      have held := inv.holds other (mem_of_mem_erase todo)
      have differ := inv.erase_index_ne member todo
      refine ⟨held.positive, held.inside, ?_, ?_⟩
      · simpa [CoreState.freeFrame, differ] using held.address
      · simpa [CoreState.freeFrame, differ] using held.length
    · refine tenancy.release ?_
      intro pos used out free
      have differ : pos ≠ ram.index entry.1 := by
        intro same
        apply out
        simp [Interval.Covers, RamSize.interval, same, single]
      apply used
      simpa [CoreState.IsFree, CoreState.freeFrame, differ] using free
  · rw [if_neg single]
    refine ⟨inv.formed, ?_, tenancy.release fun pos used _ => used⟩
    intro other todo
    exact inv.holds other (mem_of_mem_erase todo)

end

theorem CoreConf.Inv.withMem (mem : Nat → Byte) :
    CoreConf.Inv ram ⟨{ conf.state with mem := mem }, conf.live⟩ where
  formed := { inv.formed with }
  holds := fun entry member => { inv.holds entry member with }
  tenancy := inv.tenancy

end

theorem CoreStep.inv {next : CoreConf} {op : CoreOp} (step : CoreStep conf op next)
    (inv : conf.Inv ram) : next.Inv ram := by
  cases step with
  | @getppages npages owner addr state ran =>
    by_cases zero : npages = 0
    · subst npages
      rw [getppages_zero inv.formed] at ran
      cases ran
      simpa using inv
    · have pos : 0 < npages.toNat := by
        by_contra none
        exact zero (BitVec.eq_of_toNat_eq (by simpa using none))
      obtain ⟨start, run, _, served⟩ | ⟨_, failed⟩ := getppages_cases inv.formed zero owner
      · rw [served] at ran
        cases ran
        exact inv.claim pos run owner
      · rw [failed] at ran
        cases ran
  | @freeppages paddr npages state held ran =>
    rw [inv.freeppages_eq held] at ran
    cases ran
    exact inv.release held
  | store held above below => exact inv.withMem _

variable {mem : Nat → Byte}

theorem reached_inv {ops : List CoreOp} (run : Run CoreStep (initialConf ram mem) ops conf) :
    conf.Inv ram :=
  run.invariant (fun _ _ _ inv step => step.inv inv) (initialConf_inv ram mem)

/-- Some sequence of calls leads from the booted allocator to the state. -/
def CoreConf.Reachable (ram : RamSize) (mem : Nat → Byte) (conf : CoreConf) : Prop :=
  ∃ ops, Run CoreStep (initialConf ram mem) ops conf

theorem CoreConf.Reachable.inv (reachable : conf.Reachable ram mem) : conf.Inv ram := by
  obtain ⟨ops, run⟩ := reachable
  exact reached_inv run

theorem CoreConf.Reachable.step {next : CoreConf} (reachable : conf.Reachable ram mem) {op : CoreOp}
    (moved : CoreStep conf op next) : next.Reachable ram mem := by
  obtain ⟨ops, run⟩ := reachable
  exact ⟨ops ++ [op], run.append (.single moved)⟩

theorem CoreConf.Reachable.stores (reachable : conf.Reachable ram mem) (held : entry ∈ conf.live)
    {base : Nat} (above : entry.1.toNat ≤ base) {data : List Byte}
    (below : base + data.length ≤ entry.1.toNat + entry.2.toNat * pageSize) :
    CoreConf.Reachable ram mem
      ⟨{ conf.state with mem := Bytes.store base data conf.state.mem }, conf.live⟩ := by
  induction data generalizing base conf with
  | nil => exact reachable
  | cons byte rest ih =>
    rw [length_cons] at below
    have written := reachable.step
      (show CoreStep conf (.store base byte) _ from .store held above (by omega))
    exact ih written held (by omega) (by omega)

end Os161.Vm

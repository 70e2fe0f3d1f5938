import Os161.Vm.Regions
import Mathlib.Data.Finset.Card
import Mathlib.Order.Interval.Finset.Nat

namespace Os161.Vm
open Word Outcome Transition Finset

def freeKpages (addr : Vaddr) (s : CoreState) : Kernel CoreState :=
  freeppages (addr - 0x80000000#32) s

/-- The frames whose state in the table is `USED`. -/
def CoreState.usedFrames (s : CoreState) : Finset Nat :=
  (Finset.range s.coremapSize).filter fun index => (s.coremaps index).state = .used

variable {s : CoreState}

theorem CoreState.mem_usedFrames : index ∈ s.usedFrames ↔ index < s.coremapSize ∧ ¬ s.IsFree index := by
  rw [usedFrames, mem_filter, mem_range, IsFree]
  cases (s.coremaps index).state <;> simp

theorem CoreState.usedFrames_claim (pos : 0 < len) (run : s.FreeRun start len)
    (owner : FrameOwner) :
    (s.claim start len owner).usedFrames =
      s.usedFrames ∪ Finset.Ico start (start + len) := by
  have bound := run.1
  ext index
  have size : (s.claim start len owner).coremapSize = s.coremapSize := rfl
  rw [mem_union, mem_usedFrames, mem_usedFrames, mem_Ico, size, IsFree,
    claim_state s pos]
  by_cases covered : start ≤ index ∧ index < start + len
  · rw [if_pos covered]
    simp only [covered, and_self, or_true, iff_true]
    exact ⟨by omega, by decide⟩
  · simp only [covered, or_false]
    exact Iff.rfl

theorem CoreState.FreeRun.disjoint (run : s.FreeRun start len) :
    Disjoint s.usedFrames (Finset.Ico start (start + len)) := by
  rw [disjoint_left]
  intro index used covered
  rw [mem_Ico] at covered
  have free := run.2 (index - start) (by omega)
  rw [show start + (index - start) = index by omega] at free
  exact (mem_usedFrames.mp used).2 free

variable {ram : RamSize} {core : CoreState} {npages : Word32}

theorem CoreState.WellFormed.getppages_usedFrames (formed : s.WellFormed ram)
    (served : getppages npages owner s = .ok (addr, core)) :
    s.usedFrames ⊆ core.usedFrames ∧
      (addr ≠ 0 → core.usedFrames.card = s.usedFrames.card + npages.toNat) := by
  by_cases zero : npages = 0
  · subst npages
    rw [getppages_zero formed] at served
    cases served
    exact ⟨Finset.Subset.refl _, fun nonzero => absurd rfl nonzero⟩
  · have pos : 0 < npages.toNat := by
      by_contra none
      exact zero (BitVec.eq_of_toNat_eq (by simpa using none))
    obtain ⟨start, run, _, ran⟩ | ⟨_, failed⟩ := getppages_cases formed zero owner
    · rw [ran] at served
      cases served
      rw [usedFrames_claim pos run]
      refine ⟨subset_union_left, fun _ => ?_⟩
      rw [card_union_of_disjoint run.disjoint, Nat.card_Ico, Nat.add_sub_cancel_left]
    · rw [failed] at served
      cases served

variable {conf : CoreConf} {next : CoreState}

theorem CoreConf.Inv.freeppages_usedFrames {ram : RamSize} {conf : CoreConf} (inv : conf.Inv ram)
    {entry : Paddr × Word32} (mem : entry ∈ conf.live) {next : CoreState}
    (ran : freeppages entry.1 conf.state = .ok next) :
    conf.state.usedFrames.card ≤ next.usedFrames.card + entry.2.toNat := by
  rw [inv.freeppages_eq mem] at ran
  cases ran
  by_cases single : entry.2 = 1
  · rw [if_pos single, single]
    have freed : conf.state.usedFrames.erase (ram.index entry.1) ⊆
        (conf.state.freeFrame (ram.index entry.1)).usedFrames := by
      intro index other
      obtain ⟨differ, used⟩ := mem_erase.mp other
      rw [CoreState.mem_usedFrames] at used ⊢
      simpa [CoreState.IsFree, CoreState.freeFrame, differ] using used
    have fewer := card_le_card freed
    have erased := pred_card_le_card_erase (s := conf.state.usedFrames)
      (a := ram.index entry.1)
    rw [show (1 : Word32).toNat = 1 from rfl]
    omega
  · rw [if_neg single]
    exact Nat.le_add_right _ _

/-- The allocator has served requests from this configuration and has freed nothing. -/
def CoreConf.GrowsTo (ram : RamSize) (conf : CoreConf) (core : CoreState) : Prop :=
  ∃ live, CoreConf.Inv ram ⟨core, live⟩ ∧ conf.live ⊆ live ∧
    conf.state.usedFrames ⊆ core.usedFrames

theorem CoreConf.Inv.growsTo (inv : conf.Inv ram) : conf.GrowsTo ram conf.state :=
  ⟨conf.live, inv, List.Subset.refl _, Finset.Subset.refl _⟩

section

variable (grown : conf.GrowsTo ram core)
include grown

theorem CoreConf.GrowsTo.withMem (mem : Nat → Byte) : conf.GrowsTo ram { core with mem := mem } := by
  obtain ⟨live, inv, kept, used⟩ := grown
  exact ⟨live, inv.withMem mem, kept, used⟩

theorem CoreConf.GrowsTo.getppages (served : getppages npages owner core = .ok (addr, next)) :
    conf.GrowsTo ram next := by
  obtain ⟨live, inv, kept, used⟩ := grown
  have more := (inv.formed.getppages_usedFrames served).1
  have moved : CoreStep ⟨core, live⟩ _ _ := .getppages served
  refine ⟨_, moved.inv inv, ?_, Finset.Subset.trans used more⟩
  split
  · exact kept
  · exact List.subset_cons_of_subset _ kept

theorem CoreConf.GrowsTo.allocKpages (ran : allocKpages npages core = .ok (va, next)) :
    conf.GrowsTo ram next := by
  obtain ⟨pa, served, _⟩ := allocKpages_ok ran
  exact grown.getppages served

theorem CoreConf.GrowsTo.asDefineRegion
    (ran : asDefineRegion as vaddr sz readable writeable executable core = .ok (code, space, next)) :
    conf.GrowsTo ram next := by
  by_cases good : code = 0
  · subst code
    obtain ⟨_, _, _, _, _, _, pnum, va, allocated⟩ := asDefineRegion_ok ran
    exact grown.allocKpages allocated
  · unfold Vm.asDefineRegion at ran
    dsimp only at ran
    split at ran
    · obtain ⟨defined, _, same⟩ := bind_ok.mp ran
      cases same
      exact absurd rfl good
    · split at ran
      · obtain ⟨defined, _, same⟩ := bind_ok.mp ran
        cases same
        exact absurd rfl good
      · cases ran
        exact grown

end

theorem FaultEffect.growsTo (effect : FaultEffect files page as m space core)
    (grown : conf.GrowsTo ram m.core) : conf.GrowsTo ram core := by
  cases effect with
  | unchanged => exact grown
  | refused refused => exact grown.getppages refused
  | cleared spot found valid missed => exact grown.withMem _
  | loaded spot found bad served nonzero aligned contents =>
    exact (grown.getppages served).withMem _

end Os161.Vm

import Os161.Vm.FrameLifetime

namespace Os161.Vm
open Word Outcome Transition

/-- A request returns exactly when a run of free frames exists. -/
theorem getppages_returns_iff {ram : RamSize} {mem : Nat → Byte} {ops : List CoreOp}
    {conf : CoreConf} (reached : Run CoreStep (initialConf ram mem) ops conf) {npages : Word32}
    (positive : npages ≠ 0) (owner : FrameOwner) :
    (∃ addr next, getppages npages owner conf.state = .ok (addr, next) ∧
      next.stealmemLock = false) ↔ ∃ start, conf.state.FreeRun start npages.toNat := by
  have inv := reached_inv reached
  obtain ⟨start, run, _, served⟩ | ⟨absent, failed⟩ := getppages_cases inv.formed positive owner
  · constructor
    · intro _
      exact ⟨start, run⟩
    · intro _
      exact ⟨_, _, served, inv.formed.unlocked⟩
  · constructor
    · rintro ⟨addr, next, returned, _⟩
      rw [failed] at returned
      cases returned
    · rintro ⟨start, run⟩
      exact absurd run (absent start)

/-- The small memory serves a request for eight frames after boot. -/
theorem getppages_returns_eightFrames :
    (∃ addr next, getppages 8 .kernel (booted eightFrames fun _ => 0) = .ok (addr, next) ∧
      next.stealmemLock = false) ↔ ∃ start, (booted eightFrames fun _ => 0).FreeRun start 8 := by
  have returns := getppages_returns_iff (.nil (initialConf eightFrames fun _ => 0))
    (show (8 : Word32) ≠ 0 by decide) .kernel
  exact returns

/-- A request without a free run panics. -/
theorem getppages_panics_eightFrames :
    getppages 9 .kernel (booted eightFrames fun _ => 0) = .error (.badIndex (-1)) ∧
      ∃ full, getppages 8 .kernel (booted eightFrames fun _ => 0) = .ok (0x11000, full) ∧
        getppages 1 .user full = .error .deadlock :=
  ⟨rfl, _, rfl, rfl⟩

theorem CoreState.WellFormed.guard_iff {ram : RamSize} {s : CoreState} (formed : s.WellFormed ram)
    {start : Nat} (inside : start < s.coremapSize) :
    s.paddrMax - 4096#32 ≤ (s.coremaps start).pa ↔ ram.frames ≤ ram.tablePages + start + 1 := by
  obtain ⟨total, one, _, _, _, _, _⟩ := ram.layout
  have addr := formed.address start inside
  have base := formed.start
  have large : 4096#32 ≤ ram.hi := by
    rw [BitVec.le_def]
    simp only [pageSize, BitVec.toNat_ofNat] at *
    omega
  rw [BitVec.le_def, formed.top, BitVec.toNat_sub_of_le large, addr, BitVec.toNat_ofNat]
  simp only [pageSize] at *
  omega

theorem CoreState.WellFormed.granted_iff {ram : RamSize} {s : CoreState}
    (formed : s.WellFormed ram) {start : Nat} (inside : start < s.coremapSize) :
    s.granted start ≠ 0 ↔ ram.tablePages + start + 2 ≤ ram.frames := by
  obtain ⟨_, _, _, table, _, _, _⟩ := ram.layout
  have addr := formed.address start inside
  have base := formed.start
  have nonzero : (s.coremaps start).pa ≠ 0 := by
    intro zero
    rw [zero, base, show (0 : Paddr).toNat = 0 from rfl] at addr
    simp only [pageSize] at addr
    omega
  have guard := formed.guard_iff inside
  unfold granted
  split
  · rename_i blocked
    have := guard.mp blocked
    simp only [ne_eq, not_true_eq_false, false_iff]
    omega
  · rename_i passed
    have := mt guard.mpr passed
    simp only [ne_eq, nonzero, not_false_eq_true, true_iff]
    omega

theorem singles_reached (ram : RamSize) (mem : Nat → Byte) (count : Nat) (fits : count ≤ ram.frames) :
    ∃ conf, Run CoreStep (initialConf ram mem) (List.replicate count (.getppages 1 .kernel)) conf ∧
      ∀ index < ram.frames, conf.state.IsFree index ↔ count ≤ index := by
  induction count with
  | zero =>
    refine ⟨_, .nil _, ?_⟩
    intro index inside
    have free := booted_free ram mem index (by rwa [booted_size])
    exact ⟨fun _ => Nat.zero_le _, fun _ => free⟩
  | succ count ih =>
    obtain ⟨conf, reached, frames⟩ := ih (by omega)
    have inv := reached_inv reached
    have size := inv.formed.size
    have one : (1 : Word32).toNat = 1 := rfl
    have next : conf.state.FreeRun count 1 := by
      refine ⟨by omega, ?_⟩
      intro offset small
      exact (frames (count + offset) (by omega)).mpr (Nat.le_add_right _ _)
    obtain ⟨start, run, lowest, served⟩ | ⟨gone, _⟩ :=
      getppages_cases inv.formed (show (1 : Word32) ≠ 0 by decide) .kernel
    · have bound := run.1
      have free := (frames start (by omega)).mp (run.2 0 (by decide))
      obtain rfl : start = count := Nat.le_antisymm (lowest count next) free
      have extended := reached.append (.single (.getppages served))
      rw [← List.replicate_succ'] at extended
      refine ⟨_, extended, ?_⟩
      intro index inside
      rw [CoreState.IsFree, CoreState.claim_state _ (by decide)]
      by_cases same : index = start
      · subst index
        simp
      · rw [if_neg (by omega)]
        have prev := frames index inside
        rw [CoreState.IsFree] at prev
        rw [prev]
        omega
    · exact absurd next (gone count)

/-- Every address that `getppages` returns for this request size lies in the reported memory. -/
def StaysInRam (ram : RamSize) (mem : Nat → Byte) (npages : Word32) : Prop :=
  ∀ ops conf owner addr next, Run CoreStep (initialConf ram mem) ops conf →
    getppages npages owner conf.state = .ok (addr, next) → addr ≠ 0 →
      conf.state.freeaddr.toNat ≤ addr.toNat ∧
        addr.toNat + npages.toNat * pageSize ≤ conf.state.paddrMax.toNat

/-- The guard covers only requests for at most two frames. -/
theorem staysInRam_iff (ram : RamSize) (mem : Nat → Byte) {npages : Word32}
    (positive : npages ≠ 0) :
    StaysInRam ram mem npages ↔
      npages.toNat ≤ 2 ∨ ram.frames < npages.toNat ∨ ram.frames ≤ ram.tablePages + 1 := by
  obtain ⟨total, one, _, table, _, _, _⟩ := ram.layout
  constructor
  · intro stays
    by_contra large
    simp only [not_or] at large
    -- The request starts as low as the table allows while it still passes the guard.
    let tail := max 2 (npages.toNat - ram.tablePages)
    obtain ⟨conf, reached, frames⟩ := singles_reached ram mem (ram.frames - ram.tablePages - tail)
      (by omega)
    have inv := reached_inv reached
    have size := inv.formed.size
    have run : conf.state.FreeRun (ram.frames - ram.tablePages - tail) npages.toNat := by
      refine ⟨by omega, ?_⟩
      intro offset small
      exact (frames _ (by omega)).mpr (Nat.le_add_right _ _)
    obtain ⟨start, found, lowest, returned⟩ | ⟨absent, _⟩ :=
      getppages_cases inv.formed positive .kernel
    · have bound := found.1
      have free := (frames start (by omega)).mp (found.2 0 (by omega))
      have least := lowest _ run
      have inside : start < conf.state.coremapSize := by omega
      have accepted := (inv.formed.granted_iff inside).mpr (by omega)
      have stayed := (stays _ conf _ _ _ reached returned accepted).2
      have address := inv.formed.address start inside
      rw [CoreState.granted_eq accepted, address, inv.formed.start, inv.formed.top] at stayed
      simp only [pageSize] at *
      omega
    · exact absurd run (absent _)
  · intro small ops conf owner addr next reached returned nonzero
    have inv := reached_inv reached
    have size := inv.formed.size
    obtain ⟨start, run, _, served⟩ | ⟨_, failed⟩ := getppages_cases inv.formed positive owner
    · rw [served] at returned
      cases returned
      have bound := run.1
      have length : 0 < npages.toNat := by
        by_contra none
        exact positive (BitVec.eq_of_toNat_eq (by simpa using none))
      have inside : start < conf.state.coremapSize := by omega
      have room := (inv.formed.granted_iff inside).mp nonzero
      have address := inv.formed.address start inside
      rw [CoreState.granted_eq nonzero, address, inv.formed.origin, inv.formed.start,
        inv.formed.top]
      simp only [pageSize] at *
      omega
    · rw [failed] at returned
      cases returned

/-- Single frames of the small memory stay inside it. -/
theorem staysInRam_eightFrames : StaysInRam eightFrames (fun _ => 0) 1 :=
  (staysInRam_iff eightFrames (fun _ => 0) (by decide)).mpr (.inl (by decide))

/-- A request for eight frames ends one page past the memory. -/
theorem getppages_leaves_ram :
    ∃ next, getppages 8 .kernel (booted eightFrames fun _ => 0) = .ok (0x11000, next) ∧
      ¬ (0x11000 : Paddr).toNat + (8 : Word32).toNat * pageSize ≤ next.paddrMax.toNat ∧
      ¬ StaysInRam eightFrames (fun _ => 0) 8 := by
  have served : getppages 8 .kernel (initialConf eightFrames fun _ => 0).state =
    .ok (0x11000, _) := rfl
  refine ⟨_, served, by decide, ?_⟩
  intro stays
  have stayed := (stays [] _ .kernel _ _ (.nil _) served (by decide)).2
  exact absurd stayed (by decide)

end Os161.Vm

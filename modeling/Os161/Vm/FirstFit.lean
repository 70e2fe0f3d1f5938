import Os161.Vm.FrameBounds

namespace Os161.Vm
open Word Outcome Transition CoreState

/-- Every frame of the table has the address that `init_coremap` gives it. -/
def CoreState.Laid (s : CoreState) : Prop :=
  ∀ index < s.coremapSize, (s.coremaps index).pa = s.pageStart + BitVec.ofNat 32 (index * pageSize)

/-- The lowest run of free frames that is long enough starts here. -/
def CoreState.Lowest (s : CoreState) (length start : Nat) : Prop :=
  s.FreeRun start length ∧ ∀ other, s.FreeRun other length → start ≤ other

variable {ram : RamSize} {mem : Nat → Byte} {ops : List CoreOp} {s : CoreState} {conf : CoreConf}

theorem CoreState.WellFormed.laid (formed : s.WellFormed ram) : s.Laid := by
  intro index inside
  have size := formed.size
  apply BitVec.eq_of_toNat_eq
  rw [frame_toNat formed.start (by omega), formed.address index inside]

theorem CoreState.claim_outside (pos : 0 < len) (owner : FrameOwner)
    (out : ¬ (start ≤ k ∧ k < start + len)) :
    (s.claim start len owner).coremaps k = s.coremaps k := by
  dsimp only [claim]
  rw [markLoop_entry _ _ _ _ _ _ (by omega), if_neg (by omega), if_neg (by omega), if_neg (by omega)]

/-- The search takes the lowest run of free frames that is long enough. -/
theorem findFreeFrame_first_fit :
    (∀ freeaddr s, (initCoremap freeaddr s).Laid) ∧
    (∀ ram mem ops conf, Run CoreStep (initialConf ram mem) ops conf → conf.state.Laid) ∧
    ∀ (s : CoreState) (npages : Int) (owner : FrameOwner), s.Laid → 1 ≤ npages →
      (∃ start, s.FreeRun start npages.toNat) →
      ∃ start next, s.Lowest npages.toNat start ∧
        findFreeFrame npages owner s =
          .ok (s.pageStart + BitVec.ofNat 32 (start * pageSize), next) ∧ next.Laid ∧
        (∀ k, start ≤ k → k < start + npages.toNat → (next.coremaps k).state = .used) ∧
        ∀ k, ¬ (start ≤ k ∧ k < start + npages.toNat) → next.coremaps k = s.coremaps k := by
  refine ⟨fun freeaddr s index inside => ?_, fun ram mem ops conf reached => (reached_inv reached).formed.laid, ?_⟩
  · exact congrArg Coremap.pa (if_pos inside)
  · intro s npages owner laid positive ⟨_, available⟩
    have size : (npages.toNat : Int) = npages := Int.toNat_of_nonneg (by omega)
    have some : 0 < npages.toNat := by omega
    rcases findFreeFrame_cases s some owner with ⟨start, run, lowest, found⟩ | ⟨absent, _⟩
    · have bound := run.1
      rw [size, laid start (by omega)] at found
      refine ⟨start, _, ⟨run, lowest⟩, found, ?_, ?_, ?_⟩
      · intro index inside
        rw [claim_pa]
        exact laid index inside
      · intro k low high
        rw [claim_state _ some, if_pos ⟨low, high⟩]
      · intro k outside
        exact claim_outside some owner outside
    · exact absurd available (absent _)

/-- The small memory serves a request for three frames from its first frame. -/
theorem findFreeFrame_first_fit_eightFrames : ∃ start next,
    (booted eightFrames fun _ => 0).Lowest 3 start ∧
      findFreeFrame 3 .user (booted eightFrames fun _ => 0) =
        .ok ((booted eightFrames fun _ => 0).pageStart + BitVec.ofNat 32 (start * pageSize), next) := by
  have formed := booted_wellFormed eightFrames fun _ => 0
  obtain ⟨start, next, lowest, found, _⟩ := findFreeFrame_first_fit.2.2 _ 3 .user formed.laid (by decide)
    ⟨0, by decide, fun offset _ => booted_free _ _ _ (by rw [booted_size]; change _ < 8; omega)⟩
  exact ⟨start, next, lowest, found⟩

/-- No frame has changed its state. -/
def CoreState.SameFrames (s next : CoreState) : Prop :=
  ∀ index < s.coremapSize, (next.coremaps index).state = (s.coremaps index).state

/-- The run that the request would get lies below the bound of `getppages`. -/
def CoreState.Passes (s : CoreState) (npages : Word32) : Prop :=
  ∀ start, s.Lowest npages.toNat start → (s.coremaps start).pa < s.paddrMax - 4096#32

/-- The frames are marked before the bound is checked. -/
theorem refused_request_traceless_iff (reached : Run CoreStep (initialConf ram mem) ops conf)
    (npages : Word32) (owner : FrameOwner) :
    (∀ next, getppages npages owner conf.state = .ok (0, next) → conf.state.SameFrames next) ↔
      npages = 0 ∨ conf.state.Passes npages := by
  have formed := (reached_inv reached).formed
  by_cases empty : npages = 0
  · subst empty
    refine ⟨fun _ => .inl rfl, fun _ next returned => ?_⟩
    cases (getppages_zero formed owner).symm.trans returned
    exact fun _ _ => rfl
  · have positive : 0 < npages.toNat := by
      by_contra zero
      exact empty (BitVec.eq_of_toNat_eq (by simpa using zero))
    rw [or_iff_right empty]
    rcases getppages_cases formed empty owner with ⟨start, run, lowest, served⟩ | ⟨absent, failed⟩
    · have bound := run.1
      have inside : start < conf.state.coremapSize := by omega
      rw [served]
      constructor
      · intro traceless other least
        obtain rfl : other = start := Nat.le_antisymm (least.2 _ run) (lowest _ least.1)
        by_contra above
        have refused : conf.state.granted other = 0 := if_pos (BitVec.not_lt.mp above)
        have free : (conf.state.coremaps other).state = .free := run.2 0 positive
        have same := traceless _ (by rw [refused]) other inside
        rw [claim_state _ positive, if_pos ⟨Nat.le_refl _, by omega⟩, free] at same
        cases same
      · intro passes next returned
        have below := passes start ⟨run, lowest⟩
        have granted : conf.state.granted start ≠ 0 :=
          (formed.granted_iff inside).mpr (by
            have guard := mt (formed.guard_iff inside).mpr (BitVec.not_le.mpr below)
            omega)
        exact absurd (congrArg Prod.fst (Except.ok.inj returned)) granted
    · rw [failed]
      refine ⟨fun _ start least => absurd least.1 (absent start), fun _ next returned => ?_⟩
      cases returned

/-- With six frames taken only an empty request is refused without a trace. -/
theorem refused_request_traceless_sixTaken : ∃ conf,
    Run CoreStep (initialConf eightFrames fun _ => 0) [.getppages 6 .kernel] conf ∧
      (∀ next, getppages 0 .user conf.state = .ok (0, next) → conf.state.SameFrames next) ∧
      (∃ next, getppages 1 .user conf.state = .ok (0, next) ∧ ¬ conf.state.SameFrames next) ∧
      ¬ conf.state.Passes 1 := by
  have reached : Run CoreStep (initialConf eightFrames fun _ => 0) [.getppages 6 .kernel] _ :=
    .single (.getppages rfl)
  refine ⟨_, reached, (refused_request_traceless_iff reached 0 .user).mpr (.inl rfl), ⟨_, rfl, ?_⟩, ?_⟩
  · intro same
    exact absurd (same 6 (by decide)) (by decide)
  · intro passes
    have same := (refused_request_traceless_iff reached 1 .user).mpr (.inr passes) _ rfl
    exact absurd (same 6 (by decide)) (by decide)

/-- A refused request uses up the seventh of the eight frames. -/
theorem refused_request_takes_frame : ∃ full next,
    getppages 6 .kernel (booted eightFrames fun _ => 0) = .ok (0x11000, full) ∧
      getppages 1 .user full = .ok (0, next) ∧ full.coremapSize = 8 ∧
      (full.coremaps 6).state = .free ∧ (next.coremaps 6).state = .used :=
  ⟨_, _, rfl, rfl, rfl, rfl, rfl⟩

end Os161.Vm

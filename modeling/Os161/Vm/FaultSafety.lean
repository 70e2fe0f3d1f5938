import Os161.Vm.Copy

namespace Os161.Vm
open Word Outcome Transition

/-- The fault handler cannot crash: it accesses the page tables inside their bounds, and where it
stops, its request for a frame has stopped. -/
structure UserState.HandlerSafe (s : UserState) : Prop where
  inside : ∀ page region vpn, s.space.locate page = some (region, vpn) →
    ∃ entry, s.space.pteAt region vpn = .ok entry
  stops : ∀ files faulttype faultaddress problem,
    vmFault files faulttype faultaddress (some s.space) s.machine = .error problem →
      getppages 1 .user s.machine.core = .error problem

theorem vmFault_error {kind : FaultType} {as : AddrSpace} {m : Machine} (usable : as.Usable)
    (handled : kind.Handled) (spot : as.locate (pageMask fault) = some (region, vpn))
    (found : as.pteAt region vpn = .ok entry) (bad : entry.valid = false)
    (stopped : getppages 1 .user m.core = .error problem) :
    vmFault files kind fault (some as) m = .error problem := by
  have paged : handleFault files kind (pageMask fault) as m = .error problem := by
    simp only [handleFault, as.check_ok.mpr usable, ok_bind, spot, resolvePage_eq, found, bad,
      if_true, pageIn, stopped, error_bind]
  rcases handled with rfl | rfl
  · simp only [vmFault, paged, error_bind]
  · simp only [vmFault, paged, error_bind]

theorem UserState.Inv.fault_stops {s : UserState} (inv : s.Inv ram mem) (usable : s.space.Usable)
    (complete : s.space.Complete)
    (stopped : vmFault files kind fault (some s.space) s.machine = .error problem) :
    getppages 1 .user s.machine.core = .error problem := by
  by_cases handled : kind.Handled
  · have returns {code : Errno} {space : AddrSpace} {next : Machine}
        (outcome : FaultOutcome files kind (pageMask fault) s.space s.machine code space
          next) : getppages 1 .user s.machine.core = .error problem := by
      rw [outcome.vmFault usable handled] at stopped
      cases stopped
    obtain ⟨live, owns⟩ := inv.owns
    cases spot : s.space.locate (pageMask fault) with
    | none => exact returns (.unmapped spot)
    | some place =>
      obtain ⟨region, vpn⟩ := place
      obtain ⟨entry, found⟩ := complete.entries _ _ _ spot
      cases valid : entry.valid with
      | true =>
        by_cases forbidden : region ≠ .stack ∧ entry.dirty = false ∧ kind = .write
        · exact returns (.readOnly spot found valid forbidden.1 forbidden.2.1 forbidden.2.2)
        · have page := owns.allocator.inv.live_page (owns.held _ _ _ found valid)
          obtain ⟨code, next, filled, _⟩ := fillTlb_cases files region vpn (pageMask fault)
            entry.pfn (decide (region = .stack)) s.space s.machine
          refine returns (.present spot found valid ?_ page.1 page.2 filled)
          by_cases stack : region = .stack
          · exact .inl stack
          · exact .inr fun write => forbidden ⟨stack, write⟩
      | false =>
        have resident := complete.resident _ _ _ found
        cases req : getppages 1 .user s.machine.core with
        | error failure =>
          rw [vmFault_error usable handled spot found valid req] at stopped
          exact congrArg Except.error (Except.error.inj stopped)
        | ok granted =>
          obtain ⟨paddr, core⟩ := granted
          by_cases refused : paddr = 0
          · subst refused
            exact req ▸ returns (.noMemory spot found valid resident req)
          · have live := owns.allocator.step (coreStep_granted req refused)
            have page := live.inv.live_page List.mem_cons_self
            obtain ⟨code, next, filled, _⟩ := fillTlb_cases files region vpn
              (pageMask fault) paddr true (s.space.mapPage region vpn paddr)
              { s.machine with core := core }
            exact req ▸ returns
              (.fresh spot found valid resident req refused page.2 filled)
  · cases kind with
    | read => exact absurd (.inl rfl) handled
    | write => exact absurd (.inr rfl) handled
    | readonly | other => cases stopped

/-- Code that stops only by failing an assertion. -/
def Asserts (code : Kernel Unit) : Prop :=
  ∀ problem, code = .error problem → ∃ text, problem = .assertion text

theorem asserts_kassert (condition : Prop) [Decidable condition] (text : String) :
    Asserts (kassert condition text) := by
  intro problem stopped
  unfold kassert at stopped
  split at stopped
  · cases stopped
  · cases stopped
    exact ⟨text, rfl⟩

theorem Asserts.after {condition : Prop} [Decidable condition] {next : Unit → Kernel Unit}
    (rest : Asserts (next ())) : Asserts (kassert condition text >>= next) := by
  intro problem stopped
  by_cases met : condition
  · rw [kassert_ok.mpr met] at stopped
    exact rest problem stopped
  · rw [kassert, if_neg met] at stopped
    cases stopped
    exact ⟨text, rfl⟩

theorem AddrSpace.check_asserts (as : AddrSpace) : Asserts as.check :=
  .after (.after (.after (.after (.after (asserts_kassert _ _)))))

theorem getppages_not_assertion {s : CoreState} (formed : s.WellFormed ram) (text : String) :
    getppages 1 .user s ≠ .error (.assertion text) := by
  obtain ⟨_, _, _, served⟩ | ⟨_, failed⟩ := getppages_cases formed
    (show (1 : Word32) ≠ 0 by decide) .user
  · rw [served]
    nofun
  · rw [failed]
    split <;> simp

theorem UserState.Inv.handlerSafe_iff {s : UserState} (inv : s.Inv ram mem) (complete : s.space.Complete) :
    s.HandlerSafe ↔ s.space.Usable := by
  constructor
  · intro safe
    by_contra unusable
    obtain ⟨text, failed⟩ : ∃ text, s.space.check = .error (.assertion text) := by
      cases checked : s.space.check with
      | ok => exact absurd (s.space.check_ok.mp checked) unusable
      | error problem =>
        obtain ⟨text, rfl⟩ := s.space.check_asserts problem checked
        exact ⟨text, rfl⟩
    have stopped : vmFault zeroFiles .read 0 (some s.space) s.machine =
        .error (.assertion text) := by
      simp only [vmFault, handleFault, failed, error_bind]
    obtain ⟨live, owns⟩ := inv.owns
    exact getppages_not_assertion owns.allocator.inv.formed text (safe.stops _ _ _ _ stopped)
  · intro usable
    exact ⟨complete.entries, fun _ _ _ _ stopped => inv.fault_stops usable complete stopped⟩

theorem UserStep.complete (step : UserStep s op t) (complete : s.space.Complete) : t.space.Complete := by
  cases step with
  | store | activate => exact complete
  | fault ran => exact (vmFault_effect ran).complete complete

theorem UserStep.layout (step : UserStep s op t) : t.space.layout = s.space.layout := by
  cases step with
  | store | activate => rfl
  | fault ran => exact (vmFault_effect ran).layout

end Os161.Vm

import Os161.Lib.Monitor

namespace Os161.Threads
open Monitor Roster Transition Function

variable {T : Type} [DecidableEq T]

def lockDoIHold (holder : Option T) (curthread : T) : Bool := holder = some curthread

/-- The data behind `lock_lock` is the field `lock_holder`. A thread enters by `lock_acquire` and
leaves by `lock_release`, and the channel is `lk_wchan`. -/
def lockGate : Gate (Option T) T where
  blocked holder curthread := holder ≠ none ∧ lockDoIHold holder curthread = false
  take holder curthread :=
    if lockDoIHold holder curthread then some holder
    else if holder = none then some (some curthread) else none
  admits holder _ := holder ≠ none
  put holder curthread := if lockDoIHold holder curthread then some none else none

/-- A thread calls `lock_acquire` when it does not hold the lock and `lock_release` when it does. -/
def Disciplined (s : State (Option T) T) : Act T → Prop
  | .enter t => s.balance t = 0
  | .leave t => s.balance t = 1
  | .step _ => True

/-- One step of a thread that keeps to the discipline. -/
structure LockStep (s : State (Option T) T) (act : Act T) (next : State (Option T) T) : Prop where
  step : Step lockGate s act next
  disciplined : Disciplined s act

/-- A free lock has one unit. -/
def lockUnits (holder : Option T) : Nat := if holder = none then 1 else 0

theorem lockGate_counts : (lockGate (T := T)).Counts lockUnits where
  blocked := by
    intro holder t blocked
    have held : holder ≠ none := (of_decide_eq_true blocked).1
    exact if_neg held
  take := by
    intro holder last t taken
    simp only [lockGate] at taken
    split at taken
    · rename_i mine
      have held : holder = some t := of_decide_eq_true mine
      cases taken
      simp [lockUnits, held]
    · split at taken
      · cases taken
        simp [lockUnits]
      · cases taken
  put := by
    intro holder last t _
    unfold lockUnits
    split <;> omega

/-- The thread between its acquire and its release is the holder. A thread in `lock_acquire` does not
hold the lock and a thread in `lock_release` does, up to the write of `lock_holder`. -/
structure LockHeld (s : State (Option T) T) : Prop where
  holder : ∀ t, s.balance t = if s.data = some t then 1 else 0
  enters : ∀ t, (s.pc t).enters = true → s.balance t = 0
  leaves : ∀ t, (s.pc t).leaves = true → s.balance t = 1

variable {s : State (Option T) T} {t : T}

theorem LockHeld.balance_one (held : LockHeld s) : s.balance t = 1 ↔ s.data = some t := by
  rw [held.holder t]
  split <;> simp_all

theorem LockHeld.balance_zero (held : LockHeld s) : s.balance t = 0 ↔ s.data ≠ some t := by
  rw [held.holder t]
  split <;> simp_all

theorem lockHeld_start : LockHeld (State.start (none : Option T)) where
  holder := fun _ => rfl
  enters := fun _ entering => by cases entering
  leaves := fun _ leaving => by cases leaving

theorem free_of_passed (passed : lockGate.blocked holder t = false) (other : holder ≠ some t) : holder = none := by
  by_contra held
  have blocked : lockGate.blocked holder t = true :=
    decide_eq_true ⟨held, decide_eq_false other⟩
  rw [blocked] at passed
  cases passed

variable {next : State (Option T) T} {act : Act T}

section

variable (step : LockStep s act next)
include step

theorem LockStep.held (formed : s.Formed lockGate) (held : LockHeld s) : LockHeld next := by
  have calls := step.step.calls formed
  have disciplined := step.disciplined
  have entered (u : T) (entering : (next.pc u).enters = true) : s.balance u = 0 := by
    obtain before | rfl := (calls u).1 entering
    · exact held.enters u before
    · exact disciplined
  have leaving (u : T) (away : (next.pc u).leaves = true) : s.balance u = 1 := by
    obtain before | rfl := (calls u).2 away
    · exact held.leaves u before
    · exact disciplined
  have others {t : T} {value : Int} (balance : next.balance = update s.balance t value)
      (out : (next.pc t).enters = false ∧ (next.pc t).leaves = false) :
      (∀ u, (next.pc u).enters = true → next.balance u = 0) ∧
        ∀ u, (next.pc u).leaves = true → next.balance u = 1 := by
    rw [balance]
    refine ⟨fun u entering => ?_, fun u away => ?_⟩
    · obtain ⟨rfl, _⟩ | ⟨_, same⟩ := update_cases s.balance t value u
      · rw [out.1] at entering
        cases entering
      · exact same.trans (entered u entering)
    · obtain ⟨rfl, _⟩ | ⟨_, same⟩ := update_cases s.balance t value u
      · rw [out.2] at away
        cases away
      · exact same.trans (leaving u away)
  cases step.step.effect with
  | none data balance _ _ =>
    refine ⟨?_, ?_, ?_⟩
    · rw [data, balance]
      exact held.holder
    · rw [balance]
      exact entered
    · rw [balance]
      exact leaving
  | @take t _ here there taken balance _ _ =>
    have other := held.balance_zero.mp (held.enters t (by rw [here]; rfl))
    have free := free_of_passed (formed.passed t here) other
    have now : next.data = some t := by
      rw [free] at taken
      exact (Option.some.inj taken).symm
    obtain ⟨enters, leaves⟩ := others balance (by rw [there]; exact ⟨rfl, rfl⟩)
    refine ⟨?_, enters, leaves⟩
    intro u
    have before := held.holder u
    rw [free] at before
    rw [balance, now]
    obtain ⟨rfl, same⟩ | ⟨differ, same⟩ := update_cases s.balance t (s.balance t + 1) u
    · rw [before]
      simp
    · rw [same, before]
      simp [differ.symm]
  | @put t _ here there ran balance _ _ =>
    have mine := held.balance_one.mp (held.leaves t (by rw [here]; rfl))
    have now : next.data = none := by
      rw [mine] at ran
      simpa [lockGate, lockDoIHold] using ran.symm
    obtain ⟨enters, leaves⟩ := others balance (by rw [there]; exact ⟨rfl, rfl⟩)
    refine ⟨?_, enters, leaves⟩
    intro u
    have before := held.holder u
    rw [mine] at before
    rw [balance, now]
    obtain ⟨rfl, same⟩ | ⟨differ, same⟩ := update_cases s.balance t (s.balance t - 1) u
    · rw [before]
      simp
    · rw [same, before]
      simp [differ.symm]

theorem LockStep.balance_of_ne (other : act ≠ .step t) : next.balance t = s.balance t := by
  cases step.step.effect with
  | none _ balance _ _ => rw [balance]
  | @take u acts _ _ _ balance _ _ | @put u acts _ _ _ balance _ _ =>
    rw [balance, update_of_ne]
    rintro rfl
    exact other acts

theorem LockStep.keeps_lock (held : LockHeld s) (mine : s.balance t = 1) (stays : (s.pc t).leaves = false) :
    next.balance t = 1 := by
  rw [← mine]
  cases step.step.effect with
  | none _ balance _ _ => rw [balance]
  | @take u _ here _ _ balance _ _ =>
    rw [balance, update_of_ne]
    rintro rfl
    rw [held.enters t (by rw [here]; rfl)] at mine
    cases mine
  | @put u _ here _ _ balance _ _ =>
    rw [balance, update_of_ne]
    rintro rfl
    rw [here] at stays
    cases stays

theorem LockStep.stays_out (held : LockHeld s) (out : s.balance t = 0) (stays : (s.pc t).enters = false) :
    next.balance t = 0 := by
  rw [← out]
  cases step.step.effect with
  | none _ balance _ _ => rw [balance]
  | @take u _ here _ _ balance _ _ =>
    rw [balance, update_of_ne]
    rintro rfl
    rw [here] at stays
    cases stays
  | @put u _ here _ _ balance _ _ =>
    rw [balance, update_of_ne]
    rintro rfl
    rw [held.leaves t (by rw [here]; rfl)] at out
    cases out

end

theorem LockHeld.not_fails (held : LockHeld s) (formed : s.Formed lockGate) (t : T) :
    ¬ s.Fails lockGate t := by
  rintro (⟨here, failed⟩ | ⟨here, failed⟩ | ⟨here, failed⟩)
  · have other := held.balance_zero.mp (held.enters t (by rw [here]; rfl))
    rw [free_of_passed (formed.passed t here) other] at failed
    cases failed
  · have mine := held.balance_one.mp (held.leaves t (by rw [here]; rfl))
    rw [mine] at failed
    cases failed
  · have mine := held.balance_one.mp (held.leaves t (by rw [here]; rfl))
    rw [mine] at failed
    simp [lockGate, lockDoIHold] at failed

/-- What holds of a lock in every state that its threads reach. -/
structure LockInv (s : State (Option T) T) : Prop where
  inv : s.Inv lockGate lockUnits
  held : LockHeld s

section

variable (step : LockStep s act next) (before : LockInv s)
include step before

theorem LockStep.not_leaves (other : act ≠ .leave t) (stays : (s.pc t).leaves = false) :
    (next.pc t).leaves = false := by
  by_contra leaving
  obtain early | acts := (step.step.calls before.inv.formed t).2 (Bool.not_eq_false _ ▸ leaving)
  · rw [stays] at early
    cases early
  · exact other acts

theorem LockStep.not_enters (other : act ≠ .enter t) (stays : (s.pc t).enters = false) :
    (next.pc t).enters = false := by
  by_contra entering
  obtain early | acts := (step.step.calls before.inv.formed t).1 (Bool.not_eq_false _ ▸ entering)
  · rw [stays] at early
    cases early
  · exact other acts

theorem LockStep.acquires (stays : (s.pc t).leaves = false) (run : (s.pc t).enters = true ∨ s.balance t = 1) :
    (next.pc t).enters = true ∨ next.balance t = 1 := by
  obtain entering | mine := run
  · obtain still | taken := step.step.enters_or_takes before.inv.formed entering
    · exact .inl still
    · refine .inr (taken.trans ?_)
      rw [before.held.enters t entering]
      rfl
  · exact .inr (step.keeps_lock before.held mine stays)

theorem LockStep.inv : LockInv next :=
  ⟨step.step.inv lockGate_counts before.inv, step.held before.inv.formed before.held⟩

end

theorem lockInv_start : LockInv (State.start (none : Option T)) :=
  ⟨State.start_inv lockGate lockUnits none, lockHeld_start⟩

/-- Locks exclude, no assertion fails, and a free lock wakes a sleeper. -/
theorem lock_excludes {acts : List (Act T)} {s : State (Option T) T}
    (reached : Run LockStep (State.start none) acts s) :
    (∀ t u, s.balance t = 1 → s.balance u = 1 → t = u) ∧ (∀ t, ¬ s.Fails lockGate t) ∧
      (s.data = none → s.queue ≠ [] → (∀ t, (s.pc t).updates = false) →
        ∃ t, (s.pc t).comes = true) := by
  have inv : LockInv s := reached.invariant
    (fun (state : State (Option T) T) _ _ (before : LockInv state) step => step.inv before)
    lockInv_start
  refine ⟨?_, inv.held.not_fails inv.inv.formed, ?_⟩
  · intro t u first second
    have mine := inv.held.balance_one.mp first
    rw [inv.held.balance_one.mp second] at mine
    exact (Option.some.inj mine).symm
  · intro free sleeper quiet
    obtain ⟨woken, _, comes, enough⟩ := inv.inv.woken sleeper quiet
    rw [free] at enough
    obtain ⟨t, member⟩ := List.exists_mem_of_length_pos (show 0 < woken.length from enough)
    exact ⟨t, comes t member⟩

/-- Threads 1 and 2 go to sleep on the lock of thread 0, which then releases it. -/
def contended : List (Act Nat) :=
  [.enter 0, .step 0, .step 0, .step 0, .step 0, .enter 1, .step 1, .step 1, .step 1, .step 1,
    .step 1, .enter 2, .step 2, .step 2, .step 2, .step 2, .step 2, .leave 0, .step 0, .step 0,
    .step 0, .step 0, .step 0, .step 0]

/-- With thread 2 asleep on the free lock, thread 1 has been woken. -/
theorem lock_excludes_contended :
    ∃ s, Run LockStep (State.start none) contended s ∧ s.data = none ∧ s.queue = [2] ∧
      ∃ t, (s.pc t).comes = true := by
  have reached : Run LockStep (State.start none) contended _ :=
    .cons ⟨.enter rfl, rfl⟩ (.cons ⟨.lock rfl rfl, trivial⟩
      (.cons ⟨.pass (.inl rfl) rfl, trivial⟩ (.cons ⟨.take rfl rfl, trivial⟩
      (.cons ⟨.unlock (.inl rfl), trivial⟩ (.cons ⟨.enter rfl, rfl⟩ (.cons ⟨.lock rfl rfl, trivial⟩
      (.cons ⟨.block (.inl rfl) rfl, trivial⟩ (.cons ⟨.hand rfl rfl, trivial⟩
      (.cons ⟨.drop rfl, trivial⟩ (.cons ⟨.doze rfl, trivial⟩ (.cons ⟨.enter rfl, rfl⟩
      (.cons ⟨.lock rfl rfl, trivial⟩ (.cons ⟨.block (.inl rfl) rfl, trivial⟩
      (.cons ⟨.hand rfl rfl, trivial⟩ (.cons ⟨.drop rfl, trivial⟩ (.cons ⟨.doze rfl, trivial⟩
      (.cons ⟨.leave rfl, rfl⟩ (.cons ⟨.check rfl rfl, trivial⟩ (.cons ⟨.lock rfl rfl, trivial⟩
      (.cons ⟨.put rfl rfl, trivial⟩ (.cons ⟨.wakeOne rfl rfl rfl, trivial⟩
      (.cons ⟨.rouse rfl, trivial⟩ (.single ⟨.unlock (.inr rfl), trivial⟩)))))))))))))))))))))))
  refine ⟨_, reached, rfl, rfl, ?_⟩
  refine (lock_excludes reached).2.2 rfl (List.cons_ne_nil _ _) ?_
  rintro (_ | _ | _ | t) <;> rfl

/-- The lock has no holder, thread 1 sleeps and nobody has been woken. -/
theorem lock_free_before_wake :
    ∃ s, Run LockStep (State.start none)
        [.enter 0, .step 0, .step 0, .step 0, .step 0, .enter 1, .step 1, .step 1, .step 1, .step 1,
          .step 1, .leave 0, .step 0, .step 0, .step 0] s ∧
      s.data = none ∧ s.queue = [1] ∧ ∀ t : Nat, (s.pc t).comes = false := by
  refine ⟨_, .cons ⟨.enter rfl, rfl⟩ (.cons ⟨.lock rfl rfl, trivial⟩
    (.cons ⟨.pass (.inl rfl) rfl, trivial⟩ (.cons ⟨.take rfl rfl, trivial⟩
    (.cons ⟨.unlock (.inl rfl), trivial⟩ (.cons ⟨.enter rfl, rfl⟩
    (.cons ⟨.lock rfl rfl, trivial⟩ (.cons ⟨.block (.inl rfl) rfl, trivial⟩
    (.cons ⟨.hand rfl rfl, trivial⟩ (.cons ⟨.drop rfl, trivial⟩ (.cons ⟨.doze rfl, trivial⟩
    (.cons ⟨.leave rfl, rfl⟩ (.cons ⟨.check rfl rfl, trivial⟩ (.cons ⟨.lock rfl rfl, trivial⟩
    (.single ⟨.put rfl rfl, trivial⟩)))))))))))))), rfl, rfl, ?_⟩
  rintro (_ | _ | t) <;> rfl

end Os161.Threads

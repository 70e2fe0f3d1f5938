import Os161.Lib.Monitor

namespace Os161.Threads
open Monitor Transition

variable {T : Type} [DecidableEq T]

/-- The largest value of the `int` in `sem_count`. -/
abbrev intMax : Nat := 2147483647

/-- The data behind `sem_lock` is the field `sem_count`. A thread enters by `P` and leaves by `V`,
whose assertion fails when the count overflows, and the channel is `sem_wchan`. -/
def semGate : Gate Nat T where
  blocked count _ := count = 0
  take count _ := if 0 < count then some (count - 1) else none
  admits _ _ := true
  put count _ := if count < intMax then some (count + 1) else none

omit [DecidableEq T] in
theorem semGate_counts : (semGate (T := T)).Counts id where
  blocked := of_decide_eq_true
  take := by
    intro count last t taken
    simp only [semGate] at taken
    split at taken
    · cases taken
      exact Nat.le_refl _
    · cases taken
  put := by
    intro count last t ran
    simp only [semGate] at ran
    split at ran
    · cases ran
      exact Nat.le_refl _
    · cases ran

/-- The completed `P` and the count are together the initial count and the completed `V`. -/
def Balanced (initial : Nat) (s : State Nat T) : Prop := s.takes + s.data = initial + s.puts

theorem Balanced.step {s next : State Nat T} {act : Act T} {initial : Nat}
    (prev : Balanced initial s) (step : Step semGate s act next) : Balanced initial next := by
  unfold Balanced at *
  cases step.effect with
  | none data _ takes puts =>
    rw [data, takes, puts]
    exact prev
  | @take t _ _ _ taken _ takes puts =>
    simp only [semGate] at taken
    split at taken
    · have count := Option.some.inj taken
      omega
    · cases taken
  | @put t _ _ _ ran _ takes puts =>
    simp only [semGate] at ran
    split at ran
    · have count := Option.some.inj ran
      omega
    · cases ran

/-- While a thread sleeps, every unit has a woken thread on its way. -/
theorem semaphore_law {initial : Nat} {acts : List (Act T)} {s : State Nat T}
    (reached : Run (Step semGate) (State.start initial) acts s) :
    s.takes + s.data = initial + s.puts ∧
      (s.queue ≠ [] → (∀ t, (s.pc t).updates = false) →
        ∃ woken : List T, woken.Nodup ∧ (∀ t ∈ woken, (s.pc t).comes = true) ∧
          s.data ≤ woken.length) := by
  constructor
  · have balanced : Balanced initial s := reached.invariant
      (fun (state : State Nat T) _ _ (before : Balanced initial state) step => before.step step)
      (Nat.add_comm 0 initial)
    exact balanced
  · have inv : s.Inv semGate id := reached.invariant
      (fun (state : State Nat T) _ _ (before : state.Inv semGate id) step =>
        step.inv semGate_counts before) (State.start_inv semGate id initial)
    exact inv.woken

/-- Threads 1 and 2 go to sleep in `P` on a semaphore without units, then thread 0 calls `V`. -/
def waitingActs : List (Act Nat) :=
  [.enter 1, .step 1, .step 1, .step 1, .step 1, .step 1, .enter 2, .step 2, .step 2, .step 2, .step 2,
    .step 2, .leave 0, .step 0, .step 0, .step 0, .step 0, .step 0, .step 0]

/-- The only unit is matched by thread 1. -/
theorem semaphore_law_waiting :
    ∃ s, Run (Step semGate) (State.start 0) waitingActs s ∧ s.data = 1 ∧ s.queue = [2] ∧
      s.takes + s.data = 0 + s.puts ∧ ∃ woken : List Nat, woken.Nodup ∧
        (∀ t ∈ woken, (s.pc t).comes = true) ∧ s.data ≤ woken.length := by
  have reached : Run (Step semGate) (State.start 0) waitingActs _ :=
    .cons (.enter rfl) (.cons (.lock rfl rfl) (.cons (.block (.inl rfl) rfl) (.cons (.hand rfl rfl)
      (.cons (.drop rfl) (.cons (.doze rfl) (.cons (.enter rfl) (.cons (.lock rfl rfl)
      (.cons (.block (.inl rfl) rfl) (.cons (.hand rfl rfl) (.cons (.drop rfl) (.cons (.doze rfl)
      (.cons (.leave rfl) (.cons (.check rfl rfl) (.cons (.lock rfl rfl) (.cons (.put rfl rfl)
      (.cons (.wakeOne rfl rfl rfl) (.cons (.rouse rfl) (.single (.unlock (.inr rfl))))))))))))))))))))
  obtain ⟨law, stranded⟩ := semaphore_law reached
  refine ⟨_, reached, rfl, rfl, law, stranded (List.cons_ne_nil _ _) ?_⟩
  rintro (_ | _ | _ | t) <;> rfl

/-- The count is one, thread 1 sleeps and nobody has been woken. -/
theorem unit_before_wake :
    ∃ s, Run (Step semGate) (State.start 0)
        [.enter 1, .step 1, .step 1, .step 1, .step 1, .step 1, .leave 0, .step 0, .step 0, .step 0] s ∧
      s.data = 1 ∧ s.queue = [1] ∧ ∀ t : Nat, (s.pc t).comes = false := by
  refine ⟨_, .cons (.enter rfl) (.cons (.lock rfl rfl) (.cons (.block (.inl rfl) rfl)
    (.cons (.hand rfl rfl) (.cons (.drop rfl) (.cons (.doze rfl) (.cons (.leave rfl)
    (.cons (.check rfl rfl) (.cons (.lock rfl rfl) (.single (.put rfl rfl)))))))))), rfl, rfl, ?_⟩
  rintro (_ | _ | t) <;> rfl

end Os161.Threads

import Mathlib.Algebra.Group.Pi.Basic
import Mathlib.Tactic.Ring
import Os161.Lib.Outcome

/-- Quantities that the state of a system has, and answers from outside that the system takes in order.
A good answer is one that no action loses count over. -/
structure Ledger (S I F : Type) where
  count : S → I → ℤ
  script : S → List F
  good : F → Prop

namespace Ledger
open List

variable {S I F E A B : Type} {ledger : Ledger S I F}

/-- An action that returns changes the quantities by the gain of its result. What it leaves over is
zero exactly when all answers that it took are good. -/
def Shifts (ledger : Ledger S I F) (action : StateT S (Except E) A) (gain : A → I → ℤ) : Prop :=
  ∀ first value last, action.run first = .ok (value, last) →
    ∃ (used : List F) (lost : I → ℕ), ledger.script first = used ++ ledger.script last ∧
      (∀ i, ledger.count last i = ledger.count first i + gain value i + lost i) ∧
      ((∀ i, lost i = 0) ↔ ∀ answer ∈ used, ledger.good answer)

variable {action : StateT S (Except E) A}

/-- An action that leaves the quantities and the answers alone has no gain. -/
theorem Shifts.of_unchanged (same : ∀ first value last, action.run first = .ok (value, last) →
      ledger.count last = ledger.count first ∧ ledger.script last = ledger.script first) :
    ledger.Shifts action fun _ => 0 := by
  intro first value last ran
  obtain ⟨count, script⟩ := same first value last ran
  exact ⟨[], fun _ => 0, by simp [script], fun i => by simp [count], by simp⟩

variable {gain : A → I → ℤ}

/-- An action that takes no answer changes the quantities by its gain. -/
theorem Shifts.of_gain (moved : ∀ first value last, action.run first = .ok (value, last) →
      (∀ i, ledger.count last i = ledger.count first i + gain value i) ∧
        ledger.script last = ledger.script first) : ledger.Shifts action gain := by
  intro first value last ran
  obtain ⟨count, script⟩ := moved first value last ran
  exact ⟨[], fun _ => 0, by simp [script], fun i => by simp [count i], by simp⟩

theorem Shifts.pure (none : gain value = 0) :
    ledger.Shifts (Pure.pure value : StateT S (Except E) A) gain := by
  refine .of_gain fun first res last ran => ?_
  cases ran
  exact ⟨fun i => by simp [none], rfl⟩

theorem Shifts.throw (problem : E) :
    ledger.Shifts (MonadExcept.throw problem : StateT S (Except E) A) gain :=
  fun _ _ _ ran => nomatch ran

/-- A computation outside the state changes nothing. -/
theorem Shifts.lift (outcome : Except E A) :
    ledger.Shifts (liftM outcome : StateT S (Except E) A) fun _ => 0 := by
  refine .of_unchanged fun first value last ran => ?_
  cases outcome with
  | error problem => cases ran
  | ok res =>
    cases ran
    exact ⟨rfl, rfl⟩

/-- What the first action gains is left out of the gain of the rest. -/
theorem Shifts.bind {rest : A → StateT S (Except E) B} (prev : ledger.Shifts action gain)
    (after : ∀ value, ledger.Shifts (rest value) fun res => total res - gain value) :
    ledger.Shifts (action >>= rest) total := by
  intro first res last ran
  rw [StateT.run_bind, Outcome.bind_ok] at ran
  obtain ⟨⟨value, middle⟩, start, finish⟩ := ran
  obtain ⟨used, lost, script, count, fair⟩ := prev first value middle start
  obtain ⟨used', lost', script', count', fair'⟩ := after value middle res last finish
  refine ⟨used ++ used', fun i => lost i + lost' i, ?_, fun i => ?_, ?_⟩
  · rw [script, script', append_assoc]
  · have sum := count' i
    simp only [count i, Pi.sub_apply] at sum
    rw [sum]
    push_cast
    ring
  · simp only [Nat.add_eq_zero_iff, forall_mem_append, forall_and, fair, fair']

/-- The same action with its gain written in another way. -/
theorem Shifts.congr {other : A → I → ℤ} (shifts : ledger.Shifts action gain)
    (same : ∀ value, gain value = other value) : ledger.Shifts action other := by
  rwa [← funext same]

/-- An action changes the quantities by its gain exactly when all answers are good. -/
theorem Shifts.exact_iff (shifts : ledger.Shifts action gain)
    (ran : action.run first = .ok (value, last)) (taken : ledger.script last = []) :
    (∀ i, ledger.count last i = ledger.count first i + gain value i) ↔
      ∀ answer ∈ ledger.script first, ledger.good answer := by
  obtain ⟨used, lost, script, count, fair⟩ := shifts first value last ran
  rw [script, taken, append_nil, ← fair]
  refine forall_congr' fun i => ?_
  rw [count i]
  omega

end Ledger

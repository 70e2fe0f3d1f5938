import Mathlib.Tactic

namespace FirstRun

/-- Every position of the interval satisfies the predicate. -/
def IsRun (holds : Nat → Prop) (start length : Nat) : Prop :=
  ∀ offset < length, holds (start + offset)

/-- The scan counts consecutive hits and stops at the last position of the first full run. -/
def scan (holds : Nat → Prop) [DecidablePred holds] (length : Nat) :
    (remaining index count : Nat) → Option Nat
  | 0, _, _ => none
  | remaining + 1, index, count =>
    if holds index then
      if count + 1 = length then some index
      else scan holds length remaining (index + 1) (count + 1)
    else scan holds length remaining (index + 1) 0

/-- The loop invariant: the counter is the maximal run that ends before the index, and no
full run ends there. -/
structure Counted (holds : Nat → Prop) (length index count : Nat) : Prop where
  within : count ≤ index
  short : count < length
  hits : IsRun holds (index - count) count
  maximal : count = index ∨ ¬ holds (index - count - 1)
  fresh : ∀ start, start + length ≤ index → ¬ IsRun holds start length

/-- The scan starts with an empty counter. -/
theorem Counted.start (holds : Nat → Prop) (pos : 0 < len) :
    Counted holds len 0 0 where
  within := Nat.le_refl 0
  short := pos
  hits := fun offset small => absurd small (Nat.not_lt_zero offset)
  maximal := .inl rfl
  fresh := fun start bound => by omega

/-- A miss resets the counter. -/
theorem Counted.miss {holds : Nat → Prop} (counted : Counted holds len index count)
    (missed : ¬ holds index) :
    Counted holds len (index + 1) 0 where
  within := Nat.zero_le _
  short := by have := counted.short; omega
  hits := fun offset small => absurd small (Nat.not_lt_zero offset)
  maximal := .inr (by simpa using missed)
  fresh := by
    intro start bound run
    by_cases prior : start + len ≤ index
    · exact counted.fresh start prior run
    · have := counted.short
      have hit := run (index - start) (by omega)
      rw [show start + (index - start) = index by omega] at hit
      exact missed hit

/-- A hit that does not complete the run extends the counter. -/
theorem Counted.hit {holds : Nat → Prop} (counted : Counted holds len index count) (found : holds index)
    (incomplete : count + 1 ≠ len) : Counted holds len (index + 1) (count + 1) where
  within := Nat.succ_le_succ counted.within
  short := by have := counted.short; omega
  hits := by
    intro offset small
    have := counted.within
    by_cases last : offset = count
    · rw [show index + 1 - (count + 1) + offset = index by omega]
      exact found
    · have prior := counted.hits offset (by omega)
      rwa [show index - count + offset = index + 1 - (count + 1) + offset by omega] at prior
  maximal := by
    rcases counted.maximal with all | stopped
    · exact .inl (by omega)
    · exact .inr (by rwa [show index + 1 - (count + 1) - 1 = index - count - 1 by omega])
  fresh := by
    intro start bound run
    have := counted.short
    by_cases prior : start + len ≤ index
    · exact counted.fresh start prior run
    · rcases counted.maximal with all | stopped
      · omega
      · apply stopped
        have hit := run (index - count - 1 - start) (by omega)
        rwa [show start + (index - count - 1 - start) = index - count - 1 by omega] at hit

/-- A completed scan has found the lowest full run. -/
theorem scan_some {holds : Nat → Prop} [DecidablePred holds] (counted : Counted holds len index count)
    (found : scan holds len todo index count = some last) :
    len ≤ last + 1 ∧ last < index + todo ∧ IsRun holds (last + 1 - len) len ∧
      ∀ start, IsRun holds start len → start + len ≤ last + 1 → start + len = last + 1 := by
  induction todo generalizing index count with
  | zero => simp [scan] at found
  | succ todo ih =>
    simp only [scan] at found
    split at found
    · rename_i hit
      split at found
      · obtain rfl : index = last := by simpa using found
        have := counted.within
        refine ⟨by omega, by omega, ?_, ?_⟩
        · intro offset small
          by_cases final : offset = count
          · rwa [show index + 1 - len + offset = index by omega]
          · have prior := counted.hits offset (by omega)
            rwa [show index - count + offset = index + 1 - len + offset by omega] at prior
        · intro start run bound
          by_contra differ
          exact counted.fresh start (by omega) run
      · rename_i incomplete
        have tail := ih (counted.hit hit incomplete) found
        exact ⟨tail.1, by omega, tail.2.2⟩
    · rename_i missed
      have tail := ih (counted.miss missed) found
      exact ⟨tail.1, by omega, tail.2.2⟩

/-- A scan without a result has seen no full run. -/
theorem scan_none {holds : Nat → Prop} [DecidablePred holds] (counted : Counted holds len index count)
    (gone : scan holds len todo index count = none) :
    ∀ start, start + len ≤ index + todo → ¬ IsRun holds start len := by
  induction todo generalizing index count with
  | zero => exact counted.fresh
  | succ todo ih =>
    intro start bound
    simp only [scan] at gone
    split at gone
    · rename_i hit
      split at gone
      · simp at gone
      · rename_i incomplete
        exact ih (counted.hit hit incomplete) gone start (by omega)
    · rename_i missed
      exact ih (counted.miss missed) gone start (by omega)

end FirstRun

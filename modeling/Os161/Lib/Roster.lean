import Mathlib.Data.List.Nodup
import Mathlib.Logic.Function.Basic
import Mathlib.Tactic

namespace Roster
open Function List

variable {T P : Type}

/-- The owner is the only thread whose place says that it holds the lock. -/
def Owned (holds : P → Bool) (owner : Option T) (place : T → P) : Prop :=
  ∀ t, holds (place t) = true ↔ owner = some t

/-- The list has exactly the threads with a marked place, each of them once. -/
structure Listed (marked : P → Bool) (list : List T) (place : T → P) : Prop where
  once : list.Nodup
  mem : ∀ t, t ∈ list ↔ marked (place t) = true

/-- After an update a thread is the moved one or where it was. -/
theorem update_cases [DecidableEq T] (place : T → P) (t : T) (p : P) (u : T) :
    (u = t ∧ update place t p u = p) ∨
      (u ≠ t ∧ update place t p u = place u) := by
  by_cases same : u = t
  · exact .inl ⟨same, same ▸ update_self ..⟩
  · exact .inr ⟨same, update_of_ne same ..⟩

/-- A move that sets no mark leaves only threads marked that were marked before. -/
theorem marked_of_update [DecidableEq T] {marked : P → Bool} {place : T → P}
    (inherits : marked p = true → marked (place t) = true) (there : marked (update place t p u) = true) :
    marked (place u) = true := by
  obtain ⟨rfl, same⟩ | ⟨_, same⟩ := update_cases place t p u
  · exact inherits (same ▸ there)
  · exact same ▸ there

section

variable {holds : P → Bool} {owner : Option T} {place : T → P}

/-- Nobody holds a free lock. -/
theorem Owned.free (owned : Owned holds none place) (t : T) : holds (place t) = false := by
  rw [← Bool.not_eq_true, owned t]
  simp

/-- Two threads that hold the lock are the same. -/
theorem Owned.unique (owned : Owned holds owner place) (first : holds (place t) = true)
    (second : holds (place u) = true) : t = u :=
  Option.some.inj (((owned t).mp first).symm.trans ((owned u).mp second))

/-- A move to a place with the same right keeps the owner. -/
theorem Owned.keep [DecidableEq T] (owned : Owned holds owner place) (same : holds p = holds (place t)) :
    Owned holds owner (update place t p) := by
  intro u
  obtain ⟨rfl, there⟩ | ⟨_, there⟩ := update_cases place t p u
  · rw [there, same]
    exact owned u
  · rw [there]
    exact owned u

/-- A thread takes the free lock. -/
theorem Owned.acquire [DecidableEq T] (owned : Owned holds none place) (holding : holds p = true) :
    Owned holds (some t) (update place t p) := by
  intro u
  obtain ⟨rfl, there⟩ | ⟨other, there⟩ := update_cases place t p u
  · rw [there]
    exact iff_of_true holding rfl
  · rw [there, owned.free u]
    exact iff_of_false Bool.false_ne_true fun same => other (Option.some.inj same).symm

/-- The owner frees the lock. -/
theorem Owned.release [DecidableEq T] (owned : Owned holds owner place) (held : holds (place t) = true)
    (gone : holds p = false) : Owned holds none (update place t p) := by
  intro u
  obtain ⟨rfl, there⟩ | ⟨other, there⟩ := update_cases place t p u
  · rw [there, gone]
    exact iff_of_false Bool.false_ne_true (by simp)
  · rw [there]
    exact iff_of_false (fun both => other (owned.unique both held)) (by simp)

end

section

variable {marked : P → Bool} {list : List T} {place : T → P}

/-- Nothing is marked when the list is empty. -/
theorem Listed.empty (unmarked : ∀ t, marked (place t) = false) : Listed marked [] place where
  once := nodup_nil
  mem t := by simp [unmarked t]

/-- A move to a place with the same mark keeps the list. -/
theorem Listed.keep [DecidableEq T] (listed : Listed marked list place) (same : marked p = marked (place t)) :
    Listed marked list (update place t p) where
  once := listed.once
  mem u := by
    obtain ⟨rfl, there⟩ | ⟨_, there⟩ := update_cases place t p u
    · rw [there, same]
      exact listed.mem u
    · rw [there]
      exact listed.mem u

/-- A thread that becomes marked joins the list at its end. -/
theorem Listed.join [DecidableEq T] (listed : Listed marked list place) (prev : marked (place t) = false)
    (now : marked p = true) :
    Listed marked (list ++ [t]) (update place t p) where
  once := by
    have gone : t ∉ list := by
      rw [listed.mem t, prev]
      exact Bool.false_ne_true
    rw [nodup_append]
    refine ⟨listed.once, nodup_singleton t, ?_⟩
    rintro u member v last rfl
    rw [mem_singleton.mp last] at member
    exact gone member
  mem u := by
    rw [mem_append, mem_singleton, listed.mem u]
    obtain ⟨rfl, there⟩ | ⟨other, there⟩ := update_cases place t p u
    · rw [there]
      exact iff_of_true (.inr rfl) now
    · rw [there]
      exact or_iff_left other

/-- A thread that loses its mark leaves the list. -/
theorem Listed.erase [DecidableEq T] (listed : Listed marked list place) (now : marked p = false) :
    Listed marked (list.erase t) (update place t p) where
  once := listed.once.erase t
  mem u := by
    rw [listed.once.mem_erase_iff, listed.mem u]
    obtain ⟨rfl, there⟩ | ⟨other, there⟩ := update_cases place t p u
    · rw [there, now]
      exact iff_of_false (fun both => both.1 rfl) Bool.false_ne_true
    · rw [there]
      exact and_iff_right other

end

end Roster

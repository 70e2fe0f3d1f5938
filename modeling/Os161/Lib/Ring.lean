import Mathlib.Data.Nat.ModEq
import Mathlib.Logic.Function.Basic
import Mathlib.Tactic

namespace Ring
open Function

/-- A list lies in the cells of a ring from the first place on, and the next value goes behind it. One cell
stays free. -/
structure Holds {V : Type} (size : Nat) (cells : Nat → V) (first next : Nat) (l : List V) : Prop where
  inside : first < size
  short : l.length < size
  behind : next = (first + l.length) % size
  each : ∀ i, (here : i < l.length) → cells ((first + i) % size) = l[i]

variable {V : Type} {size : Nat} {cells : Nat → V} {first next : Nat} {l : List V}

theorem place_inj {i j : Nat} (less : i < size) (small : j < size)
    (same : (first + i) % size = (first + j) % size) : i = j :=
  (Nat.ModEq.add_left_cancel' first same).eq_of_lt_of_lt less small

theorem Holds.init (cells : Nat → V) (pos : 0 < size) : Holds size cells 0 0 [] :=
  ⟨pos, pos, (Nat.zero_mod _).symm, fun i here => absurd here (Nat.not_lt_zero i)⟩

variable (holds : Holds size cells first next l)
include holds

theorem Holds.succ_next : (next + 1) % size = (first + (l.length + 1)) % size := by
  rw [holds.behind, Nat.mod_add_mod, Nat.add_assoc]

theorem Holds.next_lt : next < size := by
  rw [holds.behind]
  exact Nat.mod_lt _ (Nat.zero_lt_of_lt holds.inside)

theorem Holds.next_eq_first : next = first ↔ l = [] := by
  have here : first = (first + 0) % size := (Nat.mod_eq_of_lt holds.inside).symm
  constructor
  · intro same
    rw [holds.behind] at same
    exact List.length_eq_zero_iff.mp (place_inj holds.short (Nat.zero_lt_of_lt holds.inside) (same.trans here))
  · rintro rfl
    exact holds.behind.trans here.symm

/-- The ring is full when one cell is left. -/
theorem Holds.full_iff : (next + 1) % size = first ↔ l.length + 1 = size := by
  have inside := holds.inside
  rw [holds.succ_next]
  constructor
  · intro same
    by_contra less
    have short := holds.short
    have zero : l.length + 1 = 0 :=
      place_inj (by omega) (Nat.zero_lt_of_lt inside) (same.trans (Nat.mod_eq_of_lt inside).symm)
    omega
  · intro all
    rw [all, Nat.add_mod_right, Nat.mod_eq_of_lt inside]

theorem Holds.push (roomy : l.length + 1 < size) (v : V) :
    Holds size (update cells next v) first ((next + 1) % size) (l ++ [v]) where
  inside := holds.inside
  short := by simpa using roomy
  behind := by simpa using holds.succ_next
  each i here := by
    rw [List.length_append, List.length_singleton] at here
    by_cases old : i < l.length
    · have other : (first + i) % size ≠ next := by
        rw [holds.behind]
        intro same
        have := place_inj (by omega) (by omega) same
        omega
      rw [update_of_ne other, List.getElem_append_left old, holds.each i old]
    · obtain rfl : i = l.length := by omega
      rw [← holds.behind, update_self, List.getElem_concat_length rfl]

omit holds

theorem Holds.pop (holds : Holds size cells first next (v :: l)) :
    cells first = v ∧ Holds size cells ((first + 1) % size) next l := by
  have short := holds.short
  rw [List.length_cons] at short
  have head := holds.each 0 (Nat.zero_lt_succ _)
  rw [Nat.add_zero, Nat.mod_eq_of_lt holds.inside] at head
  refine ⟨head, Nat.mod_lt _ (by omega), by omega, ?_, fun i here => ?_⟩
  · rw [holds.behind, Nat.mod_add_mod, List.length_cons, Nat.add_assoc, Nat.add_comm 1]
  · rw [Nat.mod_add_mod, Nat.add_assoc, Nat.add_comm 1]
    exact holds.each (i + 1) (Nat.succ_lt_succ here)

end Ring

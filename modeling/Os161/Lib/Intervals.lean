import Mathlib.Data.List.Perm.Basic
import Mathlib.Tactic

namespace Intervals
open List

/-- An interval of natural positions. -/
structure Interval where
  start : Nat
  length : Nat
deriving DecidableEq

/-- The position lies inside the interval. -/
def Interval.Covers (interval : Interval) (position : Nat) : Prop :=
  interval.start ≤ position ∧ position < interval.start + interval.length

instance (interval : Interval) (position : Nat) : Decidable (interval.Covers position) :=
  inferInstanceAs (Decidable (_ ∧ _))

/-- One interval ends before the other one starts. -/
def Interval.Apart (left right : Interval) : Prop :=
  left.start + left.length ≤ right.start ∨ right.start + right.length ≤ left.start

theorem Interval.Apart.symm {left : Interval} (apart : left.Apart right) : right.Apart left :=
  Or.symm apart

/-- Nonempty intervals without a common position are apart. -/
theorem Interval.apart_of_disjoint {left right : Interval} (leftPositive : 0 < left.length)
    (rightPositive : 0 < right.length)
    (disjoint : ∀ pos, left.Covers pos → ¬ right.Covers pos) : left.Apart right := by
  by_contra overlap
  simp only [Apart, not_or, not_le] at overlap
  apply disjoint (max left.start right.start)
  · simp only [Covers]; omega
  · simp only [Covers]; omega

/-- Intervals that are apart have no common position. -/
theorem Interval.Apart.not_covers {left : Interval} (apart : left.Apart right)
    (inside : left.Covers pos) : ¬ right.Covers pos := by
  simp only [Apart, Covers] at *
  omega

/-- Every live interval holds only occupied positions, and no two live intervals overlap. -/
structure Tenancy (occupied : Nat → Prop) (live : List Interval) : Prop where
  positive : ∀ interval ∈ live, 0 < interval.length
  within : ∀ interval ∈ live, ∀ position, interval.Covers position → occupied position
  apart : live.Pairwise Interval.Apart

/-- Nothing is live at the start. -/
theorem Tenancy.empty (occupied : Nat → Prop) : Tenancy occupied [] where
  positive := by simp
  within := by simp
  apart := List.Pairwise.nil

/-- Occupying more positions keeps every tenant. -/
theorem Tenancy.grow {occupied larger : Nat → Prop} (tenancy : Tenancy occupied live)
    (grown : ∀ pos, occupied pos → larger pos) :
    Tenancy larger live where
  positive := tenancy.positive
  within := fun interval mem pos inside =>
    grown pos (tenancy.within interval mem pos inside)
  apart := tenancy.apart

/-- A grant of unoccupied positions adds one tenant. -/
theorem Tenancy.grant {occupied larger : Nat → Prop} (tenancy : Tenancy occupied live) {interval : Interval}
    (positive : 0 < interval.length) (fresh : ∀ pos, interval.Covers pos → ¬ occupied pos)
    (grown : ∀ pos, occupied pos ∨ interval.Covers pos → larger pos) :
    Tenancy larger (interval :: live) where
  positive := by
    intro tenant mem
    rcases mem_cons.mp mem with rfl | old
    · exact positive
    · exact tenancy.positive tenant old
  within := by
    intro tenant mem pos inside
    rcases mem_cons.mp mem with rfl | old
    · exact grown pos (.inr inside)
    · exact grown pos (.inl (tenancy.within tenant old pos inside))
  apart := by
    refine pairwise_cons.mpr ⟨?_, tenancy.apart⟩
    intro tenant old
    apply Interval.apart_of_disjoint positive (tenancy.positive tenant old)
    intro pos inside shared
    exact fresh pos inside (tenancy.within tenant old pos shared)

/-- A release that clears only the positions of one tenant keeps the others. -/
theorem Tenancy.release {occupied smaller : Nat → Prop} (tenancy : Tenancy occupied (interval :: rest))
    (kept : ∀ pos, occupied pos → ¬ interval.Covers pos → smaller pos) :
    Tenancy smaller rest where
  positive := fun tenant mem => tenancy.positive tenant (mem_cons_of_mem _ mem)
  within := by
    intro tenant mem pos inside
    have separate := (pairwise_cons.mp tenancy.apart).1 tenant mem
    apply kept pos (tenancy.within tenant (mem_cons_of_mem _ mem) pos inside)
    exact separate.symm.not_covers inside
  apart := (pairwise_cons.mp tenancy.apart).2

/-- The order of the tenants does not matter. -/
theorem Tenancy.perm {occupied : Nat → Prop} (tenancy : Tenancy occupied first) (same : first.Perm second) :
    Tenancy occupied second where
  positive := fun tenant mem => tenancy.positive tenant (same.mem_iff.mpr mem)
  within := fun tenant mem => tenancy.within tenant (same.mem_iff.mpr mem)
  apart := (same.pairwise_iff fun apart => apart.symm).mp tenancy.apart

end Intervals

import Mathlib.Data.List.Nodup
import Mathlib.Logic.Function.Basic
import Mathlib.Tactic

namespace Places
open Function List

variable {B T : Type} {content : B → List T} {present : T → Prop} {p q : B}
  {ps qs moving : List T} {t : T}

/-- Everything that is there is in one place, once, and nothing else is anywhere. -/
structure Placed (content : B → List T) (present : T → Prop) : Prop where
  once : ∀ b, (content b).Nodup
  apart : ∀ {b b' t}, t ∈ content b → t ∈ content b' → b = b'
  somewhere : ∀ t, present t ↔ ∃ b, t ∈ content b

/-- What is in one place is in no other. -/
theorem Placed.unique (placed : Placed content present) (there : present t) : ∃! b, t ∈ content b := by
  obtain ⟨b, inside⟩ := (placed.somewhere t).mp there
  exact ⟨b, inside, fun b' also => placed.apart also inside⟩

variable [DecidableEq B]

section

variable (placed : Placed content present)
include placed

/-- The order in a place does not matter. -/
theorem Placed.perm (same : ps.Perm (content p)) : Placed (update content p ps) present := by
  have members (b : B) (t : T) : t ∈ update content p ps b ↔ t ∈ content b := by
    by_cases here : b = p
    · subst here
      rw [update_self, same.mem_iff]
    · rw [update_of_ne here]
  refine ⟨fun b => ?_, fun first second => ?_, fun t => ?_⟩
  · by_cases here : b = p
    · subst here
      rw [update_self]
      exact same.nodup_iff.mpr (placed.once b)
    · rw [update_of_ne here]
      exact placed.once b
  · exact placed.apart ((members _ _).mp first) ((members _ _).mp second)
  · simp only [members, placed.somewhere]

/-- Something leaves its place for good. -/
theorem Placed.remove (gone : (content p).Perm (t :: ps)) :
    Placed (update content p ps) fun u => present u ∧ u ≠ t := by
  have distinct : (t :: ps).Nodup := gone.nodup_iff.mp (placed.once p)
  have mem : t ∈ content p := gone.mem_iff.mpr mem_cons_self
  have members (b : B) (u : T) : u ∈ update content p ps b ↔ u ∈ content b ∧ u ≠ t := by
    by_cases here : b = p
    · subst here
      rw [update_self, gone.mem_iff, mem_cons]
      constructor
      · rintro inside
        exact ⟨.inr inside, fun same => (nodup_cons.mp distinct).1 (same ▸ inside)⟩
      · rintro ⟨same | inside, other⟩
        · exact absurd same other
        · exact inside
    · rw [update_of_ne here]
      refine ⟨fun inside => ⟨inside, ?_⟩, And.left⟩
      rintro rfl
      exact here (placed.apart inside mem)
  refine ⟨fun b => ?_, fun first second => ?_, fun u => ?_⟩
  · by_cases here : b = p
    · subst here
      rw [update_self]
      exact (nodup_cons.mp distinct).2
    · rw [update_of_ne here]
      exact placed.once b
  · exact placed.apart ((members _ _).mp first).1 ((members _ _).mp second).1
  · simp only [members, placed.somewhere, exists_and_right]

/-- Something new comes to a place. -/
theorem Placed.insert (gone : ¬ present t) (new : ps.Perm (t :: content p)) :
    Placed (update content p ps) fun u => present u ∨ u = t := by
  have nowhere (b : B) : t ∉ content b := fun inside => gone ((placed.somewhere t).mpr ⟨b, inside⟩)
  have members (b : B) (u : T) : u ∈ update content p ps b ↔ u ∈ content b ∨ b = p ∧ u = t := by
    by_cases here : b = p
    · subst here
      rw [update_self, new.mem_iff, mem_cons]
      simp only [true_and, or_comm]
    · rw [update_of_ne here]
      simp only [here, false_and, or_false]
  refine ⟨fun b => ?_, fun {b b' u} first second => ?_, fun u => ?_⟩
  · by_cases here : b = p
    · subst here
      rw [update_self]
      exact new.nodup_iff.mpr (nodup_cons.mpr ⟨nowhere b, placed.once b⟩)
    · rw [update_of_ne here]
      exact placed.once b
  · rcases (members _ _).mp first with inside | ⟨rfl, rfl⟩ <;>
      rcases (members _ _).mp second with also | ⟨rfl, same⟩
    · exact placed.apart inside also
    · exact absurd (same ▸ inside) (nowhere _)
    · exact absurd also (nowhere _)
    · rfl
  · simp only [members, exists_or, placed.somewhere, exists_eq_left]

/-- One thing goes from one place to another. -/
theorem Placed.moveOne (apart : p ≠ q) (left : (content p).Perm (t :: ps)) (right : qs.Perm (t :: content q)) :
    Placed (update (update content p ps) q qs) present := by
  have there : present t := (placed.somewhere t).mpr ⟨p, left.mem_iff.mpr mem_cons_self⟩
  have others := placed.remove left
  have joins : qs.Perm (t :: update content p ps q) := by
    rw [update_of_ne apart.symm]
    exact right
  have all := others.insert (fun both => both.2 rfl) joins
  have same : (fun u => (present u ∧ u ≠ t) ∨ u = t) = present := by
    funext u
    by_cases here : u = t
    · subst here
      simp [there]
    · simp [here]
  rwa [same] at all

/-- Some things go from one place to another. -/
theorem Placed.move (apart : p ≠ q) (left : (content p).Perm (moving ++ ps))
    (right : qs.Perm (moving ++ content q)) : Placed (update (update content p ps) q qs) present := by
  induction moving generalizing content with
  | nil =>
    have first := placed.perm left.symm
    refine first.perm ?_
    rw [update_of_ne apart.symm]
    exact right
  | cons t moving ih =>
    have one := placed.moveOne apart left (List.Perm.refl (t :: content q))
    have rest := ih one (by rw [update_of_ne apart, update_self]; exact .refl _)
      (by
        rw [update_self]
        exact right.trans perm_middle.symm)
    rwa [update_comm apart.symm, update_idem, update_idem] at rest

end

end Places

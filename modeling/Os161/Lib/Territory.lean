import Mathlib.Data.Set.Basic
import Mathlib.Tactic

namespace Territory

variable {B D : Type} {used used' used'' : B → Prop} {data data' data'' : B → D}
  {old mid new : Set B}

/-- An owner exchanges its part of a store for another part. It takes only unused places, and nothing
outside of its parts changes. -/
structure Change (used used' : B → Prop) (data data' : B → D) (old new : Set B) : Prop where
  fresh : ∀ b ∈ new, b ∈ old ∨ ¬ used b
  marks : ∀ b, used' b ↔ used b ∧ b ∉ old ∨ b ∈ new
  kept : ∀ b, used b → b ∉ old → data' b = data b

/-- The owner changes nothing. -/
theorem Change.refl (data : B → D) (marked : ∀ b ∈ old, used b) :
    Change used used data data old old where
  fresh _ member := .inl member
  marks b := by
    constructor
    · intro marks
      by_cases member : b ∈ old
      · exact .inr member
      · exact .inl ⟨marks, member⟩
    · rintro (⟨marks, _⟩ | member)
      · exact marks
      · exact marked b member
  kept _ _ _ := rfl

/-- The other owners keep their places. -/
theorem Change.outside (change : Change used used' data data' old new) (marks : used b) (apart : b ∉ old) :
    used' b ∧ b ∉ new := by
  refine ⟨(change.marks b).mpr (.inl ⟨marks, apart⟩), ?_⟩
  intro mem
  rcases change.fresh b mem with prev | free
  · exact apart prev
  · exact free marks

/-- Two exchanges one after the other are one exchange. -/
theorem Change.trans (first : Change used used' data data' old mid)
    (second : Change used' used'' data' data'' mid new) :
    Change used used'' data data'' old new where
  fresh b member := by
    rcases second.fresh b member with early | free
    · exact first.fresh b early
    · by_contra neither
      push Not at neither
      exact free (first.outside neither.2 neither.1).1
  marks b := by
    rw [second.marks b, first.marks b]
    constructor
    · rintro (⟨marks | early, late⟩ | member)
      · exact .inl marks
      · exact absurd early late
      · exact .inr member
    · rintro (⟨marks, apart⟩ | member)
      · exact .inl ⟨.inl ⟨marks, apart⟩, (first.outside marks apart).2⟩
      · exact .inr member
  kept b marks apart := by
    obtain ⟨later, away⟩ := first.outside marks apart
    rw [second.kept b later away, first.kept b marks apart]

end Territory

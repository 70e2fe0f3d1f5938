import Mathlib.Data.List.Pairwise
import Mathlib.Logic.Function.Basic
import Mathlib.Tactic.Linarith

namespace Tiling
open Function List

/-- A piece of a range -/
structure Piece (T : Type) where
  length : Nat
  tag : T
deriving DecidableEq

variable {T C : Type}

/-- The length of all pieces together -/
def span : List (Piece T) → Nat
  | [] => 0
  | piece :: rest => piece.length + span rest

@[simp] theorem span_nil : span ([] : List (Piece T)) = 0 := rfl

@[simp] theorem span_cons (piece : Piece T) (rest : List (Piece T)) :
    span (piece :: rest) = piece.length + span rest := rfl

@[simp] theorem span_append (front back : List (Piece T)) : span (front ++ back) = span front + span back := by
  induction front with
  | nil => simp
  | cons piece rest ih => simp [ih, Nat.add_assoc]

/-- The length of the last piece; without a piece it is this one. -/
def lastLength (before : Nat) : List (Piece T) → Nat
  | [] => before
  | piece :: rest => lastLength piece.length rest

@[simp] theorem lastLength_nil (before : Nat) : lastLength before ([] : List (Piece T)) = before := rfl

@[simp] theorem lastLength_cons (before : Nat) (piece : Piece T) (rest : List (Piece T)) :
    lastLength before (piece :: rest) = lastLength piece.length rest := rfl

@[simp] theorem lastLength_append (before : Nat) (front back : List (Piece T)) :
    lastLength before (front ++ back) = lastLength (lastLength before front) back := by
  induction front generalizing before with
  | nil => rfl
  | cons piece rest ih => exact ih piece.length

/-- The pieces with the places where they start -/
def starts (place : Nat) : List (Piece T) → List (Nat × Piece T)
  | [] => []
  | piece :: rest => (place, piece) :: starts (place + piece.length) rest

@[simp] theorem starts_nil (place : Nat) : starts place ([] : List (Piece T)) = [] := rfl

@[simp] theorem starts_cons (place : Nat) (piece : Piece T) (rest : List (Piece T)) :
    starts place (piece :: rest) = (place, piece) :: starts (place + piece.length) rest := rfl

@[simp] theorem starts_append (place : Nat) (front back : List (Piece T)) :
    starts place (front ++ back) = starts place front ++ starts (place + span front) back := by
  induction front generalizing place with
  | nil => simp
  | cons piece rest ih => simp [ih, Nat.add_assoc]

theorem mem_starts :
    (start, piece) ∈ starts place pieces ↔
      ∃ front back, pieces = front ++ piece :: back ∧ start = place + span front := by
  constructor
  · intro member
    induction pieces generalizing place with
    | nil => cases member
    | cons first rest ih =>
      rcases mem_cons.mp member with same | later
      · cases same
        exact ⟨[], rest, rfl, rfl⟩
      · obtain ⟨front, back, rfl, spot⟩ := ih later
        refine ⟨first :: front, back, rfl, ?_⟩
        rw [spot, span_cons, Nat.add_assoc]
  · rintro ⟨front, back, rfl, rfl⟩
    simp

theorem le_of_mem_starts (member : (start, piece) ∈ starts place pieces) :
    place ≤ start ∧ start + piece.length ≤ place + span pieces := by
  obtain ⟨front, back, rfl, rfl⟩ := mem_starts.mp member
  simp only [span_append, span_cons]
  omega

/-- Pieces do not overlap. -/
theorem starts_pairwise (place : Nat) (pieces : List (Piece T)) :
    (starts place pieces).Pairwise fun first second => first.1 + first.2.length ≤ second.1 := by
  induction pieces generalizing place with
  | nil => exact .nil
  | cons piece rest ih =>
    refine .cons ?_ (ih _)
    rintro ⟨start, other⟩ member
    exact (le_of_mem_starts member).1

theorem starts_apart {place first second : Nat} {low high : Piece T} {pieces : List (Piece T)}
    (one : (first, low) ∈ starts place pieces) (other : (second, high) ∈ starts place pieces)
    (distinct : first ≠ second) : first + low.length ≤ second ∨ second + high.length ≤ first := by
  let Clear (a b : Nat × Piece T) := a.1 + a.2.length ≤ b.1 ∨ b.1 + b.2.length ≤ a.1
  have symmetric : Std.Symm Clear := ⟨fun _ _ clear => clear.symm⟩
  have clear : (starts place pieces).Pairwise Clear := (starts_pairwise place pieces).imp .inl
  exact clear.forall one other fun same => distinct (congrArg Prod.fst same)

/-- Every piece begins with a cell that names the length of the piece before it and its own. -/
def Linked (cell : Nat → Piece T → C) (mem : Nat → C) : Nat → Nat → List (Piece T) → Prop
  | _, _, [] => True
  | place, before, piece :: rest =>
    mem place = cell before piece ∧ Linked cell mem (place + piece.length) piece.length rest

variable {cell : Nat → Piece T → C} {mem mem' : Nat → C} {place before : Nat} {piece : Piece T}
  {pieces rest front back : List (Piece T)}

theorem linked_append : Linked cell mem place before (front ++ back) ↔
    Linked cell mem place before front ∧
      Linked cell mem (place + span front) (lastLength before front) back := by
  induction front generalizing place before with
  | nil => simp [Linked]
  | cons piece rest ih => simp [Linked, ih, and_assoc, Nat.add_assoc]

/-- The links only depend on the cells of the range. -/
theorem Linked.frame (linked : Linked cell mem place before pieces)
    (pos : ∀ piece ∈ pieces, 0 < piece.length)
    (same : ∀ spot, place ≤ spot → spot < place + span pieces → mem' spot = mem spot) :
    Linked cell mem' place before pieces := by
  induction pieces generalizing place before with
  | nil => trivial
  | cons piece rest ih =>
    have long := pos piece mem_cons_self
    rw [span_cons] at same
    refine ⟨(same place (Nat.le_refl _) (by omega)).trans linked.1, ?_⟩
    refine ih linked.2 (fun other member => pos other (mem_cons_of_mem _ member)) ?_
    intro spot low high
    exact same spot (by omega) (by omega)

/-- A cell outside of the range is of no importance. -/
theorem Linked.update (linked : Linked cell mem place before pieces)
    (pos : ∀ piece ∈ pieces, 0 < piece.length) (value : C)
    (out : spot < place ∨ place + span pieces ≤ spot) :
    Linked cell (update mem spot value) place before pieces := by
  refine linked.frame pos fun other low high => update_of_ne ?_ _ _
  omega

end Tiling

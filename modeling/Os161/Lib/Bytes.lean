import Mathlib.Logic.Function.Basic
import Mathlib.Tactic

namespace Bytes
open Function

/-- The store writes a list of values to consecutive addresses. -/
def store {V : Type} (base : Nat) : List V → (Nat → V) → Nat → V
  | [], memory => memory
  | value :: rest, memory => store (base + 1) rest (update memory base value)

/-- An address holds the stored value when the list reaches it. -/
theorem store_apply {V : Type} (base : Nat) (data : List V) (memory : Nat → V) (addr : Nat) :
    store base data memory addr =
      if base ≤ addr then data[addr - base]?.getD (memory addr) else memory addr := by
  induction data generalizing base memory with
  | nil => simp [store]
  | cons value rest ih =>
    rw [store, ih]
    by_cases below : addr < base
    · rw [if_neg (by omega), if_neg (by omega), update_of_ne (by omega)]
    · by_cases here : addr = base
      · subst addr
        simp
      · rw [if_pos (by omega), if_pos (by omega), update_of_ne here,
          show addr - base = addr - (base + 1) + 1 by omega, List.getElem?_cons_succ]

/-- The store leaves every other address alone. -/
theorem store_outside {V : Type} {data : List V} (memory : Nat → V)
    (out : addr < base ∨ base + data.length ≤ addr) :
    store base data memory addr = memory addr := by
  rw [store_apply]
  split
  · rw [List.getElem?_eq_none (by omega), Option.getD_none]
  · rfl

/-- The store puts each value at its own place. -/
theorem store_inside {V : Type} (base : Nat) {data : List V} (memory : Nat → V)
    (small : offset < data.length) : store base data memory (base + offset) = data[offset] := by
  rw [store_apply, if_pos (Nat.le_add_right _ _), Nat.add_sub_cancel_left,
    List.getElem?_eq_getElem small, Option.getD_some]

/-- Two stores side by side are one store. -/
theorem store_append {V : Type} (base : Nat) (front back : List V) (memory : Nat → V) :
    store (base + front.length) back (store base front memory) = store base (front ++ back) memory := by
  induction front generalizing base memory with
  | nil => rfl
  | cons value rest ih =>
    rw [List.cons_append, store, store, ← ih, List.length_cons, Nat.add_right_comm, Nat.add_assoc]

/-- The copy moves a stretch of one memory to a place in another. -/
def copy {V : Type} (source : Nat → V) (start : Nat) (memory : Nat → V) (base length : Nat) : Nat → V :=
  fun address =>
    if base ≤ address ∧ address < base + length then source (start + (address - base))
    else memory address

theorem copy_inside {V : Type} (source : Nat → V) (start : Nat) (memory : Nat → V) (base : Nat)
    (small : offset < len) :
    copy source start memory base len (base + offset) = source (start + offset) := by
  rw [copy, if_pos ⟨Nat.le_add_right _ _, by omega⟩, Nat.add_sub_cancel_left]

theorem copy_outside {V : Type} (source : Nat → V) (start : Nat) (memory : Nat → V)
    (out : addr < base ∨ base + len ≤ addr) :
    copy source start memory base len addr = memory addr :=
  if_neg (by omega)

/-- A copy depends on its source only where it reads it. -/
theorem copy_congr {V : Type} {source other : Nat → V} (memory : Nat → V) (base : Nat)
    (same : ∀ offset < len, source (start + offset) = other (start + offset)) :
    copy source start memory base len = copy other start memory base len := by
  funext addr
  unfold copy
  split
  · exact same _ (by omega)
  · rfl

@[simp] theorem copy_zero {V : Type} (source : Nat → V) (start : Nat) (memory : Nat → V) (base : Nat) :
    copy source start memory base 0 = memory := by
  funext addr
  exact copy_outside _ _ _ (by omega)

/-- Two copies side by side are one copy. -/
theorem copy_append {V : Type} (source : Nat → V) (start : Nat) (memory : Nat → V)
    (base front back : Nat) :
    copy source (start + front) (copy source start memory base front) (base + front) back =
      copy source start memory base (front + back) := by
  funext addr
  unfold copy
  by_cases early : base ≤ addr ∧ addr < base + front
  · rw [if_neg (by omega), if_pos early, if_pos (by omega)]
  · by_cases late : base + front ≤ addr ∧ addr < base + front + back
    · rw [if_pos late, if_pos (by omega), show start + front + (addr - (base + front)) =
        start + (addr - base) by omega]
    · rw [if_neg late, if_neg early, if_neg (by omega)]

end Bytes

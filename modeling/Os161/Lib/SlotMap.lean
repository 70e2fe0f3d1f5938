import Mathlib.Data.List.Basic
import Mathlib.Logic.Function.Basic
import Mathlib.Tactic

namespace SlotMap
open Function List Option

variable {K V : Type}

/-- A table of slots, each of which is empty or binds a key. -/
abbrev Table (K V : Type) := List (Option (K × V))

/-- No key is bound in two slots. -/
def Unique (t : Table K V) : Prop :=
  ∀ ⦃i j : Nat⦄ ⦃k : K⦄ ⦃v w : V⦄, t[i]? = some (some (k, v)) → t[j]? = some (some (k, w)) → i = j

/-- The table after a slot, which may be the next one behind the end, has been written. -/
def place (t : Table K V) (i : Nat) (entry : Option (K × V)) : Table K V :=
  if i < t.length then t.set i entry else t ++ [entry]

variable {i : Nat}

theorem place_getElem? (t : Table K V) (near : i ≤ t.length) (entry : Option (K × V)) (j : Nat) :
    (place t i entry)[j]? = if j = i then some entry else t[j]? := by
  unfold place
  split
  · rename_i inside
    rw [List.getElem?_set, if_pos inside]
    by_cases same : i = j
    · rw [if_pos same, if_pos same.symm]
    · rw [if_neg same, if_neg (Ne.symm same)]
  · obtain rfl : i = t.length := by omega
    rw [List.getElem?_append]
    by_cases inside : j < t.length
    · rw [if_pos inside, if_neg (by omega)]
    · rw [if_neg inside]
      by_cases same : j = t.length
      · rw [if_pos same, same, Nat.sub_self]
        rfl
      · rw [if_neg same, List.getElem?_eq_none (by simp; omega), List.getElem?_eq_none (by omega)]

theorem place_length (t : Table K V) (near : i ≤ t.length) (entry : Option (K × V)) :
    (place t i entry).length = max t.length (i + 1) := by
  unfold place
  split
  · rw [length_set]
    omega
  · rw [length_append, length_singleton]
    omega

/-- A slot may take a key that is not bound in another slot. -/
theorem Unique.place {t : Table K V} (unique : Unique t) (near : i ≤ t.length)
    {entry : Option (K × V)}
    (fresh : ∀ k v, entry = some (k, v) → ∀ j w, t[j]? = some (some (k, w)) → j = i) :
    Unique (SlotMap.place t i entry) := by
  intro a b k v w first second
  rw [place_getElem? t near] at first second
  by_cases left : a = i <;> by_cases right : b = i
  · rw [left, right]
  · rw [if_pos left] at first
    rw [if_neg right] at second
    exact absurd (fresh k v (Option.some.inj first) b w second) right
  · rw [if_neg left] at first
    rw [if_pos right] at second
    exact absurd (fresh k w (Option.some.inj second) a v first) left
  · rw [if_neg left] at first
    rw [if_neg right] at second
    exact unique first second

section

variable [DecidableEq K]

def lookup (t : Table K V) (k : K) : Option V :=
  t.findSome? fun entry => entry.bind fun binding => if binding.1 = k then some binding.2 else none

variable {t : Table K V} {k : K}

theorem lookup_eq_none : lookup t k = none ↔ ∀ v, some (k, v) ∉ t := by
  rw [lookup, List.findSome?_eq_none_iff]
  constructor
  · intro all v mem
    have hidden := all _ mem
    simp at hidden
  · intro none entry mem
    cases entry with
    | none => rfl
    | some binding =>
      obtain ⟨key, v⟩ := binding
      refine if_neg ?_
      rintro rfl
      exact none v mem

variable {v : V}

theorem mem_of_lookup (found : lookup t k = some v) : some (k, v) ∈ t := by
  obtain ⟨entry, mem, bound⟩ := exists_of_findSome?_eq_some found
  obtain ⟨⟨key, value⟩, rfl, chosen⟩ := bind_eq_some_iff.mp bound
  split at chosen
  · rename_i same
    obtain rfl : key = k := same
    obtain rfl : value = v := Option.some.inj chosen
    exact mem
  · cases chosen

/-- In a table without repetitions the lookup finds every binding. -/
theorem Unique.lookup (unique : Unique t) : lookup t k = some v ↔ some (k, v) ∈ t := by
  refine ⟨mem_of_lookup, ?_⟩
  intro mem
  cases found : SlotMap.lookup t k with
  | none => exact absurd mem (lookup_eq_none.mp found v)
  | some w =>
    obtain ⟨i, here⟩ := mem_iff_getElem?.mp mem
    obtain ⟨j, there⟩ := mem_iff_getElem?.mp (mem_of_lookup found)
    obtain rfl := unique here there
    rw [here] at there
    cases there
    rfl

variable {i : Nat}

theorem Unique.lookup_getElem? (unique : Unique t) (bound : t[i]? = some (some (k, v))) :
    SlotMap.lookup t k = some v :=
  unique.lookup.mpr (mem_iff_getElem?.mpr ⟨i, bound⟩)

/-- Tables without repetitions that hold the same bindings are the same map. -/
theorem Unique.lookup_congr {t' : Table K V} (unique : Unique t) (unique' : Unique t') {k' : K}
    (same : ∀ v, some (k, v) ∈ t ↔ some (k', v) ∈ t') :
    SlotMap.lookup t k = SlotMap.lookup t' k' := by
  refine Option.ext fun v => ?_
  rw [unique.lookup, unique'.lookup, same]

/-- A new binding in an empty slot -/
theorem Unique.lookup_bind (unique : Unique t) (near : i ≤ t.length) (v : V)
    (vacant : ∀ binding, t[i]? ≠ some (some binding)) (fresh : SlotMap.lookup t k = none) :
    Unique (SlotMap.place t i (some (k, v))) ∧
      SlotMap.lookup (SlotMap.place t i (some (k, v))) = update (SlotMap.lookup t) k (some v) := by
  have gone (j : Nat) (w : V) : t[j]? ≠ some (some (k, w)) := by
    intro bound
    rw [unique.lookup_getElem? bound] at fresh
    cases fresh
  have unique' : Unique (SlotMap.place t i (some (k, v))) := by
    refine unique.place near ?_
    rintro _ _ ⟨⟩ j w bound
    exact absurd bound (gone j w)
  refine ⟨unique', ?_⟩
  funext key
  by_cases same : key = k
  · subst same
    rw [update_self]
    refine unique'.lookup_getElem? (i := i) ?_
    rw [place_getElem? t near, if_pos rfl]
  · rw [update_of_ne same]
    refine unique'.lookup_congr unique ?_
    intro w
    rw [mem_iff_getElem?, mem_iff_getElem?]
    refine exists_congr fun j => ?_
    rw [place_getElem? t near]
    by_cases here : j = i
    · rw [if_pos here, here]
      exact iff_of_false (fun equal => same (by cases equal; rfl)) (vacant _)
    · rw [if_neg here]

/-- A slot that loses its binding -/
theorem Unique.lookup_erase (unique : Unique t) (bound : t[i]? = some (some (k, v))) :
    Unique (SlotMap.place t i none) ∧
      SlotMap.lookup (SlotMap.place t i none) = update (SlotMap.lookup t) k none := by
  have near : i ≤ t.length := Nat.le_of_lt (List.getElem?_eq_some_iff.mp bound).1
  have unique' : Unique (SlotMap.place t i none) := by
    refine unique.place near ?_
    intro _ _ impossible
    cases impossible
  refine ⟨unique', ?_⟩
  funext key
  by_cases same : key = k
  · subst same
    rw [update_self, lookup_eq_none]
    intro w mem
    obtain ⟨j, there⟩ := mem_iff_getElem?.mp mem
    rw [place_getElem? t near] at there
    by_cases here : j = i
    · rw [if_pos here] at there
      cases there
    · rw [if_neg here] at there
      exact here (unique there bound)
  · rw [update_of_ne same]
    refine unique'.lookup_congr unique ?_
    intro w
    rw [mem_iff_getElem?, mem_iff_getElem?]
    refine exists_congr fun j => ?_
    rw [place_getElem? t near]
    by_cases here : j = i
    · rw [if_pos here, here, bound]
      exact iff_of_false nofun (fun equal => same (by cases equal; rfl))
    · rw [if_neg here]

end

section

variable [DecidableEq V]

/-- The number of slots that bind a key to a value -/
def refs (t : Table K V) (v : V) : Nat := t.countP fun entry => entry.any fun binding => binding.2 = v

theorem refs_le_length (t : Table K V) (v : V) : refs t v ≤ t.length := countP_le_length

theorem refs_pos {t : Table K V} {v : V} : 0 < refs t v ↔ ∃ k, some (k, v) ∈ t := by
  rw [refs, countP_pos_iff]
  constructor
  · rintro ⟨entry, mem, bound⟩
    cases entry with
    | none => cases bound
    | some binding =>
      obtain ⟨k, w⟩ := binding
      obtain rfl : w = v := by simpa using bound
      exact ⟨k, mem⟩
  · rintro ⟨k, mem⟩
    exact ⟨_, mem, by simp⟩

theorem refs_bind (t : Table K V) (k : K) (v w : V) (vacant : ∀ binding, t[i]? ≠ some (some binding)) :
    refs (place t i (some (k, v))) w = refs t w + if v = w then 1 else 0 := by
  unfold refs place
  split
  · rename_i inside
    have empty : t[i] = none := by
      cases entry : t[i] with
      | none => rfl
      | some binding => exact absurd (by rw [List.getElem?_eq_getElem inside, entry]) (vacant binding)
    rw [countP_set inside, empty]
    simp
  · simp

theorem refs_erase (t : Table K V) (bound : t[i]? = some (some (k, v))) (w : V) :
    refs t w = refs (place t i none) w + if v = w then 1 else 0 := by
  obtain ⟨inside, entry⟩ := List.getElem?_eq_some_iff.mp bound
  unfold refs place
  rw [if_pos inside, countP_set inside, entry]
  by_cases same : v = w
  · have counted : 0 < t.countP fun entry => entry.any fun binding => binding.2 = w := by
      refine countP_pos_iff.mpr ⟨some (k, v), mem_iff_getElem?.mpr ⟨i, bound⟩, ?_⟩
      simpa using same
    simp only [same, any_some, decide_true, if_true, any_none, Bool.false_eq_true, if_false]
    omega
  · simp [same]

end

end SlotMap

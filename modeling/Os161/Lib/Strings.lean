import Mathlib.Tactic

namespace Strings
open List Function

variable {V : Type*}

/-- The cells from the address on hold the values of the list. -/
def Holds (read : Nat → Option V) (address : Nat) (data : List V) : Prop :=
  ∀ offset < data.length, read (address + offset) = data[offset]?

@[simp] theorem holds_nil (read : Nat → Option V) (address : Nat) : Holds read address [] := by
  intro offset small
  cases small

variable {read : Nat → Option V} {address : Nat}

theorem holds_cons :
    Holds read address (value :: rest) ↔ read address = some value ∧ Holds read (address + 1) rest := by
  constructor
  · intro held
    refine ⟨held 0 (by simp), fun offset small => ?_⟩
    have next := held (offset + 1) (by simpa using small)
    rwa [← Nat.add_assoc, Nat.add_right_comm] at next
  · rintro ⟨head, tail⟩ (_ | offset) small
    · exact head
    · rw [List.getElem?_cons_succ, ← tail offset (by simpa using small)]
      congr 1
      omega

theorem holds_append :
    Holds read address (front ++ back) ↔
      Holds read address front ∧ Holds read (address + front.length) back := by
  induction front generalizing address with
  | nil => simp
  | cons value rest ih =>
    rw [cons_append, holds_cons, holds_cons, ih, and_assoc, length_cons,
      show address + 1 + rest.length = address + (rest.length + 1) by omega]

/-- Two lists of one length at one address are the same list. -/
theorem Holds.unique (first : Holds read address left) (second : Holds read address right)
    (len : left.length = right.length) : left = right := by
  induction left generalizing address right with
  | nil => exact (length_eq_zero_iff.mp len.symm).symm
  | cons value rest ih =>
    cases right with
    | nil => cases len
    | cons other tail =>
      obtain ⟨here, after⟩ := holds_cons.mp first
      obtain ⟨again, behind⟩ := holds_cons.mp second
      cases here.symm.trans again
      rw [ih after behind (Nat.succ.inj len)]

/-- A string without the terminator lies at the address, with the terminator behind it. -/
structure StringAt (terminator : V) (read : Nat → Option V) (address : Nat) (text : List V) : Prop where
  plain : terminator ∉ text
  held : Holds read address (text ++ [terminator])

/-- An address has at most one string. -/
theorem StringAt.unique (first : StringAt terminator read address left)
    (second : StringAt terminator read address right) : left = right := by
  induction left generalizing address right with
  | nil =>
    cases right with
    | nil => rfl
    | cons value rest =>
      have here := (holds_cons.mp first.held).1
      have other := (holds_cons.mp second.held).1
      cases here.symm.trans other
      exact absurd mem_cons_self second.plain
  | cons value rest ih =>
    cases right with
    | nil =>
      have here := (holds_cons.mp first.held).1
      have other := (holds_cons.mp second.held).1
      cases here.symm.trans other
      exact absurd mem_cons_self first.plain
    | cons other tail =>
      obtain ⟨here, after⟩ := holds_cons.mp first.held
      obtain ⟨again, behind⟩ := holds_cons.mp second.held
      cases here.symm.trans again
      rw [ih ⟨fun mem => first.plain (mem_cons_of_mem _ mem), after⟩
        ⟨fun mem => second.plain (mem_cons_of_mem _ mem), behind⟩]

/-- The values up to the first empty cell. -/
def fetch (read : Nat → Option V) : (remaining address : Nat) → List V
  | 0, _ => []
  | remaining + 1, address =>
    match read address with
    | none => []
    | some value => value :: fetch read remaining (address + 1)

theorem Holds.fetch (held : Holds read address data) : fetch read data.length address = data := by
  induction data generalizing address with
  | nil => rfl
  | cons value rest ih =>
    obtain ⟨head, tail⟩ := holds_cons.mp held
    rw [length_cons, Strings.fetch, head]
    exact congrArg (value :: ·) (ih tail)

/-- How the search for a terminator ends. -/
inductive Ending where
  | terminated
  | empty
  | limit
deriving DecidableEq, Repr

/-- The values up to the terminator, the first empty cell or the limit. -/
def scan [DecidableEq V] (terminator : V) (read : Nat → Option V) :
    (remaining address : Nat) → List V × Ending
  | 0, _ => ([], .limit)
  | remaining + 1, address =>
    match read address with
    | none => ([], .empty)
    | some value =>
      if value = terminator then ([value], .terminated)
      else
        let (rest, ending) := scan terminator read remaining (address + 1)
        (value :: rest, ending)

/-- The search finds a string that is shorter than the limit. -/
theorem StringAt.scan [DecidableEq V] (string : StringAt terminator read address text)
    (short : text.length < todo) :
    scan terminator read todo address = (text ++ [terminator], .terminated) := by
  induction text generalizing address todo with
  | nil =>
    obtain ⟨todo, rfl⟩ := Nat.exists_eq_succ_of_ne_zero (Nat.ne_of_gt short)
    have here := (holds_cons.mp string.held).1
    simp [Strings.scan, here]
  | cons value rest ih =>
    obtain ⟨todo, rfl⟩ := Nat.exists_eq_succ_of_ne_zero (Nat.ne_of_gt (Nat.zero_lt_of_lt short))
    obtain ⟨here, after⟩ := holds_cons.mp string.held
    have other : value ≠ terminator := fun same => string.plain (same ▸ mem_cons_self)
    have tail := ih ⟨fun mem => string.plain (mem_cons_of_mem _ mem), after⟩
      (Nat.lt_of_succ_lt_succ short)
    simp only [Strings.scan, here, if_neg other, tail, cons_append]

/-- The search reaches the limit inside a longer string. -/
theorem StringAt.scan_long [DecidableEq V] (string : StringAt terminator read address text)
    (long : todo ≤ text.length) : Strings.scan terminator read todo address = (text.take todo, .limit) := by
  induction todo generalizing address text with
  | zero => rfl
  | succ todo ih =>
    cases text with
    | nil => cases long
    | cons value rest =>
      obtain ⟨here, after⟩ := holds_cons.mp string.held
      have other : value ≠ terminator := fun same => string.plain (same ▸ mem_cons_self)
      have tail := ih ⟨fun mem => string.plain (mem_cons_of_mem _ mem), after⟩ (Nat.le_of_succ_le_succ long)
      simp only [Strings.scan, here, if_neg other, tail, take_succ_cons]

/-- The search reaches the limit when no shorter string lies there. -/
theorem scan_limit [DecidableEq V] (readable : ∀ offset < todo, read (address + offset) ≠ none)
    (long : ∀ text, StringAt terminator read address text → todo ≤ text.length) :
    (scan terminator read todo address).2 = .limit := by
  induction todo generalizing address with
  | zero => rfl
  | succ todo ih =>
    cases here : read address with
    | none => exact absurd here (readable 0 (by omega))
    | some value =>
      have other : value ≠ terminator := by
        rintro rfl
        cases long [] ⟨not_mem_nil, holds_cons.mpr ⟨here, holds_nil read _⟩⟩
      simp only [scan, here, if_neg other]
      refine ih (fun offset small => ?_) fun text string => ?_
      · rw [Nat.add_assoc, Nat.add_comm 1]
        exact readable (offset + 1) (by omega)
      · have plain : terminator ∉ value :: text := not_mem_cons_of_ne_of_not_mem other.symm string.plain
        exact Nat.le_of_succ_le_succ (long (value :: text) ⟨plain, holds_cons.mpr ⟨here, string.held⟩⟩)

/-- The cells after a list was written. -/
def write (read : Nat → Option V) (address : Nat) (data : List V) (cell : Nat) : Option V :=
  if address ≤ cell ∧ cell < address + data.length then data[cell - address]? else read cell

theorem holds_write (read : Nat → Option V) (address : Nat) (data : List V) :
    Holds (write read address data) address data := by
  intro offset small
  rw [write, if_pos ⟨by omega, by omega⟩, Nat.add_sub_cancel_left]

theorem write_cons (read : Nat → Option V) (address : Nat) (value : V) (rest : List V) :
    write (update read address (some value)) (address + 1) rest =
      write read address (value :: rest) := by
  funext cell
  unfold write
  by_cases here : cell = address
  · subst here
    simp
  · by_cases inside : address + 1 ≤ cell ∧ cell < address + 1 + rest.length
    · rw [if_pos inside, if_pos ⟨by omega, by simp only [length_cons]; omega⟩,
        show cell - address = cell - (address + 1) + 1 by omega, List.getElem?_cons_succ]
    · rw [if_neg inside, if_neg (by simp only [length_cons]; omega), update_of_ne here]

/-- Two writes side by side are one write. -/
theorem write_append (read : Nat → Option V) (address : Nat) (front back : List V) :
    write (write read address front) (address + front.length) back =
      write read address (front ++ back) := by
  funext cell
  unfold write
  rw [length_append]
  by_cases behind : address + front.length ≤ cell ∧ cell < address + front.length + back.length
  · rw [if_pos behind, if_pos ⟨by omega, by omega⟩, List.getElem?_append_right (by omega),
      Nat.sub_add_eq]
  · rw [if_neg behind]
    by_cases inside : address ≤ cell ∧ cell < address + front.length
    · rw [if_pos inside, if_pos ⟨by omega, by omega⟩, List.getElem?_append_left (by omega)]
    · rw [if_neg inside, if_neg (by omega)]

theorem write_nil (read : Nat → Option V) (address : Nat) : write read address [] = read := by
  funext cell
  rw [write, if_neg (by simp only [length_nil]; omega)]

end Strings

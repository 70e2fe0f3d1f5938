import Mathlib.Data.Fintype.Card
import Mathlib.Algebra.BigOperators.Fin

namespace Tally
open Function Finset

variable {T G : Type} [Fintype T] [DecidableEq G]

/-- The members of a group that are counted -/
def members (group : T → G) (counted : T → Bool) (g : G) : Finset T :=
  Finset.univ.filter fun t => group t = g ∧ counted t = true

theorem mem_members {group : T → G} {counted : T → Bool} :
    t ∈ members group counted g ↔ group t = g ∧ counted t = true := by
  simp [members]

/-- The counters of some groups of threads. A thread changes the counter of its group by a read and a write, and
holds the value in between. -/
structure Counts (group : T → G) (value : G → Int) (counted : T → Bool) (register : T → Option Int) : Prop where
  total : ∀ g, value g = (members group counted g).card
  fresh : ∀ t r, register t = some r → r = value (group t)
  single : ∀ t u, register t ≠ none → register u ≠ none → group t = group u → t = u

variable {group : T → G} {value : G → Int} {counted : T → Bool} {register : T → Option Int} {t : T}

/-- A counter of 0 says that no thread of the group is counted. -/
theorem Counts.none_of_nonpos (counts : Counts group value counted register) (zero : value g ≤ 0)
    (here : group u = g) : counted u = false := by
  by_contra inside
  have mem : u ∈ members group counted g := mem_members.mpr ⟨here, by simpa using inside⟩
  have some := card_pos.mpr ⟨u, mem⟩
  have total := counts.total g
  omega

theorem Counts.pos (counts : Counts group value counted register) (inside : counted t = true) :
    0 < value (group t) := by
  by_contra zero
  have out := counts.none_of_nonpos (not_lt.mp zero) rfl
  rw [inside] at out
  cases out

/-- The threads between the two calls of a semaphore that starts at 1 -/
def Excludes (free : Nat) (inside : T → Bool) : Prop :=
  free + (members (fun _ => ()) inside ()).card = 1

theorem Excludes.unique {inside : T → Bool} (excludes : Excludes free inside) (first : inside t = true)
    (second : inside u = true) : t = u := by
  have few : (members (fun _ => ()) inside ()).card ≤ 1 := by
    unfold Excludes at excludes
    omega
  exact card_le_one.mp few t (mem_members.mpr ⟨rfl, first⟩) u (mem_members.mpr ⟨rfl, second⟩)

variable [DecidableEq T]

/-- One more thread is counted. -/
theorem card_members_add {group : T → G} {counted : T → Bool} {t : T} (out : counted t = false) (g : G) :
    (members group (update counted t true) g).card =
      (members group counted g).card + if group t = g then 1 else 0 := by
  by_cases here : group t = g
  · have grown : members group (update counted t true) g = insert t (members group counted g) := by
      ext u
      by_cases same : u = t
      · subst same
        simp [mem_members, here]
      · simp [mem_members, same]
    rw [grown, if_pos here]
    simp [mem_members, out]
  · have same : members group (update counted t true) g = members group counted g := by
      ext u
      by_cases same : u = t
      · subst same
        simp [mem_members, here]
      · simp [mem_members, same]
    rw [same, if_neg here, Nat.add_zero]

/-- One thread less is counted. -/
theorem card_members_remove {group : T → G} {counted : T → Bool} {t : T} (inside : counted t = true) (g : G) :
    (members group (update counted t false) g).card + (if group t = g then 1 else 0) =
      (members group counted g).card := by
  have out : update counted t false t = false := update_self ..
  have back := @card_members_add _ _ _ _ _ group _ _ out g
  rw [update_idem, ← inside, update_eq_self] at back
  exact back.symm

section

variable (counts : Counts group value counted register)
include counts

theorem Counts.read (alone : ∀ u, register u ≠ none → group u = group t → u = t) :
    Counts group value counted (update register t (some (value (group t)))) where
  total := counts.total
  fresh := by
    intro u r held
    by_cases same : u = t
    · subst same
      rw [update_self] at held
      exact (Option.some.inj held).symm
    · rw [update_of_ne same] at held
      exact counts.fresh u r held
  single := by
    intro u v first second together
    by_cases one : u = t
    · by_cases other : v = t
      · rw [one, other]
      · rw [update_of_ne other] at second
        exact one.trans (alone v second (together.symm.trans (congrArg group one))).symm
    · rw [update_of_ne one] at first
      by_cases other : v = t
      · exact (alone u first (together.trans (congrArg group other))).trans other.symm
      · rw [update_of_ne other] at second
        exact counts.single u v first second together

/-- The write of a thread that enters or leaves -/
theorem Counts.write (held : register t = some r)
    (changes : ∀ g, ((members group (update counted t now) g).card : Int) =
      (members group counted g).card + if group t = g then step else 0) :
    Counts group (update value (group t) (r + step)) (update counted t now)
      (update register t none) where
  total := by
    intro g
    rw [changes, ← counts.total]
    by_cases here : group t = g
    · subst here
      rw [update_self, if_pos rfl, counts.fresh t r held]
    · rw [update_of_ne (Ne.symm here), if_neg here, add_zero]
  fresh := by
    intro u r' reads
    have other : u ≠ t := by
      rintro rfl
      rw [update_self] at reads
      cases reads
    rw [update_of_ne other] at reads
    have apart : group u ≠ group t := fun together =>
      other (counts.single u t (by rw [reads]; nofun) (by rw [held]; nofun) together)
    rw [update_of_ne apart]
    exact counts.fresh u r' reads
  single := by
    intro u v first second
    have one : u ≠ t := by
      rintro rfl
      exact first (update_self ..)
    have other : v ≠ t := by
      rintro rfl
      exact second (update_self ..)
    rw [update_of_ne one] at first
    rw [update_of_ne other] at second
    exact counts.single u v first second

theorem Counts.up (held : register t = some r) (out : counted t = false) :
    Counts group (update value (group t) (r + 1)) (update counted t true)
      (update register t none) := by
  refine counts.write held fun g => ?_
  rw [card_members_add out]
  push_cast
  rfl

theorem Counts.down {r : Int} (held : register t = some r) (inside : counted t = true) :
    Counts group (update value (group t) (r - 1)) (update counted t false)
      (update register t none) := by
  have changes (g : G) : ((members group (update counted t false) g).card : Int) =
      (members group counted g).card + if group t = g then -1 else 0 := by
    have removed := @card_members_remove _ _ _ _ _ group _ _ inside g
    split_ifs at removed ⊢ <;> omega
  exact counts.write held changes

end

theorem Excludes.enter {inside : T → Bool} (excludes : Excludes free inside) (vacant : 0 < free)
    (out : inside t = false) : Excludes (free - 1) (update inside t true) := by
  unfold Excludes at excludes ⊢
  rw [card_members_add out, if_pos rfl]
  omega

theorem Excludes.leave {free : Nat} {inside : T → Bool} (excludes : Excludes free inside)
    (within : inside t = true) : Excludes (free + 1) (update inside t false) := by
  have removed := @card_members_remove _ _ _ _ _ (fun _ => ()) _ _ within ()
  rw [if_pos rfl] at removed
  unfold Excludes at excludes ⊢
  omega

/-- What one thread can do to the counter `g`: nothing, a read, or the write after one -/
inductive Change (value : G → Int) (g : G) (counted : Bool) (register : Option Int) (reads : Prop) :
    Bool → Option Int → (G → Int) → Prop where
  | same : Change value g counted register reads counted register value
  | read : reads → Change value g counted register reads counted (some (value g)) value
  | up : register = some r → counted = false →
      Change value g counted register reads true none (update value g (r + 1))
  | down : register = some r → counted = true →
      Change value g counted register reads false none (update value g (r - 1))

/-- The counters stay right if no two threads of a group update together. -/
theorem Counts.change (counts : Counts group value counted register) {reads : Prop}
    (change : Change value (group t) (counted t) (register t) reads now holds after)
    (alone : reads → ∀ u, register u ≠ none → group u = group t → u = t) :
    Counts group after (update counted t now) (update register t holds) := by
  cases change with
  | same =>
    rw [update_eq_self, update_eq_self]
    exact counts
  | read reading =>
    rw [update_eq_self]
    exact counts.read (alone reading)
  | up held out => exact counts.up held out
  | down held inside => exact counts.down held inside

/-- What one thread can do to the semaphore -/
inductive Passage (free : Nat) (inside : Bool) : Bool → Nat → Prop where
  | same : Passage free inside inside free
  | enter : 0 < free → inside = false → Passage free inside true (free - 1)
  | leave : inside = true → Passage free inside false (free + 1)

theorem Excludes.passage {inside : T → Bool} (excludes : Excludes free inside)
    (passage : Passage free (inside t) now after) : Excludes after (update inside t now) := by
  cases passage with
  | same =>
    rw [update_eq_self]
    exact excludes
  | enter vacant out => exact excludes.enter vacant out
  | leave within => exact excludes.leave within

end Tally
